/-!
# Percent escapes

* `escape`: a text in which the characters of a class are spelled byte by byte, as `%` and two
  hexadecimal digits;
* `unescape`: the bytes that a text with escapes stands for;
* `inFragment`, `inQuery`, `inSegment`, `inCredentials`: the characters that the parts of an address
  do not hold as they are.
-/

namespace Herald.Address

/-- The upper-case hexadecimal digit. -/
def hexDigit (n : Nat) : Char := (Nat.digitChar n).toUpper

/-- The value of a hexadecimal digit. -/
def hexValue? (c : Char) : Option Nat :=
  if '0' ≤ c ∧ c ≤ '9' then some (c.toNat - '0'.toNat)
  else if 'a' ≤ c ∧ c ≤ 'f' then some (c.toNat - 'a'.toNat + 10)
  else if 'A' ≤ c ∧ c ≤ 'F' then some (c.toNat - 'A'.toNat + 10)
  else none

/-- The escape of a byte. -/
def escapeByte (b : UInt8) : List Char := ['%', hexDigit (b.toNat / 16), hexDigit (b.toNat % 16)]

/-- The escape of a character: its bytes in UTF-8, one after another. -/
def escapeChar (c : Char) : List Char := (String.utf8EncodeChar c).flatMap escapeByte

/-- A text with the characters of a class escaped. A `%` that stands in it is kept. -/
def escape (inClass : Char → Bool) (cs : List Char) : List Char :=
  cs.flatMap fun c => if inClass c then escapeChar c else [c]

/-- The bytes that a text with escapes stands for. A `%` that starts no escape stands for itself. -/
def unescape : List Char → List UInt8
  | [] => []
  | '%' :: h :: l :: cs =>
    match hexValue? h, hexValue? l with
    | some x, some y => (16 * x + y).toUInt8 :: unescape cs
    | _, _ => String.utf8EncodeChar '%' ++ unescape (h :: l :: cs)
  | c :: cs => String.utf8EncodeChar c ++ unescape cs

/-- The text that a text with escapes stands for, if its bytes are one. -/
def unescape? (cs : List Char) : Option String := String.fromUTF8? ⟨(unescape cs).toArray⟩

/-- Control characters and everything beyond ASCII: escaped in every part. -/
def isControl (c : Char) : Bool := c.toNat < 0x20 || 0x7F ≤ c.toNat

/-- The characters that a fragment escapes. -/
def inFragment (c : Char) : Bool := isControl c || [' ', '"', '<', '>', '\x60'].contains c

/-- The characters that a query escapes; the apostrophe is one of them under a special scheme. -/
def inQuery (special : Bool) (c : Char) : Bool :=
  isControl c || [' ', '"', '#', '<', '>'].contains c || (special && c == '\'')

/-- The characters that a segment of a path escapes. -/
def inSegment (c : Char) : Bool := inFragment c || ['#', '?', '\x7b', '\x7d'].contains c

/-- The characters that a user name and a password escape. -/
def inCredentials (c : Char) : Bool :=
  inSegment c || ['/', ':', ';', '=', '@', '[', '\\', ']', '^', '|'].contains c

theorem escape_append (p : Char → Bool) (xs ys : List Char) :
    escape p (xs ++ ys) = escape p xs ++ escape p ys := by simp [escape]

example : escape inSegment "a ü%20?".toList = "a%20%C3%BC%20%3F".toList := by decide +kernel
example : unescape? "a%2e%C3%BC%zz".toList = some "a.ü%zz" := by decide +kernel
example : unescape? "%FF".toList = none := by decide +kernel

end Herald.Address
