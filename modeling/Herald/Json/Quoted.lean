import Herald.Json.Fault

/-!
# Quoted texts

* `Piece`, `Quoted`: a quoted text as it is spelled, up to its closing quote or to the place where
  it breaks off;
* `Quoted.decode`: the text it stands for;
* `quote`: the spelling that is written.
-/

namespace Herald.Json

/-- One piece of a quoted text: a byte, spelled as such or by a short escape, or a unit of sixteen
bits spelled in hexadecimal. -/
inductive Piece
  | byte (b : UInt8)
  | unit (u : Nat)
  deriving DecidableEq, Repr

/-- A quoted text as far as it goes. `stop` is absent if a quote closes it. -/
structure Quoted where
  pieces : List Piece
  stop : Option Fault
  deriving DecidableEq, Repr

/-- The bytes of a code point in UTF-8. -/
def codePointBytes (n : Nat) : List UInt8 :=
  if n < 0x80 then [n.toUInt8]
  else if n < 0x800 then [(0xC0 + n / 0x40).toUInt8, (0x80 + n % 0x40).toUInt8]
  else if n < 0x10000 then
    [(0xE0 + n / 0x1000).toUInt8, (0x80 + n / 0x40 % 0x40).toUInt8, (0x80 + n % 0x40).toUInt8]
  else
    [(0xF0 + n / 0x40000).toUInt8, (0x80 + n / 0x1000 % 0x40).toUInt8,
      (0x80 + n / 0x40 % 0x40).toUInt8, (0x80 + n % 0x40).toUInt8]

namespace Quoted

/-- A unit that announces a second one. -/
def isHigh (u : Nat) : Bool := 0xD800 ≤ u && u ≤ 0xDBFF

/-- A unit that completes a pair. -/
def isLow (u : Nat) : Bool := 0xDC00 ≤ u && u ≤ 0xDFFF

/-- The bytes that pieces stand for. Units of a pair stand next to each other; a unit without its
partner is refused where it is met, and a text that breaks off after a high unit is refused for the
reason it breaks off. -/
def bytes (stop : Option Fault) : List Piece → Except Fault (List UInt8)
  | [] =>
    match stop with
    | some f => .error f
    | none => .ok []
  | .byte b :: ps => (bytes stop ps).map (b :: ·)
  | .unit u :: ps =>
    if isLow u then .error .malformed
    else if isHigh u then
      match ps with
      | .unit v :: ps =>
        if isLow v then
          let c := 0x10000 + (u - 0xD800) * 0x400 + (v - 0xDC00)
          (bytes stop ps).map (codePointBytes c ++ ·)
        else .error .malformed
      | .byte _ :: _ => .error .malformed
      | [] => .error (stop.getD .malformed)
    else (bytes stop ps).map (codePointBytes u ++ ·)

/-- The text that a quoted text stands for. Its bytes are judged once it is closed. -/
def decode (q : Quoted) : Except Fault String := do
  let bs ← bytes q.stop q.pieces
  match String.fromUTF8? ⟨bs.toArray⟩ with
  | some s => pure s
  | none => throw .malformed

end Quoted

/-- The lower-case hexadecimal digit. -/
def hexDigit (n : Nat) : Char := Nat.digitChar n

/-- A character inside quotes: quote and backslash are escaped, control characters by their short
escape if there is one, and nothing else. -/
def escapeChar (c : Char) : List Char :=
  if c = '"' then ['\\', '"']
  else if c = '\\' then ['\\', '\\']
  else if c = '\x08' then ['\\', 'b']
  else if c = '\t' then ['\\', 't']
  else if c = '\n' then ['\\', 'n']
  else if c = '\x0C' then ['\\', 'f']
  else if c = '\r' then ['\\', 'r']
  else if c.toNat < 0x20 then
    ['\\', 'u', '0', '0', hexDigit (c.toNat / 16), hexDigit (c.toNat % 16)]
  else [c]

/-- The spelling of a text between quotes. -/
def quote (s : String) : String :=
  String.ofList ('"' :: s.toList.flatMap escapeChar ++ ['"'])

example : quote "a\"b\n\x01é" = "\"a\\\"b\\n\\u0001é\"" := by decide +kernel

end Herald.Json
