/-!
# Blank characters

* `isBlank`: the characters with the Unicode property `White_Space`;
* `dropBlanks`, `trim`: a text without the blanks at its start, or at both ends.
-/

namespace Herald.Text

/-- The Unicode property `White_Space`: 25 characters. -/
def isBlank (c : Char) : Bool :=
  let n := c.toNat
  (0x09 ≤ n && n ≤ 0x0D) || n == 0x20 || n == 0x85 || n == 0xA0 || n == 0x1680 ||
    (0x2000 ≤ n && n ≤ 0x200A) || n == 0x2028 || n == 0x2029 || n == 0x202F ||
    n == 0x205F || n == 0x3000

/-- The text from its first character that is not blank. -/
def dropBlanks (s : List Char) : List Char := s.dropWhile isBlank

/-- The text up to its last character that is not blank. -/
def dropBlanksEnd (s : List Char) : List Char := (dropBlanks s.reverse).reverse

/-- The text without the blanks at both ends. -/
def trim (s : List Char) : List Char := dropBlanksEnd (dropBlanks s)

@[simp] theorem dropBlanks_nil : dropBlanks [] = [] := rfl

theorem dropBlanks_cons_of_blank {c : Char} (h : isBlank c = true) (s : List Char) :
    dropBlanks (c :: s) = dropBlanks s := by simp [dropBlanks, List.dropWhile, h]

theorem dropBlanks_cons_of_not_blank {c : Char} (h : isBlank c = false) (s : List Char) :
    dropBlanks (c :: s) = c :: s := by simp [dropBlanks, List.dropWhile, h]

end Herald.Text
