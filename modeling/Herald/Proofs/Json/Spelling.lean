import Herald.Json.Scan
import Herald.Proofs.Json.Numeral

/-!
# How a JSON text is spelled

The grammar of texts, as a relation between bytes and the shape that they spell.

* `AreBlank`: the bytes that may stand between two tokens;
* `SpellPieces`, `SpellNumeral`: quoted texts and numerals;
* `Spells`, `SpellItems`, `SpellMembers`: values, the items of a list, the members of an object;
* `SpellsPadded`: a value with blanks around it, as a whole text is.

A shape has many spellings: they differ in the blanks between the tokens, in the case of hexadecimal
digits and of the mark of an exponent, and in the short escapes.
-/

namespace Herald.Json

/-- Blanks, as many as one likes. -/
def AreBlank (bs : List UInt8) : Prop := ∀ b ∈ bs, Scan.isSpace b = true

instance (bs : List UInt8) : Decidable (AreBlank bs) :=
  List.decidableBAll (fun b => Scan.isSpace b = true) bs

/-! ### Quoted texts -/

/-- What stands between two quotes. -/
inductive SpellPieces : List UInt8 → List Piece → Prop
  | nil : SpellPieces [] []
  /-- A byte that stands for itself: no control character, no quote, no backslash. -/
  | plain {b : UInt8} {bs : List UInt8} {ps : List Piece} (graphic : 0x20 ≤ b) (quote : b ≠ 0x22)
      (backslash : b ≠ 0x5C) (rest : SpellPieces bs ps) : SpellPieces (b :: bs) (.byte b :: ps)
  /-- A short escape. -/
  | short {e c : UInt8} {bs : List UInt8} {ps : List Piece}
      (escape : QuotedPart.shortEscape? e = some c) (rest : SpellPieces bs ps) :
      SpellPieces (0x5C :: e :: bs) (.byte c :: ps)
  /-- A unit by its four digits. -/
  | unit {h₁ h₂ h₃ h₄ : UInt8} {u : Nat} {bs : List UInt8} {ps : List Piece}
      (digits : QuotedPart.unit? [h₄, h₃, h₂, h₁] = some u) (rest : SpellPieces bs ps) :
      SpellPieces (0x5C :: 0x75 :: h₁ :: h₂ :: h₃ :: h₄ :: bs) (.unit u :: ps)

/-- A quoted text with its quotes. -/
inductive SpellsQuoted : List UInt8 → Quoted → Prop
  | quotes {bs : List UInt8} {ps : List Piece} (pieces : SpellPieces bs ps) :
      SpellsQuoted (0x22 :: (bs ++ [0x22])) ⟨ps, none⟩

/-! ### Numerals -/

/-- Bytes that spell digits, one each. -/
def SpellDigits (bs : List UInt8) (ds : List Nat) : Prop :=
  bs.map NumeralDraft.digit? = ds.map some

/-- The digits before the point: a zero alone, or some that do not begin with it. -/
inductive SpellsWhole : List UInt8 → List Nat → Prop
  | zero : SpellsWhole [0x30] [0]
  | digits {bs : List UInt8} {d : Nat} {ds : List Nat} (spelled : SpellDigits bs (d :: ds))
      (first : d ≠ 0) : SpellsWhole bs (d :: ds)

/-- The point and the digits after it, or nothing. -/
inductive SpellsFraction : List UInt8 → List Nat → Prop
  | absent : SpellsFraction [] []
  | digits {bs : List UInt8} {d : Nat} {ds : List Nat} (spelled : SpellDigits bs (d :: ds)) :
      SpellsFraction (0x2E :: bs) (d :: ds)

/-- The sign of an exponent, or none; whether it is a minus. -/
inductive SpellsSign : List UInt8 → Bool → Prop
  | absent : SpellsSign [] false
  | plus : SpellsSign [0x2B] false
  | minus : SpellsSign [0x2D] true

/-- The mark of the exponent, its sign and its digits, or nothing at all. -/
inductive SpellsExponent : List UInt8 → Option Int → Prop
  | absent : SpellsExponent [] none
  | marked {mark : UInt8} {sign bs : List UInt8} {below : Bool} {d : Nat} {ds : List Nat}
      (mark_eq : mark = 0x65 ∨ mark = 0x45) (signed : SpellsSign sign below)
      (spelled : SpellDigits bs (d :: ds)) :
      SpellsExponent (mark :: (sign ++ bs))
        (some (if below then -(Numeral.append 0 (d :: ds) : Int) else Numeral.append 0 (d :: ds)))

/-- A numeral. -/
inductive SpellsNumeral : List UInt8 → Numeral → Prop
  | positive {ws fs es : List UInt8} {whole fraction : List Nat} {exponent : Option Int}
      (hw : SpellsWhole ws whole) (hf : SpellsFraction fs fraction)
      (he : SpellsExponent es exponent) :
      SpellsNumeral (ws ++ (fs ++ es)) ⟨false, whole, fraction, exponent⟩
  | negative {ws fs es : List UInt8} {whole fraction : List Nat} {exponent : Option Int}
      (hw : SpellsWhole ws whole) (hf : SpellsFraction fs fraction)
      (he : SpellsExponent es exponent) :
      SpellsNumeral (0x2D :: (ws ++ (fs ++ es))) ⟨true, whole, fraction, exponent⟩

/-! ### Values -/

mutual

/-- A value, without blanks around it. -/
inductive Spells : List UInt8 → Shape → Prop
  | null : Spells [0x6E, 0x75, 0x6C, 0x6C] .null
  | true : Spells [0x74, 0x72, 0x75, 0x65] (.bool true)
  | false : Spells [0x66, 0x61, 0x6C, 0x73, 0x65] (.bool false)
  | number {bs : List UInt8} {n : Numeral} (numeral : SpellsNumeral bs n) : Spells bs (.number n)
  | string {bs : List UInt8} {q : Quoted} (quoted : SpellsQuoted bs q) : Spells bs (.string q)
  | emptyArray {w : List UInt8} (blank : AreBlank w) :
      Spells (0x5B :: (w ++ [0x5D])) (.array [] none)
  | array {bs : List UInt8} {ss : List Shape} (items : SpellItems bs ss) :
      Spells (0x5B :: (bs ++ [0x5D])) (.array ss none)
  | emptyObject {w : List UInt8} (blank : AreBlank w) :
      Spells (0x7B :: (w ++ [0x7D])) (.object [] none)
  | object {bs : List UInt8} {ms : List (Quoted × Shape)} (members : SpellMembers bs ms) :
      Spells (0x7B :: (bs ++ [0x7D])) (.object ms none)

/-- A value with blanks around it. This is also what a whole text is. -/
inductive SpellsPadded : List UInt8 → Shape → Prop
  | blanks {w bs w' : List UInt8} {s : Shape} (before : AreBlank w) (value : Spells bs s)
      (after : AreBlank w') : SpellsPadded (w ++ (bs ++ w')) s

/-- A key, a colon and a value. -/
inductive SpellsMember : List UInt8 → Quoted × Shape → Prop
  | member {w ks w' bs : List UInt8} {k : Quoted} {s : Shape} (before : AreBlank w)
      (key : SpellsQuoted ks k) (after : AreBlank w') (value : SpellsPadded bs s) :
      SpellsMember (w ++ (ks ++ (w' ++ 0x3A :: bs))) (k, s)

/-- The items of a list, parted by commas, at least one. -/
inductive SpellItems : List UInt8 → List Shape → Prop
  | last {bs : List UInt8} {s : Shape} (item : SpellsPadded bs s) : SpellItems bs [s]
  | cons {bs rest : List UInt8} {s : Shape} {ss : List Shape} (item : SpellsPadded bs s)
      (items : SpellItems rest ss) : SpellItems (bs ++ 0x2C :: rest) (s :: ss)

/-- The members of an object, parted by commas, at least one. -/
inductive SpellMembers : List UInt8 → List (Quoted × Shape) → Prop
  | last {bs : List UInt8} {m : Quoted × Shape} (member : SpellsMember bs m) :
      SpellMembers bs [m]
  | cons {bs rest : List UInt8} {m : Quoted × Shape} {ms : List (Quoted × Shape)}
      (member : SpellsMember bs m) (members : SpellMembers rest ms) :
      SpellMembers (bs ++ 0x2C :: rest) (m :: ms)

end

end Herald.Json
