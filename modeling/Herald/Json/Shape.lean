import Herald.Json.Number
import Herald.Json.Quoted

/-!
# The shape of a text

`Shape` is what the grammar alone sees in a text, up to the place where the text breaks off.

Numerals and quoted texts are kept as they are spelled, members in the order of the text and with
repeated keys. A text that breaks off has one place where it does; every container open there ends
with the same fault. So whoever reads a shape in the order of the text meets the faults of the text
in order, and may judge numerals, quoted texts, keys and nesting as it goes.
-/

namespace Herald.Json

/-- What the grammar sees in a text. -/
inductive Shape
  | null
  | bool (b : Bool)
  | number (n : Numeral)
  | string (q : Quoted)
  /-- The items up to the end of the list, or up to the place where it breaks off. -/
  | array (items : List Shape) (stop : Option Fault)
  /-- The members up to the end of the object, or up to the place where it breaks off. -/
  | object (members : List (Quoted × Shape)) (stop : Option Fault)
  /-- No value, though one is due here. -/
  | broken (f : Fault)
  /-- The text ends inside a numeral. -/
  | cutNumeral
  deriving Repr, Inhabited

/-- A text: its shape, and whether something follows it. -/
structure Text where
  root : Shape
  trailing : Bool
  deriving Repr

end Herald.Json
