import Herald.Json.Value

/-!
# Values as plain text
-/

namespace Herald

open Json

mutual

/-- A value as plain text: a string as it is, the items of a list joined by commas, a placeholder for
an object, and the spelling of anything else. -/
def display : Value → String
  | .string s => s
  | .array items => displayItems items
  | .object _ => "[object Object]"
  | .null => "null"
  | .bool b => if b then "true" else "false"
  | .number n => n.text

/-- The items of a list as plain text, parted by commas. -/
def displayItems : List Value → String
  | [] => ""
  | [v] => display v
  | v :: vs => display v ++ "," ++ displayItems vs

end

end Herald
