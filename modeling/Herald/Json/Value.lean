import Herald.Json.Number
import Herald.Json.Quoted

/-!
# Values

* `Value`: a JSON value. The members of an object are listed by ascending key, each key once;
* `Value.text`: the compact spelling;
* `Value.text?`, `Value.bool?`, `Value.word32?`, `Value.natural?`: views of one kind.
-/

namespace Herald.Json

/-- A JSON value. -/
inductive Value
  | null
  | bool (b : Bool)
  | number (n : Number)
  | string (s : String)
  | array (items : List Value)
  | object (members : List (String × Value))
  deriving Repr, Inhabited

/-- The members of an object. -/
abbrev Members := List (String × Value)

namespace Value

mutual

/-- The compact spelling of a value: no blanks, members by ascending key. -/
def text : Value → String
  | .null => "null"
  | .bool b => if b then "true" else "false"
  | .number n => n.text
  | .string s => quote s
  | .array items => "[" ++ itemsText items ++ "]"
  | .object members => "\x7b" ++ membersText members ++ "\x7d"

/-- The items, parted by commas. -/
def itemsText : List Value → String
  | [] => ""
  | [v] => text v
  | v :: vs => text v ++ "," ++ itemsText vs

/-- The members, parted by commas. -/
def membersText : List (String × Value) → String
  | [] => ""
  | [(k, v)] => quote k ++ ":" ++ text v
  | (k, v) :: ms => quote k ++ ":" ++ text v ++ "," ++ membersText ms

end

/-- The text of a string. -/
def text? : Value → Option String
  | .string s => some s
  | _ => none

/-- The truth value. -/
def bool? : Value → Option Bool
  | .bool b => some b
  | _ => none

/-- The integer from zero up. -/
def natural? : Value → Option Nat
  | .number n => n.natural?
  | _ => none

/-- The integer from zero up that 32 bits hold. -/
def word32? (v : Value) : Option Nat := v.natural?.filter (· < Nat.pow 2 32)

example : text (.object [("a", .array [.null, .bool true]), ("b", .string "x")])
    = "\x7b\"a\":[null,true],\"b\":\"x\"\x7d" := by decide +kernel

end Value

end Herald.Json
