import Herald.Json.Record
import Herald.Json.Tolerant
import Herald.RichText.Reading

/-!
# Fields

* `FieldKind`, `Field`: a typed field of a document;
* `Field.ofValue?`: the field of a value, as an entry of a list;
* `Field.read`: the field that a shape stands for.
-/

namespace Herald.Document

open Json RichText

/-- What a field holds. -/
inductive FieldKind
  | text
  | richText
  | number
  | image
  | date
  | file
  /-- A code that stands for nothing known. -/
  | unknown (code : Nat)
  /-- No code at all. -/
  | missing
  deriving DecidableEq, Repr

namespace FieldKind

/-- The kind that a code stands for. -/
def ofCode : Nat → FieldKind
  | 1 => .text
  | 2 => .richText
  | 3 => .number
  | 4 => .image
  | 5 => .date
  | 6 => .file
  | n => .unknown n

/-- The kind that a value names: an integer from zero up is a code. -/
def ofValue (v : Value) : FieldKind :=
  match v.natural? with
  | some n => ofCode n
  | none => .missing

end FieldKind

/-- A typed field. Rich text has `nodes`, every other kind a `value`. -/
structure Field where
  kind : FieldKind
  name : String
  value : Value
  nodes : Option (List Node)
  deriving Repr

namespace Field

/-- A field of which nothing is said. -/
def blank : Field := ⟨.missing, "", .null, none⟩

/-- The keys of a field. -/
def keys : List String := ["type", "name", "value", "structuredValue"]

/-- Put in the value of a key. Only a name that is neither a text nor null does not fit. -/
def put (key : String) (v : Value) (f : Field) : Noted (Option Field) :=
  match key with
  | "type" => pure (some { f with kind := .ofValue v })
  | "name" => pure ((orDefault? "" Value.text? v).map fun s => { f with name := s })
  | "value" => pure (some { f with value := v })
  | "structuredValue" => do
    let nodes ← Node.nodes? v
    pure (some { f with nodes := nodes })
  | _ => pure (some f)

/-- The field of a value. -/
def ofValue? (v : Value) : Noted (Option Field) := v.record? keys put blank

/-- Put in the shape of a key. A name is refused at once where it does not fit. -/
def putShape (depth : Nat) (key : String) (s : Shape) (f : Field) : Reading Field := do
  let v ← Reading.ofExcept (if key = "name" then s.textOrNull.map .string else s.value depth)
  Reading.require (put key v f)

/-- The field that a shape stands for. -/
def read (depth : Nat) (s : Shape) : Reading Field := s.record keys putShape blank depth

end Field

end Herald.Document
