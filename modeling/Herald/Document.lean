import Herald.Document.Field

/-!
# Documents

* `Document`: a published document;
* `Document.read`: the document that a shape stands for;
* `Event.read`: the document that is announced by an event.

Everything about a document is optional. A name and a slug are texts or null; the times are kept as
they come; the fields that cannot be read are skipped.
-/

namespace Herald

open Json

/-- A published document. -/
structure Document where
  name : String
  slug : String
  createdAt : Value
  updatedAt : Value
  fields : List Document.Field
  deriving Repr

namespace Document

/-- A document of which nothing is said. -/
def blank : Document := ⟨"", "", .null, .null, []⟩

/-- The keys of a document. -/
def keys : List String := ["name", "slug", "createdAt", "updatedAt", "fields"]

/-- Put in the shape of a key. -/
def putShape (depth : Nat) (key : String) (s : Shape) (d : Document) : Reading Document :=
  match key with
  | "name" => do
    let name ← Reading.ofExcept s.textOrNull
    pure { d with name := name }
  | "slug" => do
    let slug ← Reading.ofExcept s.textOrNull
    pure { d with slug := slug }
  | "createdAt" => do
    let v ← Reading.ofExcept (s.value depth)
    pure { d with createdAt := v }
  | "updatedAt" => do
    let v ← Reading.ofExcept (s.value depth)
    pure { d with updatedAt := v }
  | "fields" => do
    let v ← Reading.ofExcept (s.value depth)
    let fields ← Reading.ofNoted (tolerantList Field.ofValue? v)
    pure { d with fields := fields }
  | _ => pure d

/-- The document that a shape stands for. -/
def read (depth : Nat) (s : Shape) : Reading Document := s.record keys putShape blank depth

end Document

namespace Event

/-- Put in the document. -/
def putShape (depth : Nat) (_ : String) (s : Shape) (_ : Option Document) :
    Reading (Option Document) := do
  let d ← Document.read depth s
  pure (some d)

/-- The document that an event announces under its only key. An event without one does not fit. -/
def read (depth : Nat) (s : Shape) : Reading Document := do
  match ← s.record ["document"] putShape none depth with
  | some d => pure d
  | none => throw .misfit

/-- The document that the event of a whole text announces. -/
def ofBytes (bs : List UInt8) : Reading Document := (Text.ofBytes bs).read read

end Event

end Herald
