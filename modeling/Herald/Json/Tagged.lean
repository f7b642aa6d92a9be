import Herald.Json.Reading

/-!
# Tagged forms

A tagged form names its kind: an object does under the key `type`, a list by its first item. What
belongs to the kind may stand anywhere in the object, also before the kind is known, so all of it is
kept until the text of the form has ended.

* `Kept`, `Content`, `Tagged`: what is kept;
* `Shape.tagged`: the tagged form of a shape.
-/

namespace Herald.Json

/-- A shape that is kept, with its value. -/
structure Kept where
  shape : Shape
  value : Value
  deriving Repr

/-- What belongs to the kind of a tagged form. -/
inductive Content
  /-- The members besides the kind, in the order of the text and with repeated keys. -/
  | members (ms : List (String × Kept))
  /-- The items after the kind. -/
  | items (is : List Kept)
  deriving Repr

/-- A tagged form. -/
structure Tagged where
  kind : String
  content : Content
  deriving Repr

namespace Shape

/-- Keep a shape. -/
def keep (depth : Nat) (s : Shape) : Except Fault Kept := (s.value depth).map (⟨s, ·⟩)

/-- Keep shapes in order. -/
def keepAll (depth : Nat) : List Shape → Except Fault (List Kept)
  | [] => .ok []
  | s :: ss => do
    let k ← s.keep depth
    let ks ← keepAll depth ss
    pure (k :: ks)

/-- The kind a shape names; one that is not known is refused where it stands. -/
def kind (known : String → Bool) (s : Shape) : Except Fault String := do
  let k ← s.text
  if known k then pure k else throw .misfit

/-- The members of a tagged form: the kind, if it is found, and the others. A second kind is
refused before it is looked at. -/
def taggedMembers (known : String → Bool) (depth : Nat) (found : Option String) :
    List (Quoted × Shape) → Except Fault (Option String × List (String × Kept))
  | [] => .ok (found, [])
  | (q, s) :: ms => do
    let key ← q.decode
    if key = "type" then
      if found.isSome then throw .misfit
      let k ← s.kind known
      taggedMembers known depth (some k) ms
    else
      let v ← s.keep depth
      let (found, rest) ← taggedMembers known depth found ms
      pure (found, (key, v) :: rest)

/-- The tagged form of a shape, of one of the known kinds. -/
def tagged (known : String → Bool) (depth : Nat) : Shape → Except Fault Tagged
  | .object members stop => do
    let depth ← enter depth
    let (found, ms) ← taggedMembers known depth none members
    closed stop
    match found with
    | some k => pure ⟨k, .members ms⟩
    | none => throw .misfit
  | .array items stop => do
    let depth ← enter depth
    match ← (Items.mk items stop).next? with
    | some (s, rest) =>
      let k ← s.kind known
      let is ← keepAll depth rest.items
      closed rest.stop
      pure ⟨k, .items is⟩
    | none => throw .misfit
  | s => .error s.unfit

end Shape

end Herald.Json
