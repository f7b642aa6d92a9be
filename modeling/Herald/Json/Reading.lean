import Herald.Json.Members
import Herald.Json.Scan
import Herald.Notice

/-!
# Reading values off a shape

* `Shape.value`: the value of a shape that is kept;
* `Shape.skip`: what is asked of a shape that is passed over, the grammar and nothing else;
* `Shape.unfit`: the fault of a shape of another form than the one wanted;
* `Shape.text`, `Shape.textOrNull`: the text of a string;
* `Items`: the items of a list, taken one by one;
* `Reading`: a reading that may be refused and gives notices on the way;
* `Text.value`, `Text.read`: reading a whole text.

A reader is told how many more containers may be open where it stands.
-/

namespace Herald.Json

/-- How many containers may be open at once. -/
def nestingLimit : Nat := 127

/-- Open one more container. -/
def enter : Nat → Except Fault Nat
  | 0 => .error .malformed
  | depth + 1 => .ok depth

/-- Nothing more is to come, unless the text has broken off. -/
def closed : Option Fault → Except Fault Unit
  | none => .ok ()
  | some f => .error f

namespace Shape

mutual

/-- The value of a shape. -/
def value (depth : Nat) : Shape → Except Fault Value
  | .null => .ok .null
  | .bool b => .ok (.bool b)
  | .number n =>
    match n.toNumber? with
    | some n => .ok (.number n)
    | none => .error .malformed
  | .string q => q.decode.map .string
  | .array items stop => do
    let depth ← enter depth
    let vs ← values depth items
    closed stop
    pure (.array vs)
  | .object members stop => do
    let depth ← enter depth
    let ms ← memberValues depth members
    closed stop
    pure (.object (Members.ofList ms))
  | .broken f => .error f
  | .cutNumeral => .error .truncated

/-- The values of the items of a list, in order. -/
def values (depth : Nat) : List Shape → Except Fault (List Value)
  | [] => .ok []
  | s :: ss => do
    let v ← value depth s
    let vs ← values depth ss
    pure (v :: vs)

/-- The keys and values of an object, in the order of the text. -/
def memberValues (depth : Nat) : List (Quoted × Shape) → Except Fault (List (String × Value))
  | [] => .ok []
  | (k, s) :: ms => do
    let k ← k.decode
    let v ← value depth s
    let rest ← memberValues depth ms
    pure ((k, v) :: rest)

end

mutual

/-- Pass over a shape. -/
def skip : Shape → Except Fault Unit
  | .null | .bool _ | .number _ => .ok ()
  | .string q => closed q.stop
  | .array items stop => do
    skipItems items
    closed stop
  | .object members stop => do
    skipMembers members
    closed stop
  | .broken f => .error f
  | .cutNumeral => .error .malformed

/-- Pass over the items of a list. -/
def skipItems : List Shape → Except Fault Unit
  | [] => .ok ()
  | s :: ss => do
    skip s
    skipItems ss

/-- Pass over the members of an object. -/
def skipMembers : List (Quoted × Shape) → Except Fault Unit
  | [] => .ok ()
  | (k, s) :: ms => do
    closed k.stop
    skip s
    skipMembers ms

end

/-- The fault of a shape that is not of the form wanted. A numeral and a quoted text are read to
their end, so their own faults come first; a container is refused where it opens. -/
def unfit : Shape → Fault
  | .number n => if n.toNumber?.isSome then .misfit else .malformed
  | .string q =>
    match q.decode with
    | .ok _ => .misfit
    | .error f => f
  | .broken f => f
  | .cutNumeral => .truncated
  | .null | .bool _ | .array .. | .object .. => .misfit

/-- The text of a string. -/
def text : Shape → Except Fault String
  | .string q => q.decode
  | s => .error s.unfit

/-- The text of a string, the empty text for null. -/
def textOrNull : Shape → Except Fault String
  | .null => .ok ""
  | s => s.text

end Shape

/-- The items of a list that are still to come. -/
structure Items where
  items : List Shape
  stop : Option Fault

namespace Items

/-- The next item and the ones after it, if there is one. -/
def next? (i : Items) : Except Fault (Option (Shape × Items)) :=
  match i.items with
  | s :: ss => .ok (some (s, ⟨ss, i.stop⟩))
  | [] => do
    closed i.stop
    pure none

/-- No further item is wanted: one that comes all the same is no part of the form. -/
def done (i : Items) : Except Fault Unit :=
  match i.items with
  | _ :: _ => .error .malformed
  | [] => closed i.stop

end Items

/-- A reading: notices are given as the text is read, and stay when it is refused further on. -/
abbrev Reading := ExceptT Fault Noted

namespace Reading

variable {α : Type}

/-- A step that gives no notice. -/
def ofExcept (x : Except Fault α) : Reading α := ExceptT.mk (pure x)

/-- A step that cannot be refused. -/
def ofNoted (x : Noted α) : Reading α := ExceptT.lift x

/-- A step that refuses what is of no fitting form. -/
def require (x : Noted (Option α)) : Reading α := do
  match ← ofNoted x with
  | some a => pure a
  | none => throw .misfit

end Reading

namespace Text

/-- The fault of a text with something after it; it is met last. -/
def ended (t : Text) : Except Fault Unit := if t.trailing then .error .malformed else .ok ()

/-- The value of a whole text. -/
def value (t : Text) : Except Fault Value := do
  let v ← t.root.value nestingLimit
  t.ended
  pure v

/-- Read a whole text. -/
def read {α : Type} (t : Text) (reader : Nat → Shape → Reading α) : Reading α := do
  let a ← reader nestingLimit t.root
  Reading.ofExcept t.ended
  pure a

end Text

/-- The value that the bytes of a text spell. -/
def Value.ofBytes (bs : List UInt8) : Except Fault Value := (Text.ofBytes bs).value

end Herald.Json
