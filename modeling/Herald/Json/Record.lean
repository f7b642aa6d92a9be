import Herald.Json.Reading

/-!
# Records

A record is an object with known keys, each of them once at most, or the list of their values in the
order of the keys, which may end early. Other members of the object are passed over.

* `Shape.record`: the record of a shape, read in the order of the text;
* `Value.record?`: the record of a value.

Both start from a record in which every key has its default, and put in what they find.
-/

namespace Herald.Json

variable {σ : Type}

namespace Shape

/-- Put in the members of an object. A key that stands a second time is refused before its value is
looked at. -/
def recordMembers (keys : List String) (put : Nat → String → Shape → σ → Reading σ) (depth : Nat)
    (seen : List String) (r : σ) : List (Quoted × Shape) → Reading σ
  | [] => pure r
  | (q, s) :: ms => do
    let key ← Reading.ofExcept q.decode
    if keys.contains key then
      if seen.contains key then throw .misfit
      let r ← put depth key s r
      recordMembers keys put depth (key :: seen) r ms
    else
      Reading.ofExcept s.skip
      recordMembers keys put depth seen r ms

/-- Put in the items of a list, as the values of the keys in order. -/
def recordItems (put : Nat → String → Shape → σ → Reading σ) (depth : Nat) (r : σ) :
    List String → Items → Reading σ
  | [], items => do
    Reading.ofExcept items.done
    pure r
  | key :: keys, items => do
    match ← Reading.ofExcept items.next? with
    | none => pure r
    | some (s, rest) =>
      let r ← put depth key s r
      recordItems put depth r keys rest

/-- The record of a shape. -/
def record (keys : List String) (put : Nat → String → Shape → σ → Reading σ) (start : σ)
    (depth : Nat) : Shape → Reading σ
  | .object members stop => do
    let depth ← Reading.ofExcept (enter depth)
    let r ← recordMembers keys put depth [] start members
    Reading.ofExcept (closed stop)
    pure r
  | .array items stop => do
    let depth ← Reading.ofExcept (enter depth)
    recordItems put depth start keys ⟨items, stop⟩
  | s => throw s.unfit

end Shape

namespace Value

/-- Put in the members of an object. -/
def recordMembers? (keys : List String) (put : String → Value → σ → Noted (Option σ))
    (seen : List String) (r : σ) : List (String × Value) → Noted (Option σ)
  | [] => pure (some r)
  | (key, v) :: ms => do
    if keys.contains key then
      if seen.contains key then pure none
      else
        match ← put key v r with
        | some r => recordMembers? keys put (key :: seen) r ms
        | none => pure none
    else recordMembers? keys put seen r ms

/-- Put in the items of a list, as the values of the keys in order. -/
def recordItems? (put : String → Value → σ → Noted (Option σ)) (r : σ) :
    List String → List Value → Noted (Option σ)
  | _, [] => pure (some r)
  | [], _ :: _ => pure none
  | key :: keys, v :: vs => do
    match ← put key v r with
    | some r => recordItems? put r keys vs
    | none => pure none

/-- The record of a value. -/
def record? (keys : List String) (put : String → Value → σ → Noted (Option σ)) (start : σ) :
    Value → Noted (Option σ)
  | .object ms => recordMembers? keys put [] start ms
  | .array items => recordItems? put start keys items
  | _ => pure none

end Value

end Herald.Json
