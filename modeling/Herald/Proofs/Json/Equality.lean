import Herald.Json.Value

/-!
# Equality of values

Whether two values are equal can be decided: they are compared part by part.
-/

namespace Herald.Json.Value

mutual

/-- Compare two values. -/
def same : Value → Value → Bool
  | .null, .null => true
  | .bool b, .bool c => b = c
  | .number x, .number y => x = y
  | .string s, .string t => s = t
  | .array vs, .array ws => sameItems vs ws
  | .object ms, .object ns => sameMembers ms ns
  | _, _ => false

/-- Compare the items of two lists. -/
def sameItems : List Value → List Value → Bool
  | [], [] => true
  | v :: vs, w :: ws => same v w && sameItems vs ws
  | _, _ => false

/-- Compare the members of two objects. -/
def sameMembers : List (String × Value) → List (String × Value) → Bool
  | [], [] => true
  | (k, v) :: ms, (l, w) :: ns => k = l && same v w && sameMembers ms ns
  | _, _ => false

end

mutual

theorem same_iff : ∀ {v w : Value}, same v w = true ↔ v = w
  | .null, w | .bool _, w | .number _, w | .string _, w => by cases w <;> simp [same]
  | .array vs, w => by
    cases w with
    | array ws => simp [same, sameItems_iff]
    | _ => simp [same]
  | .object ms, w => by
    cases w with
    | object ns => simp [same, sameMembers_iff]
    | _ => simp [same]

theorem sameItems_iff : ∀ {vs ws : List Value}, sameItems vs ws = true ↔ vs = ws
  | [], ws => by cases ws <;> simp [sameItems]
  | v :: vs, ws => by
    cases ws with
    | nil => simp [sameItems]
    | cons w ws => simp [sameItems, same_iff, sameItems_iff]

theorem sameMembers_iff : ∀ {ms ns : List (String × Value)}, sameMembers ms ns = true ↔ ms = ns
  | [], ns => by cases ns <;> simp [sameMembers]
  | (k, v) :: ms, ns => by
    cases ns with
    | nil => simp [sameMembers]
    | cons n ns =>
      obtain ⟨l, w⟩ := n
      simp [sameMembers, same_iff, sameMembers_iff]

end

instance : DecidableEq Value := fun _ _ => decidable_of_iff _ same_iff

end Herald.Json.Value
