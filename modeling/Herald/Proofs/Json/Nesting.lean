import Herald.Json.Tagged
import Herald.Proofs.Json.Value

/-!
# How deep a value is nested

* `Value.nesting`: how many containers of a value lie in one another;
* `Value.parts`: what a container holds, which is nested less deep;
* `Shape.nesting_le_of_value`: a value that is read has no more containers in one another than may
  be open. So the limit of the reader bounds what comes from it.
-/

namespace Herald.Json

namespace Value

mutual

/-- How many containers of a value lie in one another. -/
def nesting : Value → Nat
  | .array items => itemsNesting items + 1
  | .object ms => membersNesting ms + 1
  | .null | .bool _ | .number _ | .string _ => 0

/-- The nesting of the deepest item. -/
def itemsNesting : List Value → Nat
  | [] => 0
  | v :: vs => max (nesting v) (itemsNesting vs)

/-- The nesting of the deepest member. -/
def membersNesting : List (String × Value) → Nat
  | [] => 0
  | (_, v) :: ms => max (nesting v) (membersNesting ms)

end

theorem itemsNesting_le_iff {vs : List Value} {b : Nat} :
    itemsNesting vs ≤ b ↔ ∀ v ∈ vs, v.nesting ≤ b := by
  induction vs with
  | nil => simp [itemsNesting]
  | cons v vs ih => rw [itemsNesting, Nat.max_le, ih, List.forall_mem_cons]

theorem membersNesting_le_iff {ms : List (String × Value)} {b : Nat} :
    membersNesting ms ≤ b ↔ ∀ m ∈ ms, m.2.nesting ≤ b := by
  induction ms with
  | nil => simp [membersNesting]
  | cons m ms ih => rw [membersNesting, Nat.max_le, ih, List.forall_mem_cons]

/-- What a container holds. -/
def parts : Value → List Value
  | .array items => items
  | .object ms => ms.map (·.2)
  | .null | .bool _ | .number _ | .string _ => []

/-- What a container holds is nested less deep. -/
theorem nesting_lt_of_mem_parts {v w : Value} (h : w ∈ v.parts) : w.nesting < v.nesting := by
  cases v with
  | array items =>
    rw [nesting, Nat.lt_succ_iff]
    exact itemsNesting_le_iff.1 (Nat.le_refl _) w h
  | object ms =>
    obtain ⟨m, hm, rfl⟩ := List.mem_map.1 h
    rw [nesting, Nat.lt_succ_iff]
    exact membersNesting_le_iff.1 (Nat.le_refl _) m hm
  | _ => cases h

/-- What is read tolerantly from a list comes from its items. -/
theorem exists_of_mem_tolerantList {α : Type} {read : Value → Noted (Option α)} {v : Value} {a : α}
    (h : a ∈ (tolerantList read v).value) : ∃ w ∈ v.parts, (read w).value = some a := by
  cases v with
  | array items =>
    rw [tolerantList, tolerantEntries_eq] at h
    exact List.mem_filterMap.1 h
  | _ => simp [tolerantList] at h

end Value

namespace Shape

mutual

/-- **The limit of the reader bounds the nesting of what is read.** -/
theorem nesting_le_of_value : ∀ {depth : Nat} {s : Shape} {v : Value},
    s.value depth = .ok v → v.nesting ≤ depth
  | _, .null, _, h => by
    cases h
    exact Nat.zero_le _
  | _, .bool _, _, h => by
    cases h
    exact Nat.zero_le _
  | _, .number _, _, h => by
    obtain ⟨x, -, rfl⟩ := value_number_eq_ok_iff.1 h
    exact Nat.zero_le _
  | _, .string _, _, h => by
    obtain ⟨t, -, rfl⟩ := value_string_eq_ok_iff.1 h
    exact Nat.zero_le _
  | _, .array _ _, _, h => by
    obtain ⟨d, vs, rfl, hvs, -, rfl⟩ := value_array_eq_ok_iff.1 h
    rw [Value.nesting, Nat.succ_le_succ_iff, Value.itemsNesting_le_iff]
    exact nesting_le_of_values hvs
  | _, .object _ _, _, h => by
    obtain ⟨d, ms, rfl, hms, -, rfl⟩ := value_object_eq_ok_iff.1 h
    rw [Value.nesting, Nat.succ_le_succ_iff, Value.membersNesting_le_iff]
    intro m hm
    exact nesting_le_of_memberValues hms m (Members.mem_ofList hm)
  | _, .broken _, _, h => by cases h
  | _, .cutNumeral, _, h => by cases h

theorem nesting_le_of_values : ∀ {depth : Nat} {ss : List Shape} {vs : List Value},
    values depth ss = .ok vs → ∀ v ∈ vs, v.nesting ≤ depth
  | _, [], _, h => by
    cases h
    simp
  | _, _ :: _, _, h => by
    obtain ⟨v, vs, hv, hvs, rfl⟩ := values_cons_eq_ok_iff.1 h
    exact List.forall_mem_cons.2 ⟨nesting_le_of_value hv, nesting_le_of_values hvs⟩

theorem nesting_le_of_memberValues : ∀ {depth : Nat} {members : List (Quoted × Shape)}
    {ms : List (String × Value)}, memberValues depth members = .ok ms →
    ∀ m ∈ ms, m.2.nesting ≤ depth
  | _, [], _, h => by
    cases h
    simp
  | _, (_, _) :: _, _, h => by
    obtain ⟨k, v, ms, -, hv, hms, rfl⟩ := memberValues_cons_eq_ok_iff.1 h
    exact List.forall_mem_cons.2 ⟨nesting_le_of_value hv, nesting_le_of_memberValues hms⟩

end

/-! ### Tagged forms -/

variable {known : String → Bool} {depth : Nat}

theorem nesting_le_of_keep {s : Shape} {k : Kept} (h : s.keep depth = .ok k) :
    k.value.nesting ≤ depth := by
  unfold keep at h
  cases hv : s.value depth with
  | error f =>
    rw [hv] at h
    cases h
  | ok v =>
    rw [hv] at h
    cases h
    exact nesting_le_of_value hv

theorem nesting_le_of_keepAll {ss : List Shape} {ks : List Kept}
    (h : keepAll depth ss = .ok ks) : ∀ k ∈ ks, k.value.nesting ≤ depth := by
  induction ss generalizing ks with
  | nil =>
    cases h
    simp
  | cons s ss ih =>
    obtain ⟨k, hk, h⟩ := bind_eq_ok.1 h
    obtain ⟨ks', hks, h⟩ := bind_eq_ok.1 h
    cases h
    exact List.forall_mem_cons.2 ⟨nesting_le_of_keep hk, ih hks⟩

theorem nesting_le_of_taggedMembers {members : List (Quoted × Shape)} {found : Option String}
    {r : Option String × List (String × Kept)}
    (h : taggedMembers known depth found members = .ok r) :
    ∀ m ∈ r.2, m.2.value.nesting ≤ depth := by
  induction members generalizing found r with
  | nil =>
    cases h
    simp
  | cons m members ih =>
    obtain ⟨q, s⟩ := m
    obtain ⟨key, -, h⟩ := bind_eq_ok.1 h
    split at h
    · split at h
      · cases h
      · obtain ⟨k, -, h⟩ := bind_eq_ok.1 h
        exact ih h
    · obtain ⟨k, hk, h⟩ := bind_eq_ok.1 h
      obtain ⟨⟨found', rest⟩, hr, h⟩ := bind_eq_ok.1 h
      cases h
      exact List.forall_mem_cons.2 ⟨nesting_le_of_keep hk, ih hr⟩

end Shape

/-- The values that belong to the kind of a tagged form. -/
def Content.values : Content → List Value
  | .members ms => ms.map (·.2.value)
  | .items is => is.map (·.value)

namespace Shape

variable {known : String → Bool} {depth : Nat}

/-- A tagged form is a container itself, so what belongs to it is nested less deep. -/
theorem nesting_le_of_tagged {s : Shape} {t : Tagged} (h : s.tagged known depth = .ok t) :
    ∃ d, depth = d + 1 ∧ ∀ v ∈ t.content.values, v.nesting ≤ d := by
  cases s with
  | object members stop =>
    obtain ⟨d, hd, h₁⟩ := bind_eq_ok.1 h
    refine ⟨d, enter_eq_ok_iff.1 hd, fun v hv => ?_⟩
    obtain ⟨⟨found, ms⟩, hms, h₂⟩ := bind_eq_ok.1 h₁
    obtain ⟨-, -, h₃⟩ := bind_eq_ok.1 h₂
    cases found with
    | none => cases h₃
    | some k =>
      cases h₃
      obtain ⟨m, hm, rfl⟩ := List.mem_map.1 hv
      exact nesting_le_of_taggedMembers hms m hm
  | array items stop =>
    obtain ⟨d, hd, h₁⟩ := bind_eq_ok.1 h
    refine ⟨d, enter_eq_ok_iff.1 hd, fun v hv => ?_⟩
    obtain ⟨o, -, h₂⟩ := bind_eq_ok.1 h₁
    cases o with
    | none => cases h₂
    | some p =>
      obtain ⟨k, -, h₃⟩ := bind_eq_ok.1 h₂
      obtain ⟨is, his, h₄⟩ := bind_eq_ok.1 h₃
      obtain ⟨-, -, h₅⟩ := bind_eq_ok.1 h₄
      cases h₅
      obtain ⟨kept, hk, rfl⟩ := List.mem_map.1 hv
      exact nesting_le_of_keepAll his kept hk
  | _ => cases h

end Shape

end Herald.Json
