import Herald.Json.Reading
import Herald.Json.Tolerant

/-!
# Readings that are not refused

* `Reading.Yields`: a reading comes to a value and gives these notices;
* one inversion for each way to build a reading, above all `Reading.yields_bind`: it says all that
  can have happened when a reading has come to a value;
* `Noted.All`: what all notices of a result have.
-/

namespace Herald

namespace Noted

variable {α β : Type} {P : Notice → Prop}

/-- All notices of a result are of a kind. -/
def All (P : Notice → Prop) (x : Noted α) : Prop := ∀ n ∈ x.notices, P n

@[simp] theorem all_pure (a : α) : All P (pure a : Noted α) := by simp [All]

@[simp] theorem all_give (n : Notice) : All P (give n) ↔ P n := by simp [All]

@[simp] theorem all_bind (x : Noted α) (f : α → Noted β) :
    All P (x >>= f) ↔ All P x ∧ All P (f x.value) := by
  simp only [All, notices_bind, List.mem_append, or_imp, forall_and]

@[simp] theorem all_map (f : α → β) (x : Noted α) : All P (f <$> x) ↔ All P x := by simp [All]

end Noted

namespace Json

theorem bind_eq_ok {α β : Type} {x : Except Fault α} {f : α → Except Fault β} {b : β} :
    (x >>= f) = .ok b ↔ ∃ a, x = .ok a ∧ f a = .ok b := by
  cases x <;> simp [bind, Except.bind]

namespace Reading

variable {α β : Type} {a : α} {b : β} {ns : List Notice}

/-- A reading comes to a value and gives these notices on the way. -/
def Yields (x : Reading α) (a : α) (ns : List Notice) : Prop := x.run = ⟨.ok a, ns⟩

theorem yields_pure {a' : α} : (pure a' : Reading α).Yields a ns ↔ a = a' ∧ ns = [] := by
  constructor
  · intro h
    cases h
    exact ⟨rfl, rfl⟩
  · rintro ⟨rfl, rfl⟩
    rfl

theorem yields_bind {x : Reading α} {f : α → Reading β} :
    (x >>= f).Yields b ns ↔
      ∃ a ns₁ ns₂, x.Yields a ns₁ ∧ (f a).Yields b ns₂ ∧ ns = ns₁ ++ ns₂ := by
  unfold Yields
  rw [ExceptT.run_bind, Noted.ext_iff, Noted.value_bind, Noted.notices_bind]
  obtain ⟨r, ns₁⟩ := x.run
  cases r with
  | error e => simp
  | ok a' =>
    constructor
    · rintro ⟨hb, hns⟩
      exact ⟨a', ns₁, ((f a').run).notices, rfl, Noted.ext hb rfl, hns.symm⟩
    · rintro ⟨a, ms₁, ms₂, h, hf, rfl⟩
      cases h
      simp [hf]

theorem yields_throw {f : Fault} : (throw f : Reading α).Yields a ns ↔ False := by
  refine iff_false_intro fun h => ?_
  cases h

theorem yields_ofExcept {x : Except Fault α} :
    (ofExcept x).Yields a ns ↔ x = .ok a ∧ ns = [] := by
  constructor
  · intro h
    cases h
    exact ⟨rfl, rfl⟩
  · rintro ⟨rfl, rfl⟩
    rfl

theorem yields_ofExcept_bind {x : Except Fault α} {f : α → Reading β} :
    (ofExcept x >>= f).Yields b ns ↔ ∃ a, x = .ok a ∧ (f a).Yields b ns := by
  rw [yields_bind]
  constructor
  · rintro ⟨a, ns₁, ns₂, hx, hf, rfl⟩
    obtain ⟨rfl, rfl⟩ := yields_ofExcept.1 hx
    exact ⟨a, rfl, hf⟩
  · rintro ⟨a, rfl, hf⟩
    exact ⟨a, [], ns, yields_ofExcept.2 ⟨rfl, rfl⟩, hf, rfl⟩

theorem yields_ofExcept_pure {x : Except Fault α} {f : α → β} :
    (ofExcept x >>= fun a => pure (f a)).Yields b ns ↔ ∃ a, x = .ok a ∧ b = f a ∧ ns = [] := by
  rw [yields_ofExcept_bind]
  exact exists_congr fun a => and_congr_right fun _ => yields_pure

theorem yields_ofNoted {x : Noted α} : (ofNoted x).Yields a ns ↔ x = ⟨a, ns⟩ := by
  constructor
  · intro h
    cases h
    rfl
  · rintro rfl
    rfl

theorem yields_require {x : Noted (Option α)} : (require x).Yields a ns ↔ x = ⟨some a, ns⟩ := by
  unfold require
  rw [yields_bind]
  constructor
  · rintro ⟨o, ns₁, ns₂, hx, ho, rfl⟩
    cases o with
    | none => exact (yields_throw.1 ho).elim
    | some a' =>
      obtain ⟨rfl, rfl⟩ := yields_pure.1 ho
      rw [yields_ofNoted.1 hx, List.append_nil]
  · rintro rfl
    exact ⟨some a, ns, [], yields_ofNoted.2 rfl, yields_pure.2 ⟨rfl, rfl⟩, by simp⟩

theorem ended_eq_ok_iff {t : Text} {u : Unit} : t.ended = .ok u ↔ t.trailing = false := by
  unfold Text.ended
  cases t.trailing <;> simp

/-- A whole text that is read has been read up to its end. -/
theorem yields_read {t : Text} {reader : Nat → Shape → Reading α} :
    (t.read reader).Yields a ns ↔
      (reader nestingLimit t.root).Yields a ns ∧ t.trailing = false := by
  rw [Text.read, yields_bind]
  constructor
  · rintro ⟨a', ns₁, ns₂, hr, hp, rfl⟩
    obtain ⟨u, hu, rfl, rfl⟩ := yields_ofExcept_pure.1 hp
    rw [List.append_nil]
    exact ⟨hr, ended_eq_ok_iff.1 hu⟩
  · rintro ⟨hr, ht⟩
    exact ⟨a, ns, [], hr, yields_ofExcept_pure.2 ⟨(), ended_eq_ok_iff.2 ht, rfl, rfl⟩, by simp⟩

end Reading

/-! ### Tolerant lists -/

variable {α : Type}

/-- One entry of a tolerant list: what is read, or a notice that it has been skipped. -/
def tolerantEntry (read : Value → Noted (Option α)) (v : Value) : Noted (Option α) := do
  match ← read v with
  | some a => pure (some a)
  | none =>
    Noted.give .malformedEntry
    pure none

theorem value_tolerantEntry (read : Value → Noted (Option α)) (v : Value) :
    (tolerantEntry read v).value = (read v).value := by
  rw [tolerantEntry, Noted.value_bind]
  cases (read v).value <;> rfl

/-- The entries are read one by one, none of them disturbed by the others. -/
theorem tolerantEntries_eq (read : Value → Noted (Option α)) (vs : List Value) :
    tolerantEntries read vs
      = ⟨vs.filterMap fun v => (read v).value,
          vs.flatMap fun v => (tolerantEntry read v).notices⟩ := by
  induction vs with
  | nil => rfl
  | cons v vs ih =>
    rw [tolerantEntries, ih]
    ext1
    · cases h : (read v).value <;> simp [h]
    · cases h : (read v).value <;> simp [h, tolerantEntry]

end Json

end Herald
