import Herald.Json.Number

/-!
# Integers as they are spelled

* `Numeral.amount`: what the digits before the point amount to;
* `Numeral.toNumber?_eq_integer_iff`: a number is an integer if its numeral is read as one;
* `Numeral.integer?_eq_some_iff`: the integers from zero up that stay far below the capacity are
  those spelled without sign, fraction and exponent.
-/

namespace Herald.Json.Numeral

/-- Digits appended to a number. -/
def append (n : Nat) (ds : List Nat) : Nat := ds.foldl (fun m d => 10 * m + d) n

/-- What the digits before the point amount to. -/
def amount (n : Numeral) : Nat := append 0 n.whole

theorem le_append (n : Nat) (ds : List Nat) : n ≤ append n ds := by
  induction ds generalizing n with
  | nil => exact Nat.le_refl n
  | cons d ds ih =>
    have h := ih (10 * n + d)
    exact Nat.le_trans (by omega) h

theorem accumulate_of_lt {n : Nat} {ds : List Nat} (h : append n ds < capacity) :
    accumulate n ds = (append n ds, []) := by
  induction ds generalizing n with
  | nil => rfl
  | cons d ds ih =>
    have hd : 10 * n + d < capacity := Nat.lt_of_le_of_lt (le_append _ ds) h
    rw [accumulate, if_pos hd]
    exact ih h

theorem eq_append_of_accumulate {n k : Nat} {ds : List Nat} (h : accumulate n ds = (k, [])) :
    k = append n ds := by
  induction ds generalizing n with
  | nil =>
    cases h
    rfl
  | cons d ds ih =>
    rw [accumulate] at h
    split at h
    · exact ih h
    · cases h

theorem toNumber?_eq_integer_iff {n : Numeral} {i : Int} :
    n.toNumber? = some (.integer i) ↔ n.integer? = some i := by
  rw [toNumber?]
  cases n.integer? with
  | some j => simp
  | none => simp

/-- A small positive integer is spelled with digits alone. -/
theorem integer?_eq_some_iff {n : Numeral} {k : Nat} (hk : 0 < k) (hc : k < capacity) :
    n.integer? = some (k : Int) ↔
      n.negative = false ∧ n.fraction = [] ∧ n.exponent = none ∧ n.amount = k := by
  obtain ⟨negative, whole, fraction, exponent⟩ := n
  constructor
  · intro h
    rw [integer?] at h
    split at h
    · rename_i kept hf he ha
      have hk' := eq_append_of_accumulate ha
      split at h
      · split at h
        · simp only [Option.some.injEq] at h
          omega
        · cases h
      · rename_i hn
        simp only [Option.some.injEq] at h
        refine ⟨by simpa using hn, hf, he, ?_⟩
        rw [amount, ← hk']
        omega
    · cases h
  · rintro ⟨hn, hf, he, ha⟩
    have hacc : accumulate 0 whole = (k, []) := by
      have hw : append 0 whole = k := ha
      rw [accumulate_of_lt (hw ▸ hc), hw]
    simp_all [integer?]

end Herald.Json.Numeral
