import Herald.Document.Field
import Herald.Proofs.Json.Lookup
import Herald.Proofs.Json.Numeral
import Herald.Proofs.Json.Record
import Herald.Proofs.RichText.Notices
import Mathlib.Tactic.IntervalCases

/-!
# Reading one field

* `Field.value_ofValue?_object`: a field that is an object is read by looking up its keys, whatever
  their order and whatever else it has;
* `Field.IsSpelled`, `Field.isKnown_ofValue?_iff`: the objects that are fields of a known kind, as
  they are spelled;
* `Field.all_ofValue?`: what reading a field may give notice of.
-/

namespace Herald.Document

open Json RichText

namespace FieldKind

/-- A kind that is known. -/
def isKnown : FieldKind → Bool
  | .unknown _ | .missing => false
  | _ => true

theorem isKnown_ofCode_iff {n : Nat} : (ofCode n).isKnown ↔ 1 ≤ n ∧ n ≤ 6 := by
  constructor
  · intro h
    unfold ofCode at h
    split at h <;> first | omega | cases h
  · rintro ⟨h₁, h₆⟩
    interval_cases n <;> rfl

/-- The integers from 1 to 6 name the known kinds. -/
theorem isKnown_ofValue_iff {v : Value} :
    (ofValue v).isKnown ↔ ∃ n : Nat, v = .number (.integer n) ∧ 1 ≤ n ∧ n ≤ 6 := by
  constructor
  · intro h
    unfold ofValue at h
    split at h
    · rename_i n hn
      refine ⟨n, ?_, isKnown_ofCode_iff.1 h⟩
      cases v with
      | number x =>
        cases x with
        | integer i =>
          simp only [Value.natural?, Number.natural?, Option.ite_none_right_eq_some,
            Option.some.injEq] at hn
          rw [← hn.2, Int.toNat_of_nonneg hn.1]
        | float negative b => cases hn
      | _ => cases hn
    · cases h
  · rintro ⟨n, rfl, hn⟩
    have h : Value.natural? (.number (.integer n)) = some n := by
      simp [Value.natural?, Number.natural?]
    rw [ofValue, h]
    exact isKnown_ofCode_iff.2 hn

end FieldKind

namespace Field

/-- No two keys are put in at one place. -/
theorem commutes_put : Members.Commutes keys fun k v f => (put k v f).value := by
  intro k _ k' _ hk v v' f
  show (put k v f).value.bind (fun f => (put k' v' f).value)
    = (put k' v' f).value.bind fun f => (put k v f).value
  unfold put
  generalize orDefault? "" Value.text? v = t
  generalize orDefault? "" Value.text? v' = t'
  cases t <;> cases t' <;> split <;> split <;> first
    | exact absurd rfl hk
    | rfl

/-- **The field of an object**: what stands under each of the four keys is looked at by itself. -/
theorem value_ofValue?_object {ms : Members} (h : Members.IsSorted ms) :
    (ofValue? (.object ms)).value
      = (orDefault? "" Value.text? (Members.orNull "name" ms)).map fun name =>
          ⟨.ofValue (Members.orNull "type" ms), name, Members.orNull "value" ms,
            (Node.nodes? (Members.orNull "structuredValue" ms)).value⟩ := by
  -- What a blank field has under a key is what null is read as.
  rw [ofValue?, Value.value_record?_object (by decide) commutes_put h.areDistinct,
    Value.collect?_object, keys, Members.fill_part rfl]
  show Members.fill _ _ (some { blank with kind := .ofValue (Members.orNull "type" ms) }) = _
  rw [Members.fill_part rfl]
  show Members.fill _ _ ((orDefault? "" Value.text? (Members.orNull "name" ms)).map _) = _
  cases orDefault? "" Value.text? (Members.orNull "name" ms) with
  | none => exact Members.fill_none
  | some name =>
    show Members.fill _ _
      (some { blank with kind := .ofValue (Members.orNull "type" ms), name := name }) = _
    rw [Members.fill_part rfl]
    show Members.fill _ _ (some
      { blank with
        kind := .ofValue (Members.orNull "type" ms), name := name
        value := Members.orNull "value" ms }) = _
    rw [Members.fill_part rfl]
    rfl

/-! ### Fields as they are spelled -/

/-- These members are spelled as a field of a known kind: the name is a text, null or absent, and the
kind is an integer from 1 to 6 without sign, point and exponent. The last member under a key counts,
and no other member matters. -/
structure IsSpelled (ms : List (Quoted × Shape)) : Prop where
  name : ∀ s, Shape.last? "name" ms = some s → s = .null ∨ ∃ q, s = .string q
  kind : ∃ n, Shape.last? "type" ms = some (.number n) ∧ n.negative = false ∧ n.fraction = [] ∧
    n.exponent = none ∧ 1 ≤ n.amount ∧ n.amount ≤ 6

variable {depth : Nat} {members : List (Quoted × Shape)} {ms : List (String × Value)}

/-- A name fits if it is spelled as a text or null, or not at all. -/
theorem isSome_name_iff (h : Shape.memberValues depth members = .ok ms) :
    (orDefault? "" Value.text? (Members.orNull "name" (Members.ofList ms))).isSome ↔
      ∀ s, Shape.last? "name" members = some s → s = .null ∨ ∃ q, s = .string q := by
  rcases Shape.orNull_of_memberValues "name" h with ⟨hs, hv⟩ | ⟨s, hs, hv⟩
  · simp [hs, hv, orDefault?]
  · rw [hs]
    generalize Members.orNull "name" (Members.ofList ms) = v at hv ⊢
    cases s with
    | null =>
      cases hv
      simp [orDefault?]
    | bool b =>
      cases hv
      simp [orDefault?, Value.text?]
    | number n =>
      obtain ⟨x, -, rfl⟩ := Shape.value_number_eq_ok_iff.1 hv
      simp [orDefault?, Value.text?]
    | string q =>
      obtain ⟨t, -, rfl⟩ := Shape.value_string_eq_ok_iff.1 hv
      simp [orDefault?, Value.text?]
    | array items stop =>
      obtain ⟨-, -, -, -, -, rfl⟩ := Shape.value_array_eq_ok_iff.1 hv
      simp [orDefault?, Value.text?]
    | object members stop =>
      obtain ⟨-, -, -, -, -, rfl⟩ := Shape.value_object_eq_ok_iff.1 hv
      simp [orDefault?, Value.text?]
    | broken f => cases hv
    | cutNumeral => cases hv

/-- A kind is known if it is spelled as one of the codes. -/
theorem isKnown_kind_iff (h : Shape.memberValues depth members = .ok ms) :
    (FieldKind.ofValue (Members.orNull "type" (Members.ofList ms))).isKnown ↔
      ∃ n, Shape.last? "type" members = some (.number n) ∧ n.negative = false ∧ n.fraction = [] ∧
        n.exponent = none ∧ 1 ≤ n.amount ∧ n.amount ≤ 6 := by
  rw [FieldKind.isKnown_ofValue_iff]
  rcases Shape.orNull_of_memberValues "type" h with ⟨hs, hv⟩ | ⟨s, hs, hv⟩
  · simp [hs, hv]
  · have hspell : ∀ (n : Numeral) (k : Nat), 1 ≤ k → k ≤ 6 →
        (n.toNumber? = some (.integer k) ↔
          n.negative = false ∧ n.fraction = [] ∧ n.exponent = none ∧ n.amount = k) := by
      intro n k h₁ h₆
      have hc : k < Numeral.capacity := Nat.lt_of_le_of_lt h₆ (by decide)
      rw [Numeral.toNumber?_eq_integer_iff, Numeral.integer?_eq_some_iff h₁ hc]
    constructor
    · rintro ⟨k, hk, h₁, h₆⟩
      rw [hk, Shape.value_eq_ok_number_iff] at hv
      obtain ⟨n, rfl, hn⟩ := hv
      obtain ⟨hneg, hf, he, rfl⟩ := (hspell n k h₁ h₆).1 hn
      exact ⟨n, hs, hneg, hf, he, h₁, h₆⟩
    · rintro ⟨n, hn, hneg, hf, he, h₁, h₆⟩
      obtain rfl : s = .number n := Option.some.inj (hs.symm.trans hn)
      have hx := (hspell n n.amount h₁ h₆).2 ⟨hneg, hf, he, rfl⟩
      refine ⟨n.amount, ?_, h₁, h₆⟩
      exact Except.ok.inj (hv.symm.trans (Shape.value_eq_ok_number_iff.2 ⟨n, rfl, hx⟩))

/-- **The objects that are fields of a known kind.** -/
theorem isKnown_ofValue?_iff {stop : Option Fault} {v : Value}
    (h : (Shape.object members stop).value depth = .ok v) :
    (∃ f, (ofValue? v).value = some f ∧ f.kind.isKnown) ↔ IsSpelled members := by
  obtain ⟨d, ms, rfl, hms, -, rfl⟩ := Shape.value_object_eq_ok_iff.1 h
  rw [value_ofValue?_object (Members.isSorted_ofList ms)]
  constructor
  · rintro ⟨f, hf, hk⟩
    obtain ⟨name, hname, rfl⟩ := Option.map_eq_some_iff.1 hf
    exact ⟨(isSome_name_iff hms).1 (by rw [hname]; rfl), (isKnown_kind_iff hms).1 hk⟩
  · rintro ⟨hname, hkind⟩
    obtain ⟨name, hn⟩ := Option.isSome_iff_exists.1 ((isSome_name_iff hms).2 hname)
    exact ⟨_, by rw [hn]; rfl, (isKnown_kind_iff hms).2 hkind⟩

/-! ### Notices -/

theorem all_put (key : String) (v : Value) (f : Field) : (put key v f).All (·.isOfReading) := by
  unfold put
  split
  · exact Noted.all_pure _
  · exact Noted.all_pure _
  · exact Noted.all_pure _
  · rw [Noted.all_bind]
    exact ⟨Node.all_nodes? v, Noted.all_pure _⟩
  · exact Noted.all_pure _

/-- Reading a field gives the notices of its rich text. -/
theorem all_ofValue? (v : Value) : (ofValue? v).All (·.isOfReading) :=
  Value.all_record? all_put keys blank v

end Field

end Herald.Document
