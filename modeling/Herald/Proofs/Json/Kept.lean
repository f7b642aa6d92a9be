import Herald.Proofs.Json.Containers
import Herald.Proofs.Json.Scanning

/-!
# What can be kept of a text

The grammar lets more through than can be kept: numerals out of range, units without their partner,
bytes that are no text. A reader that looks at a shape refuses them, one that passes over it does
not.

* `Quoted.IsText`: a quoted text stands for a text;
* `Shape.IsKept`: everything in a shape can be kept;
* `Shape.nesting`: how many containers of a shape lie in one another;
* `Shape.exists_value_iff`: these two decide whether a shape has a value;
* `Shape.IsTextOrNull`: a quoted text that stands for a text, or null;
* `Shape.skip_of_spells`: whatever the grammar lets through can be passed over.
-/

namespace Herald.Json

/-- A quoted text stands for a text: every unit has the partner it needs, and the bytes are those of
a text. -/
def Quoted.IsText (q : Quoted) : Prop := ∃ t, q.decode = .ok t

namespace Shape

/-- Everything in a shape can be kept: numerals are in range, quoted texts and keys stand for
texts. -/
inductive IsKept : Shape → Prop
  | null : IsKept .null
  | bool (b : Bool) : IsKept (.bool b)
  | number {n : Numeral} (inRange : n.toNumber?.isSome = true) : IsKept (.number n)
  | string {q : Quoted} (text : q.IsText) : IsKept (.string q)
  | array {items : List Shape} (each : ∀ s ∈ items, IsKept s) : IsKept (.array items none)
  | object {members : List (Quoted × Shape)} (keys : ∀ m ∈ members, m.1.IsText)
      (each : ∀ m ∈ members, IsKept m.2) : IsKept (.object members none)

theorem isKept_number_iff {n : Numeral} : (number n).IsKept ↔ n.toNumber?.isSome = true :=
  ⟨fun | .number h => h, .number⟩

theorem isKept_string_iff {q : Quoted} : (string q).IsKept ↔ q.IsText :=
  ⟨fun | .string h => h, .string⟩

theorem isKept_array_iff {items : List Shape} {stop : Option Fault} :
    (array items stop).IsKept ↔ stop = none ∧ ∀ s ∈ items, s.IsKept :=
  ⟨fun | .array h => ⟨rfl, h⟩, fun ⟨h, hs⟩ => h ▸ .array hs⟩

theorem isKept_object_iff {members : List (Quoted × Shape)} {stop : Option Fault} :
    (object members stop).IsKept ↔ stop = none ∧ ∀ m ∈ members, m.1.IsText ∧ m.2.IsKept :=
  ⟨fun | .object hk hs => ⟨rfl, fun m hm => ⟨hk m hm, hs m hm⟩⟩,
    fun ⟨h, hs⟩ => h ▸ .object (fun m hm => (hs m hm).1) fun m hm => (hs m hm).2⟩

mutual

/-- How many containers of a shape lie in one another. -/
def nesting : Shape → Nat
  | .array items _ => itemsNesting items + 1
  | .object members _ => membersNesting members + 1
  | .null | .bool _ | .number _ | .string _ | .broken _ | .cutNumeral => 0

/-- The nesting of the deepest item. -/
def itemsNesting : List Shape → Nat
  | [] => 0
  | s :: ss => max (nesting s) (itemsNesting ss)

/-- The nesting of the deepest member. -/
def membersNesting : List (Quoted × Shape) → Nat
  | [] => 0
  | (_, s) :: ms => max (nesting s) (membersNesting ms)

end

theorem itemsNesting_le_iff {ss : List Shape} {b : Nat} :
    itemsNesting ss ≤ b ↔ ∀ s ∈ ss, s.nesting ≤ b := by
  induction ss with
  | nil => simp [itemsNesting]
  | cons s ss ih => rw [itemsNesting, Nat.max_le, ih, List.forall_mem_cons]

theorem membersNesting_le_iff {ms : List (Quoted × Shape)} {b : Nat} :
    membersNesting ms ≤ b ↔ ∀ m ∈ ms, m.2.nesting ≤ b := by
  induction ms with
  | nil => simp [membersNesting]
  | cons m ms ih => rw [membersNesting, Nat.max_le, ih, List.forall_mem_cons]

/-- What is in an object is nested less deep. -/
theorem nesting_of_mem {members : List (Quoted × Shape)} {stop : Option Fault} {depth : Nat}
    (h : (object members stop).nesting ≤ depth + 1) {m : Quoted × Shape} (hm : m ∈ members) :
    m.2.nesting ≤ depth := by
  rw [nesting, Nat.add_le_add_iff_right, membersNesting_le_iff] at h
  exact h m hm

/-! ### Values -/

mutual

/-- **A shape has a value just if everything in it can be kept and it is not nested too deep.** -/
theorem exists_value_iff : ∀ {depth : Nat} {s : Shape},
    (∃ v, s.value depth = .ok v) ↔ s.IsKept ∧ s.nesting ≤ depth
  | _, .null => ⟨fun _ => ⟨.null, Nat.zero_le _⟩, fun _ => ⟨.null, rfl⟩⟩
  | _, .bool b => ⟨fun _ => ⟨.bool b, Nat.zero_le _⟩, fun _ => ⟨.bool b, rfl⟩⟩
  | _, .number n => by
    simp only [value_number_eq_ok_iff, isKept_number_iff, Option.isSome_iff_exists]
    constructor
    · rintro ⟨_, x, hx, -⟩
      exact ⟨⟨x, hx⟩, Nat.zero_le _⟩
    · rintro ⟨⟨x, hx⟩, -⟩
      exact ⟨.number x, x, hx, rfl⟩
  | _, .string q => by
    simp only [value_string_eq_ok_iff, isKept_string_iff]
    constructor
    · rintro ⟨_, t, ht, -⟩
      exact ⟨⟨t, ht⟩, Nat.zero_le _⟩
    · rintro ⟨⟨t, ht⟩, -⟩
      exact ⟨.string t, t, ht, rfl⟩
  | depth, .array items stop => by
    simp only [value_array_eq_ok_iff, isKept_array_iff, nesting]
    constructor
    · rintro ⟨_, d, vs, rfl, hvs, rfl, -⟩
      have heach := exists_values_iff.1 ⟨vs, hvs⟩
      rw [Nat.add_le_add_iff_right, itemsNesting_le_iff]
      exact ⟨⟨rfl, fun s hs => (heach s hs).1⟩, fun s hs => (heach s hs).2⟩
    · rintro ⟨⟨rfl, heach⟩, hn⟩
      obtain ⟨d, rfl⟩ := Nat.exists_eq_add_of_le' (Nat.le_trans (Nat.le_add_left 1 _) hn)
      rw [Nat.add_le_add_iff_right, itemsNesting_le_iff] at hn
      obtain ⟨vs, hvs⟩ := exists_values_iff.2 fun s hs => ⟨heach s hs, hn s hs⟩
      exact ⟨.array vs, d, vs, rfl, hvs, rfl, rfl⟩
  | depth, .object members stop => by
    simp only [value_object_eq_ok_iff, isKept_object_iff, nesting]
    constructor
    · rintro ⟨_, d, ms, rfl, hms, rfl, -⟩
      have heach := exists_memberValues_iff.1 ⟨ms, hms⟩
      rw [Nat.add_le_add_iff_right, membersNesting_le_iff]
      exact ⟨⟨rfl, fun m hm => (heach m hm).1⟩, fun m hm => (heach m hm).2⟩
    · rintro ⟨⟨rfl, heach⟩, hn⟩
      obtain ⟨d, rfl⟩ := Nat.exists_eq_add_of_le' (Nat.le_trans (Nat.le_add_left 1 _) hn)
      rw [Nat.add_le_add_iff_right, membersNesting_le_iff] at hn
      obtain ⟨ms, hms⟩ := exists_memberValues_iff.2 fun m hm => ⟨heach m hm, hn m hm⟩
      exact ⟨.object (Members.ofList ms), d, ms, rfl, hms, rfl, rfl⟩
  | _, .broken f => by
    constructor
    · rintro ⟨_, h⟩
      cases h
    · rintro ⟨h, -⟩
      cases h
  | _, .cutNumeral => by
    constructor
    · rintro ⟨_, h⟩
      cases h
    · rintro ⟨h, -⟩
      cases h

theorem exists_values_iff : ∀ {depth : Nat} {ss : List Shape},
    (∃ vs, values depth ss = .ok vs) ↔ ∀ s ∈ ss, s.IsKept ∧ s.nesting ≤ depth
  | _, [] => ⟨fun _ => List.forall_mem_nil _, fun _ => ⟨[], rfl⟩⟩
  | _, s :: ss => by
    rw [List.forall_mem_cons, ← exists_value_iff, ← exists_values_iff]
    simp only [values_cons_eq_ok_iff]
    constructor
    · rintro ⟨_, v, vs, hv, hvs, -⟩
      exact ⟨⟨v, hv⟩, vs, hvs⟩
    · rintro ⟨⟨v, hv⟩, vs, hvs⟩
      exact ⟨v :: vs, v, vs, hv, hvs, rfl⟩

theorem exists_memberValues_iff : ∀ {depth : Nat} {members : List (Quoted × Shape)},
    (∃ ms, memberValues depth members = .ok ms) ↔
      ∀ m ∈ members, (m.1.IsText ∧ m.2.IsKept) ∧ m.2.nesting ≤ depth
  | _, [] => ⟨fun _ => List.forall_mem_nil _, fun _ => ⟨[], rfl⟩⟩
  | _, (q, s) :: members => by
    rw [List.forall_mem_cons, ← exists_memberValues_iff]
    simp only [memberValues_cons_eq_ok_iff]
    constructor
    · rintro ⟨_, k, v, ms, hk, hv, hms, -⟩
      obtain ⟨hkept, hn⟩ := exists_value_iff.1 ⟨v, hv⟩
      exact ⟨⟨⟨⟨k, hk⟩, hkept⟩, hn⟩, ms, hms⟩
    · rintro ⟨⟨⟨⟨k, hk⟩, hkept⟩, hn⟩, ms, hms⟩
      obtain ⟨v, hv⟩ := exists_value_iff.2 ⟨hkept, hn⟩
      exact ⟨(k, v) :: ms, k, v, ms, hk, hv, hms, rfl⟩

end

/-! ### Texts -/

/-- A quoted text that stands for a text, or null. -/
def IsTextOrNull : Shape → Prop
  | .null => True
  | .string q => q.IsText
  | .bool _ | .number _ | .array .. | .object .. | .broken _ | .cutNumeral => False

theorem exists_textOrNull_iff {s : Shape} : (∃ t, s.textOrNull = .ok t) ↔ s.IsTextOrNull := by
  cases s with
  | string q => exact Iff.rfl
  | _ => simp [textOrNull, text, IsTextOrNull]

/-! ### Passing over -/

theorem stop_of_spellsQuoted {bs : List UInt8} {q : Quoted} (h : SpellsQuoted bs q) :
    q.stop = none := by
  cases h
  rfl

mutual

/-- **Whatever the grammar lets through can be passed over**, whether it can be kept or not. -/
theorem skip_of_spells : ∀ {bs : List UInt8} {s : Shape}, Spells bs s → s.skip = .ok ()
  | _, _, .null | _, _, .true | _, _, .false | _, _, .number _ => by rw [skip]
  | _, _, .string h => by rw [skip, stop_of_spellsQuoted h, closed]
  | _, _, .emptyArray _ | _, _, .emptyObject _ => by
    rw [skip]
    rfl
  | _, _, .array h => skip_array_eq_ok_iff.2 (skip_of_spellItems h)
  | _, _, .object h => skip_object_eq_ok_iff.2 (skip_of_spellMembers h)

theorem skip_of_spellsPadded : ∀ {bs : List UInt8} {s : Shape},
    SpellsPadded bs s → s.skip = .ok ()
  | _, _, .blanks _ h _ => skip_of_spells h

theorem skip_of_spellsMember : ∀ {bs : List UInt8} {m : Quoted × Shape},
    SpellsMember bs m → m.1.stop = none ∧ m.2.skip = .ok ()
  | _, _, .member _ hq _ h => ⟨stop_of_spellsQuoted hq, skip_of_spellsPadded h⟩

theorem skip_of_spellItems : ∀ {bs : List UInt8} {ss : List Shape},
    SpellItems bs ss → ∀ s ∈ ss, s.skip = .ok ()
  | _, _, .last h => by
    rw [List.forall_mem_singleton]
    exact skip_of_spellsPadded h
  | _, _, .cons h hs => List.forall_mem_cons.2 ⟨skip_of_spellsPadded h, skip_of_spellItems hs⟩

theorem skip_of_spellMembers : ∀ {bs : List UInt8} {ms : List (Quoted × Shape)},
    SpellMembers bs ms → ∀ m ∈ ms, m.1.stop = none ∧ m.2.skip = .ok ()
  | _, _, .last h => by
    rw [List.forall_mem_singleton]
    exact skip_of_spellsMember h
  | _, _, .cons h hs => List.forall_mem_cons.2 ⟨skip_of_spellsMember h, skip_of_spellMembers hs⟩

end

end Shape

end Herald.Json
