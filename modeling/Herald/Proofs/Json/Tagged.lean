import Herald.Json.Tagged
import Herald.Proofs.Json.Lookup

/-!
# Tagged forms, by their values

The kind of a tagged form may stand anywhere among its members. What is kept of the form is what its
value has besides the kind.

* `Shape.text_eq_ok_iff`: a shape has the text that its value is;
* `Shape.taggedMembers_of_ne`: members without a kind among them are all kept;
* `Shape.toOption_taggedMembers`: the kind of an object, and its other members;
* `Shape.keepAll_of_values`: the items that are kept.
-/

namespace Herald.Json

namespace Members

theorem get?_filter_ne {key k : String} (h : key ≠ k) (ms : Members) :
    get? key (ms.filter (·.1 ≠ k)) = get? key ms := by
  induction ms with
  | nil => rfl
  | cons m ms ih =>
    by_cases hm : m.1 = k
    · rw [List.filter_cons_of_neg (by simp [hm]), ih]
      exact (get?_cons_of_ne (hm ▸ h)).symm
    · rw [List.filter_cons_of_pos (by simp [hm])]
      show (if key = m.1 then _ else _) = if key = m.1 then _ else _
      rw [ih]

end Members

namespace Shape

variable {depth : Nat} {known : String → Bool}

/-- Only quoted texts have a text, and their value is the same text. -/
theorem text_eq_ok_iff {s : Shape} {t : String} :
    s.text = .ok t ↔ s.value depth = .ok (.string t) := by
  cases s with
  | number n => simp [text, value_number_eq_ok_iff]
  | string q => simp [text, value_string_eq_ok_iff]
  | array items stop => simp [text, value_array_eq_ok_iff]
  | object members stop => simp [text, value_object_eq_ok_iff]
  | _ => simp [text, value]

/-- A kind is a text, where every kind is known. -/
theorem toOption_kind {s : Shape} {v : Value} (h : s.value depth = .ok v) :
    (s.kind fun _ => true).toOption = v.text? := by
  have htext : s.kind (fun _ => true) = s.text := by
    rw [kind]
    cases s.text <;> rfl
  rw [htext]
  cases ht : s.text with
  | ok t =>
    rw [text_eq_ok_iff, h] at ht
    cases ht
    rfl
  | error f =>
    cases v with
    | string t =>
      rw [text_eq_ok_iff.2 h] at ht
      cases ht
    | _ => rfl

/-- The members that are kept, with their values. -/
def valued (ks : List (String × Kept)) : List (String × Value) := ks.map fun m => (m.1, m.2.value)

theorem keep_of_value {s : Shape} {v : Value} (h : s.value depth = .ok v) :
    s.keep depth = .ok ⟨s, v⟩ := by
  rw [keep, h]
  rfl

/-- Members are all kept if none of them is a kind. -/
theorem taggedMembers_of_ne {members : List (Quoted × Shape)} {ms : List (String × Value)}
    (hms : memberValues depth members = .ok ms) (hk : ∀ m ∈ ms, m.1 ≠ "type")
    (found : Option String) :
    ∃ ks, taggedMembers known depth found members = .ok (found, ks) ∧ valued ks = ms := by
  induction members generalizing ms with
  | nil =>
    cases hms
    exact ⟨[], rfl, rfl⟩
  | cons m members ih =>
    obtain ⟨k, v, ms', hq, hv, hms', rfl⟩ := memberValues_cons_eq_ok_iff.1 hms
    obtain ⟨hne, hk'⟩ := List.forall_mem_cons.1 hk
    obtain ⟨ks, hks, rfl⟩ := ih hms' hk'
    refine ⟨(k, ⟨m.2, v⟩) :: ks, ?_, rfl⟩
    rw [taggedMembers, hq]
    show (if k = "type" then _ else _) = _
    rw [if_neg hne, keep_of_value hv, hks]
    rfl

/-- The kind of an object and its other members, in the order of the text. -/
theorem toOption_taggedMembers {members : List (Quoted × Shape)} {ms : List (String × Value)}
    (hms : memberValues depth members = .ok ms) (hd : Members.AreDistinct ms) :
    ((taggedMembers (fun _ => true) depth none members).toOption.bind fun r =>
        r.1.map fun k => (k, valued r.2))
      = ((Members.get? "type" ms).bind Value.text?).map fun k =>
          (k, ms.filter (·.1 ≠ "type")) := by
  induction members generalizing ms with
  | nil =>
    cases hms
    rfl
  | cons m members ih =>
    obtain ⟨k, v, ms', hq, hv, hms', rfl⟩ := memberValues_cons_eq_ok_iff.1 hms
    obtain ⟨hne, hd'⟩ := Members.areDistinct_cons.1 hd
    rw [taggedMembers, hq]
    by_cases hk : k = "type"
    -- After the kind all members are kept.
    · subst hk
      have hkind := toOption_kind hv
      have hothers : (("type", v) :: ms').filter (·.1 ≠ "type") = ms' := by
        rw [List.filter_cons_of_neg (by simp)]
        exact List.filter_eq_self.2 fun a ha => decide_eq_true (hne a ha)
      rw [hothers, Members.get?_cons, if_pos rfl, Option.bind_some, ← hkind]
      show ((m.2.kind _ >>= fun k => taggedMembers _ depth (some k) members).toOption.bind _) = _
      cases m.2.kind fun _ => true with
      | error f => rfl
      | ok t =>
        obtain ⟨ks, hks, rfl⟩ := taggedMembers_of_ne hms' hne (some t)
        show ((taggedMembers _ depth (some t) members).toOption.bind _) = _
        rw [hks]
        rfl
    -- Before it, a member is kept and stands before what is kept later.
    · have hothers : ((k, v) :: ms').filter (·.1 ≠ "type") = (k, v) :: ms'.filter (·.1 ≠ "type") :=
        List.filter_cons_of_pos (decide_eq_true hk)
      have hrest : ((taggedMembers (fun _ => true) depth none members).toOption.bind fun r =>
            r.1.map fun kind => (kind, (k, v) :: valued r.2))
          = ((Members.get? "type" ms').bind Value.text?).map fun kind =>
              (kind, (k, v) :: ms'.filter (·.1 ≠ "type")) := by
        have hmap := congrArg (Option.map fun r => (r.1, (k, v) :: r.2)) (ih hms' hd')
        simpa [Option.map_bind, Function.comp_def] using hmap
      rw [hothers, Members.get?_cons_of_ne (Ne.symm hk), ← hrest]
      show ((if k = "type" then _ else _ : Except Fault _).toOption.bind _) = _
      rw [if_neg hk, keep_of_value hv]
      cases taggedMembers (fun _ => true) depth none members with
      | error f => rfl
      | ok r => rfl

/-- Items that have values are all kept. -/
theorem keepAll_of_values {items : List Shape} {vs : List Value}
    (h : values depth items = .ok vs) :
    ∃ ks, keepAll depth items = .ok ks ∧ ks.map Kept.value = vs := by
  induction items generalizing vs with
  | nil =>
    cases h
    exact ⟨[], rfl, rfl⟩
  | cons s items ih =>
    obtain ⟨v, vs', hv, hvs, rfl⟩ := values_cons_eq_ok_iff.1 h
    obtain ⟨ks, hks, rfl⟩ := ih hvs
    refine ⟨⟨s, v⟩ :: ks, ?_, rfl⟩
    rw [keepAll, keep_of_value hv, hks]
    rfl

end Shape

end Herald.Json
