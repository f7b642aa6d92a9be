import Herald.Json.Record
import Herald.Proofs.Json.Nesting
import Herald.Proofs.Json.Yields

/-!
# Records that are read

* `Shape.yields_recordMembers_cons`: all that can have happened at one member of an object;
* `Shape.yields_recordMembers_of_mem`: what a known member does to a record is there in the end, if
  the members under other keys leave it alone. As no known key may stand twice, there is no other
  member that could undo it;
* `Shape.of_yields_record`, `Value.of_value_record?`: what holds of a record at the start and is
  kept by all that is put in holds of the record in the end;
* `Value.all_record?`: the notices of a record come from what is put into it.
-/

namespace Herald.Json

namespace Shape

variable {σ β : Type} {keys : List String} {put : Nat → String → Shape → σ → Reading σ}
  {depth : Nat} {seen : List String} {r r' : σ} {ns : List Notice}

theorem yields_recordMembers_nil :
    (recordMembers keys put depth seen r []).Yields r' ns ↔ r' = r ∧ ns = [] :=
  Reading.yields_pure

/-- A member has a known key that is new, and is put in, or an unknown key, and is passed over. -/
theorem yields_recordMembers_cons {q : Quoted} {s : Shape} {ms : List (Quoted × Shape)} :
    (recordMembers keys put depth seen r ((q, s) :: ms)).Yields r' ns ↔
      ∃ k, q.decode = .ok k ∧
        ((k ∈ keys ∧ k ∉ seen ∧ ∃ r₁ ns₁ ns₂, (put depth k s r).Yields r₁ ns₁ ∧
            (recordMembers keys put depth (k :: seen) r₁ ms).Yields r' ns₂ ∧ ns = ns₁ ++ ns₂) ∨
          (k ∉ keys ∧ s.skip = .ok () ∧
            (recordMembers keys put depth seen r ms).Yields r' ns)) := by
  rw [recordMembers, Reading.yields_ofExcept_bind]
  refine exists_congr fun k => and_congr_right fun _ => ?_
  by_cases hk : k ∈ keys
  · by_cases hs : k ∈ seen
    · simp [hk, hs, Reading.yields_throw]
    · simp [hk, hs, Reading.yields_bind]
  · have hu : (∃ u, s.skip = .ok u) ↔ s.skip = .ok () := ⟨fun ⟨_, h⟩ => h, fun h => ⟨_, h⟩⟩
    simp [hk, Reading.yields_ofExcept_bind, hu]

/-! ### What is kept -/

section Invariant

variable {P : σ → Prop}

theorem of_yields_recordMembers {ms : List (Quoted × Shape)}
    (hp : ∀ k s r r' ns, P r → (put depth k s r).Yields r' ns → P r') (hr : P r)
    (h : (recordMembers keys put depth seen r ms).Yields r' ns) : P r' := by
  induction ms generalizing seen r ns with
  | nil =>
    obtain ⟨rfl, -⟩ := yields_recordMembers_nil.1 h
    exact hr
  | cons m ms ih =>
    obtain ⟨k, -, hm⟩ := yields_recordMembers_cons.1 h
    rcases hm with ⟨-, -, r₁, ns₁, ns₂, hput, hrest, -⟩ | ⟨-, -, hrest⟩
    · exact ih (hp k m.2 r r₁ ns₁ hr hput) hrest
    · exact ih hr hrest

theorem of_yields_recordItems {items : Items}
    (hp : ∀ k s r r' ns, P r → (put depth k s r).Yields r' ns → P r') (hr : P r)
    (h : (recordItems put depth r keys items).Yields r' ns) : P r' := by
  induction keys generalizing items r ns with
  | nil =>
    obtain ⟨_, -, rfl, -⟩ := Reading.yields_ofExcept_pure.1 h
    exact hr
  | cons key keys ih =>
    obtain ⟨o, -, h⟩ := Reading.yields_ofExcept_bind.1 h
    cases o with
    | none =>
      obtain ⟨rfl, -⟩ := Reading.yields_pure.1 h
      exact hr
    | some p =>
      obtain ⟨r₁, ns₁, ns₂, hput, hrest, -⟩ := Reading.yields_bind.1 h
      exact ih (hp key p.1 r r₁ ns₁ hr hput) hrest

/-- **What holds at the start and is kept by all that is put in holds in the end.** -/
theorem of_yields_record {start : σ} {s : Shape}
    (hp : ∀ d, depth = d + 1 →
      ∀ k s r r' ns, P r → (put d k s r).Yields r' ns → P r') (hr : P start)
    (h : (s.record keys put start depth).Yields r' ns) : P r' := by
  cases s with
  | object members stop =>
    obtain ⟨d, hd, h⟩ := Reading.yields_ofExcept_bind.1 h
    obtain ⟨r, ns₁, ns₂, hm, hc, -⟩ := Reading.yields_bind.1 h
    obtain ⟨_, -, rfl, -⟩ := Reading.yields_ofExcept_pure.1 hc
    exact of_yields_recordMembers (hp d (enter_eq_ok_iff.1 hd)) hr hm
  | array items stop =>
    obtain ⟨d, hd, h⟩ := Reading.yields_ofExcept_bind.1 h
    exact of_yields_recordItems (hp d (enter_eq_ok_iff.1 hd)) hr h
  | _ => exact (Reading.yields_throw.1 h).elim

end Invariant

section Effect

variable {key : String} {view : σ → β} {ms : List (Quoted × Shape)}

/-- Members under other keys do nothing to what is looked at, and give no notice. -/
def LeavesAlone (put : Nat → String → Shape → σ → Reading σ) (depth : Nat) (key : String)
    (view : σ → β) : Prop :=
  ∀ k ≠ key, ∀ s r r' ns, (put depth k s r).Yields r' ns → view r' = view r ∧ ns = []

/-- A key that has been seen does not come again. -/
theorem yields_recordMembers_of_seen (hl : LeavesAlone put depth key view) (hk : key ∈ keys)
    (hs : key ∈ seen) (h : (recordMembers keys put depth seen r ms).Yields r' ns) :
    view r' = view r ∧ ns = [] ∧ ∀ m ∈ ms, m.1.decode ≠ .ok key := by
  induction ms generalizing seen r ns with
  | nil =>
    obtain ⟨rfl, rfl⟩ := yields_recordMembers_nil.1 h
    simp
  | cons m ms ih =>
    obtain ⟨k, hq, hm⟩ := yields_recordMembers_cons.1 h
    rcases hm with ⟨-, hns, r₁, ns₁, ns₂, hp, hr, rfl⟩ | ⟨hnk, -, hr⟩
    · have hne : k ≠ key := fun he => hns (he ▸ hs)
      obtain ⟨hv, rfl⟩ := hl k hne _ _ _ _ hp
      obtain ⟨hv', rfl, hms⟩ := ih (List.mem_cons_of_mem _ hs) hr
      refine ⟨hv'.trans hv, rfl, List.forall_mem_cons.2 ⟨?_, hms⟩⟩
      simpa [hq] using hne
    · have hne : k ≠ key := fun he => hnk (he ▸ hk)
      obtain ⟨hv, rfl, hms⟩ := ih hs hr
      refine ⟨hv, rfl, List.forall_mem_cons.2 ⟨?_, hms⟩⟩
      simpa [hq] using hne

/-- **What a known member does to a record is there in the end.** -/
theorem yields_recordMembers_of_mem {P : Shape → β → List Notice → Prop}
    (hl : LeavesAlone put depth key view) (hk : key ∈ keys)
    (hP : ∀ s r r' ns, (put depth key s r).Yields r' ns → P s (view r') ns)
    {q : Quoted} {s : Shape} (hm : (q, s) ∈ ms) (hq : q.decode = .ok key)
    (h : (recordMembers keys put depth seen r ms).Yields r' ns) : P s (view r') ns := by
  induction ms generalizing seen r ns with
  | nil => simp at hm
  | cons m ms ih =>
    obtain ⟨k, hd, hc⟩ := yields_recordMembers_cons.1 h
    rcases hc with ⟨-, -, r₁, ns₁, ns₂, hp, hr, rfl⟩ | ⟨hnk, -, hr⟩
    · by_cases hkey : k = key
      · -- This is the member: its key is seen from here on.
        subst hkey
        obtain ⟨hv, rfl, hms⟩ := yields_recordMembers_of_seen hl hk List.mem_cons_self hr
        rcases List.mem_cons.1 hm with rfl | hm
        · rw [hv, List.append_nil]
          exact hP _ _ _ _ hp
        · exact absurd hq (hms _ hm)
      · obtain ⟨-, rfl⟩ := hl k hkey _ _ _ _ hp
        rcases List.mem_cons.1 hm with rfl | hm
        · rw [hq] at hd
          exact absurd (Except.ok.inj hd).symm hkey
        · exact ih hm hr
    · rcases List.mem_cons.1 hm with rfl | hm
      · rw [hq] at hd
        exact absurd (Except.ok.inj hd ▸ hk) hnk
      · exact ih hm hr

end Effect

end Shape

namespace Value

variable {σ : Type} {P : Notice → Prop} {put : String → Value → σ → Noted (Option σ)}

theorem all_recordMembers? (hp : ∀ k v r, (put k v r).All P) (keys seen : List String) (r : σ)
    (ms : List (String × Value)) : (recordMembers? keys put seen r ms).All P := by
  induction ms generalizing seen r with
  | nil => exact Noted.all_pure _
  | cons m ms ih =>
    obtain ⟨k, v⟩ := m
    rw [recordMembers?]
    split
    · split
      · exact Noted.all_pure none
      · rw [Noted.all_bind]
        refine ⟨hp k v r, ?_⟩
        cases (put k v r).value with
        | none => exact Noted.all_pure none
        | some r' => exact ih _ r'
    · exact ih seen r

theorem all_recordItems? (hp : ∀ k v r, (put k v r).All P) (keys : List String) (r : σ)
    (vs : List Value) : (recordItems? put r keys vs).All P := by
  induction vs generalizing keys r with
  | nil => simp [recordItems?]
  | cons v vs ih =>
    cases keys with
    | nil => exact Noted.all_pure none
    | cons k keys =>
      rw [recordItems?, Noted.all_bind]
      refine ⟨hp k v r, ?_⟩
      cases (put k v r).value with
      | none => exact Noted.all_pure none
      | some r' => exact ih keys r'

section Invariant

variable {Q : σ → Prop} {keys : List String} {r r' : σ}

theorem of_value_recordMembers? {seen : List String} {ms : List (String × Value)}
    (hp : ∀ k, ∀ m ∈ ms, ∀ r r', Q r → (put k m.2 r).value = some r' → Q r') (hr : Q r)
    (h : (recordMembers? keys put seen r ms).value = some r') : Q r' := by
  induction ms generalizing seen r with
  | nil =>
    cases h
    exact hr
  | cons m ms ih =>
    have hp' := fun k a ha => hp k a (List.mem_cons_of_mem _ ha)
    rw [recordMembers?] at h
    split at h
    · split at h
      · cases h
      · rw [Noted.value_bind] at h
        cases hput : (put m.1 m.2 r).value with
        | none =>
          rw [hput] at h
          cases h
        | some r₁ =>
          rw [hput] at h
          exact ih hp' (hp m.1 m List.mem_cons_self r r₁ hr hput) h
    · exact ih hp' hr h

theorem of_value_recordItems? {vs : List Value}
    (hp : ∀ k, ∀ v ∈ vs, ∀ r r', Q r → (put k v r).value = some r' → Q r') (hr : Q r)
    (h : (recordItems? put r keys vs).value = some r') : Q r' := by
  induction vs generalizing keys r with
  | nil =>
    rw [recordItems?] at h
    cases h
    exact hr
  | cons v vs ih =>
    cases keys with
    | nil => cases h
    | cons k keys =>
      rw [recordItems?, Noted.value_bind] at h
      cases hput : (put k v r).value with
      | none =>
        rw [hput] at h
        cases h
      | some r₁ =>
        rw [hput] at h
        exact ih (fun k w hw => hp k w (List.mem_cons_of_mem _ hw))
          (hp k v List.mem_cons_self r r₁ hr hput) h

/-- What holds at the start and is kept by all that is put in holds in the end. -/
theorem of_value_record? {start : σ} {v : Value}
    (hp : ∀ k, ∀ w ∈ v.parts, ∀ r r', Q r → (put k w r).value = some r' → Q r')
    (hr : Q start) (h : (v.record? keys put start).value = some r') : Q r' := by
  cases v with
  | object ms =>
    refine of_value_recordMembers? (fun k m hm => ?_) hr h
    exact hp k m.2 (List.mem_map_of_mem hm)
  | array items => exact of_value_recordItems? hp hr h
  | _ => cases h

end Invariant

/-- A record gives the notices of what is put into it. -/
theorem all_record? (hp : ∀ k v r, (put k v r).All P) (keys : List String) (start : σ)
    (v : Value) : (v.record? keys put start).All P := by
  cases v with
  | object ms => exact all_recordMembers? hp keys [] start ms
  | array items => exact all_recordItems? hp keys start items
  | _ => exact Noted.all_pure none

end Value

end Herald.Json
