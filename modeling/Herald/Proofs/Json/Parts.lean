import Herald.Proofs.Json.Kept

/-!
# Records, part by part

A record is read in the order of the text. If no key stands twice and what is put in may be put in
in any order, it is read in the order of its keys: from each key the shape that stands under it.

* `Shape.partOrNull`: the shape under a key, null if there is none;
* `Shape.putParts`: the shapes under the keys put in, one key after another;
* `Shape.result?_record_eq_putParts`: the record of an object whose members may be passed over. A
  key that is no text loses it (`Shape.result?_record_of_not_isText`).
-/

namespace Herald.Json.Shape

variable {σ : Type} {keys : List String} {read : Nat → String → Shape → σ → Reading σ}
  {depth : Nat} {r : σ} {q : Quoted} {s : Shape} {ms : List (Quoted × Shape)} {k : String}

/-! ### Shapes under keys -/

theorem last?_eq_none (h : k ∉ keysOf ms) : last? k ms = none := by
  induction ms with
  | nil => rfl
  | cons m ms ih =>
    have hm : m.1.decode.toOption ≠ some k := by
      intro he
      exact h (List.mem_filterMap.2 ⟨m, List.mem_cons_self, he⟩)
    have hms : k ∉ keysOf ms := by
      intro hk
      obtain ⟨m', hm', he⟩ := List.mem_filterMap.1 hk
      exact h (List.mem_filterMap.2 ⟨m', List.mem_cons_of_mem _ hm', he⟩)
    rw [last?, ih hms, if_neg hm]
    rfl

theorem mem_of_last? (h : last? k ms = some s) : ∃ q, q.decode = .ok k ∧ (q, s) ∈ ms := by
  induction ms with
  | nil => cases h
  | cons m ms ih =>
    rw [last?, Option.or_eq_some_iff] at h
    rcases h with h | ⟨-, h⟩
    · obtain ⟨q, hq, hm⟩ := ih h
      exact ⟨q, hq, List.mem_cons_of_mem _ hm⟩
    · split at h
      · rename_i hk
        cases h
        exact ⟨m.1, ok_of_toOption hk, List.mem_cons_self⟩
      · cases h

theorem last?_cons_of_ne (hq : q.decode = .ok k) {k' : String} (h : k ≠ k') :
    last? k' ((q, s) :: ms) = last? k' ms := by
  have hne : q.decode.toOption ≠ some k' := by
    rw [hq]
    exact fun he => h (Option.some.inj he)
  rw [last?, if_neg hne, Option.or_none]

theorem last?_cons_self (hq : q.decode = .ok k) (h : k ∉ keysOf ms) :
    last? k ((q, s) :: ms) = some s := by
  rw [last?, last?_eq_none h, hq]
  exact if_pos rfl

/-- The shape under a key of an object, null if there is none. -/
def partOrNull (key : String) (ms : List (Quoted × Shape)) : Shape := (last? key ms).getD .null

/-- What holds of null and of all members holds of each part. -/
theorem of_partOrNull {P : Shape → Prop} (hnull : P .null) (h : ∀ m ∈ ms, P m.2) (key : String) :
    P (partOrNull key ms) := by
  unfold partOrNull
  cases hs : last? key ms with
  | none => exact hnull
  | some s =>
    obtain ⟨q, -, hm⟩ := mem_of_last? hs
    exact h _ hm

/-! ### Putting parts in -/

/-- Put in the shape under a key, if there is one. -/
def putPart (read : Nat → String → Shape → σ → Reading σ) (depth : Nat)
    (ms : List (Quoted × Shape)) (r : σ) (k : String) : Option σ :=
  match last? k ms with
  | some s => (read depth k s r).result?
  | none => some r

/-- Where null changes nothing, what is absent counts as null. -/
theorem putPart_eq (h : (read depth k .null r).result? = some r) :
    putPart read depth ms r k = (read depth k (partOrNull k ms) r).result? := by
  unfold putPart partOrNull
  cases last? k ms with
  | none => exact h.symm
  | some s => rfl

/-- A part that is put in by what is read of it, before whatever comes next. -/
theorem putPart_bind {α τ : Type} {x : Option α} {f : α → σ}
    (hnull : (read depth k .null r).result? = some r)
    (hx : (read depth k (partOrNull k ms) r).result? = x.map f) (g : σ → Option τ) :
    (putPart read depth ms r k).bind g = x.bind fun a => g (f a) := by
  rw [putPart_eq hnull, hx, Option.bind_map]
  rfl

/-- Put in the shapes under the keys, one key after another. -/
def putParts (read : Nat → String → Shape → σ → Reading σ) (depth : Nat)
    (ms : List (Quoted × Shape)) (keys : List String) (r : σ) : Option σ :=
  keys.foldlM (putPart read depth ms) r

/-- A member under another key makes no difference. -/
theorem putParts_cons_of_not_mem (hq : q.decode = .ok k) (hk : k ∉ keys) :
    putParts read depth ((q, s) :: ms) keys r = putParts read depth ms keys r := by
  unfold putParts
  induction keys generalizing r with
  | nil => rfl
  | cons key keys ih =>
    obtain ⟨hkey, hkeys⟩ := not_or.1 (mt List.mem_cons.2 hk)
    rw [List.foldlM_cons, List.foldlM_cons, putPart, last?_cons_of_ne hq hkey]
    exact Option.bind_congr fun r _ => ih hkeys

/-- The first member may be put in before all others. -/
theorem putParts_cons_of_mem {all : List String} (hc : ReadsCommute all read depth)
    (hall : ∀ key ∈ keys, key ∈ all) (hn : keys.Nodup) (hq : q.decode = .ok k) (hk : k ∈ keys)
    (hnew : k ∉ keysOf ms) :
    putParts read depth ((q, s) :: ms) keys r
      = (read depth k s r).result?.bind (putParts read depth ms keys) := by
  induction keys generalizing r with
  | nil => cases hk
  | cons key keys ih =>
    obtain ⟨hkey, hn⟩ := List.nodup_cons.1 hn
    obtain ⟨hkeyAll, hall⟩ := List.forall_mem_cons.1 hall
    show (putPart read depth ((q, s) :: ms) r key).bind (putParts read depth ((q, s) :: ms) keys)
      = (read depth k s r).result?.bind fun r =>
          (putPart read depth ms r key).bind (putParts read depth ms keys)
    by_cases he : k = key
    · -- Here its key comes; no other member stands under it.
      subst he
      simp only [putPart, last?_cons_self hq hnew, last?_eq_none hnew]
      exact Option.bind_congr fun r _ => putParts_cons_of_not_mem hq hkey
    · -- Its key comes later, and changes places with the one that comes first.
      have hk : k ∈ keys := (List.mem_cons.1 hk).resolve_left he
      have hrest : putParts read depth ((q, s) :: ms) keys
          = fun r => (read depth k s r).result?.bind (putParts read depth ms keys) :=
        funext fun r => ih hall hn hk
      rw [hrest, putPart, last?_cons_of_ne hq he]
      cases hs : last? key ms with
      | none =>
        simp only [putPart, hs]
        rfl
      | some s' =>
        simp only [putPart, hs]
        rw [← Option.bind_assoc, ← Option.bind_assoc, hc k (hall k hk) key hkeyAll he]

/-! ### Records -/

/-- A key that is no text is fatal, wherever it stands. -/
theorem foldlM_recordStep_of_not_isText (h : ¬ ∀ m ∈ ms, m.1.IsText) :
    ms.foldlM (recordStep keys read depth) r = none := by
  induction ms generalizing r with
  | nil => exact absurd (List.forall_mem_nil _) h
  | cons m ms ih =>
    rw [List.foldlM_cons]
    by_cases hm : m.1.IsText
    · have hms : ¬ ∀ m ∈ ms, m.1.IsText := fun hms => h (List.forall_mem_cons.2 ⟨hm, hms⟩)
      exact Option.bind_eq_none_iff.2 fun r _ => ih hms
    · have hnone : m.1.decode.toOption = none := by
        cases hd : m.1.decode with
        | ok t => exact absurd ⟨t, hd⟩ hm
        | error f => rfl
      rw [recordStep, hnone]
      rfl

theorem foldlM_recordStep_eq_putParts (hc : ReadsCommute keys read depth) (hn : keys.Nodup)
    (hd : (keysOf ms).Nodup) (htexts : ∀ m ∈ ms, m.1.IsText)
    (hskip : ∀ m ∈ ms, m.2.skip = .ok ()) :
    ms.foldlM (recordStep keys read depth) r = putParts read depth ms keys r := by
  induction ms generalizing r with
  | nil =>
    have hkeep : ∀ keys : List String, putParts read depth [] keys r = some r := by
      intro keys
      induction keys with
      | nil => rfl
      | cons key keys ih => exact ih
    exact (hkeep keys).symm
  | cons m ms ih =>
    obtain ⟨⟨k, hq⟩, htexts⟩ := List.forall_mem_cons.1 htexts
    obtain ⟨hs, hskip⟩ := List.forall_mem_cons.1 hskip
    have hkeys : keysOf (m :: ms) = k :: keysOf ms :=
      List.filterMap_cons_some (congrArg Except.toOption hq)
    rw [hkeys] at hd
    obtain ⟨hnew, hd⟩ := List.nodup_cons.1 hd
    rw [List.foldlM_cons, recordStep, hq]
    show (if k ∈ keys then (read depth k m.2 r).result?
      else m.2.skip.toOption.map fun _ => r).bind _ = _
    by_cases hk : k ∈ keys
    · rw [if_pos hk, putParts_cons_of_mem hc (fun _ h => h) hn hq hk hnew]
      exact Option.bind_congr fun r _ => ih hd htexts hskip
    · rw [if_neg hk, putParts_cons_of_not_mem hq hk, hs]
      exact ih hd htexts hskip

/-- **The record of an object, part by part**, if all its keys are texts. -/
theorem result?_record_eq_putParts (hc : ReadsCommute keys read depth) (hn : keys.Nodup)
    (hd : (keysOf ms).Nodup) (htexts : ∀ m ∈ ms, m.1.IsText)
    (hskip : ∀ m ∈ ms, m.2.skip = .ok ()) :
    ((object ms none).record keys read r (depth + 1)).result? = putParts read depth ms keys r := by
  rw [result?_record_object, result?_recordMembers_eq_foldlM hd (by simp)]
  exact foldlM_recordStep_eq_putParts hc hn hd htexts hskip

theorem result?_record_of_not_isText (hd : (keysOf ms).Nodup) (h : ¬ ∀ m ∈ ms, m.1.IsText) :
    ((object ms none).record keys read r (depth + 1)).result? = none := by
  rw [result?_record_object, result?_recordMembers_eq_foldlM hd (by simp)]
  exact foldlM_recordStep_of_not_isText h

end Herald.Json.Shape
