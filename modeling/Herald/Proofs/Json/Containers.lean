import Herald.Proofs.Json.Lookup

/-!
# Containers, part by part

What becomes of a container when one part of it is exchanged for another, when its members change
places, or when a member joins them.

* `Shape.toOption_value_array`, `Shape.toOption_value_object`: the value of a container from the
  values of its parts;
* `Shape.rel_value_item`, `Shape.rel_value_member`: one part exchanged;
* `Shape.value_object_eq_of_perm`: members in another order, no two of them under one key;
* `Shape.skip_array_eq_ok_iff`, `Shape.skip_object_eq_ok_iff`: passing over a container is passing
  over its parts;
* `Shape.result?_record_item` and its likes: the same for records, which are read from the shape.
-/

namespace Herald.Json

theorem toOption_bind {α β : Type} (x : Except Fault α) (f : α → Except Fault β) :
    (x >>= f).toOption = x.toOption.bind fun a => (f a).toOption := by
  cases x <;> rfl

theorem ok_of_toOption {α : Type} {x : Except Fault α} {a : α} (h : x.toOption = some a) :
    x = .ok a := by
  cases x with
  | error f => cases h
  | ok b => exact congrArg _ (Option.some.inj h)

theorem rel_imp {R S : Value → Value → Prop} {o o' : Option Value} (hi : ∀ v w, R v w → S v w)
    (h : Option.Rel R o o') : Option.Rel S o o' := by
  cases h with
  | none => exact .none
  | some h => exact .some (hi _ _ h)

theorem map_eq_of_rel {α : Type} {R : Value → Value → Prop} {o o' : Option Value}
    (h : Option.Rel R o o') {f : Value → α} (hf : ∀ v w, R v w → f v = f w) :
    o.map f = o'.map f := by
  cases h with
  | none => rfl
  | some h => exact congrArg some (hf _ _ h)

/-! ### Members -/

namespace Members

/-- Members with ascending keys are the same if the same is found under each key. -/
theorem ext_get? {ms ms' : Members} (h : IsSorted ms) (h' : IsSorted ms')
    (hget : ∀ k, get? k ms = get? k ms') : ms = ms' := by
  have hmem : ∀ m, m ∈ ms ↔ m ∈ ms' := fun m => by
    rw [← h.areDistinct.get?_eq_some_iff, ← h'.areDistinct.get?_eq_some_iff, hget]
  have hperm : ms.Perm ms' := (List.perm_ext_iff_of_nodup h.areDistinct.of_map
    h'.areDistinct.of_map).2 hmem
  refine hperm.eq_of_pairwise (fun a b _ _ hab hba => ?_) h h'
  exact absurd (String.lt_trans hab hba) (String.lt_irrefl _)

/-- What is put in under one key, between others. -/
theorem get?_ofList_append_cons (key k : String) (v : Value)
    (before after : List (String × Value)) :
    get? key (ofList (before ++ (k, v) :: after))
      = (get? key (ofList after)).or
          (if key = k then some v else get? key (ofList before)) := by
  rw [ofList, List.foldl_append, List.foldl_cons, get?_foldl_put, get?_put]
  rfl

/-- With one value exchanged, what is found under a key is the same or what has been exchanged. -/
theorem rel_get?_ofList {R : String → Value → Value → Prop} (hr : ∀ key u, R key u u) {k : String}
    {v w : Value} (h : R k v w) (before after : List (String × Value)) (key : String) :
    Option.Rel (R key) (get? key (ofList (before ++ (k, v) :: after)))
      (get? key (ofList (before ++ (k, w) :: after))) := by
  have hrefl : ∀ o, Option.Rel (R key) o o := by
    rintro (_ | u)
    · exact .none
    · exact .some (hr key u)
  rw [get?_ofList_append_cons, get?_ofList_append_cons]
  cases get? key (ofList after) with
  | some u => exact hrefl (some u)
  | none =>
    by_cases hk : key = k
    · subst hk
      rw [if_pos rfl, if_pos rfl]
      exact .some h
    · rw [if_neg hk, if_neg hk]
      exact hrefl _

/-- A member put in first hides nothing. -/
theorem get?_ofList_cons_of_ne {key k : String} (h : key ≠ k) (v : Value)
    (ms : List (String × Value)) : get? key (ofList ((k, v) :: ms)) = get? key (ofList ms) := by
  have happend := get?_ofList_append_cons key k v [] ms
  rw [List.nil_append, if_neg h] at happend
  rw [happend]
  exact Option.or_none

/-- Members under distinct keys may be put in in any order. -/
theorem ofList_eq_of_perm {ms ms' : List (String × Value)} (hd : AreDistinct ms)
    (hp : ms.Perm ms') : ofList ms = ofList ms' := by
  have hd' : AreDistinct ms' := (hp.map Prod.fst).nodup_iff.1 hd
  refine ext_get? (isSorted_ofList ms) (isSorted_ofList ms') fun k => ?_
  rw [hd.get?_ofList, hd'.get?_ofList]
  ext v
  rw [hd.get?_eq_some_iff, hd'.get?_eq_some_iff, hp.mem_iff]

end Members

namespace Shape

variable {depth : Nat}

/-! ### The values of containers -/

theorem value_array_zero (items : List Shape) (stop : Option Fault) :
    ((array items stop).value 0).toOption = none := by
  rw [value]
  rfl

theorem value_object_zero (members : List (Quoted × Shape)) (stop : Option Fault) :
    ((object members stop).value 0).toOption = none := by
  rw [value]
  rfl

theorem toOption_value_array (items : List Shape) :
    ((array items none).value (depth + 1)).toOption = (values depth items).toOption.map .array := by
  rw [value]
  show (values depth items >>= _).toOption = _
  rw [toOption_bind]
  cases (values depth items).toOption <;> rfl

theorem toOption_value_object (members : List (Quoted × Shape)) :
    ((object members none).value (depth + 1)).toOption
      = (memberValues depth members).toOption.map fun ms => .object (Members.ofList ms) := by
  rw [value]
  show (memberValues depth members >>= _).toOption = _
  rw [toOption_bind]
  cases (memberValues depth members).toOption <;> rfl

theorem toOption_values_cons (s : Shape) (ss : List Shape) :
    (values depth (s :: ss)).toOption
      = (s.value depth).toOption.bind fun v => (values depth ss).toOption.map (v :: ·) := by
  rw [values, toOption_bind]
  refine Option.bind_congr fun v _ => ?_
  rw [toOption_bind]
  cases (values depth ss).toOption <;> rfl

theorem toOption_memberValues_cons (q : Quoted) (s : Shape) (members : List (Quoted × Shape)) :
    (memberValues depth ((q, s) :: members)).toOption
      = q.decode.toOption.bind fun k => (s.value depth).toOption.bind fun v =>
          (memberValues depth members).toOption.map ((k, v) :: ·) := by
  rw [memberValues, toOption_bind]
  refine Option.bind_congr fun k _ => ?_
  rw [toOption_bind]
  refine Option.bind_congr fun v _ => ?_
  rw [toOption_bind]
  cases (memberValues depth members).toOption <;> rfl

theorem toOption_values_append_cons (before : List Shape) (s : Shape) (after : List Shape) :
    (values depth (before ++ s :: after)).toOption
      = (values depth before).toOption.bind fun bs => (s.value depth).toOption.bind fun v =>
          (values depth after).toOption.map fun as => bs ++ v :: as := by
  induction before with
  | nil => exact toOption_values_cons s after
  | cons b before ih =>
    rw [List.cons_append, toOption_values_cons, toOption_values_cons, ih]
    cases (b.value depth).toOption <;> cases (values depth before).toOption <;>
      cases (s.value depth).toOption <;> cases (values depth after).toOption <;> rfl

theorem toOption_memberValues_append_cons (before : List (Quoted × Shape)) (q : Quoted) (s : Shape)
    (after : List (Quoted × Shape)) :
    (memberValues depth (before ++ (q, s) :: after)).toOption
      = (memberValues depth before).toOption.bind fun bs => q.decode.toOption.bind fun k =>
          (s.value depth).toOption.bind fun v =>
            (memberValues depth after).toOption.map fun as => bs ++ (k, v) :: as := by
  induction before with
  | nil => exact toOption_memberValues_cons q s after
  | cons m before ih =>
    obtain ⟨q', s'⟩ := m
    rw [List.cons_append, toOption_memberValues_cons, toOption_memberValues_cons, ih]
    cases q'.decode.toOption <;> cases (s'.value depth).toOption <;>
      cases (memberValues depth before).toOption <;> cases q.decode.toOption <;>
      cases (s.value depth).toOption <;> cases (memberValues depth after).toOption <;> rfl

section Exchange

variable {R : Value → Value → Prop} {s s' : Shape}

/-- One item exchanged: the values of the lists differ by the values of the item. -/
theorem rel_value_item
    (h : Option.Rel R (s.value (depth - 1)).toOption (s'.value (depth - 1)).toOption)
    (before after : List Shape) :
    Option.Rel (fun v w => ∃ bs x y as, bs.length = before.length ∧ R x y ∧
        v = .array (bs ++ x :: as) ∧ w = .array (bs ++ y :: as))
      ((array (before ++ s :: after) none).value depth).toOption
      ((array (before ++ s' :: after) none).value depth).toOption := by
  cases depth with
  | zero =>
    rw [value_array_zero, value_array_zero]
    exact .none
  | succ d =>
    rw [toOption_value_array, toOption_value_array, toOption_values_append_cons,
      toOption_values_append_cons]
    cases hb : values d before with
    | error f => exact .none
    | ok bs =>
      have hl : bs.length = before.length := by
        have := congrArg List.length (values_eq_ok_iff.1 hb)
        simpa using this.symm
      have h : Option.Rel R (s.value d).toOption (s'.value d).toOption := h
      generalize (s.value d).toOption = o at h ⊢
      generalize (s'.value d).toOption = o' at h ⊢
      cases h with
      | none => exact .none
      | some hxy =>
        cases (values d after).toOption with
        | none => exact .none
        | some as => exact .some ⟨bs, _, _, as, hl, hxy, rfl, rfl⟩

/-- The value of one member exchanged, and its key spelled in another way. -/
theorem rel_value_member {q q' : Quoted} (hq : q.decode.toOption = q'.decode.toOption)
    (h : Option.Rel R (s.value (depth - 1)).toOption (s'.value (depth - 1)).toOption)
    (before after : List (Quoted × Shape)) :
    Option.Rel (fun v w => ∃ bs k x y as, q.decode.toOption = some k ∧ R x y ∧
        v = .object (Members.ofList (bs ++ (k, x) :: as)) ∧
        w = .object (Members.ofList (bs ++ (k, y) :: as)))
      ((object (before ++ (q, s) :: after) none).value depth).toOption
      ((object (before ++ (q', s') :: after) none).value depth).toOption := by
  cases depth with
  | zero =>
    rw [value_object_zero, value_object_zero]
    exact .none
  | succ d =>
    rw [toOption_value_object, toOption_value_object, toOption_memberValues_append_cons,
      toOption_memberValues_append_cons, ← hq]
    cases (memberValues d before).toOption with
    | none => exact .none
    | some bs =>
      cases hk : q.decode.toOption with
      | none => exact .none
      | some k =>
        have h : Option.Rel R (s.value d).toOption (s'.value d).toOption := h
        generalize (s.value d).toOption = o at h ⊢
        generalize (s'.value d).toOption = o' at h ⊢
        cases h with
        | none => exact .none
        | some hxy =>
          cases (memberValues d after).toOption with
          | none => exact .none
          | some as => exact .some ⟨bs, k, _, _, as, rfl, hxy, rfl, rfl⟩

end Exchange

section Order

variable {ms ms' : List (Quoted × Shape)}

/-- The keys of members, as far as they stand for texts. -/
def keysOf (ms : List (Quoted × Shape)) : List String := ms.filterMap (·.1.decode.toOption)

theorem keysOf_of_memberValues {vs : List (String × Value)}
    (h : memberValues depth ms = .ok vs) : keysOf ms = vs.map Prod.fst := by
  have hkeys : keysOf ms = (ms.map fun m => m.1.decode.toOption).filterMap id := by
    rw [List.filterMap_map]
    rfl
  rw [hkeys, map_decode_of_memberValues h, List.filterMap_map]
  exact List.filterMap_some

/-- Members in another order have their values in that order. -/
theorem rel_memberValues_of_perm (hp : ms.Perm ms') :
    Option.Rel List.Perm (memberValues depth ms).toOption (memberValues depth ms').toOption := by
  induction hp with
  | nil => exact .some .nil
  | @cons m ms ms' _ ih =>
    rw [toOption_memberValues_cons, toOption_memberValues_cons]
    generalize (memberValues depth ms).toOption = o at ih ⊢
    generalize (memberValues depth ms').toOption = o' at ih ⊢
    cases m.1.decode.toOption with
    | none => exact .none
    | some k =>
      cases (m.2.value depth).toOption with
      | none => exact .none
      | some v =>
        cases ih with
        | none => exact .none
        | some h => exact .some (h.cons (k, v))
  | swap m m' ms =>
    rw [toOption_memberValues_cons, toOption_memberValues_cons, toOption_memberValues_cons,
      toOption_memberValues_cons]
    cases m.1.decode.toOption <;> cases (m.2.value depth).toOption <;>
      cases m'.1.decode.toOption <;> cases (m'.2.value depth).toOption <;>
      cases (memberValues depth ms).toOption <;> first
        | exact .none
        | exact .some (.swap ..)
  | @trans ms ms' ms'' _ _ ih ih' =>
    generalize (memberValues depth ms).toOption = o at ih ⊢
    generalize (memberValues depth ms').toOption = o' at ih ih'
    generalize (memberValues depth ms'').toOption = o'' at ih' ⊢
    cases ih with
    | none =>
      cases ih'
      exact .none
    | some h =>
      cases ih' with
      | some h' => exact .some (h.trans h')

/-- **The order of the members makes no difference to the value of an object**, if no two of them
stand under one key. -/
theorem value_object_eq_of_perm (hp : ms.Perm ms') (hd : (keysOf ms).Nodup) :
    ((object ms none).value depth).toOption = ((object ms' none).value depth).toOption := by
  cases depth with
  | zero => rw [value_object_zero, value_object_zero]
  | succ d =>
    have hrel := @rel_memberValues_of_perm d _ _ hp
    rw [toOption_value_object, toOption_value_object]
    generalize hms : (memberValues d ms).toOption = o at hrel ⊢
    generalize (memberValues d ms').toOption = o' at hrel ⊢
    cases hrel with
    | none => rfl
    | @some vs vs' h =>
      have hvs : Members.AreDistinct vs := by
        rw [Members.AreDistinct, ← keysOf_of_memberValues (ok_of_toOption hms)]
        exact hd
      rw [Option.map_some, Option.map_some, Members.ofList_eq_of_perm hvs h]

end Order

/-! ### Passing over containers -/

theorem bind_eq_ok_unit_iff {x y : Except Fault Unit} :
    (x >>= fun _ => y) = .ok () ↔ x = .ok () ∧ y = .ok () := by
  cases x <;> simp [bind, Except.bind]

theorem skipItems_eq_ok_iff {ss : List Shape} :
    skipItems ss = .ok () ↔ ∀ s ∈ ss, s.skip = .ok () := by
  induction ss with
  | nil => simp [skipItems]
  | cons s ss ih => rw [skipItems, bind_eq_ok_unit_iff, ih, List.forall_mem_cons]

theorem skipMembers_eq_ok_iff {ms : List (Quoted × Shape)} :
    skipMembers ms = .ok () ↔ ∀ m ∈ ms, m.1.stop = none ∧ m.2.skip = .ok () := by
  induction ms with
  | nil => simp [skipMembers]
  | cons m ms ih =>
    rw [skipMembers, bind_eq_ok_unit_iff, bind_eq_ok_unit_iff, closed_eq_ok_iff, ih,
      List.forall_mem_cons, and_assoc]

theorem skip_array_eq_ok_iff {items : List Shape} :
    (array items none).skip = .ok () ↔ ∀ s ∈ items, s.skip = .ok () := by
  rw [skip, bind_eq_ok_unit_iff, skipItems_eq_ok_iff]
  simp [closed]

theorem skip_object_eq_ok_iff {members : List (Quoted × Shape)} :
    (object members none).skip = .ok () ↔ ∀ m ∈ members, m.1.stop = none ∧ m.2.skip = .ok () := by
  rw [skip, bind_eq_ok_unit_iff, skipMembers_eq_ok_iff]
  simp [closed]

/-! ### Records -/

section Record

variable {σ : Type} {keys : List String} {read : Nat → String → Shape → σ → Reading σ}
  {start r : σ} {seen : List String}

theorem result?_record_zero (c : Shape) : (c.record keys read start 0).result? = none := by
  cases c <;> rfl

theorem result?_record_object (members : List (Quoted × Shape)) :
    ((object members none).record keys read start (depth + 1)).result?
      = (recordMembers keys read depth [] start members).result? := by
  show (recordMembers keys read depth [] start members >>= fun r => pure r : Reading σ).result? = _
  rw [bind_pure]

theorem result?_record_array (items : List Shape) :
    ((array items none).record keys read start (depth + 1)).result?
      = (recordItems read depth start keys ⟨items, none⟩).result? := rfl

/-- The first member: a known key that has not been seen is put in, an unknown one is passed
over. -/
theorem result?_recordMembers_cons (q : Quoted) (s : Shape) (ms : List (Quoted × Shape)) :
    (recordMembers keys read depth seen r ((q, s) :: ms)).result?
      = q.decode.toOption.bind fun k =>
          if k ∈ keys then
            if k ∈ seen then none
            else (read depth k s r).result?.bind fun r =>
              (recordMembers keys read depth (k :: seen) r ms).result?
          else s.skip.toOption.bind fun _ => (recordMembers keys read depth seen r ms).result? := by
  rw [recordMembers, Reading.result?_bind]
  refine Option.bind_congr fun k _ => ?_
  by_cases hk : k ∈ keys
  · by_cases hs : k ∈ seen <;> simp [hk, hs]
  · simp [hk]

/-- The first item is put in under the first key. -/
theorem result?_recordItems_cons (key : String) (s : Shape) (ss : List Shape) :
    (recordItems read depth r (key :: keys) ⟨s :: ss, none⟩).result?
      = (read depth key s r).result?.bind fun r =>
          (recordItems read depth r keys ⟨ss, none⟩).result? := by
  rw [recordItems, Reading.result?_bind]
  exact Reading.result?_bind _ _

theorem result?_recordItems_congr {s s' : Shape} {before after : List Shape}
    (h : ∀ key, keys[before.length]? = some key →
      ∀ r, (read depth key s r).result? = (read depth key s' r).result?) :
    (recordItems read depth r keys ⟨before ++ s :: after, none⟩).result?
      = (recordItems read depth r keys ⟨before ++ s' :: after, none⟩).result? := by
  induction before generalizing keys r with
  | nil =>
    cases keys with
    | nil => rfl
    | cons key keys =>
      rw [List.nil_append, List.nil_append, result?_recordItems_cons, result?_recordItems_cons,
        h key rfl]
  | cons b before ih =>
    cases keys with
    | nil => rfl
    | cons key keys =>
      rw [List.cons_append, List.cons_append, result?_recordItems_cons, result?_recordItems_cons]
      exact Option.bind_congr fun r _ => ih h

/-- One item of a record exchanged for another that does the same. -/
theorem result?_record_item {s s' : Shape} {before after : List Shape}
    (h : ∀ key, keys[before.length]? = some key →
      ∀ r, (read (depth - 1) key s r).result? = (read (depth - 1) key s' r).result?) :
    ((array (before ++ s :: after) none).record keys read start depth).result?
      = ((array (before ++ s' :: after) none).record keys read start depth).result? := by
  cases depth with
  | zero => rw [result?_record_zero, result?_record_zero]
  | succ d =>
    rw [result?_record_array, result?_record_array]
    exact result?_recordItems_congr h

theorem result?_recordMembers_congr {q q' : Quoted} {s s' : Shape}
    {before after : List (Quoted × Shape)} (hq : q.decode.toOption = q'.decode.toOption)
    (hskip : s.skip.toOption = s'.skip.toOption)
    (h : ∀ k ∈ keys, q.decode.toOption = some k →
      ∀ r, (read depth k s r).result? = (read depth k s' r).result?) :
    (recordMembers keys read depth seen r (before ++ (q, s) :: after)).result?
      = (recordMembers keys read depth seen r (before ++ (q', s') :: after)).result? := by
  induction before generalizing seen r with
  | nil =>
    rw [List.nil_append, List.nil_append, result?_recordMembers_cons, result?_recordMembers_cons,
      ← hq, ← hskip]
    refine Option.bind_congr fun k hk => ?_
    split
    · rename_i hkeys
      rw [h k hkeys hk]
    · rfl
  | cons m before ih =>
    rw [List.cons_append, List.cons_append, result?_recordMembers_cons, result?_recordMembers_cons]
    simp only [ih]

/-- One member of a record exchanged for another that does the same, under the same key. -/
theorem result?_record_member {q q' : Quoted} {s s' : Shape} {before after : List (Quoted × Shape)}
    (hq : q.decode.toOption = q'.decode.toOption) (hskip : s.skip.toOption = s'.skip.toOption)
    (h : ∀ k ∈ keys, q.decode.toOption = some k →
      ∀ r, (read (depth - 1) k s r).result? = (read (depth - 1) k s' r).result?) :
    ((object (before ++ (q, s) :: after) none).record keys read start depth).result?
      = ((object (before ++ (q', s') :: after) none).record keys read start depth).result? := by
  cases depth with
  | zero => rw [result?_record_zero, result?_record_zero]
  | succ d =>
    rw [result?_record_object, result?_record_object]
    exact result?_recordMembers_congr hq hskip h

/-- A member under a key that is not known joins a record. -/
theorem result?_record_extra {q : Quoted} {k : String} {s : Shape} {v : Value}
    {members : List (Quoted × Shape)} (hq : q.decode = .ok k) (hk : k ∉ keys)
    (hv : s.value depth = .ok v) :
    ((object ((q, s) :: members) none).record keys read start (depth + 1)).result?
      = ((object members none).record keys read start (depth + 1)).result? := by
  rw [result?_record_object, result?_record_object,
    result?_recordMembers_of_not_mem hq hk (skip_of_value hv)]

/-! ### Records in another order -/

/-- What a member does to a record whose keys have not been seen. -/
def recordStep (keys : List String) (read : Nat → String → Shape → σ → Reading σ) (depth : Nat)
    (r : σ) (m : Quoted × Shape) : Option σ :=
  m.1.decode.toOption.bind fun k =>
    if k ∈ keys then (read depth k m.2 r).result? else m.2.skip.toOption.map fun _ => r

/-- Members under distinct keys do what each of them does. -/
theorem result?_recordMembers_eq_foldlM {ms : List (Quoted × Shape)} (hd : (keysOf ms).Nodup)
    (hs : ∀ k ∈ keysOf ms, k ∉ seen) :
    (recordMembers keys read depth seen r ms).result?
      = ms.foldlM (recordStep keys read depth) r := by
  induction ms generalizing seen r with
  | nil => rfl
  | cons m ms ih =>
    obtain ⟨q, s⟩ := m
    rw [result?_recordMembers_cons, List.foldlM_cons, recordStep]
    cases hq : q.decode.toOption with
    | none => rfl
    | some k =>
      have hkeys : keysOf ((q, s) :: ms) = k :: keysOf ms := List.filterMap_cons_some hq
      rw [hkeys] at hd hs
      obtain ⟨hk, hd⟩ := List.nodup_cons.1 hd
      obtain ⟨hseen, hs⟩ := List.forall_mem_cons.1 hs
      have hs' : ∀ l ∈ keysOf ms, l ∉ k :: seen := by
        intro l hl
        rw [List.mem_cons, not_or]
        exact ⟨fun he => hk (he ▸ hl), hs l hl⟩
      show (if k ∈ keys then _ else _) = (if k ∈ keys then _ else _ : Option σ).bind _
      by_cases hkeys : k ∈ keys
      · rw [if_pos hkeys, if_pos hkeys, if_neg hseen]
        exact Option.bind_congr fun r _ => ih hd hs'
      · rw [if_neg hkeys, if_neg hkeys, Option.bind_map]
        exact Option.bind_congr fun _ _ => ih hd hs

/-- What is read under two of the keys may be read either way round. -/
def ReadsCommute (keys : List String) (read : Nat → String → Shape → σ → Reading σ) (depth : Nat) :
    Prop :=
  ∀ k ∈ keys, ∀ k' ∈ keys, k ≠ k' → ∀ s s' r,
    ((read depth k s r).result?.bind fun r => (read depth k' s' r).result?)
      = (read depth k' s' r).result?.bind fun r => (read depth k s r).result?

/-- Two members under distinct keys change places. -/
theorem recordStep_comm (hc : ReadsCommute keys read depth) {m m' : Quoted × Shape}
    (hd : (keysOf [m, m']).Nodup) (r : σ) :
    ((recordStep keys read depth r m).bind fun r => recordStep keys read depth r m')
      = (recordStep keys read depth r m').bind fun r => recordStep keys read depth r m := by
  -- Passing over a member does nothing to the record.
  have hpass : ∀ (o : Option Unit) (f : σ → Option σ),
      ((f r).bind fun r => o.map fun _ => r) = (o.map fun _ => r).bind f := by
    intro o f
    cases o with
    | none => cases f r <;> rfl
    | some u => exact Option.bind_fun_some (f r)
  unfold recordStep
  cases hk : m.1.decode.toOption with
  | none => cases m'.1.decode.toOption.bind _ <;> rfl
  | some k =>
    cases hk' : m'.1.decode.toOption with
    | none => cases Option.bind (some k) _ <;> rfl
    | some k' =>
      have hne : k ≠ k' := by
        rintro rfl
        simp [keysOf, hk, hk'] at hd
      show ((if k ∈ keys then _ else _ : Option σ).bind fun r => if k' ∈ keys then _ else _)
        = (if k' ∈ keys then _ else _ : Option σ).bind fun r => if k ∈ keys then _ else _
      by_cases hkeys : k ∈ keys
      · by_cases hkeys' : k' ∈ keys
        · simp only [if_pos hkeys, if_pos hkeys']
          exact hc k hkeys k' hkeys' hne m.2 m'.2 r
        · simp only [if_pos hkeys, if_neg hkeys']
          exact hpass _ fun r => (read depth k m.2 r).result?
      · by_cases hkeys' : k' ∈ keys
        · simp only [if_neg hkeys, if_pos hkeys']
          exact (hpass _ fun r => (read depth k' m'.2 r).result?).symm
        · simp only [if_neg hkeys, if_neg hkeys']
          cases m.2.skip.toOption <;> cases m'.2.skip.toOption <;> rfl

theorem foldlM_recordStep_eq_of_perm (hc : ReadsCommute keys read depth)
    {ms ms' : List (Quoted × Shape)} (hp : ms.Perm ms') (hd : (keysOf ms).Nodup) (r : σ) :
    ms.foldlM (recordStep keys read depth) r = ms'.foldlM (recordStep keys read depth) r := by
  induction hp generalizing r with
  | nil => rfl
  | cons m _ ih =>
    have hrest := hd.sublist ((List.sublist_cons_self m _).filterMap _)
    rw [List.foldlM_cons, List.foldlM_cons]
    exact Option.bind_congr fun r _ => ih hrest r
  | swap m m' ms =>
    have htwo : (keysOf [m', m]).Nodup :=
      hd.sublist ((List.sublist_append_left [m', m] ms).filterMap _)
    have hswap := recordStep_comm hc htwo r
    simp only [List.foldlM_cons]
    show (recordStep keys read depth r m').bind (fun r => (recordStep keys read depth r m).bind _)
      = (recordStep keys read depth r m).bind (fun r => (recordStep keys read depth r m').bind _)
    rw [← Option.bind_assoc, ← Option.bind_assoc, hswap]
  | trans hp _ ih ih' => exact (ih hd r).trans (ih' ((hp.filterMap _).nodup_iff.1 hd) r)

/-- **The order of the members makes no difference to a record**, if no two of them stand under one
key. -/
theorem result?_record_of_perm (hc : ReadsCommute keys read (depth - 1))
    {ms ms' : List (Quoted × Shape)} (hp : ms.Perm ms') (hd : (keysOf ms).Nodup) :
    ((object ms none).record keys read start depth).result?
      = ((object ms' none).record keys read start depth).result? := by
  cases depth with
  | zero => rw [result?_record_zero, result?_record_zero]
  | succ d =>
    have hd' : (keysOf ms').Nodup := (hp.filterMap _).nodup_iff.1 hd
    rw [result?_record_object, result?_record_object,
      result?_recordMembers_eq_foldlM hd (by simp), result?_recordMembers_eq_foldlM hd' (by simp)]
    exact foldlM_recordStep_eq_of_perm hc hp hd start

end Record

end Shape

/-! ### Records of values -/

namespace Value

variable {σ : Type} {put : String → Value → σ → Noted (Option σ)} {v w : Value}
  {before after : List Value}

/-- One item of a record exchanged for another that does the same. -/
theorem value_recordItems?_congr {keys : List String} {r : σ}
    (h : ∀ key, keys[before.length]? = some key → ∀ r, (put key v r).value = (put key w r).value) :
    (recordItems? put r keys (before ++ v :: after)).value
      = (recordItems? put r keys (before ++ w :: after)).value := by
  have hcons : ∀ (key : String) (keys : List String) (u : Value) (us : List Value) (r : σ),
      (recordItems? put r (key :: keys) (u :: us)).value
        = (put key u r).value.bind fun r => (recordItems? put r keys us).value := by
    intro key keys u us r
    rw [recordItems?, Noted.value_bind]
    cases (put key u r).value <;> rfl
  induction before generalizing keys r with
  | nil =>
    cases keys with
    | nil => rfl
    | cons key keys => rw [List.nil_append, List.nil_append, hcons, hcons, h key rfl]
  | cons b before ih =>
    cases keys with
    | nil => rfl
    | cons key keys =>
      rw [List.cons_append, List.cons_append, hcons, hcons]
      exact Option.bind_congr fun r _ => ih h

end Value

end Herald.Json
