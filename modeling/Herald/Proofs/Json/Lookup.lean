import Herald.Json.Record
import Herald.Proofs.Json.Value
import Mathlib.Data.List.Nodup

/-!
# Records, key by key

A text is read in its order. If no key stands twice, what is read does not depend on that order: it
is what stands under each key of the value that the text has.

* `Reading.result?`: what a reading comes to, if it is not refused;
* `Shape.repeatsNoKey`: no object of a shape has two members under one key;
* `Value.part?`, `Value.IsRecord`: what stands under a key, in both forms that a record has;
* `Members.fill`, `Value.collect?`: parts put in one after another, in the order of the keys;
* `Value.value_record?`: the record of a value is what is collected from it;
* `Shape.result?_record`: what a shape is read as is what is collected from its value.
-/

namespace Herald.Json

/-! ### Results -/

namespace Reading

variable {α β : Type}

/-- What a reading comes to, if it is not refused. -/
def result? (x : Reading α) : Option α := x.run.value.toOption

@[simp] theorem result?_pure (a : α) : (pure a : Reading α).result? = some a := rfl

@[simp] theorem result?_throw (f : Fault) : (throw f : Reading α).result? = none := rfl

@[simp] theorem result?_ofExcept (x : Except Fault α) : (ofExcept x).result? = x.toOption := rfl

@[simp] theorem result?_ofNoted (x : Noted α) : (ofNoted x).result? = some x.value := rfl

@[simp] theorem result?_bind (x : Reading α) (f : α → Reading β) :
    (x >>= f).result? = x.result?.bind fun a => (f a).result? := by
  unfold result?
  rw [ExceptT.run_bind, Noted.value_bind]
  cases x.run.value <;> rfl

@[simp] theorem result?_require (x : Noted (Option α)) : (require x).result? = x.value := by
  rw [require, result?_bind, result?_ofNoted]
  cases x.value <;> rfl

theorem result?_read (t : Text) (reader : Nat → Shape → Reading α) (h : t.trailing = false) :
    (t.read reader).result? = (reader nestingLimit t.root).result? := by
  rw [Text.read, result?_bind, Text.ended, h]
  cases (reader nestingLimit t.root).result? <;> rfl

end Reading

/-! ### Passing over -/

/-- A quoted text that is not closed stands for no text. -/
theorem Quoted.bytes_of_stop (f : Fault) (ps : List Piece) :
    ∃ g, bytes (some f) ps = .error g := by
  have hmap : ∀ {x : Except Fault (List UInt8)} {φ : List UInt8 → List UInt8},
      (∃ g, x = .error g) → ∃ g, x.map φ = .error g := by
    rintro x φ ⟨g, rfl⟩
    exact ⟨g, rfl⟩
  fun_induction bytes (some f) ps with
  | case2 h => cases h
  | case3 _ _ ih | case5 _ _ _ _ _ _ _ ih | case9 _ _ _ _ ih => exact hmap ih
  | _ => exact ⟨_, rfl⟩

theorem Quoted.stop_of_decode {q : Quoted} {t : String} (h : q.decode = .ok t) :
    q.stop = none := by
  obtain ⟨bs, hbs, -⟩ := bind_eq_ok.1 h
  cases hs : q.stop with
  | none => rfl
  | some f =>
    obtain ⟨g, hg⟩ := bytes_of_stop f q.pieces
    rw [hs, hg] at hbs
    cases hbs

namespace Shape

theorem closed_of_decode {q : Quoted} {t : String} (h : q.decode = .ok t) :
    closed q.stop = .ok () := closed_eq_ok_iff.2 (Quoted.stop_of_decode h)

mutual

/-- What has a value may also be passed over. -/
theorem skip_of_value : ∀ {depth : Nat} {s : Shape} {v : Value},
    s.value depth = .ok v → s.skip = .ok ()
  | _, .null, _, _ | _, .bool _, _, _ | _, .number _, _, _ => by rw [skip]
  | _, .string q, _, h => by
    obtain ⟨t, ht, -⟩ := value_string_eq_ok_iff.1 h
    rw [skip, closed_of_decode ht]
  | _, .array items stop, _, h => by
    obtain ⟨d, vs, -, hvs, rfl, -⟩ := value_array_eq_ok_iff.1 h
    rw [skip, skipItems_of_values hvs]
    rfl
  | _, .object members stop, _, h => by
    obtain ⟨d, ms, -, hms, rfl, -⟩ := value_object_eq_ok_iff.1 h
    rw [skip, skipMembers_of_memberValues hms]
    rfl
  | _, .broken _, _, h | _, .cutNumeral, _, h => by cases h

theorem skipItems_of_values : ∀ {depth : Nat} {ss : List Shape} {vs : List Value},
    values depth ss = .ok vs → skipItems ss = .ok ()
  | _, [], _, _ => by rw [skipItems]
  | _, s :: ss, _, h => by
    obtain ⟨v, vs, hv, hvs, -⟩ := values_cons_eq_ok_iff.1 h
    rw [skipItems, skip_of_value hv, skipItems_of_values hvs]
    rfl

theorem skipMembers_of_memberValues : ∀ {depth : Nat} {members : List (Quoted × Shape)}
    {ms : List (String × Value)}, memberValues depth members = .ok ms →
    skipMembers members = .ok ()
  | _, [], _, _ => by rw [skipMembers]
  | _, (q, s) :: members, _, h => by
    obtain ⟨k, v, ms, hk, hv, hms, -⟩ := memberValues_cons_eq_ok_iff.1 h
    rw [skipMembers, closed_of_decode hk, skip_of_value hv, skipMembers_of_memberValues hms]
    rfl

end

/-! ### Repeated keys -/

mutual

/-- No object of a shape has two members under one key. -/
def repeatsNoKey : Shape → Bool
  | .array items _ => repeatNoKey items
  | .object members _ =>
    (members.map fun m => m.1.decode.toOption).Nodup && membersRepeatNoKey members
  | .null | .bool _ | .number _ | .string _ | .broken _ | .cutNumeral => true

/-- The same for each item of a list. -/
def repeatNoKey : List Shape → Bool
  | [] => true
  | s :: ss => repeatsNoKey s && repeatNoKey ss

/-- The same for each member of an object. -/
def membersRepeatNoKey : List (Quoted × Shape) → Bool
  | [] => true
  | (_, s) :: ms => repeatsNoKey s && membersRepeatNoKey ms

end

theorem map_decode_of_memberValues {depth : Nat} {members : List (Quoted × Shape)}
    {ms : List (String × Value)} (h : memberValues depth members = .ok ms) :
    (members.map fun m => m.1.decode.toOption) = (ms.map Prod.fst).map some := by
  induction members generalizing ms with
  | nil =>
    cases h
    rfl
  | cons m members ih =>
    obtain ⟨k, v, ms', hk, -, hms, rfl⟩ := memberValues_cons_eq_ok_iff.1 h
    rw [List.map_cons, ih hms, hk]
    rfl

end Shape

/-! ### Parts put in -/

namespace Members

/-- The keys of members are distinct. -/
def AreDistinct (ms : List (String × Value)) : Prop := (ms.map Prod.fst).Nodup

theorem areDistinct_cons {k : String} {v : Value} {ms : List (String × Value)} :
    AreDistinct ((k, v) :: ms) ↔ (∀ m ∈ ms, m.1 ≠ k) ∧ AreDistinct ms := by
  rw [AreDistinct, List.map_cons, List.nodup_cons, AreDistinct, List.mem_map]
  refine and_congr_left fun _ => ⟨fun h m hm hk => h ⟨m, hm, hk⟩, ?_⟩
  rintro h ⟨m, hm, hk⟩
  exact h m hm hk

/-- Ascending keys are distinct. -/
theorem IsSorted.areDistinct {ms : Members} (h : IsSorted ms) : AreDistinct ms :=
  List.pairwise_map.2 (h.imp fun hlt => String.ne_of_lt hlt)

theorem AreDistinct.get?_eq_some_iff {key : String} {v : Value} {ms : List (String × Value)}
    (h : AreDistinct ms) : get? key ms = some v ↔ (key, v) ∈ ms := by
  refine ⟨mem_of_get?_eq_some, fun hm => ?_⟩
  induction ms with
  | nil => cases hm
  | cons m ms ih =>
    obtain ⟨k, w⟩ := m
    obtain ⟨hk, hms⟩ := areDistinct_cons.1 h
    rcases List.mem_cons.1 hm with heq | hm
    · cases heq
      rw [get?_cons, if_pos rfl]
    · rw [get?_cons_of_ne (hk _ hm), ih hms hm]

/-- Distinct keys are found as they stand. -/
theorem AreDistinct.get?_ofList {ms : List (String × Value)} (h : AreDistinct ms)
    (key : String) : get? key (ofList ms) = get? key ms := by
  induction ms with
  | nil => rfl
  | cons m ms ih =>
    obtain ⟨k, v⟩ := m
    obtain ⟨hk, hms⟩ := areDistinct_cons.1 h
    rw [ofList, List.foldl_cons, get?_foldl_put, ih hms, get?_put, get?_cons]
    by_cases hkey : key = k
    · subst hkey
      rw [get?_eq_none hk, if_pos rfl, if_pos rfl]
      rfl
    · rw [if_neg hkey, if_neg hkey, get?_nil, Option.or_none]

section Fill

variable {σ : Type} {put : String → Value → σ → Option σ} {keys : List String}
  {ms ms' : List (String × Value)}

/-- Put in values under their keys, one after another. -/
def fill (put : String → Value → σ → Option σ) (ms : List (String × Value)) (o : Option σ) :
    Option σ :=
  ms.foldl (fun o m => o.bind (put m.1 m.2)) o

theorem fill_cons (m : String × Value) (o : Option σ) :
    fill put (m :: ms) o = fill put ms (o.bind (put m.1 m.2)) := rfl

@[simp] theorem fill_none : fill put ms none = none := by
  induction ms with
  | nil => rfl
  | cons m ms ih => exact ih

/-- Where null changes nothing, what is absent counts as null. -/
theorem fill_part {part : String → Option Value} {k : String} {r : σ}
    (h : put k .null r = some r) :
    fill put ((k :: keys).filterMap fun k => (part k).map (k, ·)) (some r)
      = fill put (keys.filterMap fun k => (part k).map (k, ·))
          (put k ((part k).getD .null) r) := by
  rw [List.filterMap_cons]
  cases part k with
  | none => exact congrArg _ h.symm
  | some v => rfl

/-- What is put in under two of the keys may be put in either way round. -/
def Commutes (keys : List String) (put : String → Value → σ → Option σ) : Prop :=
  ∀ k ∈ keys, ∀ k' ∈ keys, k ≠ k' →
    ∀ v v' r, (put k v r).bind (put k' v') = (put k' v' r).bind (put k v)

/-- The order in which values are put in makes no difference. -/
theorem fill_eq_of_perm (hc : Commutes keys put) (hk : ∀ m ∈ ms, m.1 ∈ keys)
    (hd : AreDistinct ms) (hp : ms.Perm ms') (o : Option σ) :
    fill put ms o = fill put ms' o := by
  refine hp.foldl_eq' (fun m hm m' hm' o => ?_) o
  by_cases h : m = m'
  · rw [h]
  · have hne : m.1 ≠ m'.1 := fun hk => h (List.inj_on_of_nodup_map hd hm hm' hk)
    cases o with
    | none => rfl
    | some r => exact hc m.1 (hk m hm) m'.1 (hk m' hm') hne m.2 m'.2 r

/-- The known members are those that are found under the keys. -/
theorem AreDistinct.filter_perm (hk : keys.Nodup) (hd : AreDistinct ms) :
    (ms.filter fun m => keys.contains m.1).Perm
      (keys.filterMap fun k => (get? k ms).map (k, ·)) := by
  have hnodup : (keys.filterMap fun k => (get? k ms).map (k, ·)).Nodup := by
    refine hk.filterMap fun k k' m hm hm' => ?_
    obtain ⟨v, -, rfl⟩ := Option.map_eq_some_iff.1 hm
    obtain ⟨v', -, heq⟩ := Option.map_eq_some_iff.1 hm'
    exact (congrArg Prod.fst heq).symm
  refine (List.perm_ext_iff_of_nodup (hd.of_map.filter _) hnodup).2 fun m => ?_
  obtain ⟨k, v⟩ := m
  rw [List.mem_filter, List.mem_filterMap, List.contains_iff_mem]
  constructor
  · rintro ⟨hm, hkey⟩
    exact ⟨k, hkey, by rw [hd.get?_eq_some_iff.2 hm]; rfl⟩
  · rintro ⟨k', hkey, hm⟩
    obtain ⟨v', hv, heq⟩ := Option.map_eq_some_iff.1 hm
    cases heq
    exact ⟨hd.get?_eq_some_iff.1 hv, hkey⟩

/-- Putting in the known members as they stand is putting in what is found under each key. -/
theorem AreDistinct.fill_filter (hk : keys.Nodup) (hc : Commutes keys put) (hd : AreDistinct ms)
    (o : Option σ) :
    fill put (ms.filter fun m => keys.contains m.1) o
      = fill put (keys.filterMap fun k => (get? k ms).map (k, ·)) o := by
  have hknown : AreDistinct (ms.filter fun m => keys.contains m.1) :=
    hd.sublist (List.filter_sublist.map _)
  have hkeys : ∀ m ∈ ms.filter (fun m => keys.contains m.1), m.1 ∈ keys := fun m hm =>
    List.contains_iff_mem.1 (List.mem_filter.1 hm).2
  exact fill_eq_of_perm hc hkeys hknown (hd.filter_perm hk) o

end Fill

end Members

/-! ### Records of values -/

namespace Value

/-- The forms of a record: an object, or a list of no more items than there are keys. -/
def IsRecord (keys : List String) : Value → Prop
  | .object _ => True
  | .array items => items.length ≤ keys.length
  | .null | .bool _ | .number _ | .string _ => False

instance (keys : List String) : (v : Value) → Decidable (v.IsRecord keys)
  | .object _ => inferInstanceAs (Decidable True)
  | .array items => inferInstanceAs (Decidable (items.length ≤ keys.length))
  | .null | .bool _ | .number _ | .string _ => inferInstanceAs (Decidable False)

/-- What stands under a key of a record. -/
def part? (keys : List String) (key : String) : Value → Option Value
  | .object ms => Members.get? key ms
  | .array items => items[keys.idxOf key]?
  | .null | .bool _ | .number _ | .string _ => none

/-- What stands under a key of a record, null if there is nothing. -/
def partOrNull (keys : List String) (v : Value) (key : String) : Value :=
  (v.part? keys key).getD .null

variable {σ : Type}

/-- The parts of a record put in, in the order of the keys. -/
def collect? (keys : List String) (put : String → Value → σ → Option σ) (start : σ) (v : Value) :
    Option σ :=
  if v.IsRecord keys then
    Members.fill put (keys.filterMap fun k => (v.part? keys k).map (k, ·)) (some start)
  else none

variable {keys : List String} {put : String → Value → σ → Option σ} {start : σ}

theorem collect?_object (ms : Members) :
    (object ms).collect? keys put start
      = Members.fill put (keys.filterMap fun k => (Members.get? k ms).map (k, ·)) (some start) :=
  if_pos trivial

theorem collect?_array (items : List Value) :
    (array items).collect? keys put start
      = if items.length ≤ keys.length then
          Members.fill put (keys.filterMap fun k => (items[keys.idxOf k]?).map (k, ·)) (some start)
        else none := rfl

end Value

/-- The items of a list stand under the keys one by one. -/
theorem zip_eq_parts {keys : List String} {vs : List Value} (hk : keys.Nodup)
    (hl : vs.length ≤ keys.length) :
    keys.zip vs = keys.filterMap fun k => (vs[keys.idxOf k]?).map (k, ·) := by
  induction keys generalizing vs with
  | nil => rfl
  | cons key keys ih =>
    obtain ⟨hkey, hkeys⟩ := List.nodup_cons.1 hk
    have hidx : ∀ k ∈ keys, (key :: keys).idxOf k = keys.idxOf k + 1 := by
      intro k hmem
      exact List.idxOf_cons_ne keys fun heq => hkey (heq ▸ hmem)
    cases vs with
    | nil => simp
    | cons v vs =>
      have hrest := ih hkeys (Nat.le_of_succ_le_succ hl)
      rw [List.zip_cons_cons, List.filterMap_cons, List.idxOf_cons_self, List.getElem?_cons_zero,
        hrest]
      refine congrArg _ (List.filterMap_congr fun k hmem => ?_)
      rw [hidx k hmem, List.getElem?_cons_succ]

namespace Value

section Record

variable {σ : Type} {keys : List String} {put : String → Value → σ → Noted (Option σ)} {start : σ}

theorem value_recordMembers? {ms : List (String × Value)} {seen : List String} {r : σ}
    (hd : Members.AreDistinct ms) (hs : ∀ m ∈ ms, m.1 ∉ seen) :
    (recordMembers? keys put seen r ms).value
      = Members.fill (fun k v r => (put k v r).value) (ms.filter fun m => keys.contains m.1)
          (some r) := by
  induction ms generalizing seen r with
  | nil => rfl
  | cons m ms ih =>
    obtain ⟨k, v⟩ := m
    obtain ⟨hne, hd'⟩ := Members.areDistinct_cons.1 hd
    obtain ⟨hseen, hs'⟩ := List.forall_mem_cons.1 hs
    rw [recordMembers?]
    by_cases hk : keys.contains k = true
    · rw [if_pos hk, if_neg (mt List.contains_iff_mem.1 hseen), Noted.value_bind, List.filter_cons,
        if_pos hk, Members.fill_cons]
      show _ = Members.fill _ _ (put k v r).value
      cases (put k v r).value with
      | none => exact Members.fill_none.symm
      | some r' =>
        refine ih hd' fun a ha => ?_
        rw [List.mem_cons, not_or]
        exact ⟨hne a ha, hs' a ha⟩
    · rw [if_neg hk, List.filter_cons, if_neg hk]
      exact ih hd' hs'

theorem value_recordItems? {vs : List Value} {r : σ} :
    (recordItems? put r keys vs).value
      = if vs.length ≤ keys.length then
          Members.fill (fun k v r => (put k v r).value) (keys.zip vs) (some r)
        else none := by
  induction vs generalizing keys r with
  | nil => cases keys <;> rfl
  | cons v vs ih =>
    cases keys with
    | nil => rfl
    | cons k keys =>
      rw [recordItems?, Noted.value_bind, List.length_cons, List.length_cons, List.zip_cons_cons,
        Members.fill_cons]
      simp only [Nat.add_le_add_iff_right]
      show _ = if _ then Members.fill _ _ (put k v r).value else none
      cases (put k v r).value with
      | none =>
        rw [Members.fill_none, ite_self]
        rfl
      | some r' => exact ih

theorem value_record?_object {ms : Members} (hk : keys.Nodup)
    (hc : Members.Commutes keys fun k v r => (put k v r).value) (hd : Members.AreDistinct ms) :
    ((object ms).record? keys put start).value
      = (object ms).collect? keys (fun k v r => (put k v r).value) start := by
  rw [record?, value_recordMembers? hd (by simp), collect?_object, hd.fill_filter hk hc]

theorem value_record?_array {vs : List Value} (hk : keys.Nodup) :
    ((array vs).record? keys put start).value
      = (array vs).collect? keys (fun k v r => (put k v r).value) start := by
  rw [record?, value_recordItems?, collect?_array]
  by_cases hl : vs.length ≤ keys.length
  · rw [if_pos hl, if_pos hl, zip_eq_parts hk hl]
  · rw [if_neg hl, if_neg hl]

/-- The record of a value is collected from it key by key. -/
theorem value_record? {v : Value} (hk : keys.Nodup)
    (hc : Members.Commutes keys fun k v r => (put k v r).value) (hv : v.IsOrdered) :
    (v.record? keys put start).value = v.collect? keys (fun k v r => (put k v r).value) start := by
  cases hv with
  | object hs _ => exact value_record?_object hk hc hs.areDistinct
  | array _ => exact value_record?_array hk
  | _ => rfl

end Record

end Value

/-! ### Records of shapes -/

namespace Shape

variable {σ : Type} {keys : List String} {read : Nat → String → Shape → σ → Reading σ}
  {put : String → Value → σ → Option σ} {depth : Nat}

/-- A reader puts in what it finds in the value of a shape. -/
def PutsIn (read : Nat → String → Shape → σ → Reading σ) (put : String → Value → σ → Option σ)
    (depth : Nat) : Prop :=
  ∀ k s v r, s.value depth = .ok v → s.repeatsNoKey = true →
    (read depth k s r).result? = put k v r

section Members

variable {q : Quoted} {k : String} {s : Shape} {members : List (Quoted × Shape)}
  {seen : List String} {r : σ}

theorem result?_recordMembers_of_mem (hq : q.decode = .ok k) (hk : k ∈ keys) (hs : k ∉ seen) :
    (recordMembers keys read depth seen r ((q, s) :: members)).result?
      = (read depth k s r).result?.bind fun r' =>
          (recordMembers keys read depth (k :: seen) r' members).result? := by
  rw [recordMembers]
  simp [hq, hk, hs, Except.toOption]

theorem result?_recordMembers_of_not_mem (hq : q.decode = .ok k) (hk : k ∉ keys)
    (hs : s.skip = .ok ()) :
    (recordMembers keys read depth seen r ((q, s) :: members)).result?
      = (recordMembers keys read depth seen r members).result? := by
  rw [recordMembers]
  simp [hq, hk, hs, Except.toOption]

end Members

theorem result?_recordMembers {members : List (Quoted × Shape)} {ms : List (String × Value)}
    {seen : List String} {r : σ} (hp : PutsIn read put depth)
    (hms : memberValues depth members = .ok ms) (hd : Members.AreDistinct ms)
    (hs : ∀ m ∈ ms, m.1 ∉ seen) (hr : membersRepeatNoKey members = true) :
    (recordMembers keys read depth seen r members).result?
      = Members.fill put (ms.filter fun m => keys.contains m.1) (some r) := by
  induction members generalizing ms seen r with
  | nil =>
    cases hms
    rfl
  | cons m members ih =>
    obtain ⟨k, v, ms', hq, hv, hms', rfl⟩ := memberValues_cons_eq_ok_iff.1 hms
    obtain ⟨hne, hd'⟩ := Members.areDistinct_cons.1 hd
    obtain ⟨hseen, hs'⟩ := List.forall_mem_cons.1 hs
    obtain ⟨hm, hr'⟩ := Bool.and_eq_true_iff.1 hr
    by_cases hk : k ∈ keys
    · rw [result?_recordMembers_of_mem hq hk hseen, hp k m.2 v r hv hm, List.filter_cons,
        if_pos (List.contains_iff_mem.2 hk), Members.fill_cons]
      show _ = Members.fill put _ (put k v r)
      cases put k v r with
      | none => exact Members.fill_none.symm
      | some r' =>
        refine ih hms' hd' (fun a ha => ?_) hr'
        rw [List.mem_cons, not_or]
        exact ⟨hne a ha, hs' a ha⟩
    · rw [result?_recordMembers_of_not_mem hq hk (skip_of_value hv), List.filter_cons,
        if_neg (mt List.contains_iff_mem.1 hk)]
      exact ih hms' hd' hs' hr'

theorem result?_recordItems {items : List Shape} {vs : List Value} {r : σ}
    (hp : PutsIn read put depth) (hvs : values depth items = .ok vs)
    (hr : repeatNoKey items = true) :
    (recordItems read depth r keys ⟨items, none⟩).result?
      = if vs.length ≤ keys.length then Members.fill put (keys.zip vs) (some r) else none := by
  induction keys generalizing items vs r with
  | nil =>
    cases items with
    | nil =>
      cases hvs
      rfl
    | cons s items =>
      obtain ⟨v, vs, -, -, rfl⟩ := values_cons_eq_ok_iff.1 hvs
      rfl
  | cons k keys ih =>
    cases items with
    | nil =>
      cases hvs
      rfl
    | cons s items =>
      obtain ⟨v, vs, hv, hvs', rfl⟩ := values_cons_eq_ok_iff.1 hvs
      obtain ⟨hs, hr'⟩ := Bool.and_eq_true_iff.1 hr
      have hstep : (recordItems read depth r (k :: keys) ⟨s :: items, none⟩).result?
          = (read depth k s r).result?.bind fun r' =>
              (recordItems read depth r' keys ⟨items, none⟩).result? := by
        rw [recordItems, Reading.result?_bind]
        exact Reading.result?_bind _ _
      rw [hstep, hp k s v r hv hs, List.length_cons, List.length_cons, List.zip_cons_cons,
        Members.fill_cons]
      simp only [Nat.add_le_add_iff_right]
      show _ = if _ then Members.fill put _ (put k v r) else none
      cases put k v r with
      | none =>
        rw [Members.fill_none, ite_self]
        rfl
      | some r' => exact ih hvs' hr'

/-- **What a shape is read as, is collected from its value key by key.** The order in which the
members of an object stand in the text makes no difference, nor do members under other keys. -/
theorem result?_record {start : σ} {s : Shape} {v : Value} (hk : keys.Nodup)
    (hc : Members.Commutes keys put) (hp : ∀ d, depth = d + 1 → PutsIn read put d)
    (hv : s.value depth = .ok v) (hr : s.repeatsNoKey = true) :
    (s.record keys read start depth).result? = v.collect? keys put start := by
  cases s with
  | object members stop =>
    obtain ⟨d, ms, rfl, hms, rfl, rfl⟩ := value_object_eq_ok_iff.1 hv
    rw [repeatsNoKey, Bool.and_eq_true, decide_eq_true_iff, map_decode_of_memberValues hms] at hr
    have hd : Members.AreDistinct ms := hr.1.of_map
    have hread : ((object members none).record keys read start (d + 1)).result?
        = (recordMembers keys read d [] start members).result? := by
      show (recordMembers keys read d [] start members >>= fun r => pure r : Reading σ).result? = _
      rw [bind_pure]
    have hfound : (keys.filterMap fun k => (Members.get? k (Members.ofList ms)).map (k, ·))
        = keys.filterMap fun k => (Members.get? k ms).map (k, ·) :=
      List.filterMap_congr fun k _ => by rw [hd.get?_ofList]
    rw [hread, result?_recordMembers (hp d rfl) hms hd (by simp) hr.2, Value.collect?_object,
      hfound]
    exact hd.fill_filter hk hc _
  | array items stop =>
    obtain ⟨d, vs, rfl, hvs, rfl, rfl⟩ := value_array_eq_ok_iff.1 hv
    have hread : ((array items none).record keys read start (d + 1)).result?
        = (recordItems read d start keys ⟨items, none⟩).result? := rfl
    rw [hread, result?_recordItems (hp d rfl) hvs hr, Value.collect?_array]
    by_cases hl : vs.length ≤ keys.length
    · rw [if_pos hl, if_pos hl, zip_eq_parts hk hl]
    · rw [if_neg hl, if_neg hl]
  | null | bool b =>
    cases hv
    rfl
  | number n =>
    obtain ⟨x, -, rfl⟩ := value_number_eq_ok_iff.1 hv
    rfl
  | string q =>
    obtain ⟨t, -, rfl⟩ := value_string_eq_ok_iff.1 hv
    rfl
  | broken f => cases hv
  | cutNumeral => cases hv

end Shape

end Herald.Json
