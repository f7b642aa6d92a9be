import Herald.Json.Reading
import Herald.Proofs.Json.Yields

/-!
# The value of a shape

* `Shape.value_number_eq_ok_iff` and its likes: when a shape of one form has a value, and which;
* `Shape.last?`: the shape under a key, the last one if the key stands several times;
* `Shape.orNull_of_memberValues`: what is found under a key is the value of that shape;
* `Value.IsTextOrNull`, `Shape.toOption_textOrNull`: texts that may be null, told by the value;
* `Value.IsOrdered`: the keys of all objects in a value ascend, each standing once. So it is with
  every value that is read (`Shape.isOrdered_of_value`);
* `Shape.value_succ`: what has a value still has it where one more container may be open.
-/

namespace Herald.Json

namespace Members

theorem get?_cons_of_ne {key k : String} {v : Value} {ms : Members} (h : key ≠ k) :
    get? key ((k, v) :: ms) = get? key ms := by
  rw [get?_cons, if_neg h]

theorem get?_eq_none {k : String} {ms : Members} (h : ∀ m ∈ ms, m.1 ≠ k) :
    get? k ms = none := by
  induction ms with
  | nil => rfl
  | cons m ms ih =>
    rw [get?_cons_of_ne (h m List.mem_cons_self).symm]
    exact ih fun a ha => h a (List.mem_cons_of_mem _ ha)

/-- The value under a key, null if there is none. -/
def orNull (key : String) (ms : Members) : Value := (get? key ms).getD .null

/-- Members put on top of others hide them. -/
theorem get?_foldl_put (key : String) (ms : List (String × Value)) (acc : Members) :
    get? key (ms.foldl (fun acc m => put m.1 m.2 acc) acc)
      = (get? key (ofList ms)).or (get? key acc) := by
  induction ms generalizing acc with
  | nil => rfl
  | cons m ms ih =>
    rw [ofList, List.foldl_cons, List.foldl_cons, ih, ih (put _ _ []), get?_put, get?_put]
    split <;> cases get? key (ofList ms) <;> simp

theorem mem_foldl_put {ms : List (String × Value)} {acc : Members} {m : String × Value}
    (h : m ∈ ms.foldl (fun acc m => put m.1 m.2 acc) acc) : m ∈ ms ∨ m ∈ acc := by
  induction ms generalizing acc with
  | nil => exact .inr h
  | cons a ms ih =>
    rcases ih h with h | h
    · exact .inl (List.mem_cons_of_mem _ h)
    · rcases mem_put h with rfl | h
      · exact .inl List.mem_cons_self
      · exact .inr h

/-- Nothing is in an object but what has been put there. -/
theorem mem_ofList {ms : List (String × Value)} {m : String × Value} (h : m ∈ ofList ms) :
    m ∈ ms := by
  rcases mem_foldl_put h with h | h
  · exact h
  · cases h

theorem mem_of_get?_eq_some {key : String} {ms : Members} {v : Value}
    (h : get? key ms = some v) : (key, v) ∈ ms := by
  induction ms with
  | nil => cases h
  | cons m ms ih =>
    obtain ⟨k, w⟩ := m
    by_cases hk : key = k
    · subst hk
      rw [get?_cons, if_pos rfl] at h
      cases h
      exact List.mem_cons_self
    · rw [get?_cons_of_ne hk] at h
      exact List.mem_cons_of_mem _ (ih h)

end Members

/-- The keys of all objects in a value ascend. -/
inductive Value.IsOrdered : Value → Prop
  | null : IsOrdered .null
  | bool (b : Bool) : IsOrdered (.bool b)
  | number (n : Number) : IsOrdered (.number n)
  | string (s : String) : IsOrdered (.string s)
  | array {items : List Value} (each : ∀ v ∈ items, IsOrdered v) : IsOrdered (.array items)
  | object {ms : Members} (sorted : Members.IsSorted ms) (each : ∀ m ∈ ms, IsOrdered m.2) :
      IsOrdered (.object ms)

/-- A text or null. -/
def Value.IsTextOrNull : Value → Prop
  | .null | .string _ => True
  | .bool _ | .number _ | .array _ | .object _ => False

theorem Value.exists_orDefault?_iff {v : Value} :
    (∃ t, orDefault? "" text? v = some t) ↔ v.IsTextOrNull := by
  cases v <;> simp [orDefault?, text?, IsTextOrNull]

/-- A text has the value of its root, if nothing follows it. -/
theorem Value.ofBytes_eq_ok_iff {bs : List UInt8} {v : Value} :
    ofBytes bs = .ok v ↔
      (Text.ofBytes bs).root.value nestingLimit = .ok v ∧ (Text.ofBytes bs).trailing = false := by
  simp only [ofBytes, Text.value, bind_eq_ok, Reading.ended_eq_ok_iff]
  constructor
  · rintro ⟨w, hw, -, ht, h⟩
    cases h
    exact ⟨hw, ht⟩
  · rintro ⟨hv, ht⟩
    exact ⟨v, hv, (), ht, rfl⟩

namespace Shape

variable {depth : Nat}

theorem enter_eq_ok_iff {d : Nat} : enter depth = .ok d ↔ depth = d + 1 := by
  cases depth <;> simp [enter]

theorem closed_eq_ok_iff {stop : Option Fault} {u : Unit} : closed stop = .ok u ↔ stop = none := by
  cases stop <;> simp [closed]

theorem value_number_eq_ok_iff {n : Numeral} {v : Value} :
    (number n).value depth = .ok v ↔ ∃ x, n.toNumber? = some x ∧ v = .number x := by
  rw [value]
  cases n.toNumber? <;> simp [eq_comm]

theorem value_string_eq_ok_iff {q : Quoted} {v : Value} :
    (string q).value depth = .ok v ↔ ∃ t, q.decode = .ok t ∧ v = .string t := by
  rw [value]
  cases q.decode <;> simp [Except.map, eq_comm]

theorem value_array_eq_ok_iff {items : List Shape} {stop : Option Fault} {v : Value} :
    (array items stop).value depth = .ok v ↔
      ∃ d vs, depth = d + 1 ∧ values d items = .ok vs ∧ stop = none ∧ v = .array vs := by
  simp only [value, bind_eq_ok, enter_eq_ok_iff, closed_eq_ok_iff]
  constructor
  · rintro ⟨d, hd, vs, hvs, -, hs, hv⟩
    exact ⟨d, vs, hd, hvs, hs, (Except.ok.inj hv).symm⟩
  · rintro ⟨d, vs, hd, hvs, hs, rfl⟩
    exact ⟨d, hd, vs, hvs, (), hs, rfl⟩

theorem value_object_eq_ok_iff {members : List (Quoted × Shape)} {stop : Option Fault}
    {v : Value} :
    (object members stop).value depth = .ok v ↔
      ∃ d ms, depth = d + 1 ∧ memberValues d members = .ok ms ∧ stop = none ∧
        v = .object (Members.ofList ms) := by
  simp only [value, bind_eq_ok, enter_eq_ok_iff, closed_eq_ok_iff]
  constructor
  · rintro ⟨d, hd, ms, hms, -, hs, hv⟩
    exact ⟨d, ms, hd, hms, hs, (Except.ok.inj hv).symm⟩
  · rintro ⟨d, ms, hd, hms, hs, rfl⟩
    exact ⟨d, hd, ms, hms, (), hs, rfl⟩

/-- Only numerals have the value of a number. -/
theorem value_eq_ok_number_iff {s : Shape} {x : Number} :
    s.value depth = .ok (.number x) ↔ ∃ n, s = .number n ∧ n.toNumber? = some x := by
  cases s with
  | number n => simp [value_number_eq_ok_iff]
  | string q => simp [value_string_eq_ok_iff]
  | array items stop => simp [value_array_eq_ok_iff]
  | object members stop => simp [value_object_eq_ok_iff]
  | _ => simp [value]

/-- The text of a shape is the text of its value. -/
theorem toOption_textOrNull {s : Shape} {v : Value} (h : s.value depth = .ok v) :
    s.textOrNull.toOption = orDefault? "" Value.text? v := by
  cases s with
  | null =>
    cases h
    rfl
  | bool b =>
    cases h
    rfl
  | number n =>
    obtain ⟨x, -, rfl⟩ := value_number_eq_ok_iff.1 h
    rfl
  | string q =>
    obtain ⟨t, ht, rfl⟩ := value_string_eq_ok_iff.1 h
    show q.decode.toOption = some t
    rw [ht]
    rfl
  | array items stop =>
    obtain ⟨d, vs, -, -, -, rfl⟩ := value_array_eq_ok_iff.1 h
    rfl
  | object members stop =>
    obtain ⟨d, ms, -, -, -, rfl⟩ := value_object_eq_ok_iff.1 h
    rfl
  | broken f => cases h
  | cutNumeral => cases h

/-- The items of a list have their values one by one. -/
theorem values_eq_ok_iff {items : List Shape} {vs : List Value} :
    values depth items = .ok vs ↔ items.map (value depth) = vs.map .ok := by
  induction items generalizing vs with
  | nil => cases vs <;> simp [values]
  | cons s ss ih =>
    simp only [values, bind_eq_ok, ih]
    cases vs with
    | nil => simp [pure, Except.pure]
    | cons v vs =>
      simp only [pure, Except.pure, Except.ok.injEq, List.cons.injEq, List.map_cons]
      constructor
      · rintro ⟨v', hv, vs', hvs, rfl, rfl⟩
        exact ⟨hv, hvs⟩
      · rintro ⟨hv, hvs⟩
        exact ⟨v, hv, vs, hvs, rfl, rfl⟩

theorem memberValues_cons_eq_ok_iff {q : Quoted} {s : Shape} {members : List (Quoted × Shape)}
    {ms : List (String × Value)} :
    memberValues depth ((q, s) :: members) = .ok ms ↔
      ∃ k v ms', q.decode = .ok k ∧ s.value depth = .ok v ∧
        memberValues depth members = .ok ms' ∧ ms = (k, v) :: ms' := by
  simp only [memberValues, bind_eq_ok]
  constructor
  · rintro ⟨k, hk, v, hv, ms', hms, h⟩
    exact ⟨k, v, ms', hk, hv, hms, (Except.ok.inj h).symm⟩
  · rintro ⟨k, v, ms', hk, hv, hms, rfl⟩
    exact ⟨k, hk, v, hv, ms', hms, rfl⟩

theorem values_cons_eq_ok_iff {s : Shape} {ss : List Shape} {vs : List Value} :
    values depth (s :: ss) = .ok vs ↔
      ∃ v vs', s.value depth = .ok v ∧ values depth ss = .ok vs' ∧ vs = v :: vs' := by
  simp only [values, bind_eq_ok]
  constructor
  · rintro ⟨v, hv, vs', hvs, h⟩
    exact ⟨v, vs', hv, hvs, (Except.ok.inj h).symm⟩
  · rintro ⟨v, vs', hv, hvs, rfl⟩
    exact ⟨v, hv, vs', hvs, rfl⟩

mutual

/-- Every value that is read is ordered. -/
theorem isOrdered_of_value : ∀ {depth : Nat} {s : Shape} {v : Value},
    s.value depth = .ok v → v.IsOrdered
  | _, .null, _, h => by
    cases h
    exact .null
  | _, .bool b, _, h => by
    cases h
    exact .bool b
  | _, .number _, _, h => by
    obtain ⟨x, -, rfl⟩ := value_number_eq_ok_iff.1 h
    exact .number x
  | _, .string _, _, h => by
    obtain ⟨t, -, rfl⟩ := value_string_eq_ok_iff.1 h
    exact .string t
  | _, .array items _, _, h => by
    obtain ⟨d, vs, -, hvs, -, rfl⟩ := value_array_eq_ok_iff.1 h
    exact .array (isOrdered_of_values hvs)
  | _, .object members _, _, h => by
    obtain ⟨d, ms, -, hms, -, rfl⟩ := value_object_eq_ok_iff.1 h
    have hall := isOrdered_of_memberValues hms
    exact .object (Members.isSorted_ofList ms) fun m hm => hall m (Members.mem_ofList hm)
  | _, .broken f, _, h => by cases h
  | _, .cutNumeral, _, h => by cases h

theorem isOrdered_of_values : ∀ {depth : Nat} {ss : List Shape} {vs : List Value},
    values depth ss = .ok vs → ∀ v ∈ vs, v.IsOrdered
  | _, [], _, h => by
    cases h
    simp
  | _, s :: ss, _, h => by
    obtain ⟨v, vs, hv, hvs, rfl⟩ := values_cons_eq_ok_iff.1 h
    exact List.forall_mem_cons.2 ⟨isOrdered_of_value hv, isOrdered_of_values hvs⟩

theorem isOrdered_of_memberValues : ∀ {depth : Nat} {members : List (Quoted × Shape)}
    {ms : List (String × Value)}, memberValues depth members = .ok ms →
    ∀ m ∈ ms, m.2.IsOrdered
  | _, [], _, h => by
    cases h
    simp
  | _, (q, s) :: members, _, h => by
    obtain ⟨k, v, ms, -, hv, hms, rfl⟩ := memberValues_cons_eq_ok_iff.1 h
    exact List.forall_mem_cons.2 ⟨isOrdered_of_value hv, isOrdered_of_memberValues hms⟩

end

mutual

/-- What has a value still has it where one more container may be open. -/
theorem value_succ : ∀ {depth : Nat} {s : Shape} {v : Value},
    s.value depth = .ok v → s.value (depth + 1) = .ok v
  | _, .null, _, h | _, .bool _, _, h | _, .number _, _, h | _, .string _, _, h => by
    simpa only [value] using h
  | _, .array items stop, _, h => by
    obtain ⟨d, vs, rfl, hvs, hs, rfl⟩ := value_array_eq_ok_iff.1 h
    exact value_array_eq_ok_iff.2 ⟨d + 1, vs, rfl, values_succ hvs, hs, rfl⟩
  | _, .object members stop, _, h => by
    obtain ⟨d, ms, rfl, hms, hs, rfl⟩ := value_object_eq_ok_iff.1 h
    exact value_object_eq_ok_iff.2 ⟨d + 1, ms, rfl, memberValues_succ hms, hs, rfl⟩
  | _, .broken _, _, h | _, .cutNumeral, _, h => by cases h

theorem values_succ : ∀ {depth : Nat} {ss : List Shape} {vs : List Value},
    values depth ss = .ok vs → values (depth + 1) ss = .ok vs
  | _, [], _, h => by simpa only [values] using h
  | _, s :: ss, _, h => by
    obtain ⟨v, vs, hv, hvs, rfl⟩ := values_cons_eq_ok_iff.1 h
    exact values_cons_eq_ok_iff.2 ⟨v, vs, value_succ hv, values_succ hvs, rfl⟩

theorem memberValues_succ : ∀ {depth : Nat} {members : List (Quoted × Shape)}
    {ms : List (String × Value)}, memberValues depth members = .ok ms →
    memberValues (depth + 1) members = .ok ms
  | _, [], _, h => by simpa only [memberValues] using h
  | _, (q, s) :: members, _, h => by
    obtain ⟨k, v, ms, hk, hv, hms, rfl⟩ := memberValues_cons_eq_ok_iff.1 h
    exact memberValues_cons_eq_ok_iff.2
      ⟨k, v, ms, hk, value_succ hv, memberValues_succ hms, rfl⟩

end

/-- The shape under a key of an object, the last one if the key stands several times. -/
def last? (key : String) : List (Quoted × Shape) → Option Shape
  | [] => none
  | (q, s) :: ms => (last? key ms).or (if q.decode.toOption = some key then some s else none)

/-- The member of an object under a key is the value of the last shape under it. -/
theorem get?_ofList_of_memberValues (key : String) {members : List (Quoted × Shape)}
    {ms : List (String × Value)} (h : memberValues depth members = .ok ms) :
    (last? key members).map (value depth)
      = (Members.get? key (Members.ofList ms)).map .ok := by
  induction members generalizing ms with
  | nil =>
    cases h
    rfl
  | cons m members ih =>
    obtain ⟨k, v, ms', hk, hv, hms, rfl⟩ := memberValues_cons_eq_ok_iff.1 h
    rw [last?, Members.ofList, List.foldl_cons, Members.get?_foldl_put, Members.get?_put,
      Option.map_or, ih hms, Option.map_or]
    congr 1
    by_cases hkey : key = k
    · simp [hk, hkey, hv, Except.toOption]
    · simp [hk, hkey, Ne.symm hkey, Except.toOption]

/-- A key is absent, and read as null, or has the value of the last shape under it. -/
theorem orNull_of_memberValues (key : String) {members : List (Quoted × Shape)}
    {ms : List (String × Value)} (h : memberValues depth members = .ok ms) :
    (last? key members = none ∧ Members.orNull key (Members.ofList ms) = .null) ∨
      ∃ s, last? key members = some s ∧
        s.value depth = .ok (Members.orNull key (Members.ofList ms)) := by
  have hget := get?_ofList_of_memberValues key h
  unfold Members.orNull
  cases hs : last? key members with
  | none =>
    cases hv : Members.get? key (Members.ofList ms) with
    | none => exact .inl ⟨rfl, rfl⟩
    | some v => simp [hs, hv] at hget
  | some s =>
    cases hv : Members.get? key (Members.ofList ms) with
    | none => simp [hs, hv] at hget
    | some v =>
      rw [hs, hv] at hget
      exact .inr ⟨s, rfl, Option.some.inj hget⟩

end Shape

end Herald.Json
