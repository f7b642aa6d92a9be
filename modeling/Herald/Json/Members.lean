import Herald.Json.Value

/-!
# The members of an object as a finite map

* `put`, `ofList`, `get?`: put a value under a key, put several one after another, and look one up;
* `IsSorted`: ascending keys, each key once.

Of several values put under one key the last counts, and whatever is put, the keys ascend.
-/

namespace Herald.Json.Members

/-- Put a value under a key: it takes the place of an earlier one, and else stands by the order of
the keys. -/
def put (k : String) (v : Value) : Members → Members
  | [] => [(k, v)]
  | (k', v') :: ms =>
    if k < k' then (k, v) :: (k', v') :: ms
    else if k = k' then (k, v) :: ms
    else (k', v') :: put k v ms

/-- The members put one after another into an empty object. -/
def ofList (ms : List (String × Value)) : Members :=
  ms.foldl (fun acc m => put m.1 m.2 acc) []

/-- The value under a key. -/
def get? (k : String) : Members → Option Value
  | [] => none
  | (k', v) :: ms => if k = k' then some v else get? k ms

/-- The keys ascend. -/
def IsSorted (ms : Members) : Prop := ms.Pairwise fun a b => a.1 < b.1

@[simp] theorem get?_nil (k : String) : get? k [] = none := rfl

theorem get?_cons (k k' : String) (v : Value) (ms : Members) :
    get? k ((k', v) :: ms) = if k = k' then some v else get? k ms := rfl

/-- Putting changes the value under the key and no other. -/
theorem get?_put (k k' : String) (v : Value) (ms : Members) :
    get? k' (put k v ms) = if k' = k then some v else get? k' ms := by
  induction ms with
  | nil => rfl
  | cons m ms ih =>
    obtain ⟨l, w⟩ := m
    by_cases hlt : k < l
    · simp [put, hlt, get?_cons]
    · by_cases heq : k = l
      · subst heq
        by_cases h : k' = k <;> simp [put, get?_cons, h]
      · by_cases h : k' = l
        · subst h
          simp [put, hlt, heq, get?_cons, Ne.symm heq]
        · simp [put, hlt, heq, get?_cons, h, ih]

theorem mem_put {k : String} {v : Value} {ms : Members} {m : String × Value}
    (h : m ∈ put k v ms) : m = (k, v) ∨ m ∈ ms := by
  induction ms with
  | nil => simpa [put] using h
  | cons a ms ih =>
    obtain ⟨l, w⟩ := a
    rw [put] at h
    split at h
    · simpa using h
    · split at h
      · rcases List.mem_cons.1 h with h | h
        · exact .inl h
        · exact .inr (List.mem_cons_of_mem _ h)
      · rcases List.mem_cons.1 h with h | h
        · exact .inr (h ▸ List.mem_cons_self)
        · exact (ih h).imp_right (List.mem_cons_of_mem _)

theorem isSorted_nil : IsSorted [] := .nil

theorem isSorted_put {k : String} {v : Value} {ms : Members} (h : IsSorted ms) :
    IsSorted (put k v ms) := by
  induction ms with
  | nil => exact List.pairwise_singleton _ _
  | cons a ms ih =>
    obtain ⟨l, w⟩ := a
    obtain ⟨hl, hms⟩ := List.pairwise_cons.1 h
    rw [put]
    split
    · rename_i hlt
      refine List.pairwise_cons.2 ⟨fun m hm => ?_, h⟩
      rcases List.mem_cons.1 hm with rfl | hm
      · exact hlt
      · exact String.lt_trans hlt (hl m hm)
    · split
      · rename_i heq
        exact List.pairwise_cons.2 ⟨fun m hm => heq ▸ hl m hm, hms⟩
      · rename_i hlt hne
        refine List.pairwise_cons.2 ⟨fun m hm => ?_, ih hms⟩
        rcases mem_put hm with rfl | hm
        · exact Std.lt_of_le_of_ne (String.not_lt.1 hlt) (Ne.symm hne)
        · exact hl m hm

theorem isSorted_foldl_put (ms : List (String × Value)) {acc : Members} (h : IsSorted acc) :
    IsSorted (ms.foldl (fun acc m => put m.1 m.2 acc) acc) := by
  induction ms generalizing acc with
  | nil => exact h
  | cons m ms ih => exact ih (isSorted_put h)

/-- Whatever is put into an empty object, the keys ascend. -/
theorem isSorted_ofList (ms : List (String × Value)) : IsSorted (ofList ms) :=
  isSorted_foldl_put ms isSorted_nil

end Herald.Json.Members
