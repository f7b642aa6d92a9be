import Herald.Proofs.Json.Tagged
import Herald.Proofs.RichText.Grammar

/-!
# Nodes read directly

A node that is read from a text goes by the order of the text, and keeps what it cannot place before
its kind is known. If no key stands twice, it is the node that the value of the text stands for.

* `elementOf?_congr`: an element does not depend on the member with its kind;
* `Node.result?_read_object`, `Node.result?_read_array`: the two forms of a node;
* `Node.result?_read`: what is read of a shape is what its value stands for.
-/

namespace Herald.RichText.Node

open Json

/-- An element is made of what stands under keys other than that of the kind. -/
theorem elementOf?_congr {ms ms' : Members}
    (h : ∀ key, key ≠ "type" → ms.get? key = ms'.get? key) : elementOf? ms = elementOf? ms' := by
  simp only [elementOf?, Members.orNull, h "tag" (by decide), h "attrs" (by decide),
    h "children" (by decide)]

/-- Neither an object nor a list that begins with a string: no node. -/
theorem value_ofValue?_eq_none {v : Value} (ho : ∀ ms, v ≠ .object ms)
    (ha : ∀ kind items, v ≠ .array (.string kind :: items)) : (ofValue? v).value = none := by
  refine Option.eq_none_iff_forall_ne_some.2 fun n h => ?_
  rcases object_or_array_of_value_ofValue? h with ⟨ms, hv⟩ | ⟨kind, items, hv⟩
  · exact ho ms hv
  · exact ha kind items hv

variable {depth : Nat}

/-- A form of a node is read, once its kind is known. -/
theorem result?_read_eq (s : Shape) :
    (read depth s).result?
      = (s.tagged (fun _ => true) depth).toOption.bind fun t => (ofTagged? t).value := by
  rw [read, Reading.result?_bind, Reading.result?_ofExcept]
  simp only [Reading.result?_require]

theorem result?_read_object {members : List (Quoted × Shape)} {ms : List (String × Value)}
    (hms : Shape.memberValues depth members = .ok ms) (hd : Members.AreDistinct ms) :
    (read (depth + 1) (.object members none)).result?
      = (ofValue? (.object (Members.ofList ms))).value := by
  have htagged : (read (depth + 1) (.object members none)).result?
      = ((Shape.taggedMembers (fun _ => true) depth none members).toOption.bind fun r =>
          r.1.map fun k => (k, Shape.valued r.2)).bind fun p => (ofMembers? p.1 p.2).value := by
    rw [result?_read_eq, Shape.tagged]
    show ((Shape.taggedMembers _ depth none members >>= _).toOption.bind _) = _
    cases Shape.taggedMembers (fun _ => true) depth none members with
    | error f => rfl
    | ok r =>
      obtain ⟨found, ks⟩ := r
      cases found <;> rfl
  -- The text has its order and the value another one, but the same stands under each key.
  have hothers : Members.AreDistinct (ms.filter (·.1 ≠ "type")) :=
    hd.sublist (List.filter_sublist.map _)
  have hget : ∀ key, key ≠ "type" →
      Members.get? key (ms.filter (·.1 ≠ "type")) = Members.get? key (Members.ofList ms) :=
    fun key hkey => by rw [Members.get?_filter_ne hkey, hd.get?_ofList]
  rw [htagged, Shape.toOption_taggedMembers hms hd,
    value_ofValue?_object (Members.isSorted_ofList ms), hd.get?_ofList, Option.bind_map]
  refine Option.bind_congr fun kind _ => ?_
  show (ofMembers? kind _).value = _
  rw [value_ofMembers? hothers, hget "data" (by decide), elementOf?_congr hget]

theorem result?_read_array {items : List Shape} {vs : List Value}
    (hvs : Shape.values depth items = .ok vs) :
    (read (depth + 1) (.array items none)).result? = (ofValue? (.array vs)).value := by
  rw [result?_read_eq, Shape.tagged]
  cases items with
  | nil =>
    cases hvs
    exact (value_ofValue?_eq_none (by simp) (by simp)).symm
  | cons s items =>
    obtain ⟨v, vs', hv, hvs', rfl⟩ := Shape.values_cons_eq_ok_iff.1 hvs
    obtain ⟨ks, hks, rfl⟩ := Shape.keepAll_of_values hvs'
    have hkind := Shape.toOption_kind hv
    show ((s.kind _ >>= fun k => Shape.keepAll depth items >>= _).toOption.bind _) = _
    rw [hks]
    cases hk : s.kind fun _ => true with
    | error f =>
      rw [hk] at hkind
      have hne : ∀ kind rest, v :: ks.map Kept.value ≠ Value.string kind :: rest := by
        rintro kind rest h
        cases h
        cases hkind
      exact (value_ofValue?_eq_none (by simp) fun kind rest h => hne kind rest
        (Value.array.inj h)).symm
    | ok t =>
      rw [hk] at hkind
      obtain rfl : v = .string t := by
        cases v with
        | string t' => exact congrArg Value.string (Option.some.inj hkind).symm
        | _ => cases hkind
      rw [ofValue?]
      rfl

/-- **What is read directly is what the value stands for.** -/
theorem result?_read {s : Shape} {v : Value} (hv : s.value depth = .ok v)
    (hr : s.repeatsNoKey = true) : (read depth s).result? = (ofValue? v).value := by
  cases s with
  | object members stop =>
    obtain ⟨d, ms, rfl, hms, rfl, rfl⟩ := Shape.value_object_eq_ok_iff.1 hv
    rw [Shape.repeatsNoKey, Bool.and_eq_true, decide_eq_true_iff,
      Shape.map_decode_of_memberValues hms] at hr
    exact result?_read_object hms hr.1.of_map
  | array items stop =>
    obtain ⟨d, vs, rfl, hvs, rfl, rfl⟩ := Shape.value_array_eq_ok_iff.1 hv
    exact result?_read_array hvs
  | null | bool b =>
    cases hv
    exact (value_ofValue?_eq_none (by simp) (by simp)).symm
  | number n =>
    obtain ⟨x, -, rfl⟩ := Shape.value_number_eq_ok_iff.1 hv
    exact (value_ofValue?_eq_none (by simp) (by simp)).symm
  | string q =>
    obtain ⟨t, -, rfl⟩ := Shape.value_string_eq_ok_iff.1 hv
    exact (value_ofValue?_eq_none (by simp) (by simp)).symm
  | broken f => cases hv
  | cutNumeral => cases hv

end Herald.RichText.Node
