import Herald.Proofs.Json.Lookup
import Herald.RichText.Reading

/-!
# The grammar of nodes

The reader of nodes goes through the members of an object and the items of a list in their order.
What it accepts can be said without an order.

* `Node.ofEntry`: the node of an entry of a list;
* `Node.IsText`, `Node.IsElement`: the entries that are text nodes, and those that are elements;
* `Node.value_ofValue?_object`, `Node.value_ofValue?_array`: the node of an object and of a list, by
  what is found in them;
* `Node.ofEntry_eq_text_iff`, `Node.ofEntry_eq_element_iff`, `Node.ofEntry_eq_unknown_iff`: an entry
  is what it is spelled as.
-/

namespace Herald.RichText.Node

open Json

/-! ### Entries one by one -/

/-- The node of an entry, the unknown node if it is none. -/
def ofEntry (v : Value) : Node := (ofValue? v).value.getD .unknown

theorem value_entries (items : List Value) : (entries items).value = items.map ofEntry := by
  induction items with
  | nil => simp [entries]
  | cons v vs ih =>
    rw [List.map_cons, ← ih, ofEntry]
    simp only [entries, Noted.value_bind]
    cases (ofValue? v).value <;> rfl

@[simp] theorem value_nodes_array (items : List Value) :
    (nodes (.array items)).value = items.map ofEntry := by
  rw [nodes, value_entries]

@[simp] theorem value_nodes_null : (nodes .null).value = [] := by simp [nodes]

theorem value_nodes_of_ne_array {v : Value} (h : ∀ items, v ≠ .array items) :
    (nodes v).value = [] := by
  cases v with
  | array items => exact absurd rfl (h items)
  | _ => simp [nodes]

/-! ### The members of an object -/

/-- No text is found once there is one, unless it stands a second time. -/
theorem textOfMembers_of_get?_eq_none {ms : Members} (h : ms.get? "data" = none)
    (data : Option String) : textOfMembers data ms = data.map .text := by
  induction ms with
  | nil => rfl
  | cons m ms ih =>
    obtain ⟨k, v⟩ := m
    have hk : k ≠ "data" := by
      rintro rfl
      simp [Members.get?_cons] at h
    rw [Members.get?_cons_of_ne hk.symm] at h
    unfold textOfMembers
    rw [if_neg hk, ih h]

theorem textOfMembers_none {ms : Members} (hd : Members.AreDistinct ms) :
    textOfMembers none ms = ((ms.get? "data").bind Value.text?).map .text := by
  induction ms with
  | nil => rfl
  | cons m ms ih =>
    obtain ⟨k, v⟩ := m
    obtain ⟨hne, hdm⟩ := Members.areDistinct_cons.1 hd
    have hn : Members.get? k ms = none := Members.get?_eq_none hne
    unfold textOfMembers
    by_cases hk : k = "data"
    · subst hk
      rw [if_pos rfl, Members.get?_cons, if_pos rfl]
      cases v with
      | string s => exact textOfMembers_of_get?_eq_none hn (some s)
      | _ => rfl
    · rw [if_neg hk, Members.get?_cons_of_ne (Ne.symm hk)]
      exact ih hdm

/-- A draft completed by members that say nothing of what it has already. -/
def Draft.completed (d : Draft) (ms : Members) : Option Node :=
  ((ms.get? "tag").elim (some d.tag) fun v => v.text?.map some).bind fun tag =>
    ((ms.get? "attrs").elim (some d.attributes) fun v => (attributes? v).map some).bind fun a =>
      Draft.done? ⟨tag, a, (ms.get? "children").elim d.children fun v => some (nodes v).value⟩

/-- What a draft has already is not among the members to come. -/
structure Draft.Awaits (d : Draft) (ms : Members) : Prop where
  tag : d.tag.isSome → ms.get? "tag" = none
  attributes : d.attributes.isSome → ms.get? "attrs" = none
  children : d.children.isSome → ms.get? "children" = none

theorem Draft.awaits_empty (ms : Members) : Draft.empty.Awaits ms := ⟨nofun, nofun, nofun⟩

/-- What a draft awaits under the key of the first member it does not have. -/
theorem eq_none_of_get?_cons {α : Type} {o : Option α} {k : String} {v : Value} {ms : Members}
    (h : o.isSome → Members.get? k ((k, v) :: ms) = none) : o = none := by
  cases o with
  | none => rfl
  | some a => simp [Members.get?_cons] at h

theorem value_elementOfMembers? {ms : Members} (hk : Members.AreDistinct ms) {d : Draft}
    (hd : d.Awaits ms) : (elementOfMembers? d ms).value = d.completed ms := by
  induction ms generalizing d with
  | nil => simp [elementOfMembers?, Draft.completed]
  | cons m ms ih =>
    obtain ⟨k, v⟩ := m
    obtain ⟨hne, hkm⟩ := Members.areDistinct_cons.1 hk
    have hn : Members.get? k ms = none := Members.get?_eq_none hne
    obtain ⟨tag, attributes, children⟩ := d
    obtain ⟨ht, ha, hc⟩ := hd
    dsimp only at ht ha hc
    by_cases hkt : k = "tag"
    · subst hkt
      obtain rfl : tag = none := eq_none_of_get?_cons ht
      rw [Members.get?_cons_of_ne (by decide)] at ha hc
      cases v with
      | string t =>
        have hw : Draft.Awaits ⟨some t, attributes, children⟩ ms := ⟨fun _ => hn, ha, hc⟩
        simp [elementOfMembers?, ih hkm hw, Draft.completed, Members.get?_cons, hn, Value.text?]
      | _ => simp [elementOfMembers?, Draft.completed, Members.get?_cons, Value.text?]
    rw [Members.get?_cons_of_ne (Ne.symm hkt)] at ht
    by_cases hka : k = "attrs"
    · subst hka
      obtain rfl : attributes = none := eq_none_of_get?_cons ha
      rw [Members.get?_cons_of_ne (by decide)] at hc
      cases hv : attributes? v with
      | some a =>
        have hw : Draft.Awaits ⟨tag, some a, children⟩ ms := ⟨ht, fun _ => hn, hc⟩
        simp [elementOfMembers?, hv, ih hkm hw, Draft.completed, Members.get?_cons, hn]
      | none => simp [elementOfMembers?, hv, Draft.completed, Members.get?_cons]
    rw [Members.get?_cons_of_ne (Ne.symm hka)] at ha
    by_cases hkc : k = "children"
    · subst hkc
      obtain rfl : children = none := eq_none_of_get?_cons hc
      have hw : Draft.Awaits ⟨tag, attributes, some (nodes v).value⟩ ms := ⟨ht, ha, fun _ => hn⟩
      simp [elementOfMembers?, ih hkm hw, Draft.completed, Members.get?_cons, hn]
    · rw [Members.get?_cons_of_ne (Ne.symm hkc)] at hc
      have hw : Draft.Awaits ⟨tag, attributes, children⟩ ms := ⟨ht, ha, hc⟩
      unfold elementOfMembers?
      rw [if_neg hkt, if_neg hka, if_neg hkc, ih hkm hw, Draft.completed, Draft.completed,
        Members.get?_cons_of_ne (Ne.symm hkt), Members.get?_cons_of_ne (Ne.symm hka),
        Members.get?_cons_of_ne (Ne.symm hkc)]

/-- The element of the members of an object, looked up one by one. -/
def elementOf? (ms : Members) : Option Node :=
  ((ms.get? "tag").bind Value.text?).bind fun name =>
    (attributes? (ms.orNull "attrs")).map fun a =>
      .element (Tag.ofName name) a (nodes (ms.orNull "children")).value

theorem Draft.completed_empty (ms : Members) : Draft.empty.completed ms = elementOf? ms := by
  have ha : ((ms.get? "attrs").elim (some none) fun v => (attributes? v).map some).map
      (·.getD []) = attributes? (ms.orNull "attrs") := by
    unfold Members.orNull
    cases ms.get? "attrs" with
    | none => rfl
    | some v => cases h : attributes? v <;> simp [h]
  have hc : ((ms.get? "children").elim none fun v => some (nodes v).value).getD []
      = (nodes (ms.orNull "children")).value := by
    unfold Members.orNull
    cases ms.get? "children" <;> simp
  rw [elementOf?, ← ha, ← hc, completed, empty]
  cases ms.get? "tag" with
  | none =>
    -- Without a tag nothing is done, whatever the attributes are.
    cases (ms.get? "attrs").elim (some none) fun v => (attributes? v).map some <;> rfl
  | some v =>
    cases hv : v.text? with
    | none => simp [hv]
    | some name =>
      cases (ms.get? "attrs").elim (some none) fun v => (attributes? v).map some <;>
        simp [hv, done?]

/-! ### What an entry is spelled as -/

/-- The values that attributes are read from, null standing for none. -/
inductive AreAttributes : Value → Members → Prop
  | null : AreAttributes .null []
  | object (ms : Members) : AreAttributes (.object ms) ms

theorem areAttributes_iff {v : Value} {a : Members} :
    AreAttributes v a ↔ attributes? v = some a := by
  constructor
  · rintro (_ | _) <;> rfl
  · intro h
    cases v with
    | null =>
      cases h
      exact .null
    | object ms =>
      cases h
      exact .object a
    | _ => cases h

/-- The entries that are text nodes: an object that says so and has a text, or the list of the
two. -/
inductive IsText : Value → String → Prop
  | members {ms : Members} {data : String} (kind : ms.get? "type" = some (.string "text"))
      (text : ms.get? "data" = some (.string data)) : IsText (.object ms) data
  | items (data : String) : IsText (.array [.string "text", .string data]) data

/-- The entries that are elements, with the name of the tag, the attributes, and what stands in the
place of the children (null if nothing does): an object that says so, has a tag and may have
attributes, or the list of these in order, which may end after the tag. -/
inductive IsElement : Value → String → Members → Value → Prop
  | members {ms : Members} {name : String} {a : Members}
      (kind : ms.get? "type" = some (.string "tag"))
      (tag : ms.get? "tag" = some (.string name))
      (attributes : AreAttributes (ms.orNull "attrs") a) :
      IsElement (.object ms) name a (ms.orNull "children")
  | one (name : String) : IsElement (.array [.string "tag", .string name]) name [] .null
  | two (name : String) (c : Value) :
      IsElement (.array [.string "tag", .string name, c]) name [] c
  | three (name : String) (c : Value) {v : Value} {a : Members} (attributes : AreAttributes v a) :
      IsElement (.array [.string "tag", .string name, c, v]) name a c

/-! ### An entry is what it is spelled as -/

section Entry

variable {ms : Members}

/-- The node of a kind with members under distinct keys, in whatever order they stand. -/
theorem value_ofMembers? (hd : Members.AreDistinct ms) (kind : String) :
    (ofMembers? kind ms).value
      = if kind = "text" then ((ms.get? "data").bind Value.text?).map .text
        else if kind = "tag" then elementOf? ms
        else some .unknown := by
  have he : (elementOfMembers? .empty ms).value = elementOf? ms := by
    rw [value_elementOfMembers? hd (Draft.awaits_empty ms), Draft.completed_empty]
  simp only [ofMembers?, byKind, textOfMembers_none hd]
  split
  · rfl
  · split
    · exact he
    · rfl

/-- The node of an object, by its kind. -/
theorem value_ofValue?_object (hs : Members.IsSorted ms) :
    (ofValue? (.object ms)).value
      = ((ms.get? "type").bind Value.text?).bind fun kind =>
          if kind = "text" then ((ms.get? "data").bind Value.text?).map .text
          else if kind = "tag" then elementOf? ms
          else some .unknown := by
  rw [ofValue?]
  cases ms.get? "type" with
  | none => rfl
  | some v =>
    cases v with
    | string kind => exact value_ofMembers? hs.areDistinct kind
    | _ => rfl

theorem ofEntry_eq_iff {v : Value} {n : Node} (h : n ≠ .unknown) :
    ofEntry v = n ↔ (ofValue? v).value = some n := by
  unfold ofEntry
  cases (ofValue? v).value with
  | none => simp [h.symm]
  | some m => simp

theorem bind_text?_eq_some_iff {o : Option Value} {s : String} :
    o.bind Value.text? = some s ↔ o = some (.string s) := by
  cases o with
  | none => simp
  | some v => cases v <;> simp [Value.text?]

theorem elementOf?_eq_some_iff {tag : Tag} {a : Members} {ns : List Node} :
    elementOf? ms = some (.element tag a ns) ↔
      ∃ name, ms.get? "tag" = some (.string name) ∧ AreAttributes (ms.orNull "attrs") a ∧
        tag = Tag.ofName name ∧ ns = (nodes (ms.orNull "children")).value := by
  constructor
  · intro h
    obtain ⟨name, ht, h⟩ := Option.bind_eq_some_iff.1 h
    obtain ⟨a', ha, h⟩ := Option.map_eq_some_iff.1 h
    cases h
    exact ⟨name, bind_text?_eq_some_iff.1 ht, areAttributes_iff.2 ha, rfl, rfl⟩
  · rintro ⟨name, ht, ha, rfl, rfl⟩
    rw [elementOf?, bind_text?_eq_some_iff.2 ht, areAttributes_iff.1 ha]
    rfl

theorem value_ofValue?_object_eq_text_iff (hs : Members.IsSorted ms) {data : String} :
    (ofValue? (.object ms)).value = some (.text data) ↔ IsText (.object ms) data := by
  rw [value_ofValue?_object hs, Option.bind_eq_some_iff]
  constructor
  · rintro ⟨kind, hk, h⟩
    rw [bind_text?_eq_some_iff] at hk
    split at h
    · rename_i he
      obtain ⟨data', hd, he'⟩ := Option.map_eq_some_iff.1 h
      cases he'
      exact .members (he ▸ hk) (bind_text?_eq_some_iff.1 hd)
    · split at h
      -- The element of members is no text.
      · obtain ⟨name, -, h⟩ := Option.bind_eq_some_iff.1 h
        obtain ⟨a, -, h⟩ := Option.map_eq_some_iff.1 h
        cases h
      · cases h
  · rintro ⟨hk, hd⟩
    exact ⟨"text", bind_text?_eq_some_iff.2 hk, by rw [if_pos rfl, hd]; rfl⟩

theorem value_ofValue?_object_eq_element_iff (hs : Members.IsSorted ms) {tag : Tag} {a : Members}
    {ns : List Node} :
    (ofValue? (.object ms)).value = some (.element tag a ns) ↔
      ∃ name c, IsElement (.object ms) name a c ∧ tag = Tag.ofName name ∧
        ns = (nodes c).value := by
  rw [value_ofValue?_object hs, Option.bind_eq_some_iff]
  constructor
  · rintro ⟨kind, hk, h⟩
    rw [bind_text?_eq_some_iff] at hk
    split at h
    · obtain ⟨data, -, h⟩ := Option.map_eq_some_iff.1 h
      cases h
    · split at h
      · rename_i he
        obtain ⟨name, ht, ha, rfl, rfl⟩ := elementOf?_eq_some_iff.1 h
        exact ⟨name, _, .members (he ▸ hk) ht ha, rfl, rfl⟩
      · cases h
  · rintro ⟨name, c, ⟨hk, ht, ha⟩, rfl, rfl⟩
    refine ⟨"tag", bind_text?_eq_some_iff.2 hk, ?_⟩
    rw [if_neg (by decide), if_pos rfl]
    exact elementOf?_eq_some_iff.2 ⟨name, ht, ha, rfl, rfl⟩

end Entry

theorem textOfItems_eq_some_iff {items : List Value} {n : Node} :
    textOfItems items = some n ↔ ∃ data, items = [.string data] ∧ n = .text data := by
  constructor
  · intro h
    unfold textOfItems at h
    split at h
    · cases h
      exact ⟨_, rfl, rfl⟩
    · cases h
  · rintro ⟨data, rfl, rfl⟩
    rfl

theorem value_elementOfItems?_eq_some_iff {items : List Value} {n : Node} :
    (elementOfItems? items).value = some n ↔
      ∃ name a c, IsElement (.array (.string "tag" :: items)) name a c ∧
        n = .element (Tag.ofName name) a (nodes c).value := by
  constructor
  · intro h
    unfold elementOfItems? at h
    split at h
    · cases h
      exact ⟨_, [], .null, .one _, by rw [value_nodes_null]⟩
    · cases h
      exact ⟨_, [], _, .two _ _, rfl⟩
    · rename_i name c v rest
      cases ha : attributes? v with
      | none => simp [ha] at h
      | some a =>
        cases rest with
        | nil =>
          simp only [ha, List.isEmpty_nil, if_true] at h
          cases h
          exact ⟨name, a, c, .three name c (areAttributes_iff.2 ha), rfl⟩
        | cons w ws => simp [ha] at h
    · cases h
  · rintro ⟨name, a, c, h, rfl⟩
    cases h with
    | one => simp [elementOfItems?]
    | two => simp [elementOfItems?]
    | three _ _ ha => simp [elementOfItems?, areAttributes_iff.1 ha]

/-- The node of a list, by its kind. -/
theorem value_ofValue?_array (kind : String) (items : List Value) :
    (ofValue? (.array (.string kind :: items))).value
      = if kind = "text" then textOfItems items
        else if kind = "tag" then (elementOfItems? items).value
        else if items.isEmpty then some .unknown else none := by
  rw [ofValue?, byKind]
  split
  · rfl
  · split <;> rfl

theorem value_ofValue?_array_eq_text_iff {kind : String} {items : List Value} {data : String} :
    (ofValue? (.array (.string kind :: items))).value = some (.text data) ↔
      IsText (.array (.string kind :: items)) data := by
  rw [value_ofValue?_array]
  constructor
  · intro h
    split at h
    · rename_i hk
      subst hk
      obtain ⟨data', rfl, hn⟩ := textOfItems_eq_some_iff.1 h
      cases hn
      exact .items data
    · split at h
      · obtain ⟨name, a, c, -, hn⟩ := value_elementOfItems?_eq_some_iff.1 h
        cases hn
      · split at h <;> cases h
  · rintro ⟨⟩
    rfl

theorem value_ofValue?_array_eq_element_iff {kind : String} {items : List Value} {tag : Tag}
    {a : Members} {ns : List Node} :
    (ofValue? (.array (.string kind :: items))).value = some (.element tag a ns) ↔
      ∃ name c, IsElement (.array (.string kind :: items)) name a c ∧ tag = Tag.ofName name ∧
        ns = (nodes c).value := by
  rw [value_ofValue?_array]
  constructor
  · intro h
    split at h
    · obtain ⟨data, -, hn⟩ := textOfItems_eq_some_iff.1 h
      cases hn
    · split at h
      · rename_i hk
        subst hk
        obtain ⟨name, a', c, he, hn⟩ := value_elementOfItems?_eq_some_iff.1 h
        cases hn
        exact ⟨name, c, he, rfl, rfl⟩
      · split at h <;> cases h
  · rintro ⟨name, c, he, rfl, rfl⟩
    obtain rfl : kind = "tag" := by
      cases he <;> rfl
    rw [if_neg (by decide), if_pos rfl]
    exact value_elementOfItems?_eq_some_iff.2 ⟨name, a, c, he, rfl⟩

/-- Only objects and lists that begin with a string are nodes. -/
theorem object_or_array_of_value_ofValue? {v : Value} {n : Node}
    (h : (ofValue? v).value = some n) :
    (∃ ms, v = .object ms) ∨ ∃ kind items, v = .array (.string kind :: items) := by
  unfold ofValue? at h
  split at h
  · exact .inl ⟨_, rfl⟩
  · exact .inr ⟨_, _, rfl⟩
  · cases h

theorem isSorted_of_isOrdered {ms : Members} (h : (Value.object ms).IsOrdered) :
    Members.IsSorted ms := by
  cases h
  assumption

/-- **An entry is a text node if it is spelled as one.** -/
theorem ofEntry_eq_text_iff {v : Value} (hv : v.IsOrdered) {data : String} :
    ofEntry v = .text data ↔ IsText v data := by
  rw [ofEntry_eq_iff (by simp)]
  constructor
  · intro h
    rcases object_or_array_of_value_ofValue? h with ⟨ms, rfl⟩ | ⟨kind, items, rfl⟩
    · exact (value_ofValue?_object_eq_text_iff (isSorted_of_isOrdered hv)).1 h
    · exact value_ofValue?_array_eq_text_iff.1 h
  · intro h
    cases h with
    | members hk hd =>
      exact (value_ofValue?_object_eq_text_iff (isSorted_of_isOrdered hv)).2 (.members hk hd)
    | items => exact value_ofValue?_array_eq_text_iff.2 (.items data)

/-- **An entry is an element if it is spelled as one**, whatever stands in the place of its
children. -/
theorem ofEntry_eq_element_iff {v : Value} (hv : v.IsOrdered) {tag : Tag} {a : Members}
    {ns : List Node} :
    ofEntry v = .element tag a ns ↔
      ∃ name c, IsElement v name a c ∧ tag = Tag.ofName name ∧ ns = (nodes c).value := by
  rw [ofEntry_eq_iff (by simp)]
  constructor
  · intro h
    rcases object_or_array_of_value_ofValue? h with ⟨ms, rfl⟩ | ⟨kind, items, rfl⟩
    · exact (value_ofValue?_object_eq_element_iff (isSorted_of_isOrdered hv)).1 h
    · exact value_ofValue?_array_eq_element_iff.1 h
  · rintro ⟨name, c, he, ht, hns⟩
    have h : ∃ name c, IsElement v name a c ∧ tag = Tag.ofName name ∧ ns = (nodes c).value :=
      ⟨name, c, he, ht, hns⟩
    cases he with
    | members => exact (value_ofValue?_object_eq_element_iff (isSorted_of_isOrdered hv)).2 h
    | one => exact value_ofValue?_array_eq_element_iff.2 h
    | two => exact value_ofValue?_array_eq_element_iff.2 h
    | three => exact value_ofValue?_array_eq_element_iff.2 h

/-- Every other entry is unknown. -/
theorem ofEntry_eq_unknown_iff {v : Value} (hv : v.IsOrdered) :
    ofEntry v = .unknown ↔
      (∀ data, ¬ IsText v data) ∧ ∀ name a c, ¬ IsElement v name a c := by
  constructor
  · intro h
    refine ⟨fun data hd => ?_, fun name a c he => ?_⟩
    · rw [(ofEntry_eq_text_iff hv).2 hd] at h
      cases h
    · rw [(ofEntry_eq_element_iff hv).2 ⟨name, c, he, rfl, rfl⟩] at h
      cases h
  · rintro ⟨ht, he⟩
    cases h : ofEntry v with
    | text data => exact absurd ((ofEntry_eq_text_iff hv).1 h) (ht data)
    | element tag a ns =>
      obtain ⟨name, c, hc, -, -⟩ := (ofEntry_eq_element_iff hv).1 h
      exact absurd hc (he name a c)
    | unknown => rfl

end Herald.RichText.Node
