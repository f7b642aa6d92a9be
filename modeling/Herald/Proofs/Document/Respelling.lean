import Herald.Document
import Herald.Proofs.Document.Field
import Herald.Proofs.Json.Containers
import Herald.Proofs.RichText.Grammar
import Mathlib.Logic.Relation

/-!
# Events in other words

One event may be spelled in many ways.

* `Part`: what a shape stands for in an event, and what its parts stand for;
* `Part.Ignores`: the names that mean nothing in an object;
* `Change`, `Alike`: one change of the spelling, and any number of them, either way;
* `skip_of_change`, `textOrNull_of_change`: a change is not seen where a shape is passed over, or
  where a text is wanted;
* `Part.Agree`: the values that are taken for the same in the place of a part;
* `rel_value_of_change`: a change leaves the value of a part as it is, as far as it is looked at.
-/

namespace Herald.Event

open Json Document RichText

/-! ### Parts of an event -/

/-- What a shape stands for. -/
inductive Part
  | event
  | document
  /-- The list of fields. -/
  | fields
  | field
  /-- A list of nodes. -/
  | nodes
  | node
  /-- Anything else: it is kept as a value. -/
  | value
  deriving DecidableEq, Repr

namespace Part

/-- What stands under a key of an object. A key that stands for no text has no meaning. -/
def under : Part → Option String → Part
  | event, some "document" => document
  | document, some "fields" => fields
  | field, some "structuredValue" => nodes
  | node, some "children" => nodes
  | _, _ => value

/-- What stands at a place in a list. -/
def item : Part → Nat → Part
  | event, 0 => document
  | document, 4 => fields
  | fields, _ => field
  | field, 3 => nodes
  | nodes, _ => node
  | node, 2 => nodes
  | _, _ => value

/-- The kind that the members of a node name. -/
def IsOfKind (ms : List (Quoted × Shape)) (kind : String) : Prop :=
  ∃ q, Shape.last? "type" ms = some (.string q) ∧ q.decode = .ok kind

/-- The names that mean nothing in an object. In a node it depends on its kind. -/
inductive Ignores : Part → List (Quoted × Shape) → String → Prop
  | event {ms : List (Quoted × Shape)} {k : String} (unknown : k ≠ "document") :
      Ignores .event ms k
  | document {ms : List (Quoted × Shape)} {k : String} (unknown : k ∉ Document.keys) :
      Ignores .document ms k
  | field {ms : List (Quoted × Shape)} {k : String} (unknown : k ∉ Field.keys) :
      Ignores .field ms k
  | text {ms : List (Quoted × Shape)} {k : String} (kind : IsOfKind ms "text")
      (unknown : k ∉ ["type", "data"]) : Ignores .node ms k
  | tag {ms : List (Quoted × Shape)} {k : String} (kind : IsOfKind ms "tag")
      (unknown : k ∉ ["type", "tag", "attrs", "children"]) : Ignores .node ms k

end Part

/-! ### Changes of the spelling -/

/-- Two spellings of a text: they stand for the same text, or neither of them stands for any. -/
structure SameText (q q' : Quoted) : Prop where
  text : q.decode.toOption = q'.decode.toOption
  stop : q.stop = q'.stop

/-- One change of the spelling of a part, where so many more containers may be open. -/
inductive Change : Part → Nat → Shape → Shape → Prop
  /-- A string in other escapes. -/
  | string {p : Part} {d : Nat} {q q' : Quoted} (same : SameText q q') :
      Change p d (.string q) (.string q')
  /-- A key in other escapes. -/
  | key {p : Part} {d : Nat} {q q' : Quoted} (ms : List (Quoted × Shape)) (s : Shape)
      (ms' : List (Quoted × Shape)) (same : SameText q q') :
      Change p d (.object (ms ++ (q, s) :: ms') none) (.object (ms ++ (q', s) :: ms') none)
  /-- A change of an item. -/
  | item {p : Part} {d : Nat} {s s' : Shape} (ss ss' : List Shape)
      (change : Change (p.item ss.length) (d - 1) s s') :
      Change p d (.array (ss ++ s :: ss') none) (.array (ss ++ s' :: ss') none)
  /-- A change of the value of a member. -/
  | member {p : Part} {d : Nat} {s s' : Shape} (ms : List (Quoted × Shape)) (q : Quoted)
      (ms' : List (Quoted × Shape)) (change : Change (p.under q.decode.toOption) (d - 1) s s') :
      Change p d (.object (ms ++ (q, s) :: ms') none) (.object (ms ++ (q, s') :: ms') none)
  /-- The members in another order, no two of them under one key. -/
  | order {p : Part} {d : Nat} {ms ms' : List (Quoted × Shape)} (perm : ms.Perm ms')
      (distinct : (Shape.keysOf ms).Nodup) : Change p d (.object ms none) (.object ms' none)
  /-- One more member, whose name means nothing here, with a value that can be read. -/
  | extra {p : Part} {d : Nat} {ms : List (Quoted × Shape)} {q : Quoted} {s : Shape} {k : String}
      {v : Value} (name : q.decode = .ok k) (ignored : p.Ignores ms k)
      (readable : s.value d = .ok v) :
      Change p (d + 1) (.object ms none) (.object ((q, s) :: ms) none)

/-- Two spellings of a part, one from the other by any number of changes, to and fro. Besides the
blanks, which no shape has, this is all that two texts for one message may differ in. -/
def Alike (p : Part) (d : Nat) : Shape → Shape → Prop := Relation.EqvGen (Change p d)

/-! ### Passing over -/

variable {p : Part} {d : Nat} {s s' : Shape}

theorem skip_eq_ok_iff_of_change (h : Change p d s s') : s.skip = .ok () ↔ s'.skip = .ok () := by
  induction h with
  | string h => rw [Shape.skip, Shape.skip, h.stop]
  | key ms s ms' h =>
    simp only [Shape.skip_object_eq_ok_iff, List.forall_mem_append, List.forall_mem_cons, h.stop]
  | item ss ss' _ ih =>
    simp only [Shape.skip_array_eq_ok_iff, List.forall_mem_append, List.forall_mem_cons, ih]
  | member ms q ms' _ ih =>
    simp only [Shape.skip_object_eq_ok_iff, List.forall_mem_append, List.forall_mem_cons, ih]
  | order hp _ => simp only [Shape.skip_object_eq_ok_iff, hp.mem_iff]
  | extra hq _ hv =>
    simp only [Shape.skip_object_eq_ok_iff, List.forall_mem_cons, Quoted.stop_of_decode hq,
      Shape.skip_of_value hv, true_and]

/-- No change matters where a shape is passed over. -/
theorem skip_of_change (h : Change p d s s') : s.skip.toOption = s'.skip.toOption := by
  have hiff := skip_eq_ok_iff_of_change h
  cases hs : s.skip with
  | ok _ => rw [hiff.1 hs]
  | error f =>
    cases hs' : s'.skip with
    | ok _ =>
      rw [hiff.2 hs'] at hs
      cases hs
    | error _ => rfl

/-- No change matters where a text or null is wanted. -/
theorem textOrNull_of_change (h : Change p d s s') :
    s.textOrNull.toOption = s'.textOrNull.toOption := by
  cases h with
  | string h => exact h.text
  | _ => rfl

/-! ### Values -/

/-- Two values that are taken for the same. An event and a document are not read from values. -/
def Part.Agree : Part → Value → Value → Prop
  | event, _, _ | document, _, _ => True
  | fields, v, w => (tolerantList Field.ofValue? v).value = (tolerantList Field.ofValue? w).value
  | field, v, w => (Field.ofValue? v).value = (Field.ofValue? w).value
  | nodes, v, w => (Node.nodes? v).value = (Node.nodes? w).value
  | node, v, w => (Node.ofValue? v).value = (Node.ofValue? w).value
  | value, v, w => v = w

namespace Part

theorem agree_refl (p : Part) (v : Value) : p.Agree v v := by
  cases p with
  | event | document => trivial
  | _ => rfl

/-- Where null makes a difference, it makes none besides. -/
theorem value_nodes_of_agree {v w : Value} (h : nodes.Agree v w) :
    (Node.nodes v).value = (Node.nodes w).value := by
  have hsome : ∀ u, u ≠ .null → (Node.nodes? u).value = some (Node.nodes u).value := by
    intro u hu
    cases u <;> first
      | exact absurd rfl hu
      | rfl
  have h : (Node.nodes? v).value = (Node.nodes? w).value := h
  by_cases hv : v = .null
  · by_cases hw : w = .null
    · rw [hv, hw]
    · rw [hv, hsome w hw] at h
      cases h
  · by_cases hw : w = .null
    · rw [hw, hsome v hv] at h
      cases h
    · rw [hsome v hv, hsome w hw] at h
      exact Option.some.inj h

/-! #### Lists -/

theorem agree_fields_array {v w : Value} (h : field.Agree v w) (before after : List Value) :
    fields.Agree (.array (before ++ v :: after)) (.array (before ++ w :: after)) := by
  show (tolerantEntries _ _).value = (tolerantEntries _ _).value
  have h : (Field.ofValue? v).value = (Field.ofValue? w).value := h
  rw [tolerantEntries_eq, tolerantEntries_eq]
  simp only [List.filterMap_append, List.filterMap_cons, h]

theorem agree_nodes_array {v w : Value} (h : node.Agree v w) (before after : List Value) :
    nodes.Agree (.array (before ++ v :: after)) (.array (before ++ w :: after)) := by
  have h : (Node.ofValue? v).value = (Node.ofValue? w).value := h
  show some (Node.nodes _).value = some (Node.nodes _).value
  rw [Node.value_nodes_array, Node.value_nodes_array]
  simp only [List.map_append, List.map_cons, Node.ofEntry, h]

/-- Only the children of a node may be another value. -/
theorem agree_node_array {v w : Value} {before : List Value}
    (h : (node.item before.length).Agree v w) (after : List Value) :
    node.Agree (.array (before ++ v :: after)) (.array (before ++ w :: after)) := by
  match before, h with
  | [], h | [_], h | _ :: _ :: _ :: _, h =>
    have h : v = w := h
    rw [h]
    rfl
  | [kind, tag], h =>
    -- The children stand after the kind and the tag.
    have hnodes : (Node.nodes v).value = (Node.nodes w).value := value_nodes_of_agree h
    show (Node.ofValue? (.array (kind :: tag :: v :: after))).value
      = (Node.ofValue? (.array (kind :: tag :: w :: after))).value
    cases kind with
    | string kind =>
      have htext : ∀ u, Node.textOfItems (tag :: u :: after) = none := fun u => by cases tag <;> rfl
      have helement : (Node.elementOfItems? (tag :: v :: after)).value
          = (Node.elementOfItems? (tag :: w :: after)).value := by
        cases tag with
        | string t =>
          cases after with
          | nil => simp [Node.elementOfItems?, hnodes]
          | cons a after =>
            cases ha : Node.attributes? a <;> simp [Node.elementOfItems?, ha, hnodes]
        | _ => rfl
      rw [Node.value_ofValue?_array, Node.value_ofValue?_array, htext, htext, helement]
      rfl
    | _ => rfl

/-- Only the rich text of a field may be another value. -/
theorem agree_field_array {v w : Value} {before : List Value}
    (h : (field.item before.length).Agree v w) (after : List Value) :
    field.Agree (.array (before ++ v :: after)) (.array (before ++ w :: after)) := by
  refine Value.value_recordItems?_congr fun key hkey r => ?_
  -- The places of a field are those of its keys: only the fourth holds nodes.
  generalize before.length = n at h hkey
  match n, h with
  | 0, h | 1, h | 2, h | n + 4, h =>
    have h : v = w := h
    rw [h]
  | 3, h =>
    have h : (Node.nodes? v).value = (Node.nodes? w).value := h
    cases hkey
    simp [Field.put, h]

theorem agree_array {v w : Value} {before : List Value} (h : (p.item before.length).Agree v w)
    (after : List Value) :
    p.Agree (.array (before ++ v :: after)) (.array (before ++ w :: after)) := by
  cases p with
  | event | document => trivial
  | fields => exact agree_fields_array h before after
  | field => exact agree_field_array h after
  | nodes => exact agree_nodes_array h before after
  | node => exact agree_node_array h after
  | value =>
    have h : v = w := h
    rw [h]
    rfl

/-! #### Objects -/

/-- What is found under these keys agrees. -/
def AgreeUnder (p : Part) (keys : List String) (ms ms' : Members) : Prop :=
  ∀ k ∈ keys, Option.Rel (p.under (some k)).Agree (ms.get? k) (ms'.get? k)

/-- What is absent counts as null on both sides. -/
theorem agree_orNull {p : Part} {k : String} {ms ms' : Members}
    (h : Option.Rel p.Agree (ms.get? k) (ms'.get? k)) : p.Agree (ms.orNull k) (ms'.orNull k) := by
  unfold Members.orNull
  generalize ms.get? k = o at h
  generalize ms'.get? k = o' at h
  cases h with
  | none => exact p.agree_refl .null
  | some h => exact h

/-- What is kept is the same, also if it is absent. -/
theorem eq_of_rel_value {o o' : Option Value} (h : Option.Rel value.Agree o o') : o = o' := by
  cases h with
  | none => rfl
  | some h => exact congrArg some h

/-- A field depends on what is found under its keys. -/
theorem agree_field_object {ms ms' : Members} (hs : ms.IsSorted) (hs' : ms'.IsSorted)
    (h : field.AgreeUnder Field.keys ms ms') : field.Agree (.object ms) (.object ms') := by
  have hkind : ms.orNull "type" = ms'.orNull "type" := agree_orNull (h "type" (by decide))
  have hname : ms.orNull "name" = ms'.orNull "name" := agree_orNull (h "name" (by decide))
  have hvalue : ms.orNull "value" = ms'.orNull "value" := agree_orNull (h "value" (by decide))
  have hnodes : (Node.nodes? (ms.orNull "structuredValue")).value
      = (Node.nodes? (ms'.orNull "structuredValue")).value :=
    agree_orNull (h "structuredValue" (by decide))
  show (Field.ofValue? _).value = (Field.ofValue? _).value
  rw [Field.value_ofValue?_object hs, Field.value_ofValue?_object hs', hkind, hname, hvalue, hnodes]

/-- An element depends on what is found under its keys. -/
theorem elementOf?_eq_of_agreeUnder {ms ms' : Members}
    (h : node.AgreeUnder ["tag", "attrs", "children"] ms ms') :
    Node.elementOf? ms = Node.elementOf? ms' := by
  have htag : ms.get? "tag" = ms'.get? "tag" := eq_of_rel_value (h "tag" (by decide))
  have hattributes : ms.orNull "attrs" = ms'.orNull "attrs" := agree_orNull (h "attrs" (by decide))
  have hchildren : (Node.nodes (ms.orNull "children")).value
      = (Node.nodes (ms'.orNull "children")).value :=
    value_nodes_of_agree (agree_orNull (h "children" (by decide)))
  rw [Node.elementOf?, Node.elementOf?, htag, hattributes, hchildren]

/-- A node depends on what is found under the keys of its kind. -/
theorem agree_node_object {ms ms' : Members} (hs : ms.IsSorted) (hs' : ms'.IsSorted)
    (hkind : ms.get? "type" = ms'.get? "type")
    (htext : ms.get? "type" = some (.string "text") → node.AgreeUnder ["data"] ms ms')
    (htag : ms.get? "type" = some (.string "tag") →
      node.AgreeUnder ["tag", "attrs", "children"] ms ms') :
    node.Agree (.object ms) (.object ms') := by
  show (Node.ofValue? _).value = (Node.ofValue? _).value
  rw [Node.value_ofValue?_object hs, Node.value_ofValue?_object hs', ← hkind]
  refine Option.bind_congr fun kind hk => ?_
  rw [Node.bind_text?_eq_some_iff] at hk
  by_cases ht : kind = "text"
  · subst ht
    have hdata : ms.get? "data" = ms'.get? "data" :=
      eq_of_rel_value (htext hk "data" List.mem_cons_self)
    rw [if_pos rfl, if_pos rfl, hdata]
  · by_cases ht' : kind = "tag"
    · subst ht'
      rw [if_neg ht, if_neg ht, if_pos rfl, if_pos rfl,
        elementOf?_eq_of_agreeUnder (htag hk)]
    · rw [if_neg ht, if_neg ht, if_neg ht', if_neg ht']

/-- Objects with the same under each key. -/
theorem agree_object {p : Part} {ms ms' : Members} (hs : ms.IsSorted) (hs' : ms'.IsSorted)
    (h : ∀ k, Option.Rel (p.under (some k)).Agree (ms.get? k) (ms'.get? k)) :
    p.Agree (.object ms) (.object ms') := by
  cases p with
  | event | document => trivial
  | fields | nodes => rfl
  | field => exact agree_field_object hs hs' fun k _ => h k
  | node =>
    exact agree_node_object hs hs' (eq_of_rel_value (h "type")) (fun _ k _ => h k) fun _ k _ => h k
  | value =>
    have heq : ms = ms' := Members.ext_get? hs hs' fun k => eq_of_rel_value (h k)
    rw [heq]
    rfl

end Part

theorem rel_agree_refl (p : Part) (o : Option Value) : Option.Rel p.Agree o o := by
  cases o with
  | none => exact .none
  | some v => exact .some (p.agree_refl v)

/-- What joins an object under a name that means nothing is not found under any other. -/
theorem agree_of_ignored {ms : List (Quoted × Shape)} {vs : List (String × Value)} {k : String}
    (h : p.Ignores ms k) (hvs : Shape.memberValues d ms = .ok vs) (v : Value) :
    p.Agree (.object (Members.ofList vs)) (.object (Members.ofList ((k, v) :: vs))) := by
  have hs := Members.isSorted_ofList vs
  have hs' := Members.isSorted_ofList ((k, v) :: vs)
  have hsame : ∀ {key}, key ≠ k →
      (Members.ofList vs).get? key = (Members.ofList ((k, v) :: vs)).get? key := fun hne =>
    (Members.get?_ofList_cons_of_ne hne v vs).symm
  have hunder : ∀ {p : Part} {keys : List String}, k ∉ keys →
      p.AgreeUnder keys (Members.ofList vs) (Members.ofList ((k, v) :: vs)) := by
    intro p keys hk key hkey
    have hne : key ≠ k := fun he => hk (he ▸ hkey)
    rw [hsame hne]
    exact rel_agree_refl _ _
  have hkind : ∀ {kind}, Part.IsOfKind ms kind →
      (Members.ofList vs).get? "type" = some (.string kind) := by
    rintro kind ⟨q, hq, ht⟩
    have hvalue : (Shape.string q).value d = .ok (.string kind) :=
      Shape.value_string_eq_ok_iff.2 ⟨kind, ht, rfl⟩
    have hget := Shape.get?_ofList_of_memberValues "type" hvs
    rw [hq, Option.map_some, hvalue] at hget
    obtain ⟨u, hu, hok⟩ := Option.map_eq_some_iff.1 hget.symm
    rw [hu, Except.ok.inj hok]
  cases h with
  | event _ | document _ => trivial
  | field hk => exact Part.agree_field_object hs hs' (hunder hk)
  | text hms hk =>
    rw [List.mem_cons, not_or] at hk
    refine Part.agree_node_object hs hs' (hsame (Ne.symm hk.1)) (fun _ => hunder hk.2) fun ht => ?_
    rw [hkind hms] at ht
    exact absurd (Value.string.inj (Option.some.inj ht)) (by decide)
  | tag hms hk =>
    rw [List.mem_cons, not_or] at hk
    refine Part.agree_node_object hs hs' (hsame (Ne.symm hk.1)) (fun ht => ?_) fun _ => hunder hk.2
    rw [hkind hms] at ht
    exact absurd (Value.string.inj (Option.some.inj ht)) (by decide)

/-- **A change leaves the value of a part as it is**, as far as it is looked at: either spelling has
one, or neither has. -/
theorem rel_value_of_change (h : Change p d s s') :
    Option.Rel p.Agree (s.value d).toOption (s'.value d).toOption := by
  -- The part is not fixed: a change of an item or of a member is one of another part.
  induction h with
  | @string p d q q' h =>
    have hvalue : ∀ q, ((Shape.string q).value d).toOption = q.decode.toOption.map .string := by
      intro q
      rw [Shape.value]
      cases q.decode <;> rfl
    rw [hvalue, hvalue, h.text]
    exact rel_agree_refl p _
  | @key p d q q' ms s ms' h =>
    have hsame : Option.Rel Part.value.Agree (s.value (d - 1)).toOption
        (s.value (d - 1)).toOption := rel_agree_refl .value _
    refine rel_imp ?_ (Shape.rel_value_member h.text hsame ms ms')
    rintro v w ⟨bs, k, x, _, as, -, rfl, rfl, rfl⟩
    exact p.agree_refl _
  | @item p d s s' ss ss' _ ih =>
    refine rel_imp ?_ (Shape.rel_value_item ih ss ss')
    rintro v w ⟨bs, x, y, as, hl, hxy, rfl, rfl⟩
    rw [← hl] at hxy
    exact Part.agree_array hxy as
  | @member p d s s' ms q ms' _ ih =>
    refine rel_imp ?_ (Shape.rel_value_member rfl ih ms ms')
    rintro v w ⟨bs, k, x, y, as, hk, hxy, rfl, rfl⟩
    rw [hk] at hxy
    refine Part.agree_object (Members.isSorted_ofList _) (Members.isSorted_ofList _) ?_
    exact Members.rel_get?_ofList (fun k u => (p.under (some k)).agree_refl u) hxy bs as
  | @order p d ms ms' hp hd =>
    rw [Shape.value_object_eq_of_perm hp hd]
    exact rel_agree_refl p _
  | @extra p d ms q s k v hq hk hv =>
    rw [Shape.toOption_value_object, Shape.toOption_value_object, Shape.toOption_memberValues_cons,
      hq, hv]
    cases hvs : Shape.memberValues d ms with
    | error f => exact .none
    | ok vs => exact .some (agree_of_ignored hk hvs v)

end Herald.Event
