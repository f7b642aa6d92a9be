import Herald.Proofs.RichText.Grammar

/-!
# Another entry in a list of nodes

An entry is an element or none whatever stands in the place of its children. So an entry that is no
node is the only one to become unknown, however deep it stands.

* `Node.setAt`: a list of nodes with another node at a place;
* `Node.Edited`: two values that differ in the entry at a place among their nodes;
* `Node.value_nodes_of_edited`: their nodes differ at that place alone;
* `Node.nodes_follow_grammar`: the grammar of lists of nodes, at every depth.
-/

namespace Herald.RichText.Node

open Json

/-! ### Another entry -/

/-- Another list in the place of the children of an element. -/
def mapChildren (f : List Node → List Node) : Node → Node
  | .element tag a ns => .element tag a (f ns)
  | .text data => .text data
  | .unknown => .unknown

/-- Another node at a place, which is a position for each list from the outermost one inward. -/
def setAt (n : Node) (i : Nat) : List Nat → List Node → List Node
  | [], ns => ns.set i n
  | j :: path, ns => ns.modify i (mapChildren (setAt n j path))

/-- The second value is the first one with another entry at a place among the nodes: in the list
itself, or below what an entry of the list has in the place of its children. -/
inductive Edited (w : Value) : Nat → List Nat → Value → Value → Prop
  | entry (items : List Value) (i : Nat) :
      Edited w i [] (.array items) (.array (items.set i w))
  | member {items : List Value} {i j : Nat} {path : List Nat} {ms : Members} {c c' : Value}
      (entry : items[i]? = some (.object ms)) (children : ms.get? "children" = some c)
      (below : Edited w j path c c') :
      Edited w i (j :: path) (.array items)
        (.array (items.set i (.object (ms.put "children" c'))))
  | item {items : List Value} {i j : Nat} {path : List Nat} {t c c' : Value} {rest : List Value}
      (entry : items[i]? = some (.array (.string "tag" :: t :: c :: rest)))
      (below : Edited w j path c c') :
      Edited w i (j :: path) (.array items)
        (.array (items.set i (.array (.string "tag" :: t :: c' :: rest))))

section Edit

variable {f : List Node → List Node} {c c' : Value}

theorem ofEntry_eq_mapChildren {v v' : Value}
    (h : (ofValue? v').value = (ofValue? v).value.map (mapChildren f)) :
    ofEntry v' = mapChildren f (ofEntry v) := by
  rw [ofEntry, ofEntry, h]
  cases (ofValue? v).value <;> rfl

/-- An object is what it is whatever its children are. -/
theorem ofEntry_put_children {ms : Members} (hs : Members.IsSorted ms)
    (hc : ms.get? "children" = some c) (hf : (nodes c').value = f (nodes c).value) :
    ofEntry (.object (ms.put "children" c')) = mapChildren f (ofEntry (.object ms)) := by
  have hne : ∀ key, key ≠ "children" →
      Members.get? key (ms.put "children" c') = Members.get? key ms := by
    intro key hkey
    rw [Members.get?_put, if_neg hkey]
  have hn : (nodes (Members.orNull "children" (ms.put "children" c'))).value
      = f (nodes (Members.orNull "children" ms)).value := by
    rw [Members.orNull, Members.orNull, Members.get?_put, if_pos rfl, hc]
    exact hf
  have ha : Members.orNull "attrs" (ms.put "children" c') = Members.orNull "attrs" ms := by
    rw [Members.orNull, hne "attrs" (by decide), ← Members.orNull]
  have he : elementOf? (ms.put "children" c') = (elementOf? ms).map (mapChildren f) := by
    rw [elementOf?, elementOf?, hn, ha, hne "tag" (by decide)]
    cases (ms.get? "tag").bind Value.text? with
    | none => rfl
    | some name => cases attributes? (Members.orNull "attrs" ms) <;> rfl
  apply ofEntry_eq_mapChildren
  rw [value_ofValue?_object (Members.isSorted_put hs), value_ofValue?_object hs, he,
    hne "type" (by decide), hne "data" (by decide)]
  cases (ms.get? "type").bind Value.text? with
  | none => rfl
  | some kind =>
    simp only [Option.bind_some]
    split
    · cases (ms.get? "data").bind Value.text? <;> rfl
    · split <;> rfl

/-- A list is what it is whatever its children are. -/
theorem ofEntry_array_children (t : Value) (rest : List Value)
    (hf : (nodes c').value = f (nodes c).value) :
    ofEntry (.array (.string "tag" :: t :: c' :: rest))
      = mapChildren f (ofEntry (.array (.string "tag" :: t :: c :: rest))) := by
  apply ofEntry_eq_mapChildren
  rw [value_ofValue?_array, value_ofValue?_array, if_neg (by decide), if_pos rfl,
    if_neg (by decide), if_pos rfl]
  cases t with
  | string name =>
    cases rest with
    | nil => simp [elementOfItems?, hf, mapChildren]
    | cons v rest =>
      cases ha : attributes? v with
      | none => simp [elementOfItems?, ha]
      | some a => cases rest <;> simp [elementOfItems?, ha, hf, mapChildren]
  | _ => rfl

/-- What an entry becomes does not matter to the others. -/
theorem map_ofEntry_set {items : List Value} {i : Nat} {v v' : Value} (h : items[i]? = some v)
    (hv : ofEntry v' = mapChildren f (ofEntry v)) :
    (items.set i v').map ofEntry = (items.map ofEntry).modify i (mapChildren f) := by
  rw [List.map_set, hv, List.modify_eq_set, List.getElem?_map, h]
  rfl

end Edit

/-- **Another entry makes no difference but at its place**, however deep it stands. -/
theorem value_nodes_of_edited {w v v' : Value} {i : Nat} {path : List Nat}
    (h : Edited w i path v v') (hv : v.IsOrdered) :
    (nodes v').value = setAt (ofEntry w) i path (nodes v).value := by
  induction h with
  | entry items i =>
    rw [value_nodes_array, value_nodes_array, List.map_set]
    rfl
  | member hi hc _ ih =>
    cases hv with
    | array each =>
      have ho := each _ (List.mem_of_getElem? hi)
      cases ho with
      | object hs heach =>
        have ih := ih (heach _ (Members.mem_of_get?_eq_some hc))
        rw [value_nodes_array, value_nodes_array]
        exact map_ofEntry_set hi (ofEntry_put_children hs hc ih)
  | item hi _ ih =>
    cases hv with
    | array each =>
      have ha := each _ (List.mem_of_getElem? hi)
      cases ha with
      | array heach =>
        have ih := ih (heach _ (by simp))
        rw [value_nodes_array, value_nodes_array]
        exact map_ofEntry_set hi (ofEntry_array_children _ _ ih)

/-! ### Whole lists -/

/-- Nodes are read from every value that is read. -/
theorem value_run_readAll (depth : Nat) (s : Shape) :
    (readAll depth s).run.value = (s.value depth).map fun v => (nodes v).value := by
  rw [readAll]
  cases s.value depth <;> rfl

/-- **The grammar of nodes.** A list of nodes is read from every value that is read: none from a
value that is no list, and one for each entry of a list, from that entry alone. An entry is a text
node or an element if it is spelled as one, and unknown if not. The children of an element are the
nodes of what stands in their place, and with another entry anywhere in there only the node of that
entry is another one. -/
theorem nodes_follow_grammar :
    (∀ depth s, (readAll depth s).run.value = (s.value depth).map fun v => (nodes v).value) ∧
      (∀ (depth : Nat) (s : Shape) (v : Value), s.value depth = .ok v → v.IsOrdered) ∧
      (∀ v : Value, (∀ items, v ≠ .array items) → (nodes v).value = []) ∧
      (∀ items : List Value, (nodes (.array items)).value = items.map ofEntry) ∧
      ∀ v : Value, v.IsOrdered →
        (∀ data, ofEntry v = .text data ↔ IsText v data) ∧
        (∀ tag a ns, ofEntry v = .element tag a ns ↔
          ∃ name c, IsElement v name a c ∧ tag = Tag.ofName name ∧ ns = (nodes c).value) ∧
        (ofEntry v = .unknown ↔
          (∀ data, ¬ IsText v data) ∧ ∀ name a c, ¬ IsElement v name a c) ∧
        ∀ w v' i path, Edited w i path v v' →
          (nodes v').value = setAt (ofEntry w) i path (nodes v).value := by
  refine ⟨value_run_readAll, fun _ _ _ => Shape.isOrdered_of_value,
    fun _ => value_nodes_of_ne_array, value_nodes_array, fun v hv => ?_⟩
  refine ⟨fun _ => ofEntry_eq_text_iff hv, fun _ _ _ => ofEntry_eq_element_iff hv,
    ofEntry_eq_unknown_iff hv, fun w v' i path h => ?_⟩
  exact value_nodes_of_edited h hv

/-- The members of a paragraph with an entry between two texts. -/
def paragraphAround (entry : Value) : Members :=
  [("children", .array [.array [.string "text", .string "a"], entry,
    .array [.string "text", .string "b"]]), ("tag", .string "p"), ("type", .string "tag")]

/-- Whatever stands between the two texts, the paragraph and the texts stay. -/
theorem nodes_paragraphAround :
    (Value.array [.object (paragraphAround .null)]).IsOrdered ∧
      (nodes (.array [.object (paragraphAround (.array [.string "tag", .bool true]))])).value
        = [.element .paragraph [] [.text "a", .unknown, .text "b"]] := by
  have hs : Members.IsSorted (paragraphAround .null) := by
    unfold Members.IsSorted
    decide
  have ho : (Value.array [.object (paragraphAround .null)]).IsOrdered := by
    refine .array (List.forall_mem_singleton.2 (.object hs ?_))
    rw [paragraphAround, List.forall_mem_cons, List.forall_mem_cons, List.forall_mem_singleton]
    refine ⟨.array ?_, .string _, .string _⟩
    rw [List.forall_mem_cons, List.forall_mem_cons, List.forall_mem_singleton]
    exact ⟨.array (by simp [Value.IsOrdered.string]), .null,
      .array (by simp [Value.IsOrdered.string])⟩
  have he : Edited (.array [.string "tag", .bool true]) 0 [1]
      (.array [.object (paragraphAround .null)])
      (.array [.object (paragraphAround (.array [.string "tag", .bool true]))]) :=
    @Edited.member _ _ _ _ _ (paragraphAround .null) _ _ rfl rfl (.entry _ 1)
  obtain ⟨-, -, -, -, hg⟩ := nodes_follow_grammar
  obtain ⟨-, -, -, hedit⟩ := hg _ ho
  refine ⟨ho, (hedit _ _ _ _ he).trans ?_⟩
  rfl

end Herald.RichText.Node
