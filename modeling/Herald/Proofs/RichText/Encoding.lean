import Herald.Proofs.Json.Equality
import Herald.Proofs.Json.Lookup
import Herald.Proofs.RichText.Grammar

/-!
# Rich text as it is written

* `Tag.IsProper`: the tags that have a name of their own, and `Tag.ofName_name`: it gives them back;
* `Node.Encodes`, `Node.EncodeAll`: the values that nodes are written as. Children and attributes
  may be left out, or be null, where there are none;
* `Node.encode`: one of these values;
* `Node.nodes_of_encodeAll`: whatever nodes are written as, they are read back from.
-/

namespace Herald.RichText

open Json

namespace Tag

/-- A tag with a name of its own: a heading of level 1 to 6, an unknown tag whose name stands for
nothing known, or any other. -/
def IsProper : Tag → Prop
  | heading level => 1 ≤ level ∧ level ≤ 6
  | unknown name => ofName name = unknown name
  | _ => True

instance : (t : Tag) → Decidable t.IsProper
  | heading level => inferInstanceAs (Decidable (1 ≤ level ∧ level ≤ 6))
  | unknown name => inferInstanceAs (Decidable (ofName name = unknown name))
  | paragraph | bold | italic | strikethrough | link | lineBreak | codeBlock | inlineCode
  | blockquote | unorderedList | orderedList | listItem | horizontalRule => .isTrue trivial

/-- The name of a heading is its own from the first level to the sixth. -/
theorem ofName_name_heading {level : Nat} (h₁ : 1 ≤ level) (h₆ : level ≤ 6) :
    ofName (heading level).name = heading level := by
  match level, h₁, h₆ with
  | 1, _, _ | 2, _, _ | 3, _, _ | 4, _, _ | 5, _, _ | 6, _, _ => decide

/-- A proper tag is given back by its name. -/
theorem ofName_name {t : Tag} (h : t.IsProper) : ofName t.name = t := by
  cases t with
  | heading level => exact ofName_name_heading h.1 h.2
  | unknown name => exact h
  | _ => decide

end Tag

namespace Node

/-! ### What nodes are written as -/

/-- All tags in a node are proper. -/
inductive IsProper : Node → Prop
  | text (data : String) : IsProper (.text data)
  | element {tag : Tag} {a : Members} {ns : List Node} (own : tag.IsProper)
      (each : ∀ n ∈ ns, IsProper n) : IsProper (.element tag a ns)
  | unknown : IsProper .unknown

/-- The members that say what the attributes of an element are. -/
inductive EncodeAttributes : Members → List (String × Value) → Prop
  | absent : EncodeAttributes [] []
  | null : EncodeAttributes [] [("attrs", .null)]
  | object (a : Members) : EncodeAttributes a [("attrs", .object a)]

mutual

/-- The values that a node is written as. -/
inductive Encodes : Node → Value → Prop
  | text (data : String) :
      Encodes (.text data)
        (.object (Members.ofList [("type", .string "text"), ("data", .string data)]))
  | element (tag : Tag) {a : Members} {ns : List Node} {attributes children : List (String × Value)}
      (ha : EncodeAttributes a attributes) (hc : EncodeChildren ns children) :
      Encodes (.element tag a ns) (.object (Members.ofList
        (("type", .string "tag") :: ("tag", .string tag.name) :: children ++ attributes)))
  | unknown (kind : String) (text : kind ≠ "text") (tag : kind ≠ "tag") :
      Encodes .unknown (.object (Members.ofList [("type", .string kind)]))

/-- The members that say what the children of an element are. -/
inductive EncodeChildren : List Node → List (String × Value) → Prop
  | absent : EncodeChildren [] []
  | null : EncodeChildren [] [("children", .null)]
  | array {ns : List Node} {vs : List Value} (each : EncodeAll ns vs) :
      EncodeChildren ns [("children", .array vs)]

/-- The values that nodes are written as one by one. -/
inductive EncodeAll : List Node → List Value → Prop
  | nil : EncodeAll [] []
  | cons {n : Node} {v : Value} {ns : List Node} {vs : List Value} (first : Encodes n v)
      (rest : EncodeAll ns vs) : EncodeAll (n :: ns) (v :: vs)

end

mutual

/-- A value that a node is written as. -/
def encode : Node → Value
  | .text data => .object (Members.ofList [("type", .string "text"), ("data", .string data)])
  | .element tag a ns =>
    .object (Members.ofList [("type", .string "tag"), ("tag", .string tag.name),
      ("children", .array (encodeAll ns)), ("attrs", .object a)])
  | .unknown => .object (Members.ofList [("type", .string "unknown")])

/-- The values that nodes are written as. -/
def encodeAll : List Node → List Value
  | [] => []
  | n :: ns => encode n :: encodeAll ns

end

mutual

theorem encodes_encode : ∀ n : Node, Encodes n (encode n)
  | .text data => by
    rw [encode]
    exact .text data
  | .element tag a ns => by
    rw [encode]
    exact .element tag (.object a) (.array (encodeAll_encodeAll ns))
  | .unknown => by
    rw [encode]
    exact .unknown "unknown" (by decide) (by decide)

theorem encodeAll_encodeAll : ∀ ns : List Node, EncodeAll ns (encodeAll ns)
  | [] => by
    rw [encodeAll]
    exact .nil
  | n :: ns => by
    rw [encodeAll]
    exact .cons (encodes_encode n) (encodeAll_encodeAll ns)

end

/-! ### What they are read as -/

section Members

variable {a : Members} {ns : List Node} {attributes children : List (String × Value)}

/-- What is found among the members of an element. -/
theorem get?_element (name : String) (ha : EncodeAttributes a attributes)
    (hc : EncodeChildren ns children) {ms : Members}
    (hm : ms = Members.ofList
      (("type", .string "tag") :: ("tag", .string name) :: children ++ attributes)) :
    ms.get? "type" = some (.string "tag") ∧ ms.get? "tag" = some (.string name) ∧
      AreAttributes (ms.orNull "attrs") a ∧
      ms.orNull "children" = Members.orNull "children" children := by
  subst hm
  cases ha <;> cases hc <;>
    simp [Members.ofList, Members.get?_put, Members.get?_cons, Members.orNull,
      AreAttributes.null, AreAttributes.object]

end Members

mutual

theorem value_ofValue?_of_encodes : ∀ {n : Node} {v : Value}, Encodes n v → n.IsProper →
    (ofValue? v).value = some n
  | _, _, .text data, _ => by
    refine (value_ofValue?_object_eq_text_iff (Members.isSorted_ofList _)).2 (.members ?_ ?_)
    · simp [Members.ofList, Members.get?_put]
    · simp [Members.ofList, Members.get?_put]
  | _, _, .element tag ha hc, .element ht hn => by
    obtain ⟨hk, hname, ha', hc'⟩ := get?_element tag.name ha hc rfl
    refine (value_ofValue?_object_eq_element_iff (Members.isSorted_ofList _)).2 ?_
    refine ⟨tag.name, _, .members hk hname ha', (Tag.ofName_name ht).symm, ?_⟩
    rw [hc', value_nodes_of_encodeChildren hc hn]
  | _, _, .unknown kind ht ht', _ => by
    rw [value_ofValue?_object (Members.isSorted_ofList _)]
    simp [Members.ofList, Members.get?_put, Value.text?, ht, ht']

theorem value_nodes_of_encodeChildren : ∀ {ns : List Node} {children : List (String × Value)},
    EncodeChildren ns children → (∀ n ∈ ns, n.IsProper) →
    (nodes (Members.orNull "children" children)).value = ns
  | _, _, .absent, _ => value_nodes_null
  | _, _, .null, _ => value_nodes_null
  | _, _, .array h, hn => by
    show (nodes (.array _)).value = _
    rw [value_nodes_array, map_ofEntry_of_encodeAll h hn]

theorem map_ofEntry_of_encodeAll : ∀ {ns : List Node} {vs : List Value},
    EncodeAll ns vs → (∀ n ∈ ns, n.IsProper) → vs.map ofEntry = ns
  | _, _, .nil, _ => rfl
  | _, _, .cons h hs, hn => by
    obtain ⟨hfirst, hrest⟩ := List.forall_mem_cons.1 hn
    rw [List.map_cons, ofEntry, value_ofValue?_of_encodes h hfirst,
      map_ofEntry_of_encodeAll hs hrest]
    rfl

end

/-- **What nodes are written as, they are read back from.** All nodes can be written, and where all
tags are proper, the nodes of what they are written as are the nodes themselves: as a value, and as
any text that has this value. -/
theorem nodes_of_encodeAll :
    (∀ ns : List Node, ∃ vs, EncodeAll ns vs) ∧
      ∀ (ns : List Node) (vs : List Value), EncodeAll ns vs → (∀ n ∈ ns, n.IsProper) →
        (nodes (.array vs)).value = ns ∧
        ∀ bs, Value.ofBytes bs = .ok (.array vs) →
          ((Text.ofBytes bs).read readAll).result? = some ns := by
  refine ⟨fun ns => ⟨_, encodeAll_encodeAll ns⟩, fun ns vs h hn => ?_⟩
  have hnodes : (nodes (.array vs)).value = ns := by
    rw [value_nodes_array, map_ofEntry_of_encodeAll h hn]
  refine ⟨hnodes, fun bs hbs => ?_⟩
  obtain ⟨hv, ht⟩ := Value.ofBytes_eq_ok_iff.1 hbs
  rw [Reading.result?_read _ _ ht, readAll, hv]
  exact congrArg some hnodes

/-- A heading around a text and something unknown, and an unknown tag with an attribute. -/
def headed : List Node :=
  [.element (.heading 3) [] [.text "a", .unknown], .element (.unknown "x") [("k", .null)] []]

/-- What they may be written as: the heading has no attributes, and the other element no
children. -/
def headedValues : List Value :=
  [.object (Members.ofList [("type", .string "tag"), ("tag", .string "h3"),
      ("children", .array [
        .object (Members.ofList [("type", .string "text"), ("data", .string "a")]),
        .object (Members.ofList [("type", .string "comment")])])]),
    .object (Members.ofList [("type", .string "tag"), ("tag", .string "x"), ("children", .null),
      ("attrs", .object [("k", .null)])])]

/-- A text with this value. -/
def headedText : List UInt8 :=
  ("[\x7b\"tag\":\"h3\",\"type\":\"tag\",\"children\":[\x7b\"type\":\"text\",\"data\":\"a\"\x7d,"
    ++ "\x7b\"type\":\"comment\"\x7d]\x7d, \x7b\"type\":\"tag\",\"attrs\":\x7b\"k\":null\x7d,"
    ++ "\"children\":null,\"tag\":\"x\"\x7d]").toUTF8.toList

theorem nodes_of_headedText :
    EncodeAll headed headedValues ∧ (∀ n ∈ headed, n.IsProper) ∧
      Value.ofBytes headedText = .ok (.array headedValues) ∧
      ((Text.ofBytes headedText).read readAll).result? = some headed := by
  have hencoded : EncodeAll headed headedValues :=
    .cons (.element (.heading 3) .absent
        (.array (.cons (.text "a") (.cons (.unknown "comment" (by decide) (by decide)) .nil))))
      (.cons (.element (.unknown "x") (.object _) .null) .nil)
  have hproper : ∀ n ∈ headed, n.IsProper := by
    rw [headed, List.forall_mem_cons, List.forall_mem_singleton]
    refine ⟨.element (by decide) ?_, .element (by decide) nofun⟩
    rw [List.forall_mem_cons, List.forall_mem_singleton]
    exact ⟨.text "a", .unknown⟩
  have hvalue : Value.ofBytes headedText = .ok (.array headedValues) := by
    decide +kernel
  obtain ⟨-, hread⟩ := nodes_of_encodeAll.2 headed headedValues hencoded hproper
  exact ⟨hencoded, hproper, hvalue, hread headedText hvalue⟩

end Node

end Herald.RichText
