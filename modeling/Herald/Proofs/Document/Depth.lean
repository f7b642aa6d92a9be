import Herald.Document
import Herald.Proofs.Json.Record
import Herald.Proofs.RichText.Levels

/-!
# How deep the rich text of a document is

The reader of texts allows so many open containers, and the renderer so many elements around an
element. The first limit keeps what is read within the second one.

* `Field.IsBounded`, `Document.IsBounded`: the rich text of a field, and of the fields of a
  document, has half as many levels as containers may be open;
* `IsRead`: the lists of nodes that come from a text, whatever it is read as;
* `IsRead.renders_freely`: none of their elements is too deep for the renderer.
-/

namespace Herald

open Json RichText

/-! ### Fields -/

namespace Document.Field

/-- The rich text of a field has at most half as many levels. -/
def IsBounded (b : Nat) (f : Field) : Prop :=
  ∀ ns, f.nodes = some ns → 2 * Node.levelsAll ns ≤ b

theorem IsBounded.mono {b b' : Nat} {f : Field} (h : f.IsBounded b) (hb : b ≤ b') :
    f.IsBounded b' := fun ns hns => Nat.le_trans (h ns hns) hb

theorem isBounded_blank (b : Nat) : blank.IsBounded b := by
  intro ns h
  cases h

theorem isBounded_of_put {key : String} {v : Value} {b : Nat} {f f' : Field}
    (hv : v.nesting ≤ b) (hf : f.IsBounded b) (h : (put key v f).value = some f') :
    f'.IsBounded b := by
  unfold put at h
  split at h
  · cases h
    exact hf
  · obtain ⟨name, -, rfl⟩ := Option.map_eq_some_iff.1 h
    exact hf
  · cases h
    exact hf
  · cases h
    intro ns hns
    exact Nat.le_trans (Node.levelsAll_nodes? hns) hv
  · cases h
    exact hf

/-- The field of a value. -/
theorem isBounded_of_ofValue? {v : Value} {f : Field} (h : (ofValue? v).value = some f) :
    f.IsBounded v.nesting := by
  refine Value.of_value_record? (fun k w hw r r' hr hput => ?_) (isBounded_blank _) h
  exact isBounded_of_put (Nat.le_of_lt (Value.nesting_lt_of_mem_parts hw)) hr hput

/-- The field of a shape. -/
theorem isBounded_of_read {depth : Nat} {s : Shape} {f : Field} {ns : List Notice}
    (h : (read depth s).Yields f ns) : f.IsBounded depth := by
  refine Shape.of_yields_record (fun d hd k s r r' ns hr hput => ?_) (isBounded_blank _) h
  obtain ⟨v, hv, hput⟩ := Reading.yields_ofExcept_bind.1 hput
  have hn : v.nesting ≤ depth := by
    split at hv
    -- A name is a text, which has no container in it.
    · cases ht : s.textOrNull with
      | error f =>
        rw [ht] at hv
        cases hv
      | ok t =>
        rw [ht] at hv
        cases hv
        exact Nat.zero_le _
    · have := Shape.nesting_le_of_value hv
      omega
  have hv' : (put k v r).value = some r' := by
    rw [Reading.yields_require.1 hput]
  exact isBounded_of_put hn hr hv'

end Document.Field

/-! ### Documents -/

namespace Document

/-- The rich text of every field has at most half as many levels. -/
def IsBounded (b : Nat) (d : Document) : Prop := ∀ f ∈ d.fields, f.IsBounded b

theorem IsBounded.mono {b b' : Nat} {d : Document} (h : d.IsBounded b) (hb : b ≤ b') :
    d.IsBounded b' := fun f hf => (h f hf).mono hb

theorem isBounded_blank (b : Nat) : blank.IsBounded b := by
  intro f h
  cases h

theorem isBounded_of_putShape {depth b : Nat} {key : String} {s : Shape} {d d' : Document}
    {ns : List Notice} (hb : depth ≤ b) (hd : d.IsBounded b)
    (h : (putShape depth key s d).Yields d' ns) : d'.IsBounded b := by
  unfold putShape at h
  split at h
  · obtain ⟨_, -, rfl, -⟩ := Reading.yields_ofExcept_pure.1 h
    exact hd
  · obtain ⟨_, -, rfl, -⟩ := Reading.yields_ofExcept_pure.1 h
    exact hd
  · obtain ⟨_, -, rfl, -⟩ := Reading.yields_ofExcept_pure.1 h
    exact hd
  · obtain ⟨_, -, rfl, -⟩ := Reading.yields_ofExcept_pure.1 h
    exact hd
  · obtain ⟨v, hv, h⟩ := Reading.yields_ofExcept_bind.1 h
    obtain ⟨fields, ns₁, ns₂, hf, hp, -⟩ := Reading.yields_bind.1 h
    obtain ⟨rfl, -⟩ := Reading.yields_pure.1 hp
    intro f hmem
    obtain ⟨w, hw, hr⟩ : ∃ w ∈ v.parts, (Field.ofValue? w).value = some f := by
      apply Value.exists_of_mem_tolerantList
      rw [Reading.yields_ofNoted.1 hf]
      exact hmem
    have hwv := Value.nesting_lt_of_mem_parts hw
    have hvd := Shape.nesting_le_of_value hv
    exact (Field.isBounded_of_ofValue? hr).mono (by omega)
  · obtain ⟨rfl, -⟩ := Reading.yields_pure.1 h
    exact hd

/-- The document of a shape. -/
theorem isBounded_of_read {depth : Nat} {s : Shape} {d : Document} {ns : List Notice}
    (h : (read depth s).Yields d ns) : d.IsBounded depth := by
  refine Shape.of_yields_record (fun below hd k s r r' ns hr hput => ?_) (isBounded_blank _) h
  exact isBounded_of_putShape (by omega) hr hput

end Document

/-! ### Events -/

namespace Event

/-- The document of an event. -/
theorem isBounded_of_read {depth : Nat} {s : Shape} {d : Document} {ns : List Notice}
    (h : (read depth s).Yields d ns) : d.IsBounded depth := by
  obtain ⟨o, ns₁, ns₂, ho, hd, -⟩ := Reading.yields_bind.1 h
  have hb : ∀ d ∈ o, d.IsBounded depth := by
    refine Shape.of_yields_record (P := fun o => ∀ d ∈ o, Document.IsBounded depth d)
      (fun below hbelow k s r r' ns hr hput => ?_) (by simp) ho
    obtain ⟨d', ms₁, ms₂, hread, hp, -⟩ := Reading.yields_bind.1 hput
    obtain ⟨rfl, -⟩ := Reading.yields_pure.1 hp
    rintro _ ⟨⟩
    exact (Document.isBounded_of_read hread).mono (by omega)
  cases o with
  | none => exact (Reading.yields_throw.1 hd).elim
  | some d' =>
    obtain ⟨rfl, -⟩ := Reading.yields_pure.1 hd
    exact hb d rfl

end Event

/-! ### All that is read -/

namespace RichText

/-- A list of nodes comes from a text: the text is read as a list of nodes, as a node, as a field,
as a document or as an event. -/
inductive IsRead (bs : List UInt8) : List Node → Prop
  | nodes {ns : List Node} {notices : List Notice} :
      ((Text.ofBytes bs).read Node.readAll).Yields ns notices → IsRead bs ns
  | nodes? {ns : List Node} {notices : List Notice} :
      ((Text.ofBytes bs).read Node.readAll?).Yields (some ns) notices → IsRead bs ns
  | node {n : Node} {notices : List Notice} :
      ((Text.ofBytes bs).read Node.read).Yields n notices → IsRead bs [n]
  | field {f : Document.Field} {ns : List Node} {notices : List Notice} :
      ((Text.ofBytes bs).read Document.Field.read).Yields f notices → f.nodes = some ns →
      IsRead bs ns
  | document {d : Document} {f : Document.Field} {ns : List Node} {notices : List Notice} :
      ((Text.ofBytes bs).read Document.read).Yields d notices → f ∈ d.fields →
      f.nodes = some ns → IsRead bs ns
  | event {d : Document} {f : Document.Field} {ns : List Node} {notices : List Notice} :
      (Event.ofBytes bs).Yields d notices → f ∈ d.fields → f.nodes = some ns → IsRead bs ns

/-- A node that is read by itself may have one container more around its children than one in a
list: that is why the renderer's limit is met exactly. -/
theorem IsRead.levelsAll_le {bs : List UInt8} {ns : List Node} (h : IsRead bs ns) :
    Node.levelsAll ns ≤ maxDepth := by
  have hlimit : nestingLimit + 1 = 2 * maxDepth := rfl
  cases h with
  | nodes h =>
    have hb := Node.levelsAll_of_yields_readAll (Reading.yields_read.1 h).1
    omega
  | nodes? h =>
    have hb := Node.levelsAll_of_yields_readAll? (Reading.yields_read.1 h).1
    omega
  | node h =>
    have hb := Node.levels_of_yields_read (Reading.yields_read.1 h).1
    rw [Node.levelsAll, Node.levelsAll]
    omega
  | field h hns =>
    have hb := Document.Field.isBounded_of_read (Reading.yields_read.1 h).1 _ hns
    omega
  | document h hf hns =>
    have hb := Document.isBounded_of_read (Reading.yields_read.1 h).1 _ hf _ hns
    omega
  | event h hf hns =>
    have hb := Event.isBounded_of_read (Reading.yields_read.1 h).1 _ hf _ hns
    omega

/-- **What is read is never too deep to be rendered.** Every element has at most 63 elements around
it, so the limit of the renderer makes no difference and is never spoken of. -/
theorem IsRead.renders_freely {bs : List UInt8} {ns : List Node} (h : IsRead bs ns) :
    (∀ x ∈ Node.placedAll .top ns, x.2.isElement → x.1.depth ≤ 63) ∧
      ∀ (d : Markup.Dialect) (c : Context), renderIn d c ns = renderFreely d c ns ∧
        ∀ x ∈ (renderIn d c ns).notices,
          x.message ≠ "Structured text nested too deeply, dropping subtree" := by
  have hs := isShallow_of_levelsAll_le h.levelsAll_le
  refine ⟨fun x hx he => ?_, renderIn_eq_renderFreely hs⟩
  have hd : x.1.depth < maxDepth := hs x hx he
  exact Nat.lt_succ_iff.1 hd

/-- A text with a node of as many levels as can be read. -/
def deepestText : List UInt8 :=
  (List.replicate 63 "[\"tag\",\"p\",[".toUTF8.toList).flatten
    ++ "[\"tag\",\"p\"]".toUTF8.toList ++ (List.replicate 63 "]]".toUTF8.toList).flatten

theorem renders_freely_deepestText : ∃ n : Node, IsRead deepestText [n] ∧ n.levels = 64 ∧
    (∀ x ∈ Node.placedAll .top [n], x.2.isElement → x.1.depth ≤ 63) ∧
      ∀ (d : Markup.Dialect) (c : Context), renderIn d c [n] = renderFreely d c [n] ∧
        ∀ x ∈ (renderIn d c [n]).notices,
          x.message ≠ "Structured text nested too deeply, dropping subtree" := by
  have hlevels : ((Text.ofBytes deepestText).read Node.read).run.value.toOption.map Node.levels
      = some 64 := by
    decide +kernel
  obtain ⟨n, hn, hl⟩ := Option.map_eq_some_iff.1 hlevels
  have hread : IsRead deepestText [n] := by
    cases hv : ((Text.ofBytes deepestText).read Node.read).run.value with
    | error f =>
      rw [hv] at hn
      cases hn
    | ok n' =>
      rw [hv] at hn
      cases hn
      exact .node (Noted.ext hv rfl)
  exact ⟨n, hread, hl, hread.renders_freely⟩

end RichText

end Herald
