import Herald.Proofs.Markup.Escape
import Herald.Proofs.RichText.Closed
import Mathlib.Algebra.GroupWithZero.Nat
import Mathlib.Tactic.SplitIfs

/-!
# Control characters in mrkdwn

Angle brackets and ampersands control mrkdwn. In the rendering of a rich text they come from links,
from quotes and from escaping, and they are counted here.

* `quotedChildren`, `quotedBreaks`: the parts of a rich text that bring them;
* `controls`: how many these parts bring;
* `count_outputs`: the rendering has so many;
* `isInherited_entitiesOnly`: its ampersands begin entities, if no target of a link brings one;
* `count_renderIn_controls`: both for a whole rich text, character by character.
-/

namespace Herald.RichText

open Json Markup

namespace Node

/-- The number of children of a quote. -/
def quoteSize : Node → Nat
  | .element .blockquote _ children => children.length
  | _ => 0

/-- A line break. -/
def isLineBreak : Node → Bool
  | .element .lineBreak _ _ => true
  | _ => false

end Node

section Parts

variable (xs : List (Place × Node))

/-- The number of children of quotes. -/
def quotedChildren : Nat := (xs.map (·.2.quoteSize)).sum

/-- The number of line breaks inside quotes. -/
def quotedBreaks (start : Context) : Nat :=
  xs.countP fun x => x.2.isLineBreak && x.1.quoted start

/-- How often a control character is brought: by the leaves, by links and their targets, by the
children of quotes, and by line breaks inside quotes. -/
def controls (ch : Char) (start : Context) : Nat :=
  ((leaves xs).map fun s => (escape s).toList.count ch).sum
    + ((targets xs).map fun t => ['<', '>'].count ch + t.toList.count ch).sum
    + quotedChildren xs * ['>'].count ch
    + quotedBreaks xs start * ['>'].count ch

end Parts

/-! ### What the parts of a text bring -/

variable {ch : Char} {start : Context} {p : Place}

@[simp] theorem controls_nil : controls [] ch start = 0 := by
  simp [controls, leaves, targets, quotedChildren, quotedBreaks]

theorem controls_append (xs ys : List (Place × Node)) :
    controls (xs ++ ys) ch start = controls xs ch start + controls ys ch start := by
  simp only [controls, leaves, targets, quotedChildren, quotedBreaks, List.filterMap_append,
    List.map_append, List.sum_append, List.countP_append, Nat.add_mul]
  omega

theorem controls_singleton (n : Node) :
    controls [(p, n)] ch start
      = n.data?.elim 0 (fun s => (escape s).toList.count ch)
          + n.target?.elim 0 (fun t => ['<', '>'].count ch + t.toList.count ch)
          + n.quoteSize * ['>'].count ch
          + (if n.isLineBreak && p.quoted start then 1 else 0) * ['>'].count ch := by
  rw [controls, leaves, targets, quotedChildren, quotedBreaks]
  cases hd : n.data? <;> cases ht : n.target? <;> simp [hd, ht, List.countP_singleton]

theorem controls_text (data : String) :
    controls [(p, .text data)] ch start = (escape data).toList.count ch := by
  simp [controls_singleton, Node.data?, Node.target?, Node.quoteSize, Node.isLineBreak]

theorem controls_unknown : controls [(p, .unknown)] ch start = 0 := by
  simp [controls_singleton, Node.data?, Node.target?, Node.quoteSize, Node.isLineBreak]

/-- What one element brings besides its children. -/
def elementControls (ch : Char) (quoted : Bool) (target : Option String) (size : Nat) :
    Tag → Nat
  | .link => target.elim 0 fun t => ['<', '>'].count ch + t.toList.count ch
  | .blockquote => size * ['>'].count ch
  | .lineBreak => (if quoted then 1 else 0) * ['>'].count ch
  | _ => 0

theorem controls_element (tag : Tag) (attributes : Members) (children : List Node) :
    controls [(p, .element tag attributes children)] ch start
      = elementControls ch (p.quoted start) (Node.element tag attributes children).target?
          children.length tag := by
  rw [controls_singleton]
  cases tag with
  | link => simp [Node.data?, Node.quoteSize, Node.isLineBreak, elementControls]
  | _ =>
    simp [Node.data?, Node.target?, Node.quoteSize, Node.isLineBreak, elementControls]

/-! ### What the spelling of an element has -/

/-- The control characters. -/
def IsControl (ch : Char) : Prop := ch = '&' ∨ ch = '<' ∨ ch = '>'

theorem count_join (ss : List String) :
    (String.join ss).toList.count ch = (ss.map fun s => s.toList.count ch).sum := by
  rw [String.toList_join, List.count_flatMap]
  rfl

/-- No digit is a control character. -/
theorem count_toString (h : IsControl ch) (n : Nat) : (toString n).toList.count ch = 0 := by
  rw [List.count_eq_zero]
  intro hc
  have hd : ch.isDigit :=
    Nat.isDigit_of_mem_toDigits (b := 10) (by decide) (by decide) (by simpa using hc)
  rcases h with rfl | rfl | rfl <;> simp at hd

theorem count_quote (h : IsControl ch) (s : String) :
    (Mrkdwn.quote s).toList.count ch = s.toList.count ch + ['>'].count ch := by
  unfold Mrkdwn.quote
  rcases h with rfl | rfl | rfl <;> split_ifs <;> simp

theorem count_listItem (h : IsControl ch) (number : Option Nat) (s : String) :
    (Mrkdwn.listItem number s).toList.count ch = s.toList.count ch := by
  have hd := count_toString h
  cases number with
  | none => rcases h with rfl | rfl | rfl <;> simp [Mrkdwn.listItem]
  | some n => rcases h with rfl | rfl | rfl <;> simp_all [Mrkdwn.listItem]

theorem count_join_quote (h : IsControl ch) (ss : List String) :
    (String.join (ss.map Mrkdwn.quote)).toList.count ch
      = (ss.map fun s => s.toList.count ch).sum + ss.length * ['>'].count ch := by
  induction ss with
  | nil => simp
  | cons s ss ih =>
    simp only [List.map_cons, String.join_cons, String.toList_append, List.count_append, ih,
      count_quote h, List.sum_cons, List.length_cons, Nat.add_mul]
    omega

/-- An element has what its children have and what it brings itself. -/
theorem count_spellElement (h : IsControl ch) (quoted : Bool) (number : Option Nat)
    (target : Option String) (inner : List String) (tag : Tag) :
    (spellElement mrkdwn quoted number target inner tag).toList.count ch
      = (if tag.isOpaque then 0 else (inner.map fun s => s.toList.count ch).sum)
          + elementControls ch quoted target inner.length tag := by
  rw [← count_join]
  cases tag with
  | link =>
    cases target with
    | none => simp [spellElement, Tag.isOpaque, elementControls]
    | some t =>
      rcases h with rfl | rfl | rfl <;>
        simp [spellElement, mrkdwn, Tag.isOpaque, elementControls] <;> omega
  | lineBreak =>
    rcases h with rfl | rfl | rfl <;> cases quoted <;>
      simp [spellElement, mrkdwn, Tag.isOpaque, elementControls]
  | blockquote =>
    rw [count_join]
    exact count_join_quote h inner
  | listItem => simp [spellElement, mrkdwn, Tag.isOpaque, elementControls, count_listItem h]
  | _ =>
    rcases h with rfl | rfl | rfl <;>
      simp [spellElement, mrkdwn, Tag.isOpaque, elementControls]

/-! ### What the rendering of a tree has -/

mutual

theorem count_render (h : IsControl ch) (c : Context) : ∀ (p : Place) (n : Node), p.isOpen →
    c.quoted = p.quoted start →
    (Node.render mrkdwn p.depth c n).output.toList.count ch
      = controls ((Node.placed p n).filter isReached) ch start
  | p, .text data, hp, _ => by
    rw [Node.filter_placed_text hp, controls_text, Node.render_text]
    rfl
  | p, .unknown, hp, _ => by
    rw [Node.filter_placed_unknown hp, controls_unknown, Node.render_unknown]
    rfl
  | p, .element tag attributes children, hp, hc => by
    rcases Nat.lt_or_ge p.depth maxDepth with hd | hd
    -- What the element brings itself and what its children have are counted apart.
    · rw [Node.filter_placed_element hp hd, ← List.singleton_append, controls_append,
        controls_element, Node.output_render_element hd, count_spellElement h, hc, Nat.add_comm,
        Node.length_outputs]
      cases ht : tag.isOpaque with
      | true => simp
      | false =>
        have hw : (p.within tag).isOpen := by simp [Place.isOpen_within, hp, ht, hd]
        have hq : (c.within tag).quoted = (p.within tag).quoted start := by
          rw [Context.quoted_within, Place.quoted_within, hc]
        have ih := count_outputs h (c.within tag) (p.within tag) children hw hq
        rw [Place.depth_within] at ih
        simp [ih]
    · rw [Node.filter_placed_deep hd, Node.render_deep hd, controls_nil]
      rfl

/-- Nodes are spelled with the control characters that the parts reached in them bring. -/
theorem count_outputs (h : IsControl ch) (c : Context) : ∀ (p : Place) (ns : List Node),
    p.isOpen → c.quoted = p.quoted start →
    ((Node.outputs mrkdwn p.depth c ns).map fun s => s.toList.count ch).sum
      = controls ((Node.placedAll p ns).filter isReached) ch start
  | p, [], _, _ => by simp [Node.outputs, Node.placedAll]
  | p, n :: ns, hp, hc => by
    have ih := count_outputs h (Node.render mrkdwn p.depth c n).context (p.past n) ns hp
      ((Node.quoted_render mrkdwn p.depth c n).trans hc)
    rw [Place.depth_past] at ih
    rw [Node.outputs, List.map_cons, List.sum_cons, count_render h c p n hp hc, ih,
      Node.placedAll, List.filter_append, controls_append]

end

theorem isInherited_entitiesOnly : IsInherited EntitiesOnly where
  markup cs h := entitiesOnly_of_not_mem fun hm => absurd (List.all_eq_true.1 h _ hm) (by decide)
  append _ _ := EntitiesOnly.append

/-- A whole text has the control characters that the parts reached in it bring. -/
theorem count_renderIn (h : IsControl ch) (start : Context) (nodes : List Node) :
    (renderIn mrkdwn start nodes).output.toList.count ch = controls (reached nodes) ch start := by
  have ho := count_outputs h start .top nodes Place.isOpen_top (Place.quoted_top start).symm
  rw [Place.depth_top] at ho
  rw [renderIn, Node.output_renderAll, count_join, ho, reached]

/-- **Plain text brings no control characters.** A node is reached if none of the elements around it
is passed over or dropped, nor it itself. The angle brackets of a rendering are those of the links
reached that have a target and of the quotes reached, the ampersands are those of escaped characters
and of the targets, and if no target has an ampersand, each one begins an entity. -/
theorem count_renderIn_controls (start : Context) (nodes : List Node) :
    (∀ x, x ∈ reached nodes ↔ x ∈ Node.placedAll .top nodes ∧
        (∀ tag rest, tag :: rest <:+ x.1.around → tag.isOpaque = false ∧ rest.length < maxDepth) ∧
        (x.2.isElement → x.1.depth < maxDepth)) ∧
      (renderIn mrkdwn start nodes).output.toList.count '<'
        = ((targets (reached nodes)).map fun t => 1 + t.toList.count '<').sum ∧
      (renderIn mrkdwn start nodes).output.toList.count '>'
        = ((targets (reached nodes)).map fun t => 1 + t.toList.count '>').sum
            + quotedChildren (reached nodes) + quotedBreaks (reached nodes) start ∧
      (renderIn mrkdwn start nodes).output.toList.count '&'
        = ((leaves (reached nodes)).map fun s =>
              s.toList.count '&' + s.toList.count '<' + s.toList.count '>').sum
            + ((targets (reached nodes)).map fun t => t.toList.count '&').sum ∧
      ((∀ t ∈ targets (reached nodes), '&' ∉ t.toList) →
        EntitiesOnly (renderIn mrkdwn start nodes).output.toList) := by
  have hb (b : Char) (h : b = '<' ∨ b = '>') (ss : List String) :
      (ss.map fun s => (escape s).toList.count b).sum = 0 := by
    simp [List.count_eq_zero.2 (not_mem_escape h _), List.map_const', -toList_escape]
  refine ⟨fun x => mem_reached_iff, ?_, ?_, ?_, fun ht => ?_⟩
  · rw [count_renderIn (.inr (.inl rfl)), controls, hb '<' (.inl rfl)]
    simp
  · rw [count_renderIn (.inr (.inr rfl)), controls, hb '>' (.inr rfl)]
    simp
  · rw [count_renderIn (.inl rfl), controls]
    simp [count_amp_escape, -toList_escape]
  · have ho := isInherited_entitiesOnly.outputs start .top nodes Place.isOpen_top
      (fun s _ => entitiesOnly_escape s) (fun t h => entitiesOnly_of_not_mem (ht t h))
    rw [renderIn, Node.output_renderAll]
    exact isInherited_entitiesOnly.join ho

/-- A quoted text that looks like a mention, and a link after a line break. -/
theorem entitiesOnly_mention :
    EntitiesOnly (renderIn mrkdwn .fresh
      [.plain .blockquote [.text "<!channel> & co", .plain .lineBreak [],
        .linkTo "https://portway.app" [.text "here"]]]).output.toList :=
  (count_renderIn_controls _ _).2.2.2.2 (by decide)

end Herald.RichText
