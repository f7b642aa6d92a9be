import Herald.Proofs.RichText.Place

/-!
# Rendering by position

The renderer carries a context along and changes it on the way. A rich text in which no element is
too deep can be spelled without one: the place of a node alone says how it is spelled.

* `spell`, `spellEach`: the spelling of nodes at their places, without any state;
* `output_renderIn_eq_join`: the renderer spells every node so.
-/

namespace Herald.RichText

open Json Markup

mutual

/-- The spelling of a node at a place. -/
def spell (d : Dialect) (start : Context) (p : Place) : Node → String
  | .text data => d.text data
  | .unknown => ""
  | .element tag attributes children =>
    spellElement d (p.quoted start) (p.number? start)
      (Node.element tag attributes children).target?
      (spellEach d start (p.within tag) children) tag

/-- The spellings of nodes one after another, the first one at a place. -/
def spellEach (d : Dialect) (start : Context) (p : Place) : List Node → List String
  | [] => []
  | n :: ns => spell d start p n :: spellEach d start (p.past n) ns

end

namespace Place

variable {start : Context} {p : Place}

theorem quoted_eq_true_iff :
    p.quoted start = true ↔ start.quoted = true ∨ .blockquote ∈ p.around := by
  simp [quoted]

/-- Only a list item directly in an ordered list, or directly in a text that starts with a number,
has a number. -/
theorem number?_eq_some_iff {k : Nat} :
    p.number? start = some k ↔
      (∃ rest, p.around = .orderedList :: rest ∧ k = p.items + 1) ∨
      (p.around = [] ∧ ∃ n, start.counter = some n ∧ k = n + (p.items + 1)) := by
  cases h : p.around with
  | nil => simp [number?, h, @eq_comm _ k]
  | cons tag rest => cases tag <;> simp [number?, h, @eq_comm _ k]

end Place

namespace Node

variable {d : Dialect} {start : Context} {p : Place}

theorem isShallow_placedAll_cons {n : Node} {ns : List Node}
    (h : IsShallow (placedAll p (n :: ns))) :
    IsShallow (placed p n) ∧ IsShallow (placedAll (p.past n) ns) := by
  rw [placedAll] at h
  exact ⟨fun x hx => h x (List.mem_append_left _ hx), fun x hx => h x (List.mem_append_right _ hx)⟩

theorem isShallow_placed_element {tag : Tag} {attributes : Members} {children : List Node}
    (h : IsShallow (placed p (.element tag attributes children))) :
    p.depth < maxDepth ∧ IsShallow (placedAll (p.within tag) children) := by
  rw [placed] at h
  exact ⟨h _ List.mem_cons_self rfl, fun x hx => h x (List.mem_cons_of_mem _ hx)⟩

/-- Past a node the renderer has the context of the next place at hand. -/
theorem context_render_at {n : Node} (h : IsShallow (placed p n)) :
    (render d p.depth (p.context start) n).context = (p.past n).context start := by
  rw [Place.context_past]
  cases n with
  | text data => simp [isItem]
  | unknown => simp [isItem]
  | element tag attributes children =>
    rw [context_render_element (isShallow_placed_element h).1]
    cases tag <;> simp [isItem]

mutual

theorem output_render_at (d : Dialect) (start : Context) : ∀ (p : Place) (n : Node),
    IsShallow (placed p n) →
    (render d p.depth (p.context start) n).output = spell d start p n
  | p, .text data, _ => by simp [spell]
  | p, .unknown, _ => by simp [spell]
  | p, .element tag attributes children, h => by
    obtain ⟨hp, hc⟩ := isShallow_placed_element h
    have ih := outputs_at d start (p.within tag) children hc
    rw [Place.depth_within, Place.context_within] at ih
    rw [output_render_element hp, ih, Place.quoted_context, Place.counter_count_context, spell]

/-- Nodes are spelled by their places, if the first one meets the context of its place. -/
theorem outputs_at (d : Dialect) (start : Context) : ∀ (p : Place) (ns : List Node),
    IsShallow (placedAll p ns) →
    outputs d p.depth (p.context start) ns = spellEach d start p ns
  | p, [], _ => by simp [outputs, spellEach]
  | p, n :: ns, h => by
    obtain ⟨hn, hns⟩ := isShallow_placedAll_cons h
    have ih := outputs_at d start (p.past n) ns hns
    rw [Place.depth_past] at ih
    rw [outputs, context_render_at hn, output_render_at d start p n hn, ih, spellEach]

end

end Node

/-- **Rendering needs no state.** A rich text without elements that are too deep is spelled node by
node from their places. There, a place is in a quote if the text starts in one or an element around
is one; and a list item has a number only as a child of an ordered list, its position among the list
items there, or outside all elements of a text that starts with a number, counting on from that. -/
theorem output_renderIn_eq_join (d : Dialect) (start : Context) (nodes : List Node)
    (h : IsShallow (Node.placedAll .top nodes)) :
    (renderIn d start nodes).output = String.join (spellEach d start .top nodes) ∧
      (∀ p : Place, p.quoted start = true ↔ start.quoted = true ∨ .blockquote ∈ p.around) ∧
      ∀ (p : Place) (k : Nat), p.number? start = some k ↔
        (∃ rest, p.around = .orderedList :: rest ∧ k = p.items + 1) ∨
        (p.around = [] ∧ ∃ n, start.counter = some n ∧ k = n + (p.items + 1)) := by
  refine ⟨?_, fun p => Place.quoted_eq_true_iff, fun p k => Place.number?_eq_some_iff⟩
  have hs := Node.outputs_at d start .top nodes h
  rw [Place.context_top, Place.depth_top] at hs
  rw [renderIn, Node.output_renderAll, hs]

/-- A list that goes on with its numbers, around a quote of a list that has its own. -/
def numberedText : List Node :=
  [.plain .listItem [.text "a"],
    .plain .blockquote
      [.plain .orderedList
        [.plain .listItem [.text "b", .plain .lineBreak [], .plain .listItem [.text "c"]],
          .text "d", .plain .listItem [.text "e"]]],
    .plain .listItem [.text "f"]]

theorem output_renderIn_numberedText :
    IsShallow (Node.placedAll .top numberedText) ∧
      (renderIn mrkdwn ⟨false, some 4⟩ numberedText).output
        = "5. a\n> 1. b\n >- c\n\nd2. e\n\n6. f\n" :=
  ⟨by decide, (output_renderIn_eq_join _ _ _ (by decide)).1.trans (by decide +kernel)⟩

end Herald.RichText
