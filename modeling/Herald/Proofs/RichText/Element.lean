import Herald.RichText.Rendering

/-!
# What the rendering of one element does

The rendering goes through the tags one by one. Here their common form is brought out once:

* `Tag.isOpaque`: the tags whose children are passed over;
* `Context.within`: the context in which the children of an element begin;
* `spellElement`: the spelling of an element from the spellings of its children;
* `Node.outputs`: the spellings of nodes one after another under one context.

An element that is not too deep is spelled by `spellElement` (`output_render_element`), counts if it
is a list item (`context_render_element`), and gives the notices of its children before its own
(`notices_render_element`). Everything proved about whole trees rests on these equations.
-/

namespace Herald.RichText

open Json Markup

/-- The children of such an element are never looked at. -/
def Tag.isOpaque : Tag → Bool
  | .lineBreak | .horizontalRule | .unknown _ => true
  | _ => false

namespace Context

/-- The context in which the children of an element begin. -/
def within (c : Context) : Tag → Context
  | .blockquote => quote
  | .orderedList => c.numbered
  | _ => c.inner

@[simp] theorem count_quote : quote.count = quote := rfl

theorem quoted_within (c : Context) (tag : Tag) :
    (c.within tag).quoted = (c.quoted || tag == .blockquote) := by
  cases tag <;> simp [within, quote, numbered, inner]

end Context

namespace Node

/-- A list item. -/
def isItem : Node → Bool
  | .element .listItem _ _ => true
  | _ => false

/-- An element. -/
def isElement : Node → Bool
  | .element .. => true
  | _ => false

/-- The text of a leaf. -/
def data? : Node → Option String
  | .text data => some data
  | _ => none

/-- Where a link leads, if a string says so. -/
def target? : Node → Option String
  | .element .link attributes _ => (attributes.get? "href").bind Value.text?
  | _ => none

/-- The spellings of nodes, rendered one after another under one context. -/
def outputs (d : Dialect) (depth : Nat) (c : Context) : List Node → List String
  | [] => []
  | n :: ns => (render d depth c n).output :: outputs d depth (render d depth c n).context ns

end Node

/-- The spelling of an element from the spellings of its children. The number is for a list item and
the target for a link. -/
def spellElement (d : Dialect) (quoted : Bool) (number : Option Nat) (target : Option String)
    (inner : List String) : Tag → String
  | .paragraph => d.paragraph (String.join inner)
  | .bold => d.bold (String.join inner)
  | .italic => d.italic (String.join inner)
  | .strikethrough => d.strikethrough (String.join inner)
  | .link =>
    match target with
    | some t => d.link t (String.join inner)
    | none => String.join inner
  | .lineBreak => d.lineBreak quoted
  | .codeBlock => d.codeBlock (String.join inner)
  | .inlineCode => d.inlineCode (String.join inner)
  | .blockquote => String.join (inner.map d.quote)
  | .unorderedList | .orderedList => d.list (String.join inner)
  | .listItem => d.listItem number (String.join inner)
  | .heading level => d.heading level (String.join inner)
  | .horizontalRule | .unknown _ => ""

/-- The notice of an element that is not too deep, after those of its children. -/
def elementNotices (target : Option String) : Tag → List Notice
  | .link => if target.isSome then [] else [.linkWithoutTarget]
  | .unknown name => [.missingTag name]
  | _ => []

namespace Node

variable {d : Dialect} {depth : Nat} {c : Context}

theorem output_renderAll (ns : List Node) :
    (renderAll d depth c ns).output = String.join (outputs d depth c ns) := by
  induction ns generalizing c with
  | nil => simp [renderAll, outputs]
  | cons n ns ih => simp [renderAll, outputs, ih]

@[simp] theorem length_outputs (ns : List Node) : (outputs d depth c ns).length = ns.length := by
  induction ns generalizing c with
  | nil => rfl
  | cons n ns ih => simp [outputs, ih]

/-! ### Nodes that are no element, and elements that are too deep -/

@[simp] theorem render_text (data : String) :
    render d depth c (.text data) = ⟨d.text data, c, []⟩ := by
  simp [render]

@[simp] theorem render_unknown : render d depth c .unknown = ⟨"", c, [.unknownNode]⟩ := by
  simp [render]

theorem render_deep (h : maxDepth ≤ depth) (tag : Tag) (attributes : Members)
    (children : List Node) :
    render d depth c (.element tag attributes children)
      = ⟨"", c, [.nestedTooDeeply tag.name depth]⟩ := by
  simp [render, h]

/-! ### The context afterwards -/

theorem context_render_element (h : depth < maxDepth) (tag : Tag) (attributes : Members)
    (children : List Node) :
    (render d depth c (.element tag attributes children)).context
      = if tag = .listItem then c.count else c := by
  have hd : ¬ maxDepth ≤ depth := Nat.not_le.2 h
  cases tag with
  | link =>
    simp only [render, hd, if_false]
    cases (attributes.get? "href").bind Value.text? <;> rfl
  | _ => simp [render, hd]

/-- A rendering leaves its context as it was, or has taken the next number. -/
theorem context_render (d : Dialect) (depth : Nat) (c : Context) (n : Node) :
    (render d depth c n).context = c ∨ (render d depth c n).context = c.count := by
  cases n with
  | text data => simp
  | unknown => simp
  | element tag attributes children =>
    rcases Nat.lt_or_ge depth maxDepth with h | h
    · rw [context_render_element h]
      split
      · exact .inr rfl
      · exact .inl rfl
    · simp [render_deep h]

theorem quoted_render (d : Dialect) (depth : Nat) (c : Context) (n : Node) :
    (render d depth c n).context.quoted = c.quoted := by
  rcases context_render d depth c n with h | h <;> rw [h]
  rfl

/-- Inside a quote there are no numbers to take. -/
theorem context_render_quote (n : Node) : (render d depth .quote n).context = .quote := by
  rcases context_render d depth .quote n with h | h <;> rw [h]
  rfl

/-! ### Quotes -/

theorem value_renderQuoted (ns : List Node) :
    (renderQuoted d depth ns).value = String.join ((outputs d depth .quote ns).map d.quote) := by
  induction ns with
  | nil => simp [renderQuoted, outputs]
  | cons n ns ih => simp [renderQuoted, outputs, ih, context_render_quote]

theorem notices_renderQuoted (ns : List Node) :
    (renderQuoted d depth ns).notices = (renderAll d depth .quote ns).notices := by
  induction ns with
  | nil => simp [renderQuoted, renderAll]
  | cons n ns ih => simp [renderQuoted, renderAll, ih, context_render_quote]

/-! ### The spelling and the notices -/

/-- **An element that is not too deep is spelled from the spellings of its children.** -/
theorem output_render_element (h : depth < maxDepth) (tag : Tag) (attributes : Members)
    (children : List Node) :
    (render d depth c (.element tag attributes children)).output
      = spellElement d c.quoted c.count.counter (Node.element tag attributes children).target?
          (outputs d (depth + 1) (c.within tag) children) tag := by
  have hd : ¬ maxDepth ≤ depth := Nat.not_le.2 h
  cases tag with
  | link =>
    simp only [render, hd, if_false, spellElement, target?, ← output_renderAll, Context.within]
    cases (attributes.get? "href").bind Value.text? <;> rfl
  | blockquote => simp [render, hd, spellElement, value_renderQuoted, Context.within]
  | _ => simp [render, hd, spellElement, output_renderAll, Context.within]

/-- The notices of an element that is not too deep. -/
theorem notices_render_element (h : depth < maxDepth) (tag : Tag) (attributes : Members)
    (children : List Node) :
    (render d depth c (.element tag attributes children)).notices
      = (if tag.isOpaque then [] else (renderAll d (depth + 1) (c.within tag) children).notices)
          ++ elementNotices (Node.element tag attributes children).target? tag := by
  have hd : ¬ maxDepth ≤ depth := Nat.not_le.2 h
  cases tag with
  | link =>
    simp only [render, hd, if_false, target?, Context.within]
    cases (attributes.get? "href").bind Value.text? <;> simp [Tag.isOpaque, elementNotices]
  | blockquote =>
    simp [render, hd, notices_renderQuoted, Context.within, Tag.isOpaque, elementNotices]
  | _ => simp [render, hd, Context.within, Tag.isOpaque, elementNotices]

end Node

end Herald.RichText
