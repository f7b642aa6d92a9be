import Herald.Proofs.RichText.Element
import Mathlib.Algebra.GroupWithZero.Nat

/-!
# Rich texts one after another

A rich text leaves its context to the next one. Of all that is in it only the list items outside its
elements do anything to the context.

* `Context.advance`: the context after so many list items;
* `Node.context_renderAll`: the context after nodes that are not too deep;
* `Node.renderAll_append`: a list of nodes may be rendered in two parts;
* `Series`, `renderEach`: rich texts rendered one after another, from one context on;
* `renderEach_eq_renderIn_flatten`: a whole text may be rendered in any number of parts.
-/

namespace Herald.RichText

open Json Markup

/-! ### Counting on -/

namespace Context

/-- The context after so many list items. -/
def advance (c : Context) (items : Nat) : Context := ⟨c.quoted, c.counter.map (· + items)⟩

@[simp] theorem quoted_advance (c : Context) (items : Nat) :
    (c.advance items).quoted = c.quoted := rfl

@[simp] theorem counter_advance (c : Context) (items : Nat) :
    (c.advance items).counter = c.counter.map (· + items) := rfl

@[simp] theorem advance_zero (c : Context) : c.advance 0 = c := by simp [advance]

theorem advance_advance (c : Context) (items items' : Nat) :
    (c.advance items).advance items' = c.advance (items + items') := by
  simp [advance, Function.comp_def, Nat.add_assoc]

end Context

namespace Node

variable {d : Dialect} {depth : Nat} {c : Context}

/-- A list item counts, and nothing else does. -/
theorem context_render_eq_advance (h : depth < maxDepth) (n : Node) :
    (render d depth c n).context = c.advance (if n.isItem then 1 else 0) := by
  cases n with
  | text data => simp [isItem]
  | unknown => simp [isItem]
  | element tag attributes children =>
    have hcount : c.count = c.advance 1 := rfl
    rw [context_render_element h]
    cases tag <;> simp [isItem, hcount]

/-- **Nodes leave a context that has counted the list items among them**, whatever is in them. -/
theorem context_renderAll (h : depth < maxDepth) (ns : List Node) :
    (renderAll d depth c ns).context = c.advance (ns.countP isItem) := by
  induction ns generalizing c with
  | nil => simp [renderAll]
  | cons n ns ih =>
    rw [renderAll, ih, context_render_eq_advance h, Context.advance_advance, List.countP_cons,
      Nat.add_comm]

/-- Nodes may be rendered in two parts, the second under the context that the first has left. -/
theorem renderAll_append (ns ns' : List Node) :
    renderAll d depth c (ns ++ ns')
      = ⟨(renderAll d depth c ns).output
            ++ (renderAll d depth (renderAll d depth c ns).context ns').output,
          (renderAll d depth (renderAll d depth c ns).context ns').context,
          (renderAll d depth c ns).notices
            ++ (renderAll d depth (renderAll d depth c ns).context ns').notices⟩ := by
  induction ns generalizing c with
  | nil => simp [renderAll]
  | cons n ns ih =>
    rw [List.cons_append, renderAll, ih, renderAll]
    simp only [String.append_assoc, List.append_assoc]

end Node

/-! ### Whole texts -/

/-- What rendering rich texts one after another yields. -/
structure Series where
  /-- What each of them yields. -/
  parts : List Rendered
  /-- The context after the last one. -/
  context : Context

/-- Render rich texts one after another, each under the context that the one before it has left. -/
def renderEach (d : Dialect) (c : Context) : List (List Node) → Series
  | [] => ⟨[], c⟩
  | nodes :: texts =>
    let r := renderIn d c nodes
    let rest := renderEach d r.context texts
    ⟨r :: rest.parts, rest.context⟩

/-- The result of a series: the spellings and the notices of its parts, and its context. -/
def Series.rendered (s : Series) : Rendered :=
  ⟨String.join (s.parts.map Rendered.output), s.context, s.parts.flatMap Rendered.notices⟩

variable {d : Dialect} {start : Context}

/-- The result of a series is that of the text that its parts make up. -/
theorem rendered_renderEach (d : Dialect) (start : Context) (texts : List (List Node)) :
    (renderEach d start texts).rendered = renderIn d start texts.flatten := by
  induction texts generalizing start with
  | nil => simp [renderEach, Series.rendered, renderIn, Node.renderAll]
  | cons nodes texts ih =>
    rw [List.flatten_cons, renderIn, Node.renderAll_append, ← renderIn, ← renderIn, ← ih]
    simp [renderEach, Series.rendered]

theorem context_renderIn (nodes : List Node) :
    (renderIn d start nodes).context = start.advance (nodes.countP Node.isItem) :=
  Node.context_renderAll (by decide) nodes

/-- No text of a series changes whether the next one starts inside a quote. -/
theorem quoted_of_mem_renderEach {texts : List (List Node)} {r : Rendered}
    (h : r ∈ (renderEach d start texts).parts) : r.context.quoted = start.quoted := by
  induction texts generalizing start with
  | nil => cases h
  | cons nodes texts ih =>
    have hfirst : (renderIn d start nodes).context.quoted = start.quoted := by
      rw [context_renderIn, Context.quoted_advance]
    rcases List.mem_cons.1 h with rfl | h
    · exact hfirst
    · exact (ih h).trans hfirst

/-- **A shared context puts texts together.** Rich texts that are rendered one after another on one
context have the spellings and the notices of the one text that they make up, and leave the context
that it leaves. No text of the series changes whether the context is in a quote. A context without a
number stays without one, and a number has grown by the list items among the nodes of the texts
themselves: nothing inside of these nodes counts. -/
theorem renderEach_eq_renderIn_flatten (d : Dialect) (start : Context) (texts : List (List Node)) :
    String.join ((renderEach d start texts).parts.map Rendered.output)
        = (renderIn d start texts.flatten).output ∧
      (renderEach d start texts).parts.flatMap Rendered.notices
        = (renderIn d start texts.flatten).notices ∧
      (renderEach d start texts).context = (renderIn d start texts.flatten).context ∧
      (∀ r ∈ (renderEach d start texts).parts, r.context.quoted = start.quoted) ∧
      (renderEach d start texts).context.quoted = start.quoted ∧
      (renderEach d start texts).context.counter
        = start.counter.map (· + (texts.map (List.countP Node.isItem)).sum) := by
  have hrendered := rendered_renderEach d start texts
  have hcontext : (renderEach d start texts).context = (renderIn d start texts.flatten).context :=
    congrArg Rendered.context hrendered
  refine ⟨congrArg Rendered.output hrendered, congrArg Rendered.notices hrendered, hcontext,
    fun r => quoted_of_mem_renderEach, ?_, ?_⟩
  · rw [hcontext, context_renderIn, Context.quoted_advance]
  · rw [hcontext, context_renderIn, Context.counter_advance, List.countP_flatten]

/-- Two texts that go on with one list. The first item holds a list of its own. -/
def brokenList : List (List Node) :=
  [[.plain .listItem [.text "a", .plain .orderedList [.plain .listItem [.text "b"]]]],
    [.plain .paragraph [.plain .listItem [.text "c"]], .plain .listItem [.text "d"]]]

/-- The numbers go on from one text to the other. -/
theorem renderEach_brokenList :
    (renderIn mrkdwn ⟨true, some 4⟩ brokenList.flatten).output
        = "5. a1. b\n\n\n- c\n\n\n6. d\n" ∧
      String.join ((renderEach mrkdwn ⟨true, some 4⟩ brokenList).parts.map Rendered.output)
        = "5. a1. b\n\n\n- c\n\n\n6. d\n" ∧
      (renderEach mrkdwn ⟨true, some 4⟩ brokenList).context.counter = some 6 ∧
      ∃ r ∈ (renderEach mrkdwn ⟨true, some 4⟩ brokenList).parts, r.context.quoted = true := by
  obtain ⟨houtput, -, -, hquoted, -, hcounter⟩ :=
    renderEach_eq_renderIn_flatten mrkdwn ⟨true, some 4⟩ brokenList
  have hflat : (renderIn mrkdwn ⟨true, some 4⟩ brokenList.flatten).output
      = "5. a1. b\n\n\n- c\n\n\n6. d\n" := by decide +kernel
  exact ⟨hflat, houtput.trans hflat, hcounter, _, List.mem_cons_self,
    hquoted _ List.mem_cons_self⟩

end Herald.RichText
