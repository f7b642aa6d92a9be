import Herald.Proofs.RichText.Place

/-!
# What a rendering in mrkdwn is made of

The rendering of a rich text in mrkdwn is put together from escaped leaves, from the targets of
links and from markup.

* `isMarkup`: the characters that the dialect adds;
* `IsBuilt`, `isBuilt_spellElement`: how an element is spelled from its children;
* `Filler`, `Segment`: what may stand between leaves, and what a rendering is made of;
* `IsWoven`: a text is made of these leaves and these targets, each of them once and in this order,
  and of markup. `AreWoven` says so of texts one after another;
* `IsBuilt.isWoven`: an element is woven from what its children are woven from, with its target
  before them;
* `areWoven_outputs`: nodes are woven from the leaves and the targets that are reached in them;
* `output_renderIn_eq_leaves_between_fillers`: the leaves of a whole rendering, in their order, with
  what stands between them.
-/

namespace Herald.RichText

open Json Markup

/-- A character that mrkdwn adds to a text: a mark, a blank, the end of a line, or a digit of the
number of a list item. -/
def isMarkup (ch : Char) : Bool := "*_~`<>|-. \n".toList.contains ch || ch.isDigit

/-! ### Elements from their children -/

/-- How an element is spelled from its children: with markup around all of them, as a link with its
target before them, with each of them quoted, or by markup alone. -/
inductive IsBuilt (inner : List String) : Tag → Option String → String → Prop
  | wrapped {tag : Tag} {a b : String} (entered : tag.isOpaque = false)
      (before : a.toList.all isMarkup) (after : b.toList.all isMarkup) :
      IsBuilt inner tag none (a ++ String.join inner ++ b)
  | linked (t : String) :
      IsBuilt inner .link (some t) ("<" ++ t ++ "|" ++ String.join inner ++ ">")
  | quoted : IsBuilt inner .blockquote none (String.join (inner.map Mrkdwn.quote))
  | alone {tag : Tag} {s : String} (passed : tag.isOpaque = true) (markup : s.toList.all isMarkup) :
      IsBuilt inner tag none s

theorem IsBuilt.suffixed {inner : List String} {tag : Tag} {b : String}
    (entered : tag.isOpaque = false) (after : b.toList.all isMarkup) :
    IsBuilt inner tag none (String.join inner ++ b) := by
  have hwrapped : IsBuilt inner tag none ("" ++ String.join inner ++ b) :=
    .wrapped entered (by decide) after
  rwa [String.empty_append] at hwrapped

/-- The digits of a number are markup. -/
theorem all_isMarkup_toString (n : Nat) : (toString n).toList.all isMarkup := by
  refine List.all_eq_true.2 fun ch hc => ?_
  have hd : ch.isDigit :=
    Nat.isDigit_of_mem_toDigits (b := 10) (by decide) (by decide) (by simpa using hc)
  simp [isMarkup, hd]

theorem isBuilt_listItem (inner : List String) (number : Option Nat) :
    IsBuilt inner .listItem none (Mrkdwn.listItem number (String.join inner)) := by
  cases number with
  | none => exact .wrapped rfl (by decide) (by decide)
  | some n =>
    refine .wrapped rfl ?_ (by decide)
    rw [String.toList_append, List.all_append, all_isMarkup_toString n]
    decide

/-- **Every element is built so.** -/
theorem isBuilt_spellElement (quoted : Bool) (number : Option Nat) (inner : List String) (tag : Tag)
    (attributes : Members) (children : List Node) :
    IsBuilt inner tag (Node.element tag attributes children).target?
      (spellElement mrkdwn quoted number (Node.element tag attributes children).target? inner
        tag) := by
  cases tag with
  | paragraph => exact .suffixed rfl (by decide)
  | bold => exact .wrapped rfl (by decide) (by decide)
  | italic => exact .wrapped rfl (by decide) (by decide)
  | strikethrough => exact .wrapped rfl (by decide) (by decide)
  | link =>
    cases (Node.element .link attributes children).target? with
    | none =>
      have hshown : IsBuilt inner .link none (String.join inner ++ "") := .suffixed rfl (by decide)
      rwa [String.append_empty] at hshown
    | some t => exact .linked t
  | lineBreak =>
    cases quoted with
    | false => exact .alone (s := "\n") rfl (by decide)
    | true => exact .alone (s := "\n >") rfl (by decide)
  | codeBlock => exact .wrapped rfl (by decide) (by decide)
  | inlineCode => exact .wrapped rfl (by decide) (by decide)
  | blockquote => exact .quoted
  | unorderedList => exact .suffixed rfl (by decide)
  | orderedList => exact .suffixed rfl (by decide)
  | listItem => exact isBuilt_listItem inner number
  | heading level => exact .wrapped rfl (by decide) (by decide)
  | horizontalRule => exact .alone (s := "") rfl (by decide)
  | unknown name => exact .alone (s := "") rfl (by decide)

/-! ### Segments -/

/-- What may stand between two leaves: a character of markup, or the whole target of a link. -/
inductive Filler
  | mark (ch : Char) (isMark : isMarkup ch)
  | target (t : String)

namespace Filler

/-- The characters of a filler. -/
def spelling : Filler → List Char
  | mark ch _ => [ch]
  | target t => t.toList

/-- The target that it is. -/
def target? : Filler → Option String
  | mark _ _ => none
  | target t => some t

end Filler

/-- What a rendering is made of: a leaf, or what stands between leaves. -/
inductive Segment
  | leaf (data : String)
  | filler (f : Filler)

namespace Segment

/-- The characters of a segment; a leaf is escaped. -/
def spelling : Segment → List Char
  | leaf data => (escape data).toList
  | filler f => f.spelling

/-- The leaf that it is. -/
def leaf? : Segment → Option String
  | leaf data => some data
  | filler _ => none

/-- The target that it is. -/
def target? : Segment → Option String
  | leaf _ => none
  | filler f => f.target?

end Segment

/-- A text is made of these leaves and targets, each once and in this order, and of markup. -/
def IsWoven (ls ts : List String) (cs : List Char) : Prop :=
  ∃ segments : List Segment, cs = segments.flatMap Segment.spelling ∧
    segments.filterMap Segment.leaf? = ls ∧ segments.filterMap Segment.target? = ts

/-- Texts are made, one after another, of these leaves and targets and of markup. -/
inductive AreWoven : List String → List String → List String → Prop
  | nil : AreWoven [] [] []
  | cons {ls ts ls' ts' ss : List String} {s : String} (head : IsWoven ls ts s.toList)
      (tail : AreWoven ls' ts' ss) : AreWoven (ls ++ ls') (ts ++ ts') (s :: ss)

/-! ### Texts put together -/

section Woven

variable {ls ts ls' ts' : List String} {cs ds : List Char}

theorem isWoven_nil : IsWoven [] [] [] := ⟨[], rfl, rfl, rfl⟩

theorem isWoven_leaf (data : String) : IsWoven [data] [] (escape data).toList :=
  ⟨[.leaf data], by simp [Segment.spelling], rfl, rfl⟩

theorem isWoven_target (t : String) : IsWoven [] [t] t.toList :=
  ⟨[.filler (.target t)], by simp [Segment.spelling, Filler.spelling], rfl, rfl⟩

theorem IsWoven.append (h : IsWoven ls ts cs) (h' : IsWoven ls' ts' ds) :
    IsWoven (ls ++ ls') (ts ++ ts') (cs ++ ds) := by
  obtain ⟨segments, rfl, rfl, rfl⟩ := h
  obtain ⟨segments', rfl, rfl, rfl⟩ := h'
  exact ⟨segments ++ segments', List.flatMap_append.symm, List.filterMap_append,
    List.filterMap_append⟩

theorem isWoven_markup (cs : List Char) (h : cs.all isMarkup) : IsWoven [] [] cs := by
  induction cs with
  | nil => exact isWoven_nil
  | cons ch cs ih =>
    rw [List.all_cons, Bool.and_eq_true] at h
    obtain ⟨segments, hcs, hl, ht⟩ := ih h.2
    exact ⟨.filler (.mark ch h.1) :: segments, congrArg (ch :: ·) hcs, hl, ht⟩

variable {a s b : String}

/-- A text may have markup before and after it. -/
theorem IsWoven.wrap (h : IsWoven ls ts s.toList) (ha : a.toList.all isMarkup)
    (hb : b.toList.all isMarkup) : IsWoven ls ts (a ++ s ++ b).toList := by
  have hwrapped := ((isWoven_markup _ ha).append h).append (isWoven_markup _ hb)
  rwa [List.nil_append, List.nil_append, List.append_nil, List.append_nil, ← String.toList_append,
    ← String.toList_append] at hwrapped

theorem IsWoven.quote (h : IsWoven ls ts s.toList) : IsWoven ls ts (Mrkdwn.quote s).toList := by
  unfold Mrkdwn.quote
  split
  · have hwrapped := h.wrap (a := "> ") (b := "") (by decide) (by decide)
    rwa [String.append_empty] at hwrapped
  · exact h.wrap (by decide) (by decide)

theorem AreWoven.join {ss : List String} (h : AreWoven ls ts ss) :
    IsWoven ls ts (String.join ss).toList := by
  induction h with
  | nil => exact isWoven_nil
  | cons hs _ ih =>
    rw [String.join_cons, String.toList_append]
    exact hs.append ih

theorem AreWoven.map_quote {ss : List String} (h : AreWoven ls ts ss) :
    AreWoven ls ts (ss.map Mrkdwn.quote) := by
  induction h with
  | nil => exact .nil
  | cons hs _ ih => exact .cons hs.quote ih

end Woven

/-! ### Nodes -/

/-- **An element is woven from what its children are woven from**, unless they are passed over. The
target of a link stands before them. -/
theorem IsBuilt.isWoven {ls ts inner : List String} {tag : Tag} {target : Option String}
    {s : String} (h : IsBuilt inner tag target s)
    (hi : tag.isOpaque = false → AreWoven ls ts inner) :
    IsWoven (if tag.isOpaque then [] else ls) (target.toList ++ if tag.isOpaque then [] else ts)
      s.toList := by
  cases h with
  | wrapped entered before after =>
    rw [entered]
    exact (hi entered).join.wrap before after
  | linked t =>
    have hopened := (isWoven_target t).wrap (a := "<") (b := "|") (by decide) (by decide)
    have hshown := hopened.append (hi rfl).join
    have hclosed := hshown.append (isWoven_markup ">".toList (by decide))
    rw [← String.toList_append, ← String.toList_append, List.append_nil, List.append_nil]
      at hclosed
    exact hclosed
  | quoted => exact (hi rfl).map_quote.join
  | alone passed markup =>
    rw [passed]
    exact isWoven_markup s.toList markup

theorem leaves_cons_element (p : Place) (tag : Tag) (attributes : Members) (children : List Node)
    (xs : List (Place × Node)) : leaves ((p, .element tag attributes children) :: xs) = leaves xs :=
  rfl

theorem targets_cons (x : Place × Node) (xs : List (Place × Node)) :
    targets (x :: xs) = x.2.target?.toList ++ targets xs := by
  rw [targets, List.filterMap_cons]
  cases x.2.target? <;> rfl

mutual

/-- A node is woven from the leaves and the targets that are reached in it. -/
theorem isWoven_render (c : Context) : ∀ (p : Place) (n : Node), p.isOpen →
    IsWoven (leaves ((Node.placed p n).filter isReached))
      (targets ((Node.placed p n).filter isReached))
      (Node.render mrkdwn p.depth c n).output.toList
  | p, .text data, hp => by
    rw [Node.filter_placed_text hp, Node.render_text]
    exact isWoven_leaf data
  | p, .unknown, hp => by
    rw [Node.filter_placed_unknown hp, Node.render_unknown]
    exact isWoven_nil
  | p, .element tag attributes children, hp => by
    rcases Nat.lt_or_ge p.depth maxDepth with hd | hd
    · have hchildren (ht : tag.isOpaque = false) :
          AreWoven (leaves ((Node.placedAll (p.within tag) children).filter isReached))
            (targets ((Node.placedAll (p.within tag) children).filter isReached))
            (Node.outputs mrkdwn (p.depth + 1) (c.within tag) children) :=
        areWoven_outputs (c.within tag) (p.within tag) children
          (by simp [Place.isOpen_within, hp, ht, hd])
      have helement := (isBuilt_spellElement c.quoted c.count.counter
        (Node.outputs mrkdwn (p.depth + 1) (c.within tag) children) tag attributes children).isWoven
        hchildren
      rw [Node.filter_placed_element hp hd, Node.output_render_element hd, leaves_cons_element,
        targets_cons, apply_ite leaves, apply_ite targets]
      exact helement
    · rw [Node.filter_placed_deep hd, Node.render_deep hd]
      exact isWoven_nil

/-- **Nodes are woven, one after another, from the leaves and the targets reached in them.** -/
theorem areWoven_outputs (c : Context) : ∀ (p : Place) (ns : List Node), p.isOpen →
    AreWoven (leaves ((Node.placedAll p ns).filter isReached))
      (targets ((Node.placedAll p ns).filter isReached)) (Node.outputs mrkdwn p.depth c ns)
  | p, [], _ => .nil
  | p, n :: ns, hp => by
    have hn := isWoven_render c p n hp
    have hns := areWoven_outputs (Node.render mrkdwn p.depth c n).context (p.past n) ns hp
    rw [Place.depth_past] at hns
    rw [Node.placedAll, List.filter_append, leaves_append, targets_append]
    exact .cons hn hns

end

/-! ### Leaves in their order -/

/-- The text that fillers spell one after another. -/
def spelled (fs : List Filler) : String := String.ofList (fs.flatMap Filler.spelling)

theorem toList_spelled (fs : List Filler) :
    (spelled fs).toList = fs.flatMap Filler.spelling := String.toList_ofList

/-- A text that is woven is its leaves with fillers before, between and after them. -/
theorem IsWoven.exists_fillers {ls ts : List String} {s : String} (h : IsWoven ls ts s.toList) :
    ∃ (before : List Filler) (rest : List (String × List Filler)),
      s = spelled before ++ String.join (rest.map fun x => escape x.1 ++ spelled x.2) ∧
      rest.map Prod.fst = ls ∧
      (before ++ rest.flatMap Prod.snd).filterMap Filler.target? = ts := by
  obtain ⟨segments, hs, rfl, rfl⟩ := h
  induction segments generalizing s with
  | nil => exact ⟨[], [], String.toList_inj.1 hs, rfl, rfl⟩
  | cons segment segments ih =>
    obtain ⟨before, rest, htail, hl, ht⟩ :=
      ih (s := String.ofList (segments.flatMap Segment.spelling)) String.toList_ofList
    have htail := congrArg String.toList htail
    rw [String.toList_ofList] at htail
    rw [List.flatMap_cons, htail] at hs
    cases segment with
    | leaf data =>
      -- What stood before the rest stands behind this leaf now.
      refine ⟨[], (data, before) :: rest, String.toList_inj.1 ?_, ?_, ?_⟩
      · simp [hs, Segment.spelling, toList_spelled, -toList_escape]
      · rw [List.map_cons, hl]
        rfl
      · exact ht
    | filler f =>
      refine ⟨f :: before, rest, String.toList_inj.1 ?_, hl, ?_⟩
      · simp [hs, Segment.spelling, toList_spelled, -toList_escape]
      · rw [List.cons_append, List.filterMap_cons, ht, List.filterMap_cons]
        rfl

/-- **A rendering neither loses nor repeats nor moves nor invents text.** The leaves that count are
those with no element around that is passed over or dropped. The rendering is these leaves, escaped
and in their order, and before, between and after them there is nothing but markup and the whole
targets of the links that are reached, each target once. -/
theorem output_renderIn_eq_leaves_between_fillers (start : Context) (nodes : List Node) :
    (∀ x, x ∈ reached nodes ↔ x ∈ Node.placedAll .top nodes ∧
        (∀ tag rest, tag :: rest <:+ x.1.around → tag.isOpaque = false ∧ rest.length < maxDepth) ∧
        (x.2.isElement → x.1.depth < maxDepth)) ∧
      ∃ (before : List Filler) (rest : List (String × List Filler)),
        (renderIn mrkdwn start nodes).output
            = spelled before ++ String.join (rest.map fun x => escape x.1 ++ spelled x.2) ∧
          rest.map Prod.fst = leaves (reached nodes) ∧
          (before ++ rest.flatMap Prod.snd).filterMap Filler.target? = targets (reached nodes) := by
  have hwoven := (areWoven_outputs start .top nodes Place.isOpen_top).join
  rw [Place.depth_top, ← Node.output_renderAll] at hwoven
  exact ⟨fun x => mem_reached_iff, hwoven.exists_fillers⟩

/-- A leaf inside of a line break is no part of a rendering. -/
theorem output_renderIn_dropped :
    ∃ (before : List Filler) (rest : List (String × List Filler)),
      "> _tea &amp; <https://portway.app|*cake*\n >>_\n"
          = spelled before ++ String.join (rest.map fun x => escape x.1 ++ spelled x.2) ∧
        rest.map Prod.fst = ["tea & ", "cake"] ∧
        (before ++ rest.flatMap Prod.snd).filterMap Filler.target? = ["https://portway.app"] := by
  obtain ⟨before, rest, houtput, hleaves, htargets⟩ :=
    (output_renderIn_eq_leaves_between_fillers .fresh
      [.plain .blockquote [.plain .italic [.text "tea & ", .linkTo "https://portway.app"
        [.plain .bold [.text "cake"], .plain .lineBreak [.text "crumbs"]]]]]).2
  refine ⟨before, rest, ?_, ?_, ?_⟩
  · rw [← houtput]
    decide +kernel
  · rw [hleaves]
    decide +kernel
  · rw [htargets]
    decide +kernel

end Herald.RichText
