import Herald.Proofs.RichText.Element
import Mathlib.Tactic.SplitIfs

/-!
# The lines of a quote

In mrkdwn a quote goes on as long as its lines begin with a closing bracket, maybe with a blank
before it. A line break inside a quote spells that mark itself, and every child of a quote has lines
of its own.

* `Node.isInline`, `Node.isQuotable`: nodes that bring no end of a line but by line breaks, and
  children of a quote with nothing else in them;
* `IsContinued`: a text in which every end of a line is followed by the mark. Quoted inline nodes
  are spelled so, in any number of elements (`isContinued_render`);
* `isPart_quote`: what a child of a quote is spelled as;
* `lines_quote_are_marked`: no line breaks out of a quote, and no line is shared by two children.
-/

namespace Herald.RichText

open Json Markup

/-! ### Nodes without lines of their own -/

/-- An element with this tag goes on in the line it stands in. -/
def Tag.isInline : Tag → Bool
  | .bold | .italic | .strikethrough | .inlineCode | .link | .lineBreak | .horizontalRule
  | .unknown _ => true
  | _ => false

/-- An element with this tag has one line of its own, or more if there are line breaks in it. -/
def Tag.isLine : Tag → Bool
  | .paragraph | .heading _ | .listItem | .codeBlock => true
  | _ => false

namespace Node

mutual

/-- Only line breaks end a line in this node, and all nodes in it are of this kind. -/
def isInline : Node → Bool
  | .text data => !data.toList.contains '\n'
  | .unknown => true
  | .element tag attributes children =>
    tag.isInline && (target? (.element tag attributes children)).all (!·.toList.contains '\n')
      && areInline children

/-- All of these nodes are of this kind. -/
def areInline : List Node → Bool
  | [] => true
  | n :: ns => isInline n && areInline ns

end

/-- A child of a quote in which everything is inline, itself included or not. -/
def isQuotable : Node → Bool
  | .element tag attributes children =>
    (tag.isLine && areInline children) || isInline (.element tag attributes children)
  | n => isInline n

end Node

/-! ### Texts that go on with a quote -/

/-- A piece of a quoted text: a character that does not end the line, or the end of a line together
with the mark that the next one begins with. -/
inductive Piece
  | char (ch : Char) (stays : ch ≠ '\n')
  | turn

namespace Piece

/-- The characters of a piece. -/
def spelling : Piece → List Char
  | char ch _ => [ch]
  | turn => ['\n', ' ', '>']

end Piece

/-- Every end of a line is followed by the mark of the quote. -/
def IsContinued (cs : List Char) : Prop :=
  ∃ pieces : List Piece, cs = pieces.flatMap Piece.spelling

namespace IsContinued

variable {cs ds : List Char}

theorem nil : IsContinued [] := ⟨[], rfl⟩

theorem turn : IsContinued "\n >".toList := ⟨[.turn], rfl⟩

theorem append (hc : IsContinued cs) (hd : IsContinued ds) : IsContinued (cs ++ ds) := by
  obtain ⟨pieces, rfl⟩ := hc
  obtain ⟨pieces', rfl⟩ := hd
  exact ⟨pieces ++ pieces', List.flatMap_append.symm⟩

/-- A text of one line goes on with a quote. -/
theorem of_not_mem (h : '\n' ∉ cs) : IsContinued cs := by
  induction cs with
  | nil => exact nil
  | cons ch cs ih =>
    rw [List.mem_cons, not_or] at h
    exact append ⟨[.char ch (Ne.symm h.1)], rfl⟩ (ih h.2)

theorem wrap {a s b : String} (h : IsContinued s.toList) (ha : '\n' ∉ a.toList)
    (hb : '\n' ∉ b.toList) : IsContinued (a ++ s ++ b).toList := by
  rw [String.toList_append, String.toList_append]
  exact ((of_not_mem ha).append h).append (of_not_mem hb)

theorem join {ss : List String} (h : ∀ s ∈ ss, IsContinued s.toList) :
    IsContinued (String.join ss).toList := by
  induction ss with
  | nil => exact nil
  | cons s ss ih =>
    rw [List.forall_mem_cons] at h
    rw [String.join_cons, String.toList_append]
    exact h.1.append (ih h.2)

/-- It does not end with the end of a line. -/
theorem getLast?_ne (h : IsContinued cs) : cs.getLast? ≠ some '\n' := by
  obtain ⟨pieces, rfl⟩ := h
  rcases List.eq_nil_or_concat pieces with rfl | ⟨before, last, rfl⟩
  · simp
  · cases last with
    | char ch stays => simpa [Piece.spelling] using stays
    | turn => simp [Piece.spelling]

end IsContinued

/-! ### Inline nodes in a quote -/

namespace Node

theorem isContinued_escape {s : String} (h : '\n' ∉ s.toList) : IsContinued (escape s).toList := by
  refine .of_not_mem fun hn => ?_
  rw [toList_escape, List.mem_flatMap] at hn
  obtain ⟨ch, hc, hn⟩ := hn
  have hch : '\n' ≠ ch := fun he => h (he ▸ hc)
  revert hn
  unfold Markup.escapeChar
  split_ifs <;> simp [hch]

/-- An inline element goes on with a quote if its children do. -/
theorem isContinued_spellElement {number : Option Nat} {target : Option String}
    {inner : List String} {tag : Tag} (htag : tag.isInline)
    (htarget : target.all (!·.toList.contains '\n')) (hi : ∀ s ∈ inner, IsContinued s.toList) :
    IsContinued (spellElement mrkdwn true number target inner tag).toList := by
  have hjoin := IsContinued.join hi
  cases tag with
  | bold => exact hjoin.wrap (by decide) (by decide)
  | italic => exact hjoin.wrap (by decide) (by decide)
  | strikethrough => exact hjoin.wrap (by decide) (by decide)
  | inlineCode => exact hjoin.wrap (by decide) (by decide)
  | link =>
    cases target with
    | none => exact hjoin
    | some t =>
      have ht : '\n' ∉ ("<" ++ t ++ "|").toList := by simpa using htarget
      exact hjoin.wrap ht (by decide)
  | lineBreak => exact .turn
  | horizontalRule => exact .nil
  | unknown name => exact .nil
  | paragraph | codeBlock | blockquote | unorderedList | orderedList | listItem | heading _ =>
    cases htag

/-- An inline element begins no quote, so it is in a quote just as its children are. -/
theorem quoted_within_of_isInline {c : Context} {tag : Tag} (htag : tag.isInline) :
    (c.within tag).quoted = c.quoted := by
  rw [Context.quoted_within]
  cases tag <;> simp_all [Tag.isInline]

mutual

/-- **A quoted inline node goes on with the quote**, in any number of elements. -/
theorem isContinued_render : ∀ (depth : Nat) (c : Context) (n : Node), c.quoted → n.isInline →
    IsContinued (render mrkdwn depth c n).output.toList
  | depth, c, .text data, hc, h => by
    rw [isInline, Bool.not_eq_true', List.contains_eq_mem, decide_eq_false_iff_not] at h
    rw [render_text]
    exact isContinued_escape h
  | depth, c, .unknown, hc, h => by
    rw [render_unknown]
    exact .nil
  | depth, c, .element tag attributes children, hc, h => by
    rw [isInline, Bool.and_eq_true, Bool.and_eq_true] at h
    obtain ⟨⟨htag, htarget⟩, hchildren⟩ := h
    rcases Nat.lt_or_ge depth maxDepth with hd | hd
    · have hw : (c.within tag).quoted := (quoted_within_of_isInline htag).trans hc
      have hi := isContinued_outputs (depth + 1) (c.within tag) children hw hchildren
      rw [output_render_element hd, hc]
      exact isContinued_spellElement htag htarget hi
    · rw [render_deep hd]
      exact .nil

theorem isContinued_outputs : ∀ (depth : Nat) (c : Context) (ns : List Node), c.quoted →
    areInline ns → ∀ s ∈ outputs mrkdwn depth c ns, IsContinued s.toList
  | depth, c, [], hc, h, s, hs => by cases hs
  | depth, c, n :: ns, hc, h, s, hs => by
    rw [areInline, Bool.and_eq_true] at h
    rw [outputs, List.mem_cons] at hs
    rcases hs with rfl | hs
    · exact isContinued_render depth c n hc h.1
    · exact isContinued_outputs depth _ ns ((quoted_render mrkdwn depth c n).trans hc) h.2 s hs

end

/-- What a quote has for one of its children, with `depth` elements around the quote. -/
def quotedChild (depth : Nat) (n : Node) : String :=
  Mrkdwn.quote (render mrkdwn (depth + 1) .quote n).output

/-- A quote is what it has for its children, one after another. -/
theorem output_render_blockquote {depth : Nat} (h : depth < maxDepth) (c : Context)
    (attributes : Members) (children : List Node) :
    (render mrkdwn depth c (.element .blockquote attributes children)).output
      = String.join (children.map (quotedChild depth)) := by
  have houtputs : outputs mrkdwn (depth + 1) .quote children
      = children.map fun n => (render mrkdwn (depth + 1) .quote n).output := by
    induction children with
    | nil => rfl
    | cons n ns ih => rw [outputs, context_render_quote, ih, List.map_cons]
  rw [output_render_element h]
  exact congrArg String.join (by rw [Context.within, houtputs, List.map_map]; rfl)

end Node

/-! ### The children of a quote -/

/-- What a quote has for a child: lines that go on with the quote, the first one with a mark of its
own, and maybe an empty line. -/
def IsPart (cs : List Char) : Prop :=
  ∃ body blank : List Char, IsContinued body ∧ (blank = [] ∨ blank = ['\n']) ∧
    cs = '>' :: ' ' :: (body ++ '\n' :: blank)

/-- A child that ends its lines itself. -/
theorem isPart_quote_of_line {s : String} {body blank : List Char} (hb : IsContinued body)
    (hblank : blank = [] ∨ blank = ['\n']) (hs : s.toList = body ++ '\n' :: blank) :
    IsPart (Mrkdwn.quote s).toList := by
  have hends : s.toList.getLast? = some '\n' := by
    rcases hblank with rfl | rfl <;> simp [hs]
  refine ⟨body, blank, hb, hblank, ?_⟩
  rw [Mrkdwn.quote, if_pos hends, String.toList_append, hs]
  rfl

/-- A child that goes on in its line, until the quote ends it. -/
theorem isPart_quote_of_isContinued {s : String} (h : IsContinued s.toList) :
    IsPart (Mrkdwn.quote s).toList := by
  refine ⟨s.toList, [], h, .inl rfl, ?_⟩
  rw [Mrkdwn.quote, if_neg h.getLast?_ne, String.toList_append, String.toList_append]
  rfl

/-- An element with a line of its own is quoted with its end of the line. -/
theorem isPart_quote_spellElement {target : Option String} {inner : List String} {tag : Tag}
    (htag : tag.isLine) (hi : ∀ s ∈ inner, IsContinued s.toList) :
    IsPart (Mrkdwn.quote (spellElement mrkdwn true none target inner tag)).toList := by
  have hjoin := IsContinued.join hi
  cases tag with
  | paragraph => exact isPart_quote_of_line hjoin (.inr rfl) (by simp [spellElement, mrkdwn])
  | heading level =>
    exact isPart_quote_of_line (hjoin.wrap (a := "*") (b := "*") (by decide) (by decide)) (.inl rfl)
      (by simp [spellElement, mrkdwn])
  | listItem =>
    exact isPart_quote_of_line (hjoin.wrap (a := "- ") (b := "") (by decide) (by decide)) (.inl rfl)
      (by simp [spellElement, mrkdwn, Mrkdwn.listItem])
  | codeBlock =>
    exact isPart_quote_of_line (hjoin.wrap (a := "```") (b := "```") (by decide) (by decide))
      (.inl rfl) (by simp [spellElement, mrkdwn])
  | bold | italic | strikethrough | link | lineBreak | inlineCode | blockquote | unorderedList
  | orderedList | horizontalRule | unknown _ => cases htag

theorem isPart_quotedChild (depth : Nat) {n : Node} (h : n.isQuotable) :
    IsPart (n.quotedChild depth).toList := by
  have hinline (hn : n.isInline) : IsPart (n.quotedChild depth).toList :=
    isPart_quote_of_isContinued (Node.isContinued_render (depth + 1) .quote n rfl hn)
  cases n with
  | text data => exact hinline h
  | unknown => exact hinline h
  | element tag attributes children =>
    rw [Node.isQuotable, Bool.or_eq_true, Bool.and_eq_true] at h
    rcases h with ⟨htag, hchildren⟩ | h
    · rcases Nat.lt_or_ge (depth + 1) maxDepth with hd | hd
      · have hw : (Context.quote.within tag).quoted := by
          simp [Context.quoted_within, Context.quote]
        rw [Node.quotedChild, Node.output_render_element hd]
        exact isPart_quote_spellElement htag
          (Node.isContinued_outputs (depth + 2) _ children hw hchildren)
      · rw [Node.quotedChild, Node.render_deep hd]
        exact isPart_quote_of_isContinued .nil
    · exact hinline h

/-! ### Lines -/

/-- A line of a quote: it begins with the mark, maybe after a blank. -/
def IsMarked (line : List Char) : Prop := ['>'] <+: line ∨ [' ', '>'] <+: line

/-- The end of a line parts the lines before it from those behind. -/
theorem lines_append_cons (cs ds : List Char) :
    (cs ++ '\n' :: ds).splitOn '\n' = cs.splitOn '\n' ++ ds.splitOn '\n' :=
  List.splitOnP_append_cons cs ds rfl

theorem lines_of_not_mem {cs : List Char} (h : '\n' ∉ cs) : cs.splitOn '\n' = [cs] :=
  List.splitOnP_eq_singleton fun _ hch => beq_false_of_ne (ne_of_mem_of_not_mem hch h)

/-- If the first line is marked and the rest goes on with the quote, every line is marked. The
induction is on the pieces: each of them goes on with the line or begins the next one. -/
theorem isMarked_of_mem_lines (first : List Char) {cs : List Char} (hf : '\n' ∉ first)
    (hm : IsMarked first) (hc : IsContinued cs) :
    ∀ line ∈ (first ++ cs).splitOn '\n', IsMarked line := by
  obtain ⟨pieces, rfl⟩ := hc
  induction pieces generalizing first with
  | nil => simpa [lines_of_not_mem hf] using hm
  | cons piece pieces ih =>
    cases piece with
    | char ch stays =>
      have hlonger : '\n' ∉ first ++ [ch] := by simp [hf, stays.symm]
      have hmarked : IsMarked (first ++ [ch]) :=
        hm.imp (·.trans (List.prefix_append _ _)) (·.trans (List.prefix_append _ _))
      simpa [Piece.spelling] using ih (first ++ [ch]) hlonger hmarked
    | turn =>
      have hnext := ih [' ', '>'] (by decide) (.inr (List.prefix_refl _))
      have hturn : first ++ (Piece.turn :: pieces).flatMap Piece.spelling
          = first ++ '\n' :: ([' ', '>'] ++ pieces.flatMap Piece.spelling) := rfl
      rw [hturn, lines_append_cons, lines_of_not_mem hf, List.singleton_append,
        List.forall_mem_cons]
      exact ⟨hm, hnext⟩

/-- Behind a part of a quote the lines begin anew. -/
theorem isMarked_of_mem_lines_append {part rest : List Char} (hp : IsPart part)
    (hr : ∀ line ∈ rest.splitOn '\n', line ≠ [] → IsMarked line) :
    ∀ line ∈ (part ++ rest).splitOn '\n', line ≠ [] → IsMarked line := by
  obtain ⟨body, blank, hbody, hblank, rfl⟩ := hp
  have hfirst := isMarked_of_mem_lines ['>', ' '] (by decide)
    (.inl (by decide)) hbody
  have hparted : '>' :: ' ' :: (body ++ '\n' :: blank) ++ rest
      = (['>', ' '] ++ body) ++ '\n' :: (blank ++ rest) := by simp
  have hrest : ∀ line ∈ (blank ++ rest).splitOn '\n', line ≠ [] → IsMarked line := by
    rcases hblank with rfl | rfl
    · exact hr
    · have hempty : (['\n'] ++ rest).splitOn '\n' = [] :: rest.splitOn '\n' :=
        lines_append_cons [] rest
      rw [hempty, List.forall_mem_cons]
      exact ⟨fun h => absurd rfl h, hr⟩
  rw [hparted, lines_append_cons, List.forall_mem_append]
  exact ⟨fun line hl _ => hfirst line hl, hrest⟩

theorem isMarked_of_mem_lines_join {parts : List String} (h : ∀ s ∈ parts, IsPart s.toList) :
    ∀ line ∈ (String.join parts).toList.splitOn '\n', line ≠ [] → IsMarked line := by
  induction parts with
  | nil => simp
  | cons s parts ih =>
    rw [List.forall_mem_cons] at h
    rw [String.join_cons, String.toList_append]
    exact isMarked_of_mem_lines_append h.1 (ih h.2)

theorem IsPart.ends {cs : List Char} (h : IsPart cs) : cs.getLast? = some '\n' := by
  obtain ⟨body, blank, -, hblank, rfl⟩ := h
  rcases hblank with rfl | rfl <;> simp [List.getLast?_cons]

/-- Parts one after another are nothing, or they end a line. -/
theorem ends_join {parts : List String} (h : ∀ s ∈ parts, IsPart s.toList) :
    String.join parts = "" ∨ (String.join parts).toList.getLast? = some '\n' := by
  rcases List.eq_nil_or_concat parts with rfl | ⟨before, last, rfl⟩
  · exact .inl rfl
  · have hlast := (h last (by simp)).ends
    right
    simp [String.toList_join, hlast]

/-- **No line breaks out of a quote.** Let all children of a quote be inline, or have one line of
their own with inline nodes in it. Then every line of the quote that is not empty begins with the
mark, maybe after a blank. What the quote has for a child begins with the mark and a blank, on a
line that nothing before it has begun, and ends its last line. -/
theorem lines_quote_are_marked (depth : Nat) (c : Context) (attributes : Members)
    (children : List Node) (h : ∀ n ∈ children, n.isQuotable) :
    (∀ line ∈ (Node.render mrkdwn depth c
        (.element .blockquote attributes children)).output.toList.splitOn '\n',
      line ≠ [] → ['>'] <+: line ∨ [' ', '>'] <+: line) ∧
    (maxDepth ≤ depth →
      (Node.render mrkdwn depth c (.element .blockquote attributes children)).output = "") ∧
    (depth < maxDepth →
      (Node.render mrkdwn depth c (.element .blockquote attributes children)).output
          = String.join (children.map (Node.quotedChild depth)) ∧
        ∀ (before after : List Node) (n : Node), children = before ++ n :: after →
          ['>', ' '] <+: (n.quotedChild depth).toList ∧
          (n.quotedChild depth).toList.getLast? = some '\n' ∧
          (String.join (before.map (Node.quotedChild depth)) = "" ∨
            (String.join (before.map (Node.quotedChild depth))).toList.getLast? = some '\n')) := by
  have hparts : ∀ ns : List Node, (∀ n ∈ ns, n.isQuotable) →
      ∀ s ∈ ns.map (Node.quotedChild depth), IsPart s.toList := by
    intro ns hns s hs
    obtain ⟨n, hn, rfl⟩ := List.mem_map.1 hs
    exact isPart_quotedChild depth (hns n hn)
  rcases Nat.lt_or_ge depth maxDepth with hd | hd
  · have houtput := Node.output_render_blockquote hd c attributes children
    refine ⟨?_, fun hge => absurd hd (Nat.not_lt.2 hge), fun _ => ⟨houtput, ?_⟩⟩
    · rw [houtput]
      exact isMarked_of_mem_lines_join (hparts children h)
    · rintro before after n rfl
      have hn := isPart_quotedChild depth (h n (by simp))
      refine ⟨?_, hn.ends, ends_join (hparts before fun m hm => h m (by simp [hm]))⟩
      obtain ⟨body, blank, -, -, hcs⟩ := hn
      exact hcs ▸ ⟨body ++ '\n' :: blank, rfl⟩
  · rw [Node.render_deep hd]
    exact ⟨by simp, fun _ => rfl, fun hlt => absurd hlt (Nat.not_lt.2 hd)⟩

/-- A paragraph and an inline child with line breaks in them, then an item. -/
def brokenLines : List Node :=
  [.plain .paragraph [.text "a", .plain .bold [.plain .lineBreak [], .text "b"]],
    .linkTo "https://portway.app" [.text "c", .plain .lineBreak []],
    .plain .listItem [.plain .lineBreak [], .plain .italic [.text "d"]]]

theorem lines_quote_brokenLines :
    (∀ n ∈ brokenLines, n.isQuotable) ∧
      (renderIn mrkdwn .fresh [.plain .blockquote brokenLines]).output
        = "> a*\n >b*\n\n> <https://portway.app|c\n >>\n> - \n >_d_\n" ∧
      ∀ line ∈ (Node.render mrkdwn 0 .fresh
          (.element .blockquote [] brokenLines)).output.toList.splitOn '\n',
        line ≠ [] → ['>'] <+: line ∨ [' ', '>'] <+: line :=
  ⟨by decide, by decide +kernel,
    (lines_quote_are_marked 0 .fresh [] brokenLines (by decide)).1⟩

end Herald.RichText
