import Herald.Proofs.RichText.Controls
import Mathlib.Data.List.TakeDrop

/-!
# Links and their labels

In mrkdwn a link goes from an opening angle bracket to the next closing one. What a link of a rich
text shows is put between the two, so it must not close the link itself.

* `Mrkdwn.readLink?`: a link as it is read;
* `isSpelledIn_renderIn`: a node that is reached is spelled somewhere in the rendering;
* `quoted_of_mem_placedAll`: nodes without a quote among them are in the same quotes;
* `IsPlain`: no node is a link or a quote. Such nodes bring angle brackets only by line breaks
  (`IsPlain.controls`);
* `output_link_closes_at_its_end`: a link closes at its own end, unless it is quoted and has a line
  break.
-/

namespace Herald.Markup

/-- A link as it is read at the start of a text: from an opening bracket to the next bracket, which
must close it, with where it leads before the first bar and what it shows behind that. The rest of
the text comes last. -/
def Mrkdwn.readLink? : List Char → Option (List Char × List Char × List Char)
  | '<' :: cs =>
    match cs.span fun ch => ch != '<' && ch != '>' with
    | (inside, '>' :: rest) =>
      match inside.span (· != '|') with
      | (target, _ :: label) => some (target, label, rest)
      | (_, []) => none
    | _ => none
  | _ => none

theorem span_append_cons {f : Char → Bool} {cs : List Char} {b : Char} (hcs : ∀ ch ∈ cs, f ch)
    (hb : f b = false) (rest : List Char) : (cs ++ b :: rest).span f = (cs, b :: rest) := by
  rw [List.span_eq_takeWhile_dropWhile, List.takeWhile_append_of_pos hcs,
    List.dropWhile_append_of_pos hcs]
  simp [hb]

/-- A link that has no bracket inside, and no bar in its target, is read as it is. -/
theorem Mrkdwn.readLink?_link {target label : List Char} (ht : '<' ∉ target ∧ '>' ∉ target)
    (hbar : '|' ∉ target) (hl : '<' ∉ label ∧ '>' ∉ label) (rest : List Char) :
    readLink? ('<' :: (target ++ '|' :: label ++ '>' :: rest)) = some (target, label, rest) := by
  have hinside : ∀ ch ∈ target ++ '|' :: label, (ch != '<' && ch != '>') = true := by
    intro ch hc
    have hopen : ch ≠ '<' := ne_of_mem_of_not_mem hc (by simp [ht.1, hl.1])
    have hclose : ch ≠ '>' := ne_of_mem_of_not_mem hc (by simp [ht.2, hl.2])
    simp [hopen, hclose]
  have hbefore : ∀ ch ∈ target, (ch != '|') = true := fun ch hc =>
    bne_iff_ne.2 (ne_of_mem_of_not_mem hc hbar)
  have hlink := span_append_cons (b := '>') hinside (by decide) rest
  have htarget := span_append_cons (b := '|') hbefore (by decide) label
  simp only [readLink?, hlink, htarget]

end Herald.Markup

namespace Herald.RichText

open Json Markup

namespace Node

/-- The tag of an element. -/
def tag? : Node → Option Tag
  | .element tag _ _ => some tag
  | _ => none

theorem target?_eq_none {n : Node} (h : n.tag? ≠ some .link) : n.target? = none := by
  cases n with
  | element tag attributes children =>
    cases tag with
    | link => exact absurd rfl h
    | _ => rfl
  | _ => rfl

theorem quoteSize_eq_zero {n : Node} (h : n.tag? ≠ some .blockquote) : n.quoteSize = 0 := by
  cases n with
  | element tag attributes children =>
    cases tag with
    | blockquote => exact absurd rfl h
    | _ => rfl
  | _ => rfl

end Node

/-! ### Where a node is spelled -/

section Parts

theorem infix_wrap (a s b : String) : s.toList <:+: (a ++ s ++ b).toList := by
  rw [String.toList_append, String.toList_append]
  exact List.infix_append _ _ _

theorem infix_quote (s : String) : s.toList <:+: (Mrkdwn.quote s).toList := by
  unfold Mrkdwn.quote
  split
  · rw [String.toList_append]
    exact (List.suffix_append _ _).isInfix
  · exact infix_wrap "> " s "\n"

theorem infix_join {s : String} {ss : List String} (h : s ∈ ss) :
    s.toList <:+: (String.join ss).toList := by
  obtain ⟨before, after, rfl⟩ := List.append_of_mem h
  rw [String.toList_join]
  simp only [List.flatMap_append, List.flatMap_cons, ← List.append_assoc]
  exact List.infix_append _ _ _

/-- The spelling of a child is in that of an element, unless the children are passed over. -/
theorem IsBuilt.infix_of_mem {inner : List String} {tag : Tag} {target : Option String}
    {s child : String} (h : IsBuilt inner tag target s) (htag : tag.isOpaque = false)
    (hc : child ∈ inner) : child.toList <:+: s.toList := by
  cases h with
  | wrapped _ _ _ => exact (infix_join hc).trans (infix_wrap _ _ _)
  | linked t => exact (infix_join hc).trans (infix_wrap _ _ _)
  | quoted => exact (infix_quote child).trans (infix_join (List.mem_map_of_mem hc))
  | alone passed _ =>
    rw [htag] at passed
    cases passed

variable {start : Context}

/-- A node is spelled as part of a text, in a quote if its place is in one. -/
def IsSpelledIn (start : Context) (cs : List Char) (x : Place × Node) : Prop :=
  ∃ c : Context, c.quoted = x.1.quoted start ∧
    (Node.render mrkdwn x.1.depth c x.2).output.toList <:+: cs

mutual

theorem isSpelledIn_render (c : Context) : ∀ (p : Place) (n : Node), p.isOpen →
    c.quoted = p.quoted start → ∀ x ∈ (Node.placed p n).filter isReached,
    IsSpelledIn start (Node.render mrkdwn p.depth c n).output.toList x
  | p, .text data, hp, hc, x, hx => by
    rw [Node.filter_placed_text hp, List.mem_singleton] at hx
    exact hx ▸ ⟨c, hc, List.infix_refl _⟩
  | p, .unknown, hp, hc, x, hx => by
    rw [Node.filter_placed_unknown hp, List.mem_singleton] at hx
    exact hx ▸ ⟨c, hc, List.infix_refl _⟩
  | p, .element tag attributes children, hp, hc, x, hx => by
    rcases Nat.lt_or_ge p.depth maxDepth with hd | hd
    · rw [Node.filter_placed_element hp hd, List.mem_cons] at hx
      rcases hx with rfl | hx
      · exact ⟨c, hc, List.infix_refl _⟩
      · cases htag : tag.isOpaque with
        | true => simp [htag] at hx
        | false =>
          have hw : (p.within tag).isOpen := by simp [Place.isOpen_within, hp, htag, hd]
          have hq : (c.within tag).quoted = (p.within tag).quoted start := by
            rw [Context.quoted_within, Place.quoted_within, hc]
          rw [htag, if_neg Bool.false_ne_true] at hx
          obtain ⟨s, hs, c', hc', hin⟩ :=
            isSpelledIn_outputs (c.within tag) (p.within tag) children hw hq x hx
          -- It is spelled in a child, and the child in the element.
          refine ⟨c', hc', hin.trans ?_⟩
          rw [Node.output_render_element hd]
          exact (isBuilt_spellElement _ _ _ _ _ _).infix_of_mem htag hs
    · rw [Node.filter_placed_deep hd] at hx
      cases hx

/-- A node that is reached in a list is spelled as part of one of the list. -/
theorem isSpelledIn_outputs (c : Context) : ∀ (p : Place) (ns : List Node), p.isOpen →
    c.quoted = p.quoted start → ∀ x ∈ (Node.placedAll p ns).filter isReached,
    ∃ s ∈ Node.outputs mrkdwn p.depth c ns, IsSpelledIn start s.toList x
  | p, [], _, _, x, hx => by cases hx
  | p, n :: ns, hp, hc, x, hx => by
    rw [Node.placedAll, List.filter_append, List.mem_append] at hx
    rw [Node.outputs]
    rcases hx with hx | hx
    · exact ⟨_, List.mem_cons_self, isSpelledIn_render c p n hp hc x hx⟩
    · obtain ⟨s, hs, hin⟩ := isSpelledIn_outputs (Node.render mrkdwn p.depth c n).context (p.past n)
        ns hp ((Node.quoted_render mrkdwn p.depth c n).trans hc) x hx
      exact ⟨s, List.mem_cons_of_mem _ hs, hin⟩

end

/-- **A node that is reached is spelled somewhere in the rendering.** -/
theorem isSpelledIn_renderIn (start : Context) {nodes : List Node} {x : Place × Node}
    (h : x ∈ reached nodes) : IsSpelledIn start (renderIn mrkdwn start nodes).output.toList x := by
  obtain ⟨s, hs, c, hc, hin⟩ := isSpelledIn_outputs start .top nodes Place.isOpen_top
    (Place.quoted_top start).symm x h
  rw [renderIn, Node.output_renderAll]
  exact ⟨c, hc, hin.trans (infix_join hs)⟩

end Parts

/-! ### Places without a quote between them -/

mutual

theorem quoted_of_mem_placed (start : Context) : ∀ (p : Place) (n : Node),
    (∀ x ∈ Node.placed p n, x.2.tag? ≠ some .blockquote) →
    ∀ x ∈ Node.placed p n, x.1.quoted start = p.quoted start
  | p, .text data, _, x, hx => by
    rw [List.mem_singleton.1 hx]
  | p, .unknown, _, x, hx => by
    rw [List.mem_singleton.1 hx]
  | p, .element tag attributes children, h, x, hx => by
    rw [Node.placed, List.forall_mem_cons] at h
    rw [Node.placed, List.mem_cons] at hx
    rcases hx with rfl | hx
    · rfl
    · have htag : (tag == .blockquote) = false := by simpa [Node.tag?] using h.1
      rw [quoted_of_mem_placedAll start (p.within tag) children h.2 x hx, Place.quoted_within, htag,
        Bool.or_false]

/-- **Nodes without a quote among them are in the same quotes.** -/
theorem quoted_of_mem_placedAll (start : Context) : ∀ (p : Place) (ns : List Node),
    (∀ x ∈ Node.placedAll p ns, x.2.tag? ≠ some .blockquote) →
    ∀ x ∈ Node.placedAll p ns, x.1.quoted start = p.quoted start
  | p, [], _, x, hx => by cases hx
  | p, n :: ns, h, x, hx => by
    rw [Node.placedAll, List.forall_mem_append] at h
    rw [Node.placedAll, List.mem_append] at hx
    rcases hx with hx | hx
    · exact quoted_of_mem_placed start p n h.1 x hx
    · exact quoted_of_mem_placedAll start (p.past n) ns h.2 x hx

end

/-! ### Nodes without links and quotes -/

/-- No node is a link or a quote. -/
def IsPlain (xs : List (Place × Node)) : Prop :=
  ∀ x ∈ xs, x.2.tag? ≠ some .link ∧ x.2.tag? ≠ some .blockquote

instance (xs : List (Place × Node)) : Decidable (IsPlain xs) :=
  inferInstanceAs (Decidable (∀ x ∈ xs, x.2.tag? ≠ some .link ∧ x.2.tag? ≠ some .blockquote))

section Plain

variable {xs : List (Place × Node)} {start : Context} {ch : Char}

theorem IsPlain.targets (h : IsPlain xs) : targets xs = [] :=
  List.filterMap_eq_nil_iff.2 fun x hx => Node.target?_eq_none (h x hx).1

theorem IsPlain.quotedChildren (h : IsPlain xs) : quotedChildren xs = 0 := by
  have hsize : xs.map (·.2.quoteSize) = xs.map fun _ => 0 :=
    List.map_congr_left fun x hx => Node.quoteSize_eq_zero (h x hx).2
  rw [RichText.quotedChildren, hsize]
  simp [List.map_const']

/-- Such nodes bring angle brackets only by line breaks inside quotes. -/
theorem IsPlain.controls (h : IsPlain xs) (hch : ch = '<' ∨ ch = '>') :
    controls xs ch start = quotedBreaks xs start * ['>'].count ch := by
  have hleaves : ((leaves xs).map fun s => (escape s).toList.count ch).sum = 0 := by
    simp [List.count_eq_zero.2 (not_mem_escape hch _), List.map_const', -toList_escape]
  rw [RichText.controls, hleaves, h.targets, h.quotedChildren]
  simp

end Plain

/-! ### Links -/

variable {start : Context} {p : Place} {attributes : Members} {children : List Node}
  {target : String}

/-- What a link shows, at a place. -/
def labelAt (start : Context) (p : Place) (children : List Node) : String :=
  String.join (Node.outputs mrkdwn (p.within .link).depth ((p.within .link).context start) children)

/-- A link is spelled by its target and its label; a number that its context has does not matter. -/
theorem output_render_link (hd : p.depth < maxDepth)
    (ht : (Node.element .link attributes children).target? = some target) {c : Context}
    (hc : c.quoted = p.quoted start) :
    (Node.render mrkdwn p.depth c (.element .link attributes children)).output
      = "<" ++ target ++ "|" ++ labelAt start p children ++ ">" := by
  have hinner : c.within .link = (p.within .link).context start := by
    rw [Place.context_within]
    simp [Context.within, Context.inner, hc]
  rw [Node.output_render_element hd, ht, hinner]
  rfl

/-- Line breaks are all in a quote, or none is. -/
theorem quotedBreaks_eq {xs : List (Place × Node)} {quoted : Bool}
    (h : ∀ x ∈ xs, x.1.quoted start = quoted) :
    quotedBreaks xs start = if quoted then xs.countP (·.2.isLineBreak) else 0 := by
  cases quoted with
  | true => exact List.countP_congr fun x hx => by simp [h x hx]
  | false => exact List.countP_eq_zero.2 fun x hx => by simp [h x hx]

/-- The angle brackets of a label without links and quotes inside. -/
theorem count_labelAt (start : Context) (hp : (p.within .link).isOpen) {ch : Char}
    (hch : ch = '<' ∨ ch = '>') (hplain : IsPlain (Node.placedAll (p.within .link) children)) :
    (labelAt start p children).toList.count ch
      = (if p.quoted start then
          ((Node.placedAll (p.within .link) children).filter isReached).countP (·.2.isLineBreak)
        else 0) * ['>'].count ch := by
  have hcount := count_outputs (.inr hch) ((p.within .link).context start) (p.within .link) children
    hp (Place.quoted_context start _)
  have hreached : IsPlain ((Node.placedAll (p.within .link) children).filter isReached) :=
    fun x hx => hplain x (List.mem_filter.1 hx).1
  have hquoted : ∀ x ∈ (Node.placedAll (p.within .link) children).filter isReached,
      x.1.quoted start = p.quoted start := fun x hx => by
    rw [quoted_of_mem_placedAll start _ children (fun y hy => (hplain y hy).2) x
      (List.mem_filter.1 hx).1, Place.quoted_within]
    exact Bool.or_false _
  rw [labelAt, count_join, hcount, hreached.controls hch, quotedBreaks_eq hquoted]

/-- **A link closes at its own end.** Let a link that is reached lead to a text without angle
brackets and bars, and let no link and no quote be inside. Then it is spelled as an opening bracket,
its target, a bar, its label and a closing bracket. There is no opening bracket in the label, and as
many closing ones as line breaks are reached in the link, if that is quoted, and otherwise none. So
where the link is not quoted, or has no line break, its label has no bracket at all, and the link is
read as it is, whatever comes after it. -/
theorem output_link_closes_at_its_end (start : Context) (nodes : List Node) (p : Place)
    (attributes : Members) (children : List Node) (target : String)
    (hlink : (p, .element .link attributes children) ∈ reached nodes)
    (htarget : (Node.element .link attributes children).target? = some target)
    (hfree : '<' ∉ target.toList ∧ '>' ∉ target.toList ∧ '|' ∉ target.toList)
    (hplain : IsPlain (Node.placedAll (p.within .link) children)) :
    ∃ (label : String) (before after : List Char),
      (Node.render mrkdwn p.depth (p.context start) (.element .link attributes children)).output
          = "<" ++ target ++ "|" ++ label ++ ">" ∧
        (renderIn mrkdwn start nodes).output.toList
          = before ++ ("<" ++ target ++ "|" ++ label ++ ">").toList ++ after ∧
        '<' ∉ label.toList ∧
        label.toList.count '>'
          = (if p.quoted start then
              ((Node.placedAll (p.within .link) children).filter isReached).countP (·.2.isLineBreak)
            else 0) ∧
        (p.quoted start = false ∨
            (∀ x ∈ (Node.placedAll (p.within .link) children).filter isReached,
              x.2.isLineBreak = false) →
          '>' ∉ label.toList ∧
            Mrkdwn.readLink? (("<" ++ target ++ "|" ++ label ++ ">").toList ++ after)
              = some (target.toList, label.toList, after)) := by
  obtain ⟨-, hreached⟩ := List.mem_filter.1 hlink
  rw [isReached, Bool.and_eq_true] at hreached
  obtain ⟨hopen, hdepth⟩ := hreached
  have hd : p.depth < maxDepth := by simpa [Node.isElement] using hdepth
  have hp : (p.within .link).isOpen := by simp [Place.isOpen_within, hopen, hd, Tag.isOpaque]
  have hopening : '<' ∉ (labelAt start p children).toList := by
    rw [← List.count_eq_zero, count_labelAt start hp (.inl rfl) hplain]
    simp
  have hclosing := count_labelAt start hp (.inr rfl) hplain
  rw [show ['>'].count '>' = 1 by decide, Nat.mul_one] at hclosing
  -- The context at hand may have counted other items than the place has: a link does not ask.
  obtain ⟨c, hc, before, after, houtput⟩ := isSpelledIn_renderIn start hlink
  rw [output_render_link hd htarget hc] at houtput
  refine ⟨labelAt start p children, before, after, output_render_link hd htarget rfl,
    houtput.symm, hopening, hclosing, fun hnone => ?_⟩
  have hclosed : '>' ∉ (labelAt start p children).toList := by
    rw [← List.count_eq_zero, hclosing]
    rcases hnone with hq | hbreaks
    · simp [hq]
    · rw [List.countP_eq_zero.2 fun x hx => by simp [hbreaks x hx], ite_self]
  refine ⟨hclosed, ?_⟩
  have hread := Mrkdwn.readLink?_link ⟨hfree.1, hfree.2.1⟩ hfree.2.2 ⟨hopening, hclosed⟩ after
  simpa using hread

/-- A link with a line break, inside a paragraph. -/
def tallLink : Node :=
  .linkTo "https://portway.app" [.text "a > b", .plain .lineBreak [], .plain .bold [.text "c"]]

theorem output_tallLink :
    ∃ (label : String) (before after : List Char),
      (renderIn mrkdwn .fresh [.plain .paragraph [tallLink]]).output.toList
          = before ++ ("<" ++ "https://portway.app" ++ "|" ++ label ++ ">").toList ++ after ∧
        Mrkdwn.readLink? (("<" ++ "https://portway.app" ++ "|" ++ label ++ ">").toList ++ after)
          = some ("https://portway.app".toList, label.toList, after) := by
  obtain ⟨label, before, after, -, houtput, -, -, hread⟩ :=
    output_link_closes_at_its_end .fresh [.plain .paragraph [tallLink]] ⟨[.paragraph], []⟩ _ _
      "https://portway.app" (List.mem_filter.2 ⟨.tail _ (.head _), by decide⟩) (by decide)
      (by decide) (by decide)
  exact ⟨label, before, after, houtput, (hread (.inl (by decide))).2⟩

/-- A quoted link with a line break. -/
def brokenLink : Node := .linkTo "https://x.io" [.text "a", .plain .lineBreak [], .text "b"]

/-- The quote goes on after the line break, with a closing bracket that the link ends at. -/
theorem output_brokenLink :
    (⟨[.blockquote], []⟩, brokenLink) ∈ reached [.plain .blockquote [brokenLink]] ∧
      brokenLink.target? = some "https://x.io" ∧
      ('<' ∉ "https://x.io".toList ∧ '>' ∉ "https://x.io".toList ∧ '|' ∉ "https://x.io".toList) ∧
      IsPlain (Node.placedAll ⟨[.link, .blockquote], []⟩
        [.text "a", .plain .lineBreak [], .text "b"]) ∧
      (renderIn mrkdwn .fresh [.plain .blockquote [brokenLink]]).output
        = "> <https://x.io|a\n >b>\n" ∧
      Mrkdwn.readLink? "<https://x.io|a\n >b>\n".toList
        = some ("https://x.io".toList, "a\n ".toList, "b>\n".toList) ∧
      ¬ ∃ label : String,
        (Node.render mrkdwn 1 .quote brokenLink).output
            = "<" ++ "https://x.io" ++ "|" ++ label ++ ">" ∧
          '<' ∉ label.toList ∧ '>' ∉ label.toList := by
  refine ⟨List.mem_filter.2 ⟨.tail _ (.head _), by decide⟩, by decide, by decide, by decide,
    by decide +kernel, by decide +kernel, ?_⟩
  rintro ⟨label, houtput, -, hclosing⟩
  have hcount : (Node.render mrkdwn 1 .quote brokenLink).output.toList.count '>' = 2 := by
    decide +kernel
  rw [houtput] at hcount
  simp [List.count_eq_zero.2 hclosing] at hcount

end Herald.RichText
