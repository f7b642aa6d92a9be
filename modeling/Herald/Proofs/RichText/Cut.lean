import Herald.Proofs.RichText.Element

/-!
# The limit of depth is a cut

The renderer drops elements with too many elements around them. It could as well cut the tree there
and know of no limit.

* `cut`: a rich text in which every element at the limit has become the unknown node;
* `Pass`, `Node.pass`, `Node.passAll`: rendering with the limit as a parameter, or with none, which
  also says at which depths nodes have been gone through;
* `Node.rendered_passAll`: with the limit of the renderer this is the renderer;
* `renderFreely`: rendering without a limit;
* `renderIn_eq_renderFreely_cut`: the renderer is rendering without a limit after a cut.

A text at the limit stays, and an element there takes no number and leaves no trace in the context,
as the unknown node does. Only the notices tell the two apart.
-/

namespace Herald.RichText

open Json Markup

/-! ### Cutting -/

namespace Node

mutual

/-- Cut a node with `depth` elements around it. -/
def cutAt (depth : Nat) : Node → Node
  | .text data => .text data
  | .unknown => .unknown
  | .element tag attributes children =>
    if depth = maxDepth then .unknown
    else .element tag attributes (cutAllAt (depth + 1) children)

/-- Cut nodes with `depth` elements around them. -/
def cutAllAt (depth : Nat) : List Node → List Node
  | [] => []
  | n :: ns => cutAt depth n :: cutAllAt depth ns

end

/-- Where a link leads does not depend on what it shows. -/
theorem target?_element (tag : Tag) (attributes : Members) (children children' : List Node) :
    (Node.element tag attributes children).target?
      = (Node.element tag attributes children').target? := by
  cases tag <;> rfl

end Node

/-- Put the unknown node in the place of every element with as many elements around it as make the
renderer drop it. -/
def cut (nodes : List Node) : List Node := Node.cutAllAt 0 nodes

/-! ### Rendering with the limit as a parameter -/

/-- What passing over nodes yields. -/
structure Pass where
  /-- The spelling of each node. -/
  outputs : List String
  context : Context
  notices : List Notice
  /-- How many elements there are around each list of nodes in them that is gone through. -/
  entered : List Nat

/-- The result of a rendering. -/
def Pass.rendered (p : Pass) : Rendered := ⟨String.join p.outputs, p.context, p.notices⟩

/-- How many lists an element makes of its children to go through them: a quote goes through each
child by itself, an opaque element through none, any other element through all of them at once. -/
def Tag.lists (tag : Tag) (children : List Node) : Nat :=
  if tag.isOpaque then 0 else if tag = .blockquote then children.length else 1

namespace Node

mutual

/-- Render a node with `depth` elements around it. Elements with as many elements around them as the
limit says, or more, are dropped; without a limit none is. -/
def pass (limit : Option Nat) (d : Dialect) (depth : Nat) (c : Context) : Node → Pass
  | .text data => ⟨[d.text data], c, [], []⟩
  | .unknown => ⟨[""], c, [.unknownNode], []⟩
  | .element tag attributes children =>
    if limit.any (· ≤ depth) then ⟨[""], c, [.nestedTooDeeply tag.name depth], []⟩
    else
      let target := (Node.element tag attributes children).target?
      let inner := passAll limit d (depth + 1) (c.within tag) children
      ⟨[spellElement d c.quoted c.count.counter target inner.outputs tag],
        if tag = .listItem then c.count else c,
        (if tag.isOpaque then [] else inner.notices) ++ elementNotices target tag,
        List.replicate (tag.lists children) (depth + 1)
          ++ if tag.isOpaque then [] else inner.entered⟩

/-- Render nodes one after another under one context. -/
def passAll (limit : Option Nat) (d : Dialect) (depth : Nat) (c : Context) : List Node → Pass
  | [] => ⟨[], c, [], []⟩
  | n :: ns =>
    let p := pass limit d depth c n
    let rest := passAll limit d depth p.context ns
    ⟨p.outputs ++ rest.outputs, rest.context, p.notices ++ rest.notices,
      p.entered ++ rest.entered⟩

end

end Node

/-- Render a rich text without a limit. -/
def renderFreely (d : Dialect) (c : Context) (nodes : List Node) : Rendered :=
  (Node.passAll none d 0 c nodes).rendered

namespace Node

/-! ### What a limit does -/

section Limit

variable {limit : Option Nat} {d : Dialect} {depth : Nat} {c : Context}

/-- An element within the limit is spelled from the spellings of its children. -/
theorem pass_element (h : limit.any (· ≤ depth) = false) (tag : Tag) (attributes : Members)
    (children : List Node) :
    pass limit d depth c (.element tag attributes children)
      = ⟨[spellElement d c.quoted c.count.counter (Node.element tag attributes children).target?
            (passAll limit d (depth + 1) (c.within tag) children).outputs tag],
          if tag = .listItem then c.count else c,
          (if tag.isOpaque then []
            else (passAll limit d (depth + 1) (c.within tag) children).notices)
            ++ elementNotices (Node.element tag attributes children).target? tag,
          List.replicate (tag.lists children) (depth + 1)
            ++ if tag.isOpaque then []
              else (passAll limit d (depth + 1) (c.within tag) children).entered⟩ := by
  rw [pass, h]
  rfl

/-- An element beyond the limit is dropped. -/
theorem pass_deep (h : limit.any (· ≤ depth) = true) (tag : Tag) (attributes : Members)
    (children : List Node) :
    pass limit d depth c (.element tag attributes children)
      = ⟨[""], c, [.nestedTooDeeply tag.name depth], []⟩ := by
  rw [pass, h]
  rfl

theorem any_maxDepth_of_lt (h : depth < maxDepth) :
    (some maxDepth).any (· ≤ depth) = false := by
  rw [Option.any_some, decide_eq_false_iff_not]
  exact Nat.not_le.2 h

theorem any_maxDepth_of_le (h : maxDepth ≤ depth) : (some maxDepth).any (· ≤ depth) = true := by
  rw [Option.any_some, decide_eq_true_eq]
  exact h

end Limit

/-! ### With the limit of the renderer -/

mutual

theorem pass_maxDepth (d : Dialect) : ∀ (depth : Nat) (c : Context) (n : Node),
    (pass (some maxDepth) d depth c n).outputs = [(render d depth c n).output] ∧
      (pass (some maxDepth) d depth c n).context = (render d depth c n).context ∧
      (pass (some maxDepth) d depth c n).notices = (render d depth c n).notices
  | depth, c, .text data => by simp [pass]
  | depth, c, .unknown => by simp [pass]
  | depth, c, .element tag attributes children => by
    rcases Nat.lt_or_ge depth maxDepth with h | h
    · obtain ⟨ho, hc, hn⟩ := passAll_maxDepth d (depth + 1) (c.within tag) children
      rw [pass_element (any_maxDepth_of_lt h), output_render_element h, context_render_element h,
        notices_render_element h, ho, hn]
      exact ⟨rfl, rfl, rfl⟩
    · rw [pass_deep (any_maxDepth_of_le h), render_deep h]
      exact ⟨rfl, rfl, rfl⟩

theorem passAll_maxDepth (d : Dialect) : ∀ (depth : Nat) (c : Context) (ns : List Node),
    (passAll (some maxDepth) d depth c ns).outputs = outputs d depth c ns ∧
      (passAll (some maxDepth) d depth c ns).context = (renderAll d depth c ns).context ∧
      (passAll (some maxDepth) d depth c ns).notices = (renderAll d depth c ns).notices
  | depth, c, [] => by simp [passAll, outputs, renderAll]
  | depth, c, n :: ns => by
    obtain ⟨ho, hc, hn⟩ := pass_maxDepth d depth c n
    obtain ⟨ho', hc', hn'⟩ := passAll_maxDepth d depth (render d depth c n).context ns
    simp only [passAll, outputs, renderAll, ho, hc, hn, ho', hc', hn', List.singleton_append]
    exact ⟨trivial, trivial, trivial⟩

end

/-- **With the limit of the renderer, passing over nodes is rendering them.** -/
theorem rendered_passAll (d : Dialect) (depth : Nat) (c : Context) (ns : List Node) :
    (passAll (some maxDepth) d depth c ns).rendered = renderAll d depth c ns := by
  obtain ⟨ho, hc, hn⟩ := passAll_maxDepth d depth c ns
  rw [Pass.rendered, ho, hc, hn, ← output_renderAll]

mutual

theorem entered_pass (d : Dialect) : ∀ (depth : Nat) (c : Context) (n : Node), depth ≤ maxDepth →
    ∀ k ∈ (pass (some maxDepth) d depth c n).entered, k ≤ maxDepth
  | depth, c, .text data, _ => by simp [pass]
  | depth, c, .unknown, _ => by simp [pass]
  | depth, c, .element tag attributes children, hd => by
    rcases Nat.lt_or_ge depth maxDepth with h | h
    · have ih := entered_passAll d (depth + 1) (c.within tag) children h
      rw [pass_element (any_maxDepth_of_lt h)]
      dsimp only
      rw [List.forall_mem_append]
      refine ⟨fun k hk => ?_, ?_⟩
      · rw [List.eq_of_mem_replicate hk]
        exact h
      split
      · simp
      · exact ih
    · rw [pass_deep (any_maxDepth_of_le h)]
      simp

/-- The renderer goes through no list of nodes below the limit. -/
theorem entered_passAll (d : Dialect) : ∀ (depth : Nat) (c : Context) (ns : List Node),
    depth ≤ maxDepth → ∀ k ∈ (passAll (some maxDepth) d depth c ns).entered, k ≤ maxDepth
  | depth, c, [], _ => by simp [passAll]
  | depth, c, n :: ns, hd => by
    rw [passAll, List.forall_mem_append]
    exact ⟨entered_pass d depth c n hd, entered_passAll d depth _ ns hd⟩

end

/-! ### Without a limit, after a cut -/

mutual

theorem pass_cutAt (d : Dialect) : ∀ (depth : Nat) (c : Context) (n : Node), depth ≤ maxDepth →
    (pass none d depth c (cutAt depth n)).outputs = (pass (some maxDepth) d depth c n).outputs ∧
      (pass none d depth c (cutAt depth n)).context = (pass (some maxDepth) d depth c n).context
  | depth, c, .text data, _ => by simp [pass, cutAt]
  | depth, c, .unknown, _ => by simp [pass, cutAt]
  | depth, c, .element tag attributes children, hd => by
    rcases Nat.lt_or_eq_of_le hd with h | rfl
    · obtain ⟨ho, hc⟩ := passAll_cutAllAt d (depth + 1) (c.within tag) children h
      rw [cutAt, if_neg (Nat.ne_of_lt h), pass_element rfl, pass_element (any_maxDepth_of_lt h), ho,
        target?_element tag attributes _ children]
      exact ⟨rfl, rfl⟩
    -- At the limit the element is dropped, and what the cut has put there is passed over.
    · rw [cutAt, if_pos rfl, pass_deep (any_maxDepth_of_le (Nat.le_refl _)), pass]
      exact ⟨rfl, rfl⟩

theorem passAll_cutAllAt (d : Dialect) : ∀ (depth : Nat) (c : Context) (ns : List Node),
    depth ≤ maxDepth →
    (passAll none d depth c (cutAllAt depth ns)).outputs
        = (passAll (some maxDepth) d depth c ns).outputs ∧
      (passAll none d depth c (cutAllAt depth ns)).context
        = (passAll (some maxDepth) d depth c ns).context
  | depth, c, [], _ => by simp [passAll, cutAllAt]
  | depth, c, n :: ns, hd => by
    obtain ⟨ho, hc⟩ := pass_cutAt d depth c n hd
    obtain ⟨ho', hc'⟩ :=
      passAll_cutAllAt d depth (pass (some maxDepth) d depth c n).context ns hd
    rw [cutAllAt, passAll, passAll, ho, hc, ho', hc']
    exact ⟨rfl, rfl⟩

end

end Node

theorem rendered_cut (d : Dialect) (start : Context) (nodes : List Node) :
    (renderIn d start nodes).output = (renderFreely d start (cut nodes)).output ∧
      (renderIn d start nodes).context = (renderFreely d start (cut nodes)).context := by
  obtain ⟨ho, hc⟩ := Node.passAll_cutAllAt d 0 start nodes (Nat.zero_le _)
  rw [renderIn, ← Node.rendered_passAll]
  refine ⟨?_, hc.symm⟩
  show String.join _ = String.join _
  rw [cut, ho]

/-- **The limit of depth is a cut.** The renderer is passing over nodes with its limit, and spells a
rich text, and leaves a context, as rendering without a limit does after a cut. So what a cut takes
away has no part in either. And no list that it goes through, the text itself or the children of an
element, has more elements around it than the limit says. -/
theorem renderIn_eq_renderFreely_cut (d : Dialect) (start : Context) (nodes : List Node) :
    renderIn d start nodes = (Node.passAll (some maxDepth) d 0 start nodes).rendered ∧
      (renderIn d start nodes).output = (renderFreely d start (cut nodes)).output ∧
      (renderIn d start nodes).context = (renderFreely d start (cut nodes)).context ∧
      (∀ others, cut others = cut nodes →
        (renderIn d start others).output = (renderIn d start nodes).output ∧
          (renderIn d start others).context = (renderIn d start nodes).context) ∧
      ∀ k ∈ 0 :: (Node.passAll (some maxDepth) d 0 start nodes).entered, k ≤ maxDepth := by
  obtain ⟨ho, hc⟩ := rendered_cut d start nodes
  refine ⟨(Node.rendered_passAll d 0 start nodes).symm, ho, hc, fun others h => ?_,
    List.forall_mem_cons.2
      ⟨Nat.zero_le _, Node.entered_passAll d 0 start nodes (Nat.zero_le _)⟩⟩
  obtain ⟨ho', hc'⟩ := rendered_cut d start others
  rw [ho', hc', h, ho, hc]
  exact ⟨rfl, rfl⟩

/-- Nodes inside so many bold elements. -/
def emboldened : Nat → List Node → List Node
  | 0, nodes => nodes
  | times + 1, nodes => [.plain .bold (emboldened times nodes)]

/-- A cut goes through the elements above the limit. -/
theorem cutAllAt_emboldened {times depth : Nat} (h : depth + times ≤ maxDepth)
    (nodes : List Node) :
    Node.cutAllAt depth (emboldened times nodes)
      = emboldened times (Node.cutAllAt (depth + times) nodes) := by
  induction times generalizing depth with
  | zero => rfl
  | succ times ih =>
    have hd : depth ≠ maxDepth := by omega
    have ht : depth + 1 + times = depth + (times + 1) := by omega
    rw [emboldened, Node.plain, Node.cutAllAt, Node.cutAt, if_neg hd, ih (by omega), ht]
    rfl

/-- An ordered list just above the limit, with an item, a text and another item. -/
def deepList (inItem : List Node) : List Node :=
  emboldened 63 [.plain .orderedList [.plain .listItem inItem, .text "b", .plain .listItem []]]

/-- The items of the list are at the limit, and what they hold is of no account; the text between
them stays. -/
theorem output_renderIn_deepList :
    cut (deepList [.text "a"]) = cut (deepList []) ∧
      (renderIn mrkdwn .fresh (deepList [.text "a"])).output
        = (renderIn mrkdwn .fresh (deepList [])).output ∧
      (renderIn mrkdwn .fresh (deepList [])).output
        = "".pushn '*' 63 ++ "b\n" ++ "".pushn '*' 63 := by
  have hc : cut (deepList [.text "a"]) = cut (deepList []) := by
    rw [cut, cut, deepList, deepList, cutAllAt_emboldened (by decide),
      cutAllAt_emboldened (by decide)]
    rfl
  obtain ⟨-, -, -, hcut, -⟩ := renderIn_eq_renderFreely_cut mrkdwn .fresh (deepList [])
  exact ⟨hc, (hcut _ hc).1, by decide +kernel⟩

end Herald.RichText
