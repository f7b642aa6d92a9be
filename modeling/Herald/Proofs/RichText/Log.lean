import Herald.Proofs.RichText.Cut
import Herald.Proofs.RichText.Notices
import Herald.Proofs.RichText.Place

/-!
# The log of a rendering

A rendering gives its notices in document order, but that of a link without a target comes only when
the link has been gone through. So a text is looked at in steps: every node is entered, and an
element is left again after its children.

* `Visit`, `Node.visits`, `Node.visitsAll`: these steps, with the place of the node;
* `Visit.due?`: the entry of the log that belongs to a step, said from its place and its node alone;
* `log_render`, `log_renderAll`: the log of a rendering, from any open place on;
* `log_renderIn_eq_due`: the log of a whole rendering.
-/

namespace Herald

/-- A notice as the log has it: its level, what it says and what it is about. -/
def Notice.entry (n : Notice) : Level × String × List (String × String) :=
  (n.level, n.message, n.fields)

/-- A rendering gives nothing but warnings. -/
theorem Notice.level_of_isOfRendering {n : Notice} (h : n.isOfRendering) : n.level = .warn := by
  cases n <;> simp_all [isOfRendering, level]

namespace RichText

open Json Markup

/-- A step on the way through a text. -/
inductive Visit
  | enter (p : Place) (n : Node)
  | leave (p : Place) (n : Node)

namespace Node

mutual

/-- The steps through a node. A leaf is only entered. -/
def visits (p : Place) : Node → List Visit
  | .text data => [.enter p (.text data)]
  | .unknown => [.enter p .unknown]
  | .element tag attributes children =>
    .enter p (.element tag attributes children)
      :: (visitsAll (p.within tag) children ++ [.leave p (.element tag attributes children)])

/-- The steps through nodes one after another. -/
def visitsAll (p : Place) : List Node → List Visit
  | [] => []
  | n :: ns => visits p n ++ visitsAll (p.past n) ns

end

end Node

namespace Visit

/-- The place of the node. -/
def place : Visit → Place
  | enter p _ | leave p _ => p

/-- The node that is entered, with its place. -/
def entered? : Visit → Option (Place × Node)
  | enter p n => some (p, n)
  | leave _ _ => none

/-- The entry of the log that is due at a step. Of an element that is too deep nothing is said but
this, whatever its tag. -/
def due? : Visit → Option (Level × String × List (String × String))
  | enter _ (.text _) => none
  | enter _ .unknown => some (.warn, "Unknown structured text node, skipping", [])
  | enter p (.element tag _ _) =>
    if p.depth = 64 then
      some (.warn, "Structured text nested too deeply, dropping subtree",
        [("tag", tag.name), ("depth", "64")])
    else
      match tag with
      | .unknown name => some (.warn, "Missing structured text tag, skipping", [("tag", name)])
      | _ => none
  | leave p (.element .link attributes children) =>
    if p.depth = 64 ∨ (Node.element .link attributes children).target?.isSome then none
    else some (.warn, "Link without href, rendering text only", [])
  | leave _ _ => none

end Visit

/-- The entries that are due at those steps to which a rendering comes. -/
def dueAt (vs : List Visit) : List (Level × String × List (String × String)) :=
  (vs.filter (·.place.isOpen)).filterMap Visit.due?

theorem dueAt_append (vs ws : List Visit) : dueAt (vs ++ ws) = dueAt vs ++ dueAt ws := by
  rw [dueAt, List.filter_append, List.filterMap_append]
  rfl

theorem dueAt_singleton (v : Visit) (h : v.place.isOpen) : dueAt [v] = v.due?.toList := by
  have hf : [v].filter (·.place.isOpen) = [v] := List.filter_cons_of_pos h
  rw [dueAt, hf, List.filterMap_cons]
  cases v.due? <;> rfl

theorem dueAt_of_not_isOpen (v : Visit) (vs : List Visit) (h : v.place.isOpen = false) :
    dueAt (v :: vs) = dueAt vs := by
  have hf : (v :: vs).filter (·.place.isOpen) = vs.filter (·.place.isOpen) :=
    List.filter_cons_of_neg (by simp [h])
  rw [dueAt, hf, dueAt]

namespace Node

/-! ### The steps and the nodes -/

mutual

theorem entered_visits : ∀ (p : Place) (n : Node),
    (visits p n).filterMap Visit.entered? = placed p n
  | p, .text data => by simp [visits, placed, Visit.entered?]
  | p, .unknown => by simp [visits, placed, Visit.entered?]
  | p, .element tag attributes children => by
    have ih := entered_visitsAll (p.within tag) children
    simp [visits, placed, Visit.entered?, ih]

/-- The nodes are entered in document order, each once. -/
theorem entered_visitsAll : ∀ (p : Place) (ns : List Node),
    (visitsAll p ns).filterMap Visit.entered? = placedAll p ns
  | p, [] => by simp [visitsAll, placedAll]
  | p, n :: ns => by
    have hn := entered_visits p n
    have hns := entered_visitsAll (p.past n) ns
    simp [visitsAll, placedAll, hn, hns]

end

mutual

theorem dueAt_visits_of_not_isOpen {p : Place} (hp : p.isOpen = false) :
    ∀ n : Node, dueAt (visits p n) = []
  | .text data => dueAt_of_not_isOpen (.enter p (.text data)) [] hp
  | .unknown => dueAt_of_not_isOpen (.enter p .unknown) [] hp
  | .element tag attributes children => by
    have hw : (p.within tag).isOpen = false := by simp [Place.isOpen_within, hp]
    have henter (vs : List Visit) :=
      dueAt_of_not_isOpen (.enter p (.element tag attributes children)) vs hp
    have hleave := dueAt_of_not_isOpen (.leave p (.element tag attributes children)) [] hp
    rw [visits, henter, dueAt_append, dueAt_visitsAll_of_not_isOpen hw children, hleave]
    rfl

/-- Below a place that a rendering does not come to nothing is due. -/
theorem dueAt_visitsAll_of_not_isOpen {p : Place} (hp : p.isOpen = false) :
    ∀ ns : List Node, dueAt (visitsAll p ns) = []
  | [] => by simp [visitsAll, dueAt]
  | n :: ns => by
    have hq : (p.past n).isOpen = false := hp
    rw [visitsAll, dueAt_append, dueAt_visits_of_not_isOpen hp n,
      dueAt_visitsAll_of_not_isOpen hq ns, List.append_nil]

end

/-- What is due for an element: at its beginning, in it, and at its end. -/
theorem dueAt_visits_element {p : Place} (hp : p.isOpen) (tag : Tag) (attributes : Members)
    (children : List Node) :
    dueAt (visits p (.element tag attributes children))
      = (Visit.enter p (.element tag attributes children)).due?.toList
          ++ (dueAt (visitsAll (p.within tag) children)
            ++ (Visit.leave p (.element tag attributes children)).due?.toList) := by
  have henter := dueAt_singleton (.enter p (.element tag attributes children)) hp
  have hleave := dueAt_singleton (.leave p (.element tag attributes children)) hp
  rw [visits, ← List.singleton_append, dueAt_append, dueAt_append, henter, hleave]

/-! ### The log -/

variable {p : Place}

/-- An element that is too deep has its entry at once and no other. -/
theorem dueAt_visits_deep (hp : p.isOpen) (h : p.depth = 64) (tag : Tag) (attributes : Members)
    (children : List Node) :
    dueAt (visits p (.element tag attributes children))
      = [(Notice.nestedTooDeeply tag.name p.depth).entry] := by
  have hw : (p.within tag).isOpen = false := by simp [Place.isOpen_within, h, maxDepth]
  have hleave : (Visit.leave p (.element tag attributes children)).due? = none := by
    cases tag <;> simp [Visit.due?, h]
  have htext : toString 64 = "64" := by decide +kernel
  rw [dueAt_visits_element hp, dueAt_visitsAll_of_not_isOpen hw, hleave]
  simp [Visit.due?, h, Notice.entry, Notice.level, Notice.message, Notice.fields, htext]

/-- An element that is not too deep has the entries of its children and its own: an unknown tag,
whose children are passed over, when it is entered, and a link without a target when it is left. -/
theorem dueAt_visits_shallow (hp : p.isOpen) (h : p.depth < 64) (tag : Tag) (attributes : Members)
    (children : List Node) :
    dueAt (visits p (.element tag attributes children))
      = (if tag.isOpaque then [] else dueAt (visitsAll (p.within tag) children))
          ++ (elementNotices (Node.element tag attributes children).target? tag).map
            Notice.entry := by
  have hd : p.depth ≠ 64 := Nat.ne_of_lt h
  have hpassed (ht : tag.isOpaque = true) : dueAt (visitsAll (p.within tag) children) = [] :=
    dueAt_visitsAll_of_not_isOpen (by simp [Place.isOpen_within, ht]) children
  rw [dueAt_visits_element hp]
  cases tag with
  | unknown name =>
    simp [hpassed rfl, Visit.due?, hd, Tag.isOpaque, elementNotices, Notice.entry, Notice.level,
      Notice.message, Notice.fields]
  | link =>
    cases htarget : (Node.element .link attributes children).target? <;>
      simp [Visit.due?, hd, htarget, Tag.isOpaque, elementNotices, Notice.entry, Notice.level,
        Notice.message, Notice.fields]
  | lineBreak | horizontalRule =>
    simp [hpassed rfl, Visit.due?, hd, Tag.isOpaque, elementNotices]
  | _ => simp [Visit.due?, hd, Tag.isOpaque, elementNotices]

mutual

/-- The log of a node at an open place, under any context. -/
theorem log_render (d : Dialect) : ∀ (c : Context) (p : Place) (n : Node), p.isOpen →
    (render d p.depth c n).notices.map Notice.entry = dueAt (visits p n)
  | c, p, .text data, hp => by
    rw [render_text, visits, dueAt_singleton (.enter p (.text data)) hp]
    rfl
  | c, p, .unknown, hp => by
    rw [render_unknown, visits, dueAt_singleton (.enter p .unknown) hp]
    rfl
  | c, p, .element tag attributes children, hp => by
    rcases Nat.lt_or_ge p.depth maxDepth with hd | hd
    · rw [notices_render_element hd, List.map_append, dueAt_visits_shallow hp hd]
      congr 1
      cases ht : tag.isOpaque with
      | true => rfl
      | false =>
        have hw : (p.within tag).isOpen := by simp [Place.isOpen_within, hp, ht, hd]
        exact log_renderAll d (c.within tag) (p.within tag) children hw
    · -- An open place is not below the limit.
      have hle : p.depth ≤ maxDepth := by
        rw [Place.isOpen, Bool.and_eq_true, decide_eq_true_eq] at hp
        exact hp.2
      rw [render_deep hd, dueAt_visits_deep hp (Nat.le_antisymm hle hd)]
      rfl

/-- The log of nodes one after another. No context tells their logs apart. -/
theorem log_renderAll (d : Dialect) : ∀ (c : Context) (p : Place) (ns : List Node), p.isOpen →
    (renderAll d p.depth c ns).notices.map Notice.entry = dueAt (visitsAll p ns)
  | c, p, [], _ => rfl
  | c, p, n :: ns, hp => by
    have hn := log_render d c p n hp
    have hns := log_renderAll d (render d p.depth c n).context (p.past n) ns hp
    rw [Place.depth_past] at hns
    rw [renderAll, visitsAll, dueAt_append, List.map_append, hn, hns]

end

end Node

/-- **The log of a rendering is complete and in order.** A rendering comes to the places around
which no element is passed over and none is itself too deep. Its log has, in the order of the steps
through the text, just the entries that are due at the steps there, all of them warnings: for each
unknown node, for each element with 64 elements around it, and of the other elements for each with
an unknown tag and, after all that is in it, for each link without a target. -/
theorem log_renderIn_eq_due (d : Dialect) (start : Context) (nodes : List Node) :
    (renderIn d start nodes).notices.map Notice.entry
        = ((Node.visitsAll .top nodes).filter (·.place.isOpen)).filterMap Visit.due? ∧
      (∀ n ∈ (renderIn d start nodes).notices, n.level = .warn) ∧
      (Node.visitsAll .top nodes).filterMap Visit.entered? = Node.placedAll .top nodes ∧
      ∀ p : Place, p.isOpen ↔ ∀ tag rest, tag :: rest <:+ p.around →
        tag.isOpaque = false ∧ rest.length < maxDepth := by
  have hlog := Node.log_renderAll d start .top nodes Place.isOpen_top
  have hwarn : ∀ n ∈ (renderIn d start nodes).notices, n.level = .warn := fun n hn =>
    Notice.level_of_isOfRendering (Node.all_renderAll d 0 start nodes n hn)
  exact ⟨hlog, hwarn, Node.entered_visitsAll .top nodes, fun p => Place.isOpen_iff⟩

/-- A link without a target around an unknown tag and an unknown node, and an item at the limit. -/
def talkativeText : List Node :=
  .plain .link [.plain (.unknown "video") [.unknown], .unknown, .text "a"]
    :: emboldened 64 [.plain .listItem [.unknown]]

theorem log_renderIn_talkativeText :
    (renderIn mrkdwn .fresh talkativeText).notices.map Notice.entry
      = [(.warn, "Missing structured text tag, skipping", [("tag", "video")]),
        (.warn, "Unknown structured text node, skipping", []),
        (.warn, "Link without href, rendering text only", []),
        (.warn, "Structured text nested too deeply, dropping subtree",
          [("tag", "li"), ("depth", "64")])] := by
  rw [(log_renderIn_eq_due mrkdwn .fresh talkativeText).1]
  decide +kernel

end RichText

end Herald
