import Herald.Proofs.RichText.Element

/-!
# Places in a rich text

Where a node stands is said by the elements around it and by the nodes before it among its siblings.
Nothing here depends on a rendering.

* `Place`, `Place.within`, `Place.past`: places, and the steps from one to the next;
* `Place.quoted`, `Place.number?`: what a rich text that is rendered under a context asks of a place;
* `Node.placed`, `Node.placedAll`: the nodes of a tree with their places, in document order;
* `Place.isOpen`, `isReached`: the nodes that contribute to a rendering;
* `mem_reached_iff`: what this means for the elements around a node;
* `leaves`, `targets`: the texts and the targets of links among nodes.

The context of a place (`Place.context`) is what the renderer should have at hand when it comes
there: `context_within` and `context_past` follow it into an element and past a node.
-/

namespace Herald.RichText

open Json

/-- Where a node stands. -/
structure Place where
  /-- The tags of the elements around it, innermost first. -/
  around : List Tag
  /-- The nodes before it among its siblings. -/
  earlier : List Node

namespace Place

/-- The place of the first node. -/
def top : Place := ⟨[], []⟩

/-- The place of the first child of an element. -/
def within (p : Place) (tag : Tag) : Place := ⟨tag :: p.around, []⟩

/-- The place after a node. -/
def past (p : Place) (n : Node) : Place := ⟨p.around, p.earlier ++ [n]⟩

/-- How many elements are around. -/
def depth (p : Place) : Nat := p.around.length

/-- How many list items come before among the siblings. -/
def items (p : Place) : Nat := p.earlier.countP Node.isItem

/-- The text starts inside a quote, or one of the elements around is a quote. -/
def quoted (start : Context) (p : Place) : Bool :=
  start.quoted || p.around.contains .blockquote

/-- The number of a list item here: its position among the list items of an ordered list, or of the
text itself if that starts with a number; there is none anywhere else. -/
def number? (start : Context) (p : Place) : Option Nat :=
  match p.around with
  | [] => start.counter.map (· + (p.items + 1))
  | .orderedList :: _ => some (p.items + 1)
  | _ => none

/-- The number that has been given out last here. -/
def counter (start : Context) (p : Place) : Option Nat :=
  match p.around with
  | [] => start.counter.map (· + p.items)
  | .orderedList :: _ => some p.items
  | _ => none

/-- The context of a place. -/
def context (start : Context) (p : Place) : Context := ⟨p.quoted start, p.counter start⟩

variable (start : Context) (p : Place)

@[simp] theorem depth_top : top.depth = 0 := rfl

@[simp] theorem depth_within (tag : Tag) : (p.within tag).depth = p.depth + 1 := rfl

@[simp] theorem depth_past (n : Node) : (p.past n).depth = p.depth := rfl

@[simp] theorem quoted_context : (p.context start).quoted = p.quoted start := rfl

theorem items_past (n : Node) :
    (p.past n).items = p.items + if n.isItem then 1 else 0 := by
  simp [items, past, List.countP_append, List.countP_singleton]

@[simp] theorem quoted_top : top.quoted start = start.quoted := by simp [quoted, top]

@[simp] theorem context_top : top.context start = start := by
  simp [context, counter, top, items, quoted]

theorem quoted_within (tag : Tag) :
    (p.within tag).quoted start = (p.quoted start || tag == .blockquote) := by
  rw [quoted, within, List.contains_cons, quoted, Bool.or_left_comm, Bool.or_comm]
  congr 1
  exact Bool.beq_comm

@[simp] theorem quoted_past (n : Node) : (p.past n).quoted start = p.quoted start := rfl

/-- The children of an element begin with the context of their place. -/
theorem context_within (tag : Tag) :
    (p.within tag).context start = (p.context start).within tag := by
  have hq := quoted_within start p tag
  cases tag <;>
    simp_all [context, counter, Context.within, Context.inner, Context.numbered, Context.quote,
      within, items]

/-- A list item takes a number, and nothing else does. -/
theorem context_past (n : Node) :
    (p.past n).context start
      = if n.isItem then (p.context start).count else p.context start := by
  have h : (p.past n).counter start
      = if n.isItem then (p.counter start).map (· + 1) else p.counter start := by
    rw [counter, items_past, counter]
    cases hn : n.isItem
    · rfl
    · simp only [past, if_true]
      split <;> simp [Function.comp_def, Nat.add_assoc]
  rw [context, quoted_past, h, context]
  cases n.isItem <;> rfl

/-- The number that the renderer gives out here. -/
theorem counter_count_context : (p.context start).count.counter = p.number? start := by
  simp only [context, Context.count, counter, number?]
  split <;> simp [Function.comp_def, Nat.add_assoc]

end Place

namespace Node

mutual

/-- A node and all nodes in it, with their places, in document order. -/
def placed (p : Place) : Node → List (Place × Node)
  | .text data => [(p, .text data)]
  | .unknown => [(p, .unknown)]
  | .element tag attributes children =>
    (p, .element tag attributes children) :: placedAll (p.within tag) children

/-- Nodes one after another and all nodes in them, with their places, in document order. -/
def placedAll (p : Place) : List Node → List (Place × Node)
  | [] => []
  | n :: ns => placed p n ++ placedAll (p.past n) ns

end

end Node

/-- No element has as many elements around it as make the renderer drop it. -/
def IsShallow (xs : List (Place × Node)) : Prop :=
  ∀ x ∈ xs, x.2.isElement → x.1.depth < maxDepth

instance (xs : List (Place × Node)) : Decidable (IsShallow xs) :=
  inferInstanceAs (Decidable (∀ x ∈ xs, x.2.isElement → x.1.depth < maxDepth))

/-! ### Nodes that are reached -/

/-- A rendering comes here: no element around is passed over for its tag, and none is itself too
deep, the innermost being the deepest of them. -/
def Place.isOpen (p : Place) : Bool :=
  p.around.all (!·.isOpaque) && decide (p.depth ≤ maxDepth)

/-- A node that a rendering comes to and, if it is an element, does not drop. -/
def isReached (x : Place × Node) : Bool :=
  x.1.isOpen && (!x.2.isElement || decide (x.1.depth < maxDepth))

/-- The nodes of a rich text that contribute to its rendering, with their places. -/
def reached (nodes : List Node) : List (Place × Node) :=
  (Node.placedAll .top nodes).filter isReached

/-- The texts of the leaves among nodes. -/
def leaves (xs : List (Place × Node)) : List String := xs.filterMap (·.2.data?)

/-- The targets of the links among nodes, where they have one. -/
def targets (xs : List (Place × Node)) : List String := xs.filterMap (·.2.target?)

theorem leaves_append (xs ys : List (Place × Node)) :
    leaves (xs ++ ys) = leaves xs ++ leaves ys := List.filterMap_append

theorem targets_append (xs ys : List (Place × Node)) :
    targets (xs ++ ys) = targets xs ++ targets ys := List.filterMap_append

namespace Place

variable {p : Place}

@[simp] theorem isOpen_top : top.isOpen = true := by decide

theorem isOpen_within (tag : Tag) :
    (p.within tag).isOpen = (p.isOpen && !tag.isOpaque && decide (p.depth < maxDepth)) := by
  have h : decide (p.depth + 1 ≤ maxDepth)
      = (decide (p.depth ≤ maxDepth) && decide (p.depth < maxDepth)) := by
    rw [← Bool.decide_and, decide_eq_decide]
    omega
  rw [isOpen, depth_within, h, within, List.all_cons, isOpen]
  ac_rfl

/-- What it means for each element around by itself. -/
theorem isOpen_iff :
    p.isOpen ↔ ∀ tag rest, tag :: rest <:+ p.around →
      tag.isOpaque = false ∧ rest.length < maxDepth := by
  obtain ⟨around, earlier⟩ := p
  induction around with
  | nil => simp [isOpen, depth]
  | cons t ts ih =>
    have hw : isOpen ⟨t :: ts, earlier⟩ = _ := isOpen_within (p := ⟨ts, earlier⟩) t
    have hd : depth ⟨ts, earlier⟩ = ts.length := rfl
    rw [hw, Bool.and_eq_true, Bool.and_eq_true, ih, Bool.not_eq_true', decide_eq_true_eq, hd]
    constructor
    · rintro ⟨⟨hts, ht⟩, hl⟩ tag rest hs
      rcases List.suffix_cons_iff.1 hs with he | hs
      · obtain ⟨rfl, rfl⟩ := List.cons.inj he
        exact ⟨ht, hl⟩
      · exact hts tag rest hs
    · intro h
      have ht := h t ts (List.suffix_refl _)
      exact ⟨⟨fun tag rest hs => h tag rest (hs.trans (List.suffix_cons _ _)), ht.1⟩, ht.2⟩

end Place

/-- A node is reached if no element around it is opaque or too deep, and it is not too deep itself. -/
theorem mem_reached_iff {nodes : List Node} {x : Place × Node} :
    x ∈ reached nodes ↔ x ∈ Node.placedAll .top nodes ∧
      (∀ tag rest, tag :: rest <:+ x.1.around → tag.isOpaque = false ∧ rest.length < maxDepth) ∧
      (x.2.isElement → x.1.depth < maxDepth) := by
  rw [reached, List.mem_filter, isReached, Bool.and_eq_true, Place.isOpen_iff, Bool.or_eq_true,
    Bool.not_eq_true', decide_eq_true_eq]
  cases x.2.isElement <;> simp

namespace Node

mutual

theorem filter_placed_of_not_isOpen {p : Place} (hp : p.isOpen = false) :
    ∀ n : Node, (placed p n).filter isReached = []
  | .text data => by simp [placed, isReached, hp]
  | .unknown => by simp [placed, isReached, hp]
  | .element tag attributes children => by
    have hw : (p.within tag).isOpen = false := by simp [Place.isOpen_within, hp]
    simp [placed, isReached, hp, filter_placedAll_of_not_isOpen hw children]

/-- Nothing below a place that a rendering does not come to is reached. -/
theorem filter_placedAll_of_not_isOpen {p : Place} (hp : p.isOpen = false) :
    ∀ ns : List Node, (placedAll p ns).filter isReached = []
  | [] => by simp [placedAll]
  | n :: ns => by
    have hq : (p.past n).isOpen = false := hp
    simp [placedAll, filter_placed_of_not_isOpen hp n, filter_placedAll_of_not_isOpen hq ns]

end

variable {p : Place}

theorem filter_placed_text (hp : p.isOpen) (data : String) :
    (placed p (.text data)).filter isReached = [(p, .text data)] := by
  simp [placed, isReached, isElement, hp]

theorem filter_placed_unknown (hp : p.isOpen) :
    (placed p .unknown).filter isReached = [(p, .unknown)] := by
  simp [placed, isReached, isElement, hp]

/-- Of an element that is too deep nothing is reached. -/
theorem filter_placed_deep (h : maxDepth ≤ p.depth) (tag : Tag) (attributes : Members)
    (children : List Node) :
    (placed p (.element tag attributes children)).filter isReached = [] := by
  have hd : ¬ p.depth < maxDepth := Nat.not_lt.2 h
  have hw : (p.within tag).isOpen = false := by simp [Place.isOpen_within, hd]
  simp [placed, isReached, isElement, hd, filter_placedAll_of_not_isOpen hw]

/-- An element that is not too deep is reached, and so are its children unless it is opaque. -/
theorem filter_placed_element (hp : p.isOpen) (h : p.depth < maxDepth) (tag : Tag)
    (attributes : Members) (children : List Node) :
    (placed p (.element tag attributes children)).filter isReached
      = (p, .element tag attributes children)
          :: if tag.isOpaque then [] else (placedAll (p.within tag) children).filter isReached := by
  have hr : isReached (p, .element tag attributes children) = true := by
    simp [isReached, isElement, hp, h]
  rw [placed, List.filter_cons_of_pos hr]
  cases ht : tag.isOpaque with
  | false => rfl
  | true =>
    have hw : (p.within tag).isOpen = false := by simp [Place.isOpen_within, ht]
    rw [filter_placedAll_of_not_isOpen hw, if_pos rfl]

end Node

end Herald.RichText
