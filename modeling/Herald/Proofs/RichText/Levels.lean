import Herald.Proofs.Json.Nesting
import Herald.Proofs.Json.Yields
import Herald.Proofs.RichText.Cut
import Herald.Proofs.RichText.Positional
import Herald.RichText.Reading

/-!
# How many elements lie in one another

An element takes two containers of a value, itself and the list of its children. So what may be
nested in a value bounds the elements that are read from it.

* `Node.levels`, `Node.levelsAll`: how many elements lie in one another;
* `Node.levels_ofValue?`, `Node.levelsAll_nodes`: there are half as many as containers;
* `Node.levels_of_yields_read`: the same for a node that is read by itself;
* `isShallow_of_levelsAll_le`: with no more levels than the limit no element is too deep;
* `renderIn_eq_renderFreely`: then the limit makes no difference to a rendering, nor is there any
  notice of it.
-/

namespace Herald.RichText

open Json Markup

namespace Node

/-! ### Levels -/

mutual

/-- How many elements of a node lie in one another. -/
def levels : Node → Nat
  | .element _ _ children => levelsAll children + 1
  | .text _ | .unknown => 0

/-- How many elements lie in one another in the node that has most of them. -/
def levelsAll : List Node → Nat
  | [] => 0
  | n :: ns => max (levels n) (levelsAll ns)

end

mutual

theorem depth_lt_of_mem_placed : ∀ (p : Place) (n : Node), ∀ x ∈ placed p n, x.2.isElement →
    x.1.depth < p.depth + n.levels
  | p, .text data, x, hx, he => by
    obtain rfl := List.mem_singleton.1 hx
    cases he
  | p, .unknown, x, hx, he => by
    obtain rfl := List.mem_singleton.1 hx
    cases he
  | p, .element tag attributes children, x, hx, he => by
    rw [placed] at hx
    rw [levels]
    rcases List.mem_cons.1 hx with rfl | hx
    · show p.depth < p.depth + (levelsAll children + 1)
      omega
    · have ih := depth_lt_of_mem_placedAll (p.within tag) children x hx he
      rw [Place.depth_within] at ih
      omega

/-- No element has more elements around it than its place and the levels allow. -/
theorem depth_lt_of_mem_placedAll : ∀ (p : Place) (ns : List Node), ∀ x ∈ placedAll p ns,
    x.2.isElement → x.1.depth < p.depth + levelsAll ns
  | p, [], x, hx, _ => by cases hx
  | p, n :: ns, x, hx, he => by
    rw [placedAll] at hx
    rw [levelsAll]
    rcases List.mem_append.1 hx with hx | hx
    · have ih := depth_lt_of_mem_placed p n x hx he
      omega
    · have ih := depth_lt_of_mem_placedAll (p.past n) ns x hx he
      rw [Place.depth_past] at ih
      omega

end

/-! ### Reading -/

theorem levels_of_textOfMembers {data : Option String} {ms : List (String × Value)} {n : Node}
    (h : textOfMembers data ms = some n) : n.levels = 0 := by
  induction ms generalizing data with
  | nil =>
    obtain ⟨s, -, rfl⟩ := Option.map_eq_some_iff.1 h
    rfl
  | cons m ms ih =>
    unfold textOfMembers at h
    split at h
    · split at h
      · exact ih h
      · cases h
    · exact ih h

theorem levels_of_textOfItems {items : List Value} {n : Node}
    (h : textOfItems items = some n) : n.levels = 0 := by
  unfold textOfItems at h
  split at h
  · cases h
    rfl
  · cases h

/-- A node of some kind has no more levels than an element would have. -/
theorem levels_of_byKind {kind : String} {text other : Option Node}
    {element : Noted (Option Node)} {n : Node} {b : Nat}
    (ht : ∀ n, text = some n → n.levels = 0) (ho : ∀ n, other = some n → n.levels = 0)
    (he : ∀ n, element.value = some n → 2 * n.levels ≤ b)
    (h : (byKind kind text element other).value = some n) : 2 * n.levels ≤ b := by
  unfold byKind at h
  split at h
  · have hn := ht n h
    omega
  · split at h
    · exact he n h
    · have hn := ho n h
      omega

/-- What a draft has for children so far. -/
def Draft.IsBounded (d : Draft) (b : Nat) : Prop :=
  ∀ ns, d.children = some ns → 2 * levelsAll ns ≤ b

theorem Draft.isBounded_empty (b : Nat) : Draft.empty.IsBounded b := by
  intro ns h
  cases h

theorem Draft.levels_of_done? {d : Draft} {b : Nat} {n : Node} (hd : d.IsBounded b)
    (h : d.done? = some n) : 2 * n.levels ≤ b + 2 := by
  obtain ⟨t, -, rfl⟩ := Option.map_eq_some_iff.1 h
  rw [levels]
  cases hc : d.children with
  | none =>
    show 2 * (0 + 1) ≤ b + 2
    omega
  | some ns =>
    have hns := hd ns hc
    show 2 * (levelsAll ns + 1) ≤ b + 2
    omega

theorem levels_of_ite_unknown {p : Prop} [Decidable p] {n : Node}
    (h : (if p then some Node.unknown else none) = some n) : n.levels = 0 := by
  split at h
  · cases h
    rfl
  · cases h

mutual

/-- The node of a value has half as many levels as the value, rounded up. -/
theorem levels_ofValue? : ∀ (v : Value) (n : Node), (ofValue? v).value = some n →
    2 * n.levels ≤ v.nesting + 1
  | .object ms, n, h => by
    rw [ofValue?] at h
    split at h
    · have he := fun n h => levels_elementOfMembers? ms .empty (Value.membersNesting ms) n
        (Draft.isBounded_empty _) (Nat.le_refl _) h
      exact levels_of_byKind (fun _ => levels_of_textOfMembers)
        (fun _ h => Option.some.inj h ▸ rfl) he h
    · cases h
  | .array (.string kind :: items), n, h => by
    rw [ofValue?] at h
    have hb : Value.itemsNesting items ≤ Value.itemsNesting (.string kind :: items) :=
      Nat.le_max_right _ _
    have he := fun n h => levels_elementOfItems? items _ n hb h
    exact levels_of_byKind (fun _ => levels_of_textOfItems)
      (fun _ => levels_of_ite_unknown) he h
  | .array [], n, h => by simp [ofValue?] at h
  | .array (.null :: _), n, h | .array (.bool _ :: _), n, h | .array (.number _ :: _), n, h
  | .array (.array _ :: _), n, h | .array (.object _ :: _), n, h => by simp [ofValue?] at h
  | .null, n, h | .bool _, n, h | .number _, n, h | .string _, n, h => by simp [ofValue?] at h

theorem levels_elementOfMembers? : ∀ (ms : List (String × Value)) (d : Draft) (b : Nat)
    (n : Node), d.IsBounded b → Value.membersNesting ms ≤ b →
    (elementOfMembers? d ms).value = some n → 2 * n.levels ≤ b + 2
  | [], d, b, n, hd, _, h => by
    rw [elementOfMembers?] at h
    exact Draft.levels_of_done? hd h
  | (k, v) :: ms, d, b, n, hd, hb, h => by
    obtain ⟨hv, hms⟩ := Nat.max_le.1 hb
    unfold elementOfMembers? at h
    split at h
    · split at h
      · refine levels_elementOfMembers? ms _ b n ?_ hms h
        exact hd
      · cases h
    · split at h
      · split at h
        · refine levels_elementOfMembers? ms _ b n ?_ hms h
          exact hd
        · cases h
      · split at h
        · split at h
          -- From here on the draft has these children, which are bounded as the member is.
          · refine levels_elementOfMembers? ms _ b n (fun ns hns => ?_) hms h
            cases hns
            exact Nat.le_trans (levelsAll_nodes v) hv
          · cases h
        · exact levels_elementOfMembers? ms d b n hd hms h

theorem levels_elementOfItems? : ∀ (items : List Value) (b : Nat) (n : Node),
    Value.itemsNesting items ≤ b → (elementOfItems? items).value = some n →
    2 * n.levels ≤ b + 2
  | [], b, n, _, h => by simp [elementOfItems?] at h
  | [v], b, n, _, h => by
    cases v with
    | string t =>
      simp only [elementOfItems?, Noted.value_pure, Option.some.injEq] at h
      subst h
      show 2 * (0 + 1) ≤ b + 2
      omega
    | _ => simp [elementOfItems?] at h
  | [v, children], b, n, hb, h => by
    have hc := levelsAll_nodes children
    have hb := (Nat.max_le.1 (Nat.max_le.1 hb).2).1
    cases v with
    | string t =>
      simp only [elementOfItems?, Noted.value_bind, Noted.value_pure, Option.some.injEq] at h
      subst h
      rw [levels]
      omega
    | _ => simp [elementOfItems?] at h
  | v :: children :: attributes :: rest, b, n, hb, h => by
    have hc := levelsAll_nodes children
    have hb := (Nat.max_le.1 (Nat.max_le.1 hb).2).1
    cases v with
    | string t =>
      rw [elementOfItems?, Noted.value_bind] at h
      split at h
      · rw [Noted.value_pure] at h
        split at h
        · cases h
          rw [levels]
          omega
        · cases h
      · cases h
    | _ => simp [elementOfItems?] at h

/-- The nodes of a value have half as many levels as the value. -/
theorem levelsAll_nodes : ∀ v : Value, 2 * levelsAll (nodes v).value ≤ v.nesting
  | .array items => by
    rw [nodes, Value.nesting]
    exact levelsAll_entries items
  | .null | .bool _ | .number _ | .string _ | .object _ => by simp [nodes, levelsAll]

theorem levelsAll_entries : ∀ items : List Value,
    2 * levelsAll (entries items).value ≤ Value.itemsNesting items + 1
  | [] => by simp [entries, levelsAll]
  | v :: vs => by
    have ih := levelsAll_entries vs
    have hv := levels_ofValue? v
    rw [Value.itemsNesting, entries]
    simp only [Noted.value_bind]
    cases h : (ofValue? v).value with
    | none =>
      show 2 * max 0 (levelsAll (entries vs).value) ≤ _
      omega
    | some n =>
      have hn := hv n h
      show 2 * max n.levels (levelsAll (entries vs).value) ≤ _
      omega

end

theorem levelsAll_nodes? {v : Value} {ns : List Node} (h : (nodes? v).value = some ns) :
    2 * levelsAll ns ≤ v.nesting := by
  have hv := levelsAll_nodes v
  cases v with
  | null => cases h
  | _ =>
    simp only [nodes?, Noted.value_bind, Noted.value_pure, Option.some.injEq] at h
    rwa [h] at hv

/-! ### Nodes that are read off a text -/

section Shapes

variable {depth : Nat} {s : Shape} {notices : List Notice}

theorem levelsAll_of_yields_readAll {ns : List Node} (h : (readAll depth s).Yields ns notices) :
    2 * levelsAll ns ≤ depth := by
  obtain ⟨v, hv, h⟩ := Reading.yields_ofExcept_bind.1 h
  have hn := levelsAll_nodes v
  rw [Reading.yields_ofNoted.1 h] at hn
  exact Nat.le_trans hn (Shape.nesting_le_of_value hv)

theorem levelsAll_of_yields_readAll? {ns : List Node}
    (h : (readAll? depth s).Yields (some ns) notices) : 2 * levelsAll ns ≤ depth := by
  obtain ⟨v, hv, h⟩ := Reading.yields_ofExcept_bind.1 h
  have hn : (nodes? v).value = some ns := by
    rw [Reading.yields_ofNoted.1 h]
  exact Nat.le_trans (levelsAll_nodes? hn) (Shape.nesting_le_of_value hv)

/-- A node that is read by itself may have one level more than one in a list. -/
theorem levels_of_yields_read {n : Node} (h : (read depth s).Yields n notices) :
    2 * n.levels ≤ depth + 1 := by
  obtain ⟨t, ht, h⟩ := Reading.yields_ofExcept_bind.1 h
  have hn : (ofTagged? t).value = some n := by
    rw [Reading.yields_require.1 h]
  obtain ⟨d, rfl, hb⟩ := Shape.nesting_le_of_tagged ht
  obtain ⟨kind, content⟩ := t
  cases content with
  | members ms =>
    have hms : Value.membersNesting (ms.map fun m => (m.1, m.2.value)) ≤ d := by
      refine Value.membersNesting_le_iff.2 fun m hm => ?_
      obtain ⟨k, hk, rfl⟩ := List.mem_map.1 hm
      exact hb k.2.value (List.mem_map_of_mem hk)
    have he := fun n h => levels_elementOfMembers? _ .empty d n (Draft.isBounded_empty d) hms h
    exact levels_of_byKind (fun _ => levels_of_textOfMembers)
      (fun _ h => Option.some.inj h ▸ rfl) he hn
  | items is =>
    have his : Value.itemsNesting (is.map (·.value)) ≤ d := Value.itemsNesting_le_iff.2 hb
    have he := fun n h => levels_elementOfItems? _ d n his h
    exact levels_of_byKind (fun _ => levels_of_textOfItems) (fun _ => levels_of_ite_unknown) he hn

end Shapes

end Node

/-! ### Rendering -/

theorem isShallow_of_levelsAll_le {ns : List Node} (h : Node.levelsAll ns ≤ maxDepth) :
    IsShallow (Node.placedAll .top ns) := by
  intro x hx he
  have hd := Node.depth_lt_of_mem_placedAll .top ns x hx he
  rw [Place.depth_top] at hd
  omega

namespace Node

mutual

theorem pass_none_of_isShallow (d : Dialect) : ∀ (c : Context) (p : Place) (n : Node),
    IsShallow (placed p n) → pass none d p.depth c n = pass (some maxDepth) d p.depth c n
  | c, p, .text data, _ => by simp [pass]
  | c, p, .unknown, _ => by simp [pass]
  | c, p, .element tag attributes children, h => by
    obtain ⟨hp, hc⟩ := isShallow_placed_element h
    have ih := passAll_none_of_isShallow d (c.within tag) (p.within tag) children hc
    rw [Place.depth_within] at ih
    rw [pass_element rfl, pass_element (any_maxDepth_of_lt hp), ih]

/-- Where no element is too deep the limit makes no difference. -/
theorem passAll_none_of_isShallow (d : Dialect) : ∀ (c : Context) (p : Place) (ns : List Node),
    IsShallow (placedAll p ns) →
    passAll none d p.depth c ns = passAll (some maxDepth) d p.depth c ns
  | c, p, [], _ => by simp [passAll]
  | c, p, n :: ns, h => by
    obtain ⟨hn, hns⟩ := isShallow_placedAll_cons h
    have ih := passAll_none_of_isShallow d (pass (some maxDepth) d p.depth c n).context
      (p.past n) ns hns
    rw [Place.depth_past] at ih
    rw [passAll, passAll, pass_none_of_isShallow d c p n hn, ih]

end

/-- What is said of an element that is dropped for its depth. -/
def tooDeep : String := "Structured text nested too deeply, dropping subtree"

theorem message_elementNotices (target : Option String) (tag : Tag) :
    ∀ x ∈ elementNotices target tag, x.message ≠ tooDeep := by
  have hl : Notice.linkWithoutTarget.message ≠ tooDeep := by decide
  have hm : ∀ name, (Notice.missingTag name).message ≠ tooDeep := fun name => by
    show "Missing structured text tag, skipping" ≠ tooDeep
    decide
  cases tag <;> cases target <;> simp [elementNotices, hl, hm]

mutual

theorem message_pass_none (d : Dialect) : ∀ (depth : Nat) (c : Context) (n : Node),
    ∀ x ∈ (pass none d depth c n).notices, x.message ≠ tooDeep
  | depth, c, .text data => by simp [pass]
  | depth, c, .unknown => by
    have hu : Notice.unknownNode.message ≠ tooDeep := by decide
    simpa [pass] using hu
  | depth, c, .element tag attributes children => by
    have ih := message_passAll_none d (depth + 1) (c.within tag) children
    rw [pass_element rfl, List.forall_mem_append]
    refine ⟨?_, message_elementNotices _ tag⟩
    split
    · simp
    · exact ih

/-- Without a limit there is no notice of it. -/
theorem message_passAll_none (d : Dialect) : ∀ (depth : Nat) (c : Context) (ns : List Node),
    ∀ x ∈ (passAll none d depth c ns).notices, x.message ≠ tooDeep
  | depth, c, [] => by simp [passAll]
  | depth, c, n :: ns => by
    rw [passAll, List.forall_mem_append]
    exact ⟨message_pass_none d depth c n, message_passAll_none d depth _ ns⟩

end

end Node

/-- **Where no element is too deep, rendering is rendering without a limit**, notices included. -/
theorem renderIn_eq_renderFreely {ns : List Node} (h : IsShallow (Node.placedAll .top ns))
    (d : Dialect) (c : Context) :
    renderIn d c ns = renderFreely d c ns ∧
      ∀ x ∈ (renderIn d c ns).notices, x.message ≠ Node.tooDeep := by
  have heq : renderIn d c ns = renderFreely d c ns := by
    have hp := Node.passAll_none_of_isShallow d c .top ns h
    rw [Place.depth_top] at hp
    rw [renderIn, renderFreely, hp, Node.rendered_passAll]
  refine ⟨heq, ?_⟩
  rw [heq]
  exact Node.message_passAll_none d 0 c ns

end Herald.RichText
