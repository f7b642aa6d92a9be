import Herald.Proofs.RichText.Segments

/-!
# What a rendering in mrkdwn inherits from its parts

The rendering of a rich text in mrkdwn is woven from markup, from escaped leaves and from the
targets of links. A property that holds of these parts and is kept when texts are put together holds
of the rendering.

* `IsInherited`: a property of texts that is kept, and that every text of markup has;
* `IsInherited.of_isWoven`: a text that is woven inherits it from its leaves and targets;
* `IsInherited.outputs`: it passes from the parts to the rendering.
-/

namespace Herald.RichText

open Json Markup

/-- A property that texts of markup have, and that is kept when texts are put together. -/
structure IsInherited (P : List Char → Prop) : Prop where
  markup : ∀ cs, cs.all isMarkup → P cs
  append : ∀ cs ds, P cs → P ds → P (cs ++ ds)

namespace IsInherited

variable {P : List Char → Prop} (hP : IsInherited P)
include hP

theorem join {ss : List String} (h : ∀ s ∈ ss, P s.toList) : P (String.join ss).toList := by
  induction ss with
  | nil => exact hP.markup _ (by simp)
  | cons s ss ih =>
    rw [String.join_cons, String.toList_append]
    exact hP.append _ _ (h s List.mem_cons_self) (ih fun t ht => h t (List.mem_cons_of_mem _ ht))

/-- A text inherits what the leaves and the targets have that it is made of. -/
theorem of_isWoven {ls ts : List String} {cs : List Char} (h : IsWoven ls ts cs)
    (hl : ∀ s ∈ ls, P (escape s).toList) (ht : ∀ t ∈ ts, P t.toList) : P cs := by
  obtain ⟨segments, rfl, rfl, rfl⟩ := h
  induction segments with
  | nil => exact hP.markup [] (by decide)
  | cons segment segments ih =>
    rw [List.flatMap_cons]
    refine hP.append _ _ ?_ (ih ?_ ?_)
    · match segment with
      | .leaf data => exact hl data (by simp [Segment.leaf?])
      | .filler (.mark ch hch) => exact hP.markup [ch] (by simp [hch])
      | .filler (.target t) => exact ht t (by simp [Segment.target?, Filler.target?])
    · exact fun s hs => hl s ((List.sublist_cons_self _ _).filterMap _ |>.mem hs)
    · exact fun t hs => ht t ((List.sublist_cons_self _ _).filterMap _ |>.mem hs)

/-- Texts one after another inherit what the leaves and the targets have that they are made of. -/
theorem of_areWoven {ls ts ss : List String} (h : AreWoven ls ts ss)
    (hl : ∀ s ∈ ls, P (escape s).toList) (ht : ∀ t ∈ ts, P t.toList) : ∀ s ∈ ss, P s.toList := by
  induction h with
  | nil => simp
  | cons hs _ ih =>
    rw [List.forall_mem_append] at hl ht
    rw [List.forall_mem_cons]
    exact ⟨hP.of_isWoven hs hl.1 ht.1, ih hl.2 ht.2⟩

/-- Every node of a list inherits what the leaves and the targets reached in the list have. -/
theorem outputs (c : Context) (p : Place) (ns : List Node) (hp : p.isOpen)
    (hl : ∀ s ∈ leaves ((Node.placedAll p ns).filter isReached), P (escape s).toList)
    (ht : ∀ t ∈ targets ((Node.placedAll p ns).filter isReached), P t.toList) :
    ∀ s ∈ Node.outputs mrkdwn p.depth c ns, P s.toList :=
  hP.of_areWoven (areWoven_outputs c p ns hp) hl ht

end IsInherited

end Herald.RichText
