import Herald.Markup.Escape
import Mathlib.Tactic.SplitIfs

/-!
# What escaping leaves of the control characters

* `not_mem_escape`: no angle bracket is left;
* `count_amp_escape`: there is one ampersand for each character that has been escaped;
* `EntitiesOnly`: every ampersand begins an entity. Escaping brings this about
  (`entitiesOnly_escape`), and putting texts together keeps it (`EntitiesOnly.append`).
-/

namespace Herald.Markup

theorem not_mem_escape {b : Char} (hb : b = '<' ∨ b = '>') (s : String) :
    b ∉ (escape s).toList := by
  rw [toList_escape, List.mem_flatMap]
  rintro ⟨c, -, hc⟩
  revert hc
  unfold escapeChar
  rcases hb with rfl | rfl <;> split_ifs <;> simp_all [eq_comm]

/-- Every control character becomes an ampersand. -/
theorem count_amp_escape (s : String) :
    (escape s).toList.count '&'
      = s.toList.count '&' + s.toList.count '<' + s.toList.count '>' := by
  rw [toList_escape]
  induction s.toList with
  | nil => rfl
  | cons c cs ih =>
    rw [List.flatMap_cons, List.count_append, ih]
    unfold escapeChar
    split_ifs with h₁ h₂ h₃ <;> simp_all <;> omega

/-! ### Entities -/

/-- The spellings of the control characters. -/
def entities : List String := ["&amp;", "&lt;", "&gt;"]

/-- Every ampersand of a text begins an entity. -/
def EntitiesOnly (cs : List Char) : Prop :=
  ∀ before after, cs = before ++ '&' :: after → ∃ e ∈ entities, e.toList <+: '&' :: after

theorem entitiesOnly_of_not_mem {cs : List Char} (h : '&' ∉ cs) : EntitiesOnly cs := by
  rintro before after rfl
  simp at h

theorem EntitiesOnly.append {cs ds : List Char} (hc : EntitiesOnly cs) (hd : EntitiesOnly ds) :
    EntitiesOnly (cs ++ ds) := by
  intro before after h
  rcases List.append_eq_append_iff.1 h with ⟨as, -, h⟩ | ⟨bs, hcs, h'⟩
  · exact hd as after h
  · cases bs with
    | nil => exact hd [] after (by simpa using h'.symm)
    | cons b bs =>
      -- The ampersand stands in the first text, and so does the entity that it begins.
      rw [List.cons_append, List.cons.injEq] at h'
      obtain ⟨rfl, rfl⟩ := h'
      obtain ⟨e, he, hb⟩ := hc before bs hcs
      exact ⟨e, he, hb.trans (List.prefix_append _ _)⟩

theorem entitiesOnly_flatMap {α : Type} {f : α → List Char} (l : List α)
    (h : ∀ a ∈ l, EntitiesOnly (f a)) : EntitiesOnly (l.flatMap f) := by
  induction l with
  | nil => exact entitiesOnly_of_not_mem List.not_mem_nil
  | cons a l ih =>
    rw [List.flatMap_cons]
    exact (h a List.mem_cons_self).append (ih fun b hb => h b (List.mem_cons_of_mem _ hb))

/-- An entity alone begins with its only ampersand. -/
theorem entitiesOnly_cons {cs : List Char} (h : ∃ e ∈ entities, e.toList <+: '&' :: cs)
    (hc : '&' ∉ cs) : EntitiesOnly ('&' :: cs) := by
  intro before after he
  cases before with
  | nil =>
    rw [List.nil_append] at he
    rwa [← he]
  | cons b before =>
    rw [List.cons_append, List.cons.injEq] at he
    exact absurd (he.2 ▸ by simp) hc

theorem entitiesOnly_escape (s : String) : EntitiesOnly (escape s).toList := by
  rw [toList_escape]
  refine entitiesOnly_flatMap _ fun c _ => ?_
  unfold escapeChar
  split_ifs with h₁ h₂ h₃
  · exact entitiesOnly_cons ⟨"&amp;", by decide, by decide⟩ (by decide)
  · exact entitiesOnly_cons ⟨"&lt;", by decide, by decide⟩ (by decide)
  · exact entitiesOnly_cons ⟨"&gt;", by decide, by decide⟩ (by decide)
  · exact entitiesOnly_of_not_mem (by simpa using Ne.symm h₁)

end Herald.Markup
