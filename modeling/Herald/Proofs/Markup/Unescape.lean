import Herald.Proofs.Markup.Escape

/-!
# Escaping and its inverse

Escaping writes any text as a safe one, and every safe text is written from just one text.

* `unescape`: goes through a text once and puts each entity back to its character;
* `IsSafe`: no angle bracket, and no ampersand that does not begin an entity;
* `unescape_escape`, `escape_unescape`: the two are inverse to each other, on all texts and on the
  safe ones;
* `escape_eq_self_iff`, `escapeOrKeep_eq_escape`: the texts that escaping may hand on as they are;
* `escape_is_bijection_onto_safe`: all of it.
-/

namespace Herald.Markup

/-- Put each entity back to its character, from the left on. What has been put back is not looked at
again. -/
def unescapeChars : List Char → List Char
  | '&' :: 'a' :: 'm' :: 'p' :: ';' :: cs => '&' :: unescapeChars cs
  | '&' :: 'l' :: 't' :: ';' :: cs => '<' :: unescapeChars cs
  | '&' :: 'g' :: 't' :: ';' :: cs => '>' :: unescapeChars cs
  | c :: cs => c :: unescapeChars cs
  | [] => []

/-- The text that a text has been escaped from. -/
def unescape (s : String) : String := String.ofList (unescapeChars s.toList)

/-- A text that shows in mrkdwn as plain text. -/
structure IsSafe (cs : List Char) : Prop where
  noOpening : '<' ∉ cs
  noClosing : '>' ∉ cs
  entities : EntitiesOnly cs

/-! ### From a text and back -/

theorem unescapeChars_cons {c : Char} (h : c ≠ '&') (cs : List Char) :
    unescapeChars (c :: cs) = c :: unescapeChars cs := by
  rw [unescapeChars] <;> simp [h]

/-- What is written for a character is put back at once, whatever comes behind it. -/
theorem unescapeChars_escapeChar (c : Char) (cs : List Char) :
    unescapeChars (escapeChar c ++ cs) = c :: unescapeChars cs := by
  unfold escapeChar
  split_ifs with hamp hlt hgt
  · subst hamp
    rfl
  · subst hlt
    rfl
  · subst hgt
    rfl
  · exact unescapeChars_cons hamp cs

theorem unescapeChars_flatMap (cs : List Char) : unescapeChars (cs.flatMap escapeChar) = cs := by
  induction cs with
  | nil => rfl
  | cons c cs ih => rw [List.flatMap_cons, unescapeChars_escapeChar, ih]

theorem unescape_escape (s : String) : unescape (escape s) = s := by
  rw [unescape, toList_escape, unescapeChars_flatMap, String.ofList_toList]

/-! ### From a safe text and back -/

theorem EntitiesOnly.of_append (cs : List Char) {ds : List Char} (h : EntitiesOnly (cs ++ ds)) :
    EntitiesOnly ds := by
  rintro before after rfl
  exact h (cs ++ before) after (by rw [List.append_assoc])

theorem IsSafe.of_append (cs : List Char) {ds : List Char} (h : IsSafe (cs ++ ds)) : IsSafe ds where
  noOpening hd := h.noOpening (List.mem_append_right cs hd)
  noClosing hd := h.noClosing (List.mem_append_right cs hd)
  entities := h.entities.of_append cs

theorem isSafe_escape (s : String) : IsSafe (escape s).toList where
  noOpening := not_mem_escape (.inl rfl) s
  noClosing := not_mem_escape (.inr rfl) s
  entities := entitiesOnly_escape s

/-- The induction goes along the entities of the safe text. A character that begins none is no
ampersand, so it stands for itself. -/
theorem flatMap_unescapeChars {cs : List Char} (h : IsSafe cs) :
    (unescapeChars cs).flatMap escapeChar = cs := by
  fun_induction unescapeChars cs with
  | case1 cs ih => rw [List.flatMap_cons, ih (h.of_append "&amp;".toList)]; rfl
  | case2 cs ih => rw [List.flatMap_cons, ih (h.of_append "&lt;".toList)]; rfl
  | case3 cs ih => rw [List.flatMap_cons, ih (h.of_append "&gt;".toList)]; rfl
  | case4 c cs hamp hlt hgt ih =>
    have hc : c ≠ '&' := by
      rintro rfl
      obtain ⟨e, he, rest, hrest⟩ := h.entities [] cs rfl
      simp only [entities, List.mem_cons, List.not_mem_nil, or_false] at he
      rcases he with rfl | rfl | rfl
      · exact hamp rest rfl (List.cons.inj hrest).2.symm
      · exact hlt rest rfl (List.cons.inj hrest).2.symm
      · exact hgt rest rfl (List.cons.inj hrest).2.symm
    have hopening : c ≠ '<' := fun he => h.noOpening (he ▸ List.mem_cons_self)
    have hclosing : c ≠ '>' := fun he => h.noClosing (he ▸ List.mem_cons_self)
    rw [List.flatMap_cons, ih (h.of_append [c])]
    simp [escapeChar, hc, hopening, hclosing]
  | case5 => rfl

theorem escape_unescape {s : String} (h : IsSafe s.toList) : escape (unescape s) = s := by
  apply String.toList_inj.1
  rw [toList_escape, unescape, String.toList_ofList, flatMap_unescapeChars h]

/-- The safe texts are those that escaping writes. -/
theorem exists_escape_eq_iff (s : String) : (∃ t, escape t = s) ↔ IsSafe s.toList := by
  constructor
  · rintro ⟨t, rfl⟩
    exact isSafe_escape t
  · exact fun h => ⟨unescape s, escape_unescape h⟩

/-! ### Texts that stay as they are -/

theorem length_flatMap_escapeChar (cs : List Char) :
    (cs.flatMap escapeChar).length
      = cs.length + (4 * cs.count '&' + 3 * cs.count '<' + 3 * cs.count '>') := by
  induction cs with
  | nil => rfl
  | cons c cs ih =>
    rw [List.flatMap_cons, List.length_append, ih]
    unfold escapeChar
    split_ifs <;> simp_all <;> omega

theorem flatMap_escapeChar_of_not_mem {cs : List Char} (hamp : '&' ∉ cs) (hopening : '<' ∉ cs)
    (hclosing : '>' ∉ cs) : cs.flatMap escapeChar = cs := by
  induction cs with
  | nil => rfl
  | cons c cs ih =>
    rw [List.mem_cons, not_or] at hamp hopening hclosing
    rw [List.flatMap_cons, ih hamp.2 hopening.2 hclosing.2, escapeChar, if_neg (Ne.symm hamp.1),
      if_neg (Ne.symm hopening.1), if_neg (Ne.symm hclosing.1), List.singleton_append]

/-- Just the texts without a control character may be handed on without a copy: escaping makes any
other text longer. -/
theorem escape_eq_self_iff (s : String) :
    escape s = s ↔ '&' ∉ s.toList ∧ '<' ∉ s.toList ∧ '>' ∉ s.toList := by
  constructor
  · intro h
    have hlength := length_flatMap_escapeChar s.toList
    rw [← toList_escape, h] at hlength
    simp only [← List.count_eq_zero]
    omega
  · rintro ⟨hamp, hopening, hclosing⟩
    apply String.toList_inj.1
    rw [toList_escape, flatMap_escapeChar_of_not_mem hamp hopening hclosing]

/-- A text has something to escape. -/
def hasControl (s : String) : Bool := s.toList.any ['&', '<', '>'].contains

/-- Escaping that copies a text only where there is something to escape. -/
def escapeOrKeep (s : String) : String := if hasControl s then escape s else s

theorem escapeOrKeep_eq_escape (s : String) : escapeOrKeep s = escape s := by
  by_cases h : hasControl s
  · rw [escapeOrKeep, if_pos h]
  · have hkept : escape s = s := by
      refine (escape_eq_self_iff s).2 ⟨?_, ?_, ?_⟩ <;>
        exact fun hc => h (List.any_eq_true.2 ⟨_, hc, by decide⟩)
    rw [escapeOrKeep, if_neg h, hkept]

/-- **Escaping is a bijection from all texts onto the safe ones**, and `unescape` is its inverse. It
goes character by character, so texts may be escaped in parts. A text without a control character,
and only such a one, is its own spelling, so it need not be copied. -/
theorem escape_is_bijection_onto_safe :
    (∀ s : String, unescape (escape s) = s) ∧
      (∀ t : String, (∃ s, escape s = t) ↔ IsSafe t.toList) ∧
      (∀ t : String, IsSafe t.toList → escape (unescape t) = t) ∧
      (∀ a b : String, escape (a ++ b) = escape a ++ escape b) ∧
      (∀ s : String, escape s = s ↔ '&' ∉ s.toList ∧ '<' ∉ s.toList ∧ '>' ∉ s.toList) ∧
      ∀ s : String, escapeOrKeep s = escape s :=
  ⟨unescape_escape, exists_escape_eq_iff, fun _ h => escape_unescape h, escape_append,
    escape_eq_self_iff, escapeOrKeep_eq_escape⟩

/-- An entity that stands in the text already is escaped once more, and put back once. -/
theorem escape_unescape_nested :
    IsSafe "&amp;lt; &lt;b&gt; &amp;amp;".toList ∧
      escape (unescape "&amp;lt; &lt;b&gt; &amp;amp;") = "&amp;lt; &lt;b&gt; &amp;amp;" ∧
      unescape "&amp;lt; &lt;b&gt; &amp;amp;" = "&lt; <b> &amp;" := by
  have hsafe : IsSafe "&amp;lt; &lt;b&gt; &amp;amp;".toList :=
    (escape_is_bijection_onto_safe.2.1 _).1 ⟨"&lt; <b> &amp;", by decide +kernel⟩
  exact ⟨hsafe, escape_is_bijection_onto_safe.2.2.1 _ hsafe, by decide +kernel⟩

end Herald.Markup
