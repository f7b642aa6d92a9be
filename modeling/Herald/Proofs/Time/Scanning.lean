import Herald.Time.Calendar
import Herald.Time.Scanner
import Mathlib.Data.List.Basic
import Mathlib.Tactic.SplitIfs

/-!
# Scanning what is spelled

* `resume`, `bind_apply`: how scanners run one after another;
* `IsNumeral`: digits that spell a number; those of a number with zeros in front do
  (`isNumeral_padded`);
* `Stops`: a text that does not go on with a digit;
* `digits_append`, `number_append`: a numeral is taken from the front of a text, if as many digits
  are asked for as it has, or if the text behind it stops;
* `fraction_append`: the same behind a point;
* `trim_append`: the text between blanks.
-/

namespace Herald.Text

/-! ### Blanks -/

theorem isBlank_of_isDigit {c : Char} (h : c.isDigit) : isBlank c = false := by
  have hbounds : 48 ≤ c.toNat ∧ c.toNat ≤ 57 := Char.isDigit_iff_toNat.1 h
  simp [isBlank]
  omega

/-- Nothing is dropped where the first character is no blank. -/
theorem dropBlanks_eq_self {s : List Char} (h : ∀ c ∈ s.head?, isBlank c = false) :
    dropBlanks s = s := by
  cases s with
  | nil => rfl
  | cons c s => exact dropBlanks_cons_of_not_blank (h c rfl) s

theorem dropBlanks_append {blank : List Char} (hb : blank.all isBlank) (s : List Char) :
    dropBlanks (blank ++ s) = dropBlanks s := by
  induction blank with
  | nil => rfl
  | cons c blank ih =>
    rw [List.all_cons, Bool.and_eq_true] at hb
    rw [List.cons_append, dropBlanks_cons_of_blank hb.1, ih hb.2]

/-- A text that neither begins nor ends with a blank is what is left of it between blanks. -/
theorem trim_append {before after s : List Char} (hb : before.all isBlank) (ha : after.all isBlank)
    (hhead : ∀ c ∈ s.head?, isBlank c = false) (hlast : ∀ c ∈ s.getLast?, isBlank c = false) :
    trim (before ++ s ++ after) = s := by
  have hreverse : after.reverse.all isBlank := by rwa [List.all_reverse]
  cases s with
  | nil =>
    have hblank : (before ++ [] ++ after).all isBlank := by simp [hb, ha]
    have hdropped := dropBlanks_append hblank []
    rw [List.append_nil] at hdropped
    rw [trim, hdropped]
    rfl
  | cons c s =>
    have hfront : dropBlanks (before ++ (c :: s) ++ after) = c :: s ++ after := by
      rw [List.append_assoc, dropBlanks_append hb]
      exact dropBlanks_eq_self hhead
    have hback : dropBlanks (c :: s).reverse = (c :: s).reverse :=
      dropBlanks_eq_self (by rwa [List.head?_reverse])
    rw [trim, hfront, dropBlanksEnd, List.reverse_append, dropBlanks_append hreverse, hback,
      List.reverse_reverse]

end Herald.Text

namespace Herald.Time.Scanner

variable {α β : Type}

/-- Go on with what has been taken and with the rest of the text. -/
def resume (x : Option (α × List Char)) (f : α → Scanner β) : Option (β × List Char) :=
  match x with
  | some (a, r) => f a r
  | none => none

@[simp] theorem resume_some (a : α) (r : List Char) (f : α → Scanner β) :
    resume (some (a, r)) f = f a r := rfl

@[simp] theorem resume_none (f : α → Scanner β) : resume none f = none := rfl

@[simp] theorem bind_apply (p : Scanner α) (f : α → Scanner β) (s : List Char) :
    (p >>= f) s = resume (p s) f := by
  have hbind : (p >>= f) s = (p s).bind fun x => f x.1 x.2 := rfl
  rw [hbind]
  cases p s <;> rfl

@[simp] theorem pure_apply (a : α) (s : List Char) : (pure a : Scanner α) s = some (a, s) := rfl

/-- If a scanner goes on with another one and needs nothing else, the two take the whole text or
not. -/
theorem whole_eq_map {p : Scanner α} {q : Scanner β} {s r : List Char} {f : β → α}
    (h : p s = resume (q r) fun b => pure (f b)) : p.whole s = (q.whole r).map f := by
  unfold whole
  rw [h]
  rcases q r with _ | ⟨b, _ | ⟨c, rest⟩⟩ <;> rfl

theorem whole_eq_some {p : Scanner α} {s : List Char} {a : α} (h : p s = some (a, [])) :
    p.whole s = some a := by
  unfold whole
  rw [h]

theorem whole_eq_none {p : Scanner α} {s : List Char} (h : p s = none) : p.whole s = none := by
  unfold whole
  rw [h]

/-! ### Marks -/

@[simp] theorem mark_cons (c : Char) (s : List Char) : mark c (c :: s) = some ((), s) := if_pos rfl

theorem mark_of_ne {c x : Char} (h : x ≠ c) (s : List Char) : mark c (x :: s) = none := if_neg h

@[simp] theorem blanks_apply (s : List Char) : blanks s = some ((), Text.dropBlanks s) := rfl

@[simp] theorem someBlanks_cons (s : List Char) :
    someBlanks (' ' :: s) = some ((), Text.dropBlanks s) := rfl

/-! ### Numerals -/

/-- The value of a character as a digit. -/
def digitValue (c : Char) : Nat := c.toNat - '0'.toNat

/-- Digits that spell a number, zeros in front allowed. -/
structure IsNumeral (cs : List Char) (n : Nat) : Prop where
  digits : ∀ c ∈ cs, c.isDigit
  value : value (cs.map digitValue) = n

/-- A text that does not go on with a digit. -/
def Stops (s : List Char) : Prop := ∀ c ∈ s.head?, c.isDigit = false

theorem stops_nil : Stops [] := fun _ h => by cases h

theorem stops_cons {c : Char} (h : c.isDigit = false) (s : List Char) : Stops (c :: s) := by
  rintro _ ⟨⟩
  exact h

theorem value_map_digitValue (cs : List Char) :
    value (cs.map digitValue) = Nat.ofDigitChars 10 cs 0 := by
  rw [value, List.foldl_map]
  rfl

theorem isNumeral_toString (n : Nat) : IsNumeral (toString n).toList n where
  digits c hc :=
    Nat.isDigit_of_mem_toDigits (b := 10) (by decide) (by decide) (by simpa using hc)
  value := by
    rw [value_map_digitValue, Nat.toString_eq_repr, Nat.toList_repr,
      Nat.ofDigitChars_toDigits (by decide) (by decide)]

theorem toList_pushn (s : String) (c : Char) (k : Nat) :
    (s.pushn c k).toList = s.toList ++ List.replicate k c := by
  rw [String.pushn]
  induction k with
  | zero => simp [Nat.repeat]
  | succ k ih =>
    rw [Nat.repeat, String.toList_push, ih, List.append_assoc, List.replicate_succ']

theorem toList_padded (width n : Nat) :
    (Date.padded width n).toList
      = List.replicate (width - (toString n).length) '0' ++ (toString n).toList := by
  rw [Date.padded, String.toList_append, toList_pushn]
  rfl

theorem isNumeral_padded (width n : Nat) : IsNumeral (Date.padded width n).toList n where
  digits c hc := by
    rw [toList_padded, List.mem_append] at hc
    rcases hc with hc | hc
    · rw [List.eq_of_mem_replicate hc]
      rfl
    · exact (isNumeral_toString n).digits c hc
  value := by
    rw [toList_padded, value_map_digitValue, Nat.ofDigitChars_append,
      Nat.ofDigitChars_replicate_zero, Nat.mul_zero, ← value_map_digitValue,
      (isNumeral_toString n).value]

/-- A number that is small enough fills its width just so. -/
theorem length_padded {width n : Nat} (hw : 0 < width) (h : n < Nat.pow 10 width) :
    (Date.padded width n).toList.length = width := by
  have hlength : (toString n).length ≤ width := (Nat.length_repr_le_iff hw).2 h
  rw [toList_padded, List.length_append, List.length_replicate, String.length_toList]
  omega

/-! ### Taking numerals -/

theorem digit?_of_isDigit {c : Char} (h : c.isDigit) : digit? c = some (digitValue c) := if_pos h

theorem digit?_of_not_isDigit {c : Char} (h : c.isDigit = false) : digit? c = none :=
  if_neg (by simp [h])

theorem digits_zero (s : List Char) : digits (some 0) s = ([], s) := by
  cases s <;> rfl

theorem digits_of_stops (most : Option Nat) {s : List Char} (h : Stops s) :
    digits most s = ([], s) := by
  cases s with
  | nil => rfl
  | cons c s =>
    have hc := digit?_of_not_isDigit (h c rfl)
    rw [digits.eq_def]
    simp only [hc]
    split <;> simp_all

theorem digits_cons {most : Option Nat} {c : Char} (hc : c.isDigit) (hmost : most ≠ some 0)
    (s : List Char) :
    digits most (c :: s)
      = (digitValue c :: (digits (most.map (· - 1)) s).1, (digits (most.map (· - 1)) s).2) := by
  rw [digits.eq_def]
  simp only [digit?_of_isDigit hc]

/-- The digits in front are taken, if there are as many as there may be or if none is behind. -/
theorem digits_append {most : Option Nat} {cs rest : List Char} (hcs : ∀ c ∈ cs, c.isDigit)
    (hmost : ∀ k ∈ most, cs.length ≤ k) (hend : most = some cs.length ∨ Stops rest) :
    digits most (cs ++ rest) = (cs.map digitValue, rest) := by
  induction cs generalizing most with
  | nil =>
    rcases hend with rfl | hend
    · exact digits_zero rest
    · exact digits_of_stops most hend
  | cons c cs ih =>
    rw [List.forall_mem_cons] at hcs
    have hzero : most ≠ some 0 := by
      rintro rfl
      exact absurd (hmost 0 rfl) (Nat.not_succ_le_zero _)
    have hless : ∀ k ∈ most.map (· - 1), cs.length ≤ k := by
      intro k hk
      obtain ⟨j, hj, rfl⟩ := Option.map_eq_some_iff.1 hk
      have := hmost j hj
      rw [List.length_cons] at this
      omega
    have hend' : most.map (· - 1) = some cs.length ∨ Stops rest :=
      hend.imp (fun h => by rw [h]; rfl) id
    rw [List.cons_append, digits_cons hcs.1 hzero, ih hcs.2 hless hend']
    rfl

theorem digitRun_append {least : Nat} {most : Option Nat} {cs rest : List Char}
    (hcs : ∀ c ∈ cs, c.isDigit) (hleast : least ≤ cs.length) (hmost : ∀ k ∈ most, cs.length ≤ k)
    (hend : most = some cs.length ∨ Stops rest) :
    digitRun least most (cs ++ rest) = some (cs.map digitValue, rest) := by
  simp only [digitRun, digits_append hcs hmost hend, List.length_map, hleast, if_true]

/-- A numeral is taken as the number it spells. -/
theorem number_append {least most n : Nat} {cs rest : List Char} (h : IsNumeral cs n)
    (hleast : least ≤ cs.length) (hmost : cs.length ≤ most) (hend : cs.length = most ∨ Stops rest) :
    number least most (cs ++ rest) = some (n, rest) := by
  have hrun : digitRun least (some most) (cs ++ rest) = some (cs.map digitValue, rest) :=
    digitRun_append h.digits hleast (fun k hk => by cases hk; exact hmost)
      (hend.imp (fun he => by rw [he]) id)
  simp [number, hrun, h.value]

/-- Too few digits are no number. -/
theorem number_of_lt {least most : Nat} {cs rest : List Char} (hcs : ∀ c ∈ cs, c.isDigit)
    (hless : cs.length < least) (hmost : cs.length ≤ most) (hend : Stops rest) :
    number least most (cs ++ rest) = none := by
  have hdigits : digits (some most) (cs ++ rest) = (cs.map digitValue, rest) :=
    digits_append hcs (fun k hk => by cases hk; exact hmost) (.inr hend)
  simp [number, digitRun, hdigits, Nat.not_le.2 hless]

/-- A number that fills its width needs no end. -/
theorem number_padded {width n : Nat} (least : Nat) (hw : 0 < width) (hleast : least ≤ width)
    (h : n < Nat.pow 10 width) (rest : List Char) :
    number least width ((Date.padded width n).toList ++ rest) = some (n, rest) := by
  have hlength : (Date.padded width n).toList.length = width := length_padded hw h
  refine number_append (isNumeral_padded width n) ?_ (Nat.le_of_eq hlength) (.inl hlength)
  rwa [hlength]

/-- In front of a numeral there are no blanks to be dropped. -/
theorem dropBlanks_numeral {cs : List Char} (hcs : ∀ c ∈ cs, c.isDigit) (hpos : cs ≠ [])
    (rest : List Char) : Text.dropBlanks (cs ++ rest) = cs ++ rest := by
  cases cs with
  | nil => exact absurd rfl hpos
  | cons c cs =>
    exact Text.dropBlanks_cons_of_not_blank (Text.isBlank_of_isDigit (hcs c List.mem_cons_self)) _

theorem toString_ne_nil (n : Nat) : (toString n).toList ≠ [] := by
  have hpos : 0 < (Nat.toDigits 10 n).length := Nat.length_toDigits_pos
  rw [Nat.toString_eq_repr, Nat.toList_repr]
  exact List.ne_nil_of_length_pos hpos

theorem padded_ne_nil (width n : Nat) : (Date.padded width n).toList ≠ [] := by
  rw [toList_padded]
  exact List.append_ne_nil_of_right_ne_nil _ (toString_ne_nil n)

theorem dropBlanks_padded (width n : Nat) (rest : List Char) :
    Text.dropBlanks ((Date.padded width n).toList ++ rest)
      = (Date.padded width n).toList ++ rest :=
  dropBlanks_numeral (isNumeral_padded width n).digits (padded_ne_nil width n) rest

/-! ### Fractions -/

/-- The digits behind a point count as billionths. -/
theorem fraction_append {n : Nat} {cs rest : List Char} (h : IsNumeral cs n) (hpos : cs ≠ [])
    (hlength : cs.length ≤ 9) (hend : Stops rest) :
    fraction ('.' :: (cs ++ rest)) = some (n * Nat.pow 10 (9 - cs.length), rest) := by
  have hdigits : digits none (cs ++ rest) = (cs.map digitValue, rest) :=
    digits_append h.digits (fun k hk => by cases hk) (.inr hend)
  have htake : (cs.map digitValue).take 9 = cs.map digitValue :=
    List.take_of_length_le (by rwa [List.length_map])
  cases cs with
  | nil => exact absurd rfl hpos
  | cons c cs =>
    simp only [fraction, hdigits]
    rw [List.map_cons] at htake ⊢
    simp only [htake]
    rw [← List.map_cons, h.value, List.length_map]

theorem fraction_of_ne {s : List Char} (h : s.head? ≠ some '.') : fraction s = some (0, s) := by
  unfold fraction
  split
  · exact absurd rfl h
  · rfl

end Herald.Time.Scanner
