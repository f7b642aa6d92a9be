import Herald.Proofs.Time.Pattern
import Herald.Time.Timestamp

/-!
# Scanning in front of the letter for UTC

A time without an offset may have the letter for UTC behind it, which no pattern takes.

* `digits_spec`, `number_spec`: the converse of `digits_append` and `number_append`, what a run of
  digits and a number have been taken from;
* `IsZone`, `dropZone_append_zone`: the letter or nothing, and that it can be dropped;
* `Spares`: a scanner that takes nothing of the letter, and the same part where the letter follows;
* `spares_item`, `spares_scan`: the scanners of the parts of a pattern do, and so those of patterns;
* `offset_scan`: a pattern leaves the offset as it is.
-/

namespace Herald.Text

/-- The blanks in front are those that are dropped. -/
theorem exists_dropBlanks (s : List Char) :
    ∃ blank, s = blank ++ dropBlanks s ∧ blank.all isBlank :=
  ⟨s.takeWhile isBlank, List.takeWhile_append_dropWhile.symm, List.all_takeWhile⟩

theorem head?_dropBlanks (s : List Char) : ∀ c ∈ (dropBlanks s).head?, isBlank c = false := by
  intro c hc
  have hnot := List.head?_dropWhile_not isBlank s
  rw [dropBlanks] at hc
  rw [Option.mem_def.1 hc] at hnot
  simpa using hnot

theorem length_trim_le (s : List Char) : (trim s).length ≤ (dropBlanks s).length := by
  have hreverse := (List.dropWhile_suffix (l := (dropBlanks s).reverse) isBlank).length_le
  rw [List.length_reverse] at hreverse
  rw [trim, dropBlanksEnd, List.length_reverse]
  exact hreverse

/-- A text that stays as it is between blanks does not begin with one. -/
theorem isBlank_of_head?_of_trim {s : List Char} (hs : trim s = s) :
    ∀ c ∈ s.head?, isBlank c = false := by
  cases s with
  | nil => exact nofun
  | cons c s =>
    rintro _ ⟨⟩
    refine Bool.eq_false_iff.2 fun hc => ?_
    have htrim := length_trim_le (c :: s)
    have hdrop : (dropBlanks s).length ≤ s.length := (List.dropWhile_suffix isBlank).length_le
    rw [hs, dropBlanks_cons_of_blank hc, List.length_cons] at htrim
    omega

/-- Nor does it with a character behind it that is no blank. -/
theorem trim_append_singleton {s : List Char} {c : Char} (hs : trim s = s)
    (hc : isBlank c = false) : trim (s ++ [c]) = s ++ [c] := by
  have hhead : ∀ x ∈ (s ++ [c]).head?, isBlank x = false := by
    cases s with
    | nil => rintro _ ⟨⟩; exact hc
    | cons x s => exact fun y hy => isBlank_of_head?_of_trim hs y hy
  have hlast : ∀ x ∈ (s ++ [c]).getLast?, isBlank x = false := by
    rw [List.getLast?_concat]
    rintro _ ⟨⟩
    exact hc
  have hnone : ([] : List Char).all isBlank := rfl
  have htrim := trim_append hnone hnone hhead hlast
  rwa [List.nil_append, List.append_nil] at htrim

end Herald.Text

namespace Herald.Time

namespace Scanner

variable {α β : Type}

theorem resume_eq_some {x : Option (α × List Char)} {f : α → Scanner β} {y : β × List Char} :
    resume x f = some y ↔ ∃ a r, x = some (a, r) ∧ f a r = some y := by
  cases x with
  | none => simp
  | some x =>
    constructor
    · exact fun h => ⟨x.1, x.2, rfl, h⟩
    · rintro ⟨a, r, ⟨⟩, h⟩
      exact h

theorem mark_eq_some {c : Char} {s r : List Char} {u : Unit} :
    mark c s = some (u, r) ↔ s = c :: r := by
  cases s with
  | nil => simp [mark]
  | cons x s =>
    by_cases hx : x = c
    · simp [mark, hx]
    · simp [mark, hx]

theorem oneOf_eq_some {cs : List Char} {s r : List Char} {c : Char} :
    oneOf cs s = some (c, r) ↔ s = c :: r ∧ c ∈ cs := by
  cases s with
  | nil => simp [oneOf]
  | cons x s =>
    by_cases hx : x ∈ cs
    · simp only [oneOf, List.contains_iff_mem, hx, if_true, Option.some.injEq, Prod.mk.injEq,
        List.cons.injEq]
      exact ⟨fun h => ⟨h, h.1 ▸ hx⟩, And.left⟩
    · simp only [oneOf, List.contains_iff_mem, hx, if_false, List.cons.injEq]
      exact ⟨nofun, fun h => absurd (h.1.1 ▸ h.2) hx⟩

theorem whole_eq_some_iff {p : Scanner α} {s : List Char} {a : α} :
    p.whole s = some a ↔ p s = some (a, []) := by
  constructor
  · intro h
    unfold whole at h
    split at h
    · rename_i b hb
      rw [hb, Option.some.inj h]
    · cases h
  · exact whole_eq_some

/-! ### What digits are taken from -/

theorem Stops.append {s z : List Char} (hs : Stops s) (hz : Stops z) : Stops (s ++ z) := by
  cases s with
  | nil => exact hz
  | cons c s => exact stops_cons (hs c rfl) _

/-- The digits that are taken stand in front of the rest. They are as many as there may be, or none
is behind. -/
theorem digits_spec (most : Option Nat) (s : List Char) :
    ∃ cs rest, s = cs ++ rest ∧ digits most s = (cs.map digitValue, rest) ∧
      (∀ c ∈ cs, c.isDigit) ∧ (∀ k ∈ most, cs.length ≤ k) ∧
      (most = some cs.length ∨ Stops rest) := by
  induction s generalizing most with
  | nil => exact ⟨[], [], rfl, rfl, by simp, by simp, .inr stops_nil⟩
  | cons c s ih =>
    -- Either no more digits may be taken, or the first character decides.
    by_cases hzero : most = some 0
    · subst hzero
      exact ⟨[], c :: s, rfl, digits_zero _, by simp, by simp, .inl rfl⟩
    cases hc : c.isDigit with
    | false =>
      have hstops := stops_cons hc s
      exact ⟨[], c :: s, rfl, digits_of_stops most hstops, by simp, by simp, .inr hstops⟩
    | true =>
      obtain ⟨cs, rest, rfl, hdigits, hcs, hmost, hend⟩ := ih (most.map (· - 1))
      refine ⟨c :: cs, rest, rfl, ?_, List.forall_mem_cons.2 ⟨hc, hcs⟩, ?_, ?_⟩
      · rw [digits_cons hc hzero, hdigits, List.map_cons]
      · intro k hk
        have hless := hmost (k - 1) (Option.mem_map_of_mem _ hk)
        have hk0 : k ≠ 0 := fun h => hzero (h ▸ hk)
        rw [List.length_cons]
        omega
      · refine hend.imp_left fun h => ?_
        obtain ⟨k, hk, hpred⟩ := Option.map_eq_some_iff.1 h
        have hk0 : k ≠ 0 := fun h => hzero (h ▸ hk)
        rw [hk, List.length_cons]
        exact congrArg some (by omega)

theorem digitRun_spec {least : Nat} {most : Option Nat} {s r : List Char} {ds : List Nat}
    (h : digitRun least most s = some (ds, r)) :
    ∃ cs, s = cs ++ r ∧ ds = cs.map digitValue ∧ (∀ c ∈ cs, c.isDigit) ∧ least ≤ cs.length ∧
      (∀ k ∈ most, cs.length ≤ k) ∧ (most = some cs.length ∨ Stops r) := by
  obtain ⟨cs, rest, rfl, hdigits, hcs, hmost, hend⟩ := digits_spec most s
  simp only [digitRun, hdigits, List.length_map] at h
  split at h
  · rename_i hleast
    cases h
    exact ⟨cs, rfl, rfl, hcs, hleast, hmost, hend⟩
  · cases h

/-- A number is taken from a numeral. -/
theorem number_spec {least most n : Nat} {s r : List Char} (h : number least most s = some (n, r)) :
    ∃ cs, s = cs ++ r ∧ IsNumeral cs n ∧ least ≤ cs.length ∧ cs.length ≤ most ∧
      (cs.length = most ∨ Stops r) := by
  simp only [number, bind_apply, resume_eq_some, pure_apply, Option.some.injEq, Prod.mk.injEq] at h
  obtain ⟨ds, rest, hrun, hn, rfl⟩ := h
  obtain ⟨cs, rfl, rfl, hcs, hleast, hmost, hend⟩ := digitRun_spec hrun
  exact ⟨cs, rfl, ⟨hcs, hn⟩, hleast, hmost most rfl,
    hend.imp_left fun he => (Option.some.inj he).symm⟩

/-! ### In front of the letter -/

/-- Nothing, or the letter for UTC. -/
def IsZone (z : List Char) : Prop := z = [] ∨ z = ['Z'] ∨ z = ['z']

theorem IsZone.stops {z : List Char} (hz : IsZone z) : Stops z := by
  rcases hz with rfl | rfl | rfl
  · exact stops_nil
  · exact stops_cons (by decide) _
  · exact stops_cons (by decide) _

theorem IsZone.head?_ne {z : List Char} (hz : IsZone z) {c : Char} (hc : c ≠ 'Z' ∧ c ≠ 'z') :
    z.head? ≠ some c := by
  rcases hz with rfl | rfl | rfl
  · exact nofun
  · exact fun h => hc.1 (Option.some.inj h).symm
  · exact fun h => hc.2 (Option.some.inj h).symm

theorem dropBlanks_append_zone {z : List Char} (hz : IsZone z) (s : List Char) :
    Text.dropBlanks (s ++ z) = Text.dropBlanks s ++ z := by
  obtain ⟨blank, hs, hblank⟩ := Text.exists_dropBlanks s
  have hhead : ∀ c ∈ (Text.dropBlanks s ++ z).head?, Text.isBlank c = false := by
    cases hd : Text.dropBlanks s with
    | nil => rcases hz with rfl | rfl | rfl <;> simp <;> decide
    | cons c rest =>
      rintro _ ⟨⟩
      exact Text.head?_dropBlanks s c (by rw [hd]; rfl)
  rw [hs, List.append_assoc, Text.dropBlanks_append hblank, Text.dropBlanks_eq_self hhead, ← hs]

/-- The letter is dropped from a text that does not end with one. -/
theorem dropZone_append_zone {s z : List Char} (hs : ∀ c ∈ s.getLast?, c ≠ 'Z' ∧ c ≠ 'z')
    (hz : IsZone z) : dropZone (s ++ z) = s := by
  unfold dropZone
  rcases hz with rfl | rfl | rfl
  · rw [List.append_nil]
    split
    · rename_i h
      exact absurd rfl (hs _ h).1
    · rename_i h
      exact absurd rfl (hs _ h).2
    · rfl
  · simp
  · simp

/-- The scanner takes a part without the letter for UTC, and takes the same part from a text that
goes on with the letter. -/
def Spares (p : Scanner α) : Prop :=
  ∀ s a r, p s = some (a, r) →
    ∃ front, s = front ++ r ∧ (∀ c ∈ front, c ≠ 'Z' ∧ c ≠ 'z') ∧
      ∀ z, IsZone z → p (s ++ z) = some (a, r ++ z)

theorem spares_pure (a : α) : Spares (pure a) := by
  intro s b r h
  cases h
  exact ⟨[], rfl, List.forall_mem_nil _, fun z _ => rfl⟩

theorem Spares.bind {p : Scanner α} {f : α → Scanner β} (hp : Spares p) (hf : ∀ a, Spares (f a)) :
    Spares (p >>= f) := by
  intro s b r h
  rw [bind_apply, resume_eq_some] at h
  obtain ⟨a, t, ha, hb⟩ := h
  obtain ⟨front, rfl, hfront, hlonger⟩ := hp s a t ha
  obtain ⟨back, rfl, hback, hlonger'⟩ := hf a t b r hb
  refine ⟨front ++ back, (List.append_assoc ..).symm, ?_, fun z hz => ?_⟩
  · exact List.forall_mem_append.2 ⟨hfront, hback⟩
  · rw [bind_apply, hlonger z hz, resume_some]
    exact hlonger' z hz

theorem Spares.map {p : Scanner α} (hp : Spares p) (f : α → β) :
    Spares fun s => (p s).map fun x => (f x.1, x.2) := by
  intro s b r h
  obtain ⟨⟨a, r⟩, ha, ⟨⟩⟩ := Option.map_eq_some_iff.1 h
  obtain ⟨front, hs, hfront, hlonger⟩ := hp s a r ha
  refine ⟨front, hs, hfront, fun z hz => ?_⟩
  show (p (s ++ z)).map _ = _
  rw [hlonger z hz, Option.map_some]

theorem spares_mark {c : Char} (hc : c ≠ 'Z' ∧ c ≠ 'z') : Spares (mark c) := by
  intro s a r h
  rw [mark_eq_some] at h
  subst h
  exact ⟨[c], rfl, List.forall_mem_singleton.2 hc, fun z _ => mark_cons c (r ++ z)⟩

theorem ne_of_isBlank {c : Char} (hc : Text.isBlank c) : c ≠ 'Z' ∧ c ≠ 'z' := by
  constructor <;> rintro rfl <;> exact absurd hc (by decide)

theorem ne_of_isDigit {c : Char} (hc : c.isDigit) : c ≠ 'Z' ∧ c ≠ 'z' := by
  constructor <;> rintro rfl <;> exact absurd hc (by decide)

theorem spares_blanks : Spares blanks := by
  intro s a r h
  cases h
  obtain ⟨blank, hs, hblank⟩ := Text.exists_dropBlanks s
  refine ⟨blank, hs, fun c hc => ne_of_isBlank (List.all_eq_true.1 hblank c hc), fun z hz => ?_⟩
  rw [blanks_apply, dropBlanks_append_zone hz]

theorem spares_digitRun (least : Nat) (most : Option Nat) : Spares (digitRun least most) := by
  intro s ds r h
  obtain ⟨cs, rfl, rfl, hcs, hleast, hmost, hend⟩ := digitRun_spec h
  refine ⟨cs, rfl, fun c hc => ne_of_isDigit (hcs c hc), fun z hz => ?_⟩
  rw [List.append_assoc]
  exact digitRun_append hcs hleast hmost (hend.imp_right (·.append hz.stops))

theorem spares_number (least most : Nat) : Spares (number least most) :=
  (spares_digitRun least (some most)).bind fun ds => spares_pure (value ds)

/-- Without a point there is nothing to be taken; behind a point there are digits. -/
theorem spares_fraction : Spares fraction := by
  intro s n r h
  by_cases hpoint : s.head? = some '.'
  · obtain ⟨s, rfl⟩ : ∃ t, s = '.' :: t := List.head?_eq_some_iff.1 hpoint
    obtain ⟨cs, rest, rfl, hdigits, hcs, hmost, hend⟩ := digits_spec none s
    have hstops : Stops rest := hend.resolve_left nofun
    cases cs with
    | nil =>
      simp only [fraction, hdigits, List.map_nil] at h
      cases h
    | cons c cs =>
      simp only [fraction, hdigits, List.map_cons, Option.some.injEq, Prod.mk.injEq] at h
      obtain ⟨rfl, rfl⟩ := h
      refine ⟨'.' :: c :: cs, rfl, ?_, fun z hz => ?_⟩
      · exact List.forall_mem_cons.2 ⟨by decide, fun x hx => ne_of_isDigit (hcs x hx)⟩
      · have hlonger := digits_append hcs hmost (.inr (hstops.append hz.stops))
        rw [List.cons_append, List.append_assoc]
        simp only [fraction, hlonger, List.map_cons]
  · rw [fraction_of_ne hpoint] at h
    cases h
    refine ⟨[], rfl, List.forall_mem_nil _, fun z hz => fraction_of_ne ?_⟩
    cases s with
    | nil => exact hz.head?_ne (by decide)
    | cons c s => exact hpoint

end Scanner

namespace Pattern

open Scanner

theorem spares_scanShort : Spares Item.scanShort :=
  spares_blanks.bind fun _ => spares_number 1 2

/-- A year behind its blanks. -/
def bareYear : Scanner Int := fun s =>
  match s with
  | '-' :: s => (digitRun 1 none s).map fun (ds, r) => (-(value ds : Int), r)
  | '+' :: s => (digitRun 1 none s).map fun (ds, r) => ((value ds : Int), r)
  | s => (digitRun 1 (some 4) s).map fun (ds, r) => ((value ds : Int), r)

theorem scanYear_eq (s : List Char) : Item.scanYear s = bareYear (Text.dropBlanks s) := rfl

/-- Behind a sign a year has any number of digits. -/
theorem bareYear_signed {c : Char} (hc : c = '-' ∨ c = '+') (s : List Char) :
    bareYear (c :: s) = (digitRun 1 none s).map fun x =>
      (if c = '-' then -(value x.1 : Int) else value x.1, x.2) := by
  rcases hc with rfl | rfl <;> rfl

/-- Without a sign it has four digits at most. -/
theorem bareYear_unsigned {s : List Char} (hs : ∀ c ∈ s.head?, ¬(c = '-' ∨ c = '+')) :
    bareYear s = (digitRun 1 (some 4) s).map fun x => ((value x.1 : Int), x.2) := by
  unfold bareYear
  split
  · exact absurd (.inl rfl) (hs '-' rfl)
  · exact absurd (.inr rfl) (hs '+' rfl)
  · rfl

/-- The head of the text decides in which of the two ways the year is taken, and the letter behind
the text leaves the head as it is. -/
theorem spares_bareYear : Spares bareYear := by
  intro s y r h
  by_cases hsign : ∃ c ∈ s.head?, c = '-' ∨ c = '+'
  · obtain ⟨c, hhead, hc⟩ := hsign
    obtain ⟨t, rfl⟩ := List.head?_eq_some_iff.1 hhead
    have hletter : c ≠ 'Z' ∧ c ≠ 'z' := by
      rcases hc with rfl | rfl <;> decide
    rw [bareYear_signed hc] at h
    have hspares := (spares_digitRun 1 none).map
      fun ds => if c = '-' then -(value ds : Int) else value ds
    obtain ⟨front, rfl, hfront, hlonger⟩ := hspares t y r h
    refine ⟨c :: front, rfl, List.forall_mem_cons.2 ⟨hletter, hfront⟩, fun z hz => ?_⟩
    rw [List.cons_append, bareYear_signed hc]
    exact hlonger z hz
  · have hplain : ∀ c ∈ s.head?, ¬(c = '-' ∨ c = '+') := fun c hc hor => hsign ⟨c, hc, hor⟩
    rw [bareYear_unsigned hplain] at h
    have hspares := (spares_digitRun 1 (some 4)).map fun ds => (value ds : Int)
    obtain ⟨front, hs, hfront, hlonger⟩ := hspares s y r h
    refine ⟨front, hs, hfront, fun z hz => ?_⟩
    have hlong : ∀ c ∈ (s ++ z).head?, ¬(c = '-' ∨ c = '+') := by
      cases s with
      | nil => rcases hz with rfl | rfl | rfl <;> simp
      | cons c s => exact hplain
    rw [bareYear_unsigned hlong]
    exact hlonger z hz

theorem spares_scanYear : Spares Item.scanYear :=
  spares_blanks.bind fun _ => spares_bareYear

/-- No mark of the pattern is the letter for UTC. -/
def HasNoZone (p : Pattern) : Prop := ∀ i ∈ p, i ≠ .mark 'Z' ∧ i ≠ .mark 'z'

/-- One part of a pattern, one scanner for each kind. -/
theorem spares_item (u : Stamp) {i : Item} (hi : i ≠ .mark 'Z' ∧ i ≠ .mark 'z') :
    Spares (i.scan u) := by
  cases i with
  | year => exact spares_scanYear.bind fun _ => spares_pure _
  | month | day | hour | minute | second => exact spares_scanShort.bind fun _ => spares_pure _
  | fraction => exact spares_fraction.bind fun _ => spares_pure _
  | blanks => exact spares_blanks.bind fun _ => spares_pure _
  | mark c =>
    have hc : c ≠ 'Z' ∧ c ≠ 'z' := ⟨fun h => hi.1 (h ▸ rfl), fun h => hi.2 (h ▸ rfl)⟩
    exact (spares_mark hc).bind fun _ => spares_pure _

/-- **A pattern takes nothing of the letter behind a text**, and the same where the letter is. -/
theorem spares_scan (u : Stamp) {p : Pattern} (hp : p.HasNoZone) : Spares (p.scan u) := by
  induction p generalizing u with
  | nil => exact spares_pure u
  | cons i p ih =>
    rw [HasNoZone, List.forall_mem_cons] at hp
    exact (spares_item u hp.1).bind fun u => ih u hp.2

theorem hasNoZone_of_mem_localTimes {p : Pattern} (hp : p ∈ localTimes) : p.HasNoZone := by
  have hall : ∀ p ∈ localTimes, ∀ i ∈ p, i ≠ .mark 'Z' ∧ i ≠ .mark 'z' := by decide
  exact hall p hp

/-! ### The offset -/

theorem offset_item {u t : Stamp} {i : Item} {s r : List Char} (h : i.scan u s = some (t, r)) :
    t.offset = u.offset := by
  cases i <;>
    · simp only [Item.scan, bind_apply, resume_eq_some, pure_apply, Option.some.injEq,
        Prod.mk.injEq] at h
      obtain ⟨_, _, _, rfl, _⟩ := h
      rfl

/-- No pattern says anything of the offset. -/
theorem offset_scan {u t : Stamp} {p : Pattern} {s r : List Char}
    (h : p.scan u s = some (t, r)) : t.offset = u.offset := by
  induction p generalizing u s with
  | nil =>
    cases h
    rfl
  | cons i p ih =>
    rw [scan_cons, resume_eq_some] at h
    obtain ⟨v, s', hv, ht⟩ := h
    rw [ih ht, offset_item hv]

end Pattern

end Herald.Time
