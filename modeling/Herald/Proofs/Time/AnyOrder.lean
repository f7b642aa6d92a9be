import Herald.Proofs.Time.Mail
import Herald.Proofs.Time.Sparing

/-!
# The order of the readings

A timestamp may be read in several ways, and the first one that succeeds counts. But each of them is
a part of one and the same way: if a day is in front, what stands behind it decides how to go on.

* `jointly?`: this one way;
* `jointly?_of_internet`, `jointly?_of_mail`, `jointly?_of_local`, `jointly?_of_date`: what is read
  by one of the ways is read by it as well, and as the same instant;
* `order_of_readings_is_immaterial`: so the ways to read a timestamp may be tried in any order, and
  the letter for UTC may follow a time without an offset.
-/

namespace Herald.Time

open Scanner

/-! ### One way for all -/

/-- The end of a time: an offset, or nothing for UTC. -/
def atOffset (t : Stamp) (s : List Char) : Option Stamp :=
  if s = [] then some t else (Internet.zone.whole s).map fun offset => { t with offset := offset }

/-- A time of the day and its offset. A colon behind the minutes says that seconds follow. -/
def atClock (t : Stamp) (s : List Char) : Option Stamp :=
  match Pattern.minutes.scan t s with
  | some (t, r) =>
    if r.head? = some ':' then
      (Pattern.scan t [.mark ':', .second, .fraction] r).bind fun (t, r) => atOffset t r
    else atOffset t r
  | none => none

/-- What follows the letter or the blanks between a day and a time of the day. -/
def dropSeparator : List Char → List Char
  | 'T' :: s | 't' :: s => s
  | s => Text.dropBlanks s

/-- The rest of a time behind its day. -/
def behindDay (t : Stamp) (s : List Char) : Option Stamp :=
  if s = [] then some t else atClock t (dropSeparator s)

/-- The instant of a text in any of the forms: times of mail have no day in front. -/
def jointly? (s : List Char) : Option Instant :=
  match Pattern.date.scan .blank s with
  | some (t, r) => (behindDay t r).bind Stamp.instant?
  | none => Mail.instant? s

theorem jointly?_of_scan {s r : List Char} {t u : Stamp} {i : Instant}
    (hdate : Pattern.date.scan .blank s = some (t, r)) (hrest : behindDay t r = some u)
    (hi : u.instant? = some i) : jointly? s = some i := by
  simp only [jointly?, hdate, hrest, Option.bind_some, hi]

theorem atOffset_zone {t : Stamp} (ht : t.offset = 0) {z : List Char} (hz : IsZone z) :
    atOffset t z = some t := by
  have hutc : { t with offset := 0 } = t := by rw [← ht]
  rcases hz with rfl | rfl | rfl
  · rfl
  · exact congrArg some hutc
  · exact congrArg some hutc

/-- A time of the day with its seconds, or one without them that has no colon behind it. -/
theorem atClock_of_scan {q : Pattern} {t u : Stamp} {s r : List Char}
    (hq : q = Pattern.seconds ∨ q = Pattern.minutes ∧ r.head? ≠ some ':')
    (h : q.scan t s = some (u, r)) : atClock t s = atOffset u r := by
  rcases hq with rfl | ⟨rfl, hr⟩
  · rw [Pattern.seconds, Pattern.scan_append, resume_eq_some] at h
    obtain ⟨v, r', hminutes, hseconds⟩ := h
    have hcolon : r'.head? = some ':' := by
      simp only [Pattern.scan_cons, Item.scan, bind_apply, resume_eq_some, mark_eq_some] at hseconds
      obtain ⟨_, _, ⟨_, _, rfl, _⟩, _⟩ := hseconds
      rfl
    simp only [atClock, hminutes, hcolon, if_true, hseconds, Option.bind_some]
  · simp only [atClock, h, hr, if_false]

/-- A time of the day begins with a digit. -/
theorem isDigit_of_scan {q : Pattern} {t : Stamp} {s : List Char} {x : Stamp × List Char}
    (h : Pattern.scan t (.hour :: q) s = some x) : ∃ c ∈ (Text.dropBlanks s).head?, c.isDigit := by
  simp only [Pattern.scan_cons, Item.scan, Item.scanShort, bind_apply, blanks_apply, resume_some,
    resume_eq_some] at h
  obtain ⟨_, _, ⟨_, _, hnumber, _⟩, _⟩ := h
  obtain ⟨cs, hs, hcs, hleast, -⟩ := number_spec hnumber
  cases cs with
  | nil => cases hleast
  | cons c cs =>
    rw [hs]
    exact ⟨c, rfl, hcs.digits c List.mem_cons_self⟩

/-- In front of a time of the day the blanks are dropped, if any. -/
theorem behindDay_blanks {q : Pattern} {t : Stamp} {s : List Char} {x : Stamp × List Char}
    (h : Pattern.scan t (.hour :: q) (Text.dropBlanks s) = some x) :
    behindDay t s = atClock t (Text.dropBlanks s) := by
  obtain ⟨c, hc, hdigit⟩ := isDigit_of_scan h
  rw [Text.dropBlanks_eq_self (Text.head?_dropBlanks s)] at hc
  have hne : s ≠ [] := by
    rintro rfl
    cases hc
  have hletter {l : Char} (hl : Text.isBlank l = false) (hd : l.isDigit = false) (r : List Char) :
      s ≠ l :: r := by
    rintro rfl
    rw [Text.dropBlanks_cons_of_not_blank hl] at hc
    cases hc
    rw [hd] at hdigit
    cases hdigit
  rw [behindDay, if_neg hne]
  unfold dropSeparator
  split
  · exact absurd rfl (hletter (by decide) (by decide) _)
  · exact absurd rfl (hletter (by decide) (by decide) _)
  · rfl

/-! ### Each way is a part of it -/

/-- A day alone has nothing behind it. -/
theorem jointly?_of_date {s : List Char} {i : Instant} (h : Pattern.date.instant? s = some i) :
    jointly? s = some i := by
  obtain ⟨t, ht, hi⟩ := Option.bind_eq_some_iff.1 h
  exact jointly?_of_scan (whole_eq_some_iff.1 ht) rfl hi

/-- The part between the day and the time of the day. -/
theorem mem_localTimes {p : Pattern} (hp : p ∈ Pattern.localTimes) :
    ∃ separator q, p = Pattern.date ++ (separator :: .hour :: q) ∧
      (separator = .mark 'T' ∨ separator = .blanks) ∧
      (Item.hour :: q = Pattern.seconds ∨ Item.hour :: q = Pattern.minutes) := by
  simp only [Pattern.localTimes, List.mem_cons, List.not_mem_nil, or_false] at hp
  rcases hp with rfl | rfl | rfl | rfl
  · exact ⟨.mark 'T', _, rfl, .inl rfl, .inl rfl⟩
  · exact ⟨.mark 'T', _, rfl, .inl rfl, .inr rfl⟩
  · exact ⟨.blanks, _, rfl, .inr rfl, .inl rfl⟩
  · exact ⟨.blanks, _, rfl, .inr rfl, .inr rfl⟩

/-- A time without an offset may have the letter for UTC behind it. -/
theorem jointly?_of_local {p : Pattern} (hp : p ∈ Pattern.localTimes) {s z : List Char}
    {i : Instant} (hz : IsZone z) (h : p.instant? s = some i) : jointly? (s ++ z) = some i := by
  obtain ⟨t, ht, hi⟩ := Option.bind_eq_some_iff.1 h
  rw [whole_eq_some_iff] at ht
  have hutc : t.offset = 0 := Pattern.offset_scan ht
  have hspares := Pattern.spares_scan .blank (Pattern.hasNoZone_of_mem_localTimes hp)
  -- With the letter behind it the text is scanned as it is without, and the letter is left.
  obtain ⟨-, -, -, hlonger⟩ := hspares s t [] ht
  have hscan := hlonger z hz
  obtain ⟨separator, q, rfl, hseparator, hq⟩ := mem_localTimes hp
  rw [Pattern.scan_append, resume_eq_some] at hscan
  obtain ⟨u, r, hdate, hrest⟩ := hscan
  rw [List.nil_append] at hrest
  have hclock : Item.hour :: q = Pattern.seconds ∨
      Item.hour :: q = Pattern.minutes ∧ z.head? ≠ some ':' :=
    hq.imp_right fun hq => ⟨hq, hz.head?_ne (by decide)⟩
  refine jointly?_of_scan hdate ?_ hi
  rw [Pattern.scan_cons] at hrest
  rcases hseparator with rfl | rfl
  · simp only [Item.scan, bind_apply, resume_eq_some, mark_eq_some, pure_apply, Option.some.injEq,
      Prod.mk.injEq] at hrest
    obtain ⟨_, r', ⟨_, _, rfl, rfl, rfl⟩, hrest⟩ := hrest
    rw [behindDay, if_neg (List.cons_ne_nil _ _)]
    exact (atClock_of_scan hclock hrest).trans (atOffset_zone hutc hz)
  · simp only [Item.scan, bind_apply, blanks_apply, resume_some, pure_apply] at hrest
    rw [behindDay_blanks hrest]
    exact (atClock_of_scan hclock hrest).trans (atOffset_zone hutc hz)

theorem scanShort_of_two {s r : List Char} {n : Nat} (h : Internet.two s = some (n, r)) :
    Item.scanShort s = some (n, r) := by
  obtain ⟨cs, rfl, hcs, hleast, hmost, -⟩ := number_spec h
  have hlength : cs.length = 2 := Nat.le_antisymm hmost hleast
  have hpos : cs ≠ [] := List.ne_nil_of_length_pos (by omega)
  simp only [Item.scanShort, bind_apply, blanks_apply, resume_some,
    dropBlanks_numeral hcs.digits hpos]
  exact number_append hcs (by omega) hmost (.inl hlength)

/-- No blank is in front of a number. -/
theorem dropBlanks_of_number {least most : Nat} {s : List Char} {x : Nat × List Char}
    (hleast : 0 < least) (h : number least most s = some x) : Text.dropBlanks s = s := by
  obtain ⟨cs, rfl, hcs, hle, -⟩ := number_spec h
  exact dropBlanks_numeral hcs.digits (List.ne_nil_of_length_pos (by omega)) x.2

/-- A number of four digits at most is a year, if blanks are in front or not. -/
theorem scanYear_of_number {least n : Nat} {s r : List Char} (hleast : 0 < least)
    (h : number least 4 (Text.dropBlanks s) = some (n, r)) :
    Item.scanYear s = some ((n : Int), r) := by
  obtain ⟨cs, hs, hcs, hle, hmost, hend⟩ := number_spec h
  have hpos : cs ≠ [] := List.ne_nil_of_length_pos (by omega)
  have hrun : digitRun 1 (some 4) (cs ++ r) = some (cs.map digitValue, r) :=
    digitRun_append hcs.digits (by omega) (fun k hk => by cases hk; exact hmost)
      (hend.imp_left fun h => congrArg some h.symm)
  have hsign : ∀ c ∈ (Text.dropBlanks s).head?, ¬(c = '-' ∨ c = '+') := by
    rw [hs, List.head?_append_of_ne_nil _ hpos]
    intro c hc hor
    have hdigit := hcs.digits c (List.mem_of_head? hc)
    rcases hor with rfl | rfl <;> exact absurd hdigit (by decide)
  rw [Pattern.scanYear_eq, Pattern.bareYear_unsigned hsign, hs, hrun, Option.map_some, hcs.value]

/-- By RFC 3339 day and time of the day have the fields of a pattern, only that all numbers have
their full width. -/
theorem jointly?_of_internet {s : List Char} {i : Instant} (h : Internet.instant? s = some i) :
    jointly? s = some i := by
  obtain ⟨t, ht, hi⟩ := Option.bind_eq_some_iff.1 h
  rw [whole_eq_some_iff] at ht
  -- The scan is taken apart into its fields, and the scans of the patterns are made of these.
  simp only [Internet.stamp, bind_apply, resume_eq_some, mark_eq_some, oneOf_eq_some,
    pure_apply] at ht
  obtain ⟨year, _, hyear, _, months, rfl, month, _, hmonth, _, _, rfl, day, _, hday,
    c, r, ⟨rfl, hc⟩, hour, _, hhour, _, _, rfl, minute, _, hminute, _, _, rfl,
    second, _, hsecond, nanos, rest, hnanos, offset, _, hoffset, he⟩ := ht
  obtain ⟨rfl, rfl⟩ := Prod.mk.inj (Option.some.inj he)
  have hfour : (0 : Nat) < 4 := by decide
  have hyear' : Item.scanYear s = some ((year : Int), '-' :: months) :=
    scanYear_of_number hfour (by rwa [dropBlanks_of_number hfour hyear])
  have hdate : Pattern.date.scan .blank s
      = some ({ Stamp.blank with year := year, month := month, day := day }, c :: r) := by
    simp only [Pattern.date, Pattern.scan_cons, Pattern.scan_nil, Item.scan, bind_apply,
      hyear', scanShort_of_two hmonth, scanShort_of_two hday,
      mark_cons, resume_some, pure_apply]
  have hclock (t : Stamp) : Pattern.seconds.scan t r
      = some ({ t with hour := hour, minute := minute, second := second, nanos := nanos },
          rest) := by
    simp only [Pattern.seconds, Pattern.minutes, List.cons_append, List.nil_append,
      Pattern.scan_cons, Pattern.scan_nil, Item.scan, bind_apply, scanShort_of_two hhour,
      scanShort_of_two hminute, scanShort_of_two hsecond, hnanos, mark_cons, resume_some,
      pure_apply]
  have hseparator : dropSeparator (c :: r) = r := by
    simp only [List.mem_cons, List.not_mem_nil, or_false] at hc
    rcases hc with rfl | rfl | rfl
    · rfl
    · rfl
    · exact dropBlanks_of_number (by decide) hhour
  have hne : rest ≠ [] := by
    rintro rfl
    cases hoffset
  refine jointly?_of_scan hdate ?_ hi
  rw [behindDay, if_neg (List.cons_ne_nil _ _), hseparator, atClock_of_scan (.inl rfl) (hclock _),
    atOffset, if_neg hne, whole_eq_some hoffset]
  rfl

/-! ### Times of mail -/

/-- A weekday begins with a letter. -/
theorem isAlpha_of_name {c : Char} {s r : List Char} {k : Nat}
    (h : name Date.weekdayNames (c :: s) = some (k, r)) : c.toLower.isAlpha := by
  have hletters : ∀ w ∈ Date.weekdayNames,
      ∀ x ∈ (w.toList.map Char.toLower).head?, x.isAlpha := by simp [Date.weekdayNames]
  unfold name at h
  split at h
  · rename_i x y z rest he
    cases he
    split at h
    · rename_i j hj
      obtain ⟨hlt, hmatch, -⟩ := List.findIdx?_eq_some_iff_getElem.1 hj
      refine hletters _ (List.getElem_mem hlt) _ ?_
      rw [eq_of_beq hmatch]
      rfl
    · cases h
  · cases h

/-- A year begins with a sign or a digit. -/
theorem scanYear_eq_none {s : List Char}
    (hs : ∀ c ∈ (Text.dropBlanks s).head?, ¬(c = '-' ∨ c = '+') ∧ c.isDigit = false) :
    Item.scanYear s = none := by
  have hstops : Stops (Text.dropBlanks s) := fun c hc => (hs c hc).2
  rw [Pattern.scanYear_eq, Pattern.bareYear_unsigned fun c hc => (hs c hc).1, digitRun,
    digits_of_stops _ hstops]
  rfl

theorem exists_scanYear_of_scan_date {s : List Char} {x : Stamp × List Char}
    (h : Pattern.date.scan .blank s = some x) :
    ∃ year r, Item.scanYear s = some (year, '-' :: r) := by
  simp only [Pattern.date, Pattern.scan_cons, Item.scan, bind_apply, resume_eq_some, mark_eq_some,
    pure_apply, Option.some.injEq, Prod.mk.injEq] at h
  obtain ⟨_, _, ⟨year, _, hyear, rfl, rfl⟩, _, r, ⟨_, _, rfl, _⟩, _⟩ := h
  exact ⟨year, _, hyear⟩

theorem someBlanks_eq_some {s : List Char} {x : Unit × List Char} (h : someBlanks s = some x) :
    ∃ c r, s = c :: r ∧ Text.isBlank c := by
  cases s with
  | nil => cases h
  | cons c s =>
    by_cases hc : Text.isBlank c
    · exact ⟨c, s, rfl, hc⟩
    · simp [someBlanks, hc] at h

/-- In front of a time of mail there is a weekday, or a number with a blank behind it. -/
theorem front_of_mail {s : List Char} {i : Instant} (h : Mail.instant? s = some i) :
    (∃ x, name Date.weekdayNames (Text.dropBlanks s) = some x) ∨
      ∃ day c r, number 1 2 (Text.dropBlanks s) = some (day, c :: r) ∧ Text.isBlank c := by
  obtain ⟨t, ht, -⟩ := Option.bind_eq_some_iff.1 h
  rw [whole_eq_some_iff] at ht
  simp only [Mail.commented, Mail.stamp, bind_apply, resume_eq_some, blanks_apply,
    resume_some] at ht
  obtain ⟨_, _, ⟨weekday, r, hweekday, day, _, hday, _, _, hblanks, _⟩, _⟩ := ht
  obtain ⟨c, r', rfl, hc⟩ := someBlanks_eq_some hblanks
  cases hname : name Date.weekdayNames (Text.dropBlanks s) with
  | some x => exact .inl ⟨x, rfl⟩
  | none =>
    simp only [Mail.weekday, hname] at hweekday
    cases hweekday
    rw [Text.dropBlanks_eq_self (Text.head?_dropBlanks s)] at hday
    exact .inr ⟨day, c, r', hday, hc⟩

/-- A time of mail has no day in front: a weekday begins with a letter, and a blank is no mark. -/
theorem scan_date_of_mail {s : List Char} {i : Instant} (h : Mail.instant? s = some i) :
    Pattern.date.scan .blank s = none := by
  refine Option.eq_none_iff_forall_ne_some.2 fun x hx => ?_
  obtain ⟨year, rest, hyear⟩ := exists_scanYear_of_scan_date hx
  rcases front_of_mail h with ⟨⟨k, r⟩, hname⟩ | ⟨day, b, r, hday, hb⟩
  · have hletter : ∀ c ∈ (Text.dropBlanks s).head?, ¬(c = '-' ∨ c = '+') ∧ c.isDigit = false := by
      intro c hc
      obtain ⟨t, ht⟩ := List.head?_eq_some_iff.1 hc
      rw [ht] at hname
      have halpha := isAlpha_of_name hname
      refine ⟨by rintro (rfl | rfl) <;> exact absurd halpha (by decide), ?_⟩
      refine Bool.eq_false_iff.2 fun hdigit => ?_
      rw [Mail.name_of_isDigit hdigit] at hname
      cases hname
    rw [scanYear_eq_none hletter] at hyear
    cases hyear
  -- The year would be the number of the day, with the blank where its mark should be.
  · obtain ⟨cs, hs, hcs, hleast, hmost, -⟩ := number_spec hday
    have hdigit : b.isDigit = false :=
      Bool.eq_false_iff.2 fun hd => Bool.false_ne_true ((Text.isBlank_of_isDigit hd).symm.trans hb)
    have hstops : Stops (b :: r) := stops_cons hdigit r
    have hfour : number 1 4 (Text.dropBlanks s) = some (day, b :: r) := by
      rw [hs]
      exact number_append hcs hleast (by omega) (.inr hstops)
    rw [scanYear_of_number (by decide) hfour] at hyear
    cases hyear
    exact absurd hb (by decide)

theorem jointly?_of_mail {s : List Char} {i : Instant} (h : Mail.instant? s = some i) :
    jointly? s = some i := by
  rw [jointly?, scan_date_of_mail h]
  exact h

/-! ### Any order -/

theorem exists_zone (s : List Char) : ∃ z, IsZone z ∧ s = dropZone s ++ z := by
  have hlast {c : Char} (h : s.getLast? = some c) : s = s.dropLast ++ [c] :=
    (List.dropLast_append_getLast? c h).symm
  unfold dropZone
  split
  · rename_i h
    exact ⟨['Z'], .inr (.inl rfl), hlast h⟩
  · rename_i h
    exact ⟨['z'], .inr (.inr rfl), hlast h⟩
  · exact ⟨[], .inl rfl, (List.append_nil s).symm⟩

theorem trim_append_zone {s z : List Char} (hs : Text.trim s = s) (hz : IsZone z) :
    Text.trim (s ++ z) = s ++ z := by
  rcases hz with rfl | rfl | rfl
  · rwa [List.append_nil]
  · exact Text.trim_append_singleton hs (by decide)
  · exact Text.trim_append_singleton hs (by decide)

/-- **Whatever one of the ways reads, the joint way reads too**, and as the same instant. -/
theorem jointly?_of_mem_readings {f : List Char → Option Instant} (hf : f ∈ readings)
    {s : List Char} {i : Instant} (h : f s = some i) : jointly? s = some i := by
  simp only [readings, List.mem_append, List.mem_cons, List.mem_map, List.not_mem_nil, or_false]
    at hf
  rcases hf with (((rfl | rfl) | ⟨p, hp, rfl⟩) | rfl)
  · exact jointly?_of_internet h
  · exact jointly?_of_mail h
  · obtain ⟨z, hz, hs⟩ := exists_zone s
    rw [hs]
    exact jointly?_of_local hp hz h
  · exact jointly?_of_date h

/-- The first of some ways that succeeds gives what any of them gives. -/
theorem findSome?_eq_some_iff {fs : List (List Char → Option Instant)} (hfs : fs ⊆ readings)
    {s : List Char} {i : Instant} : fs.findSome? (· s) = some i ↔ ∃ f ∈ fs, f s = some i := by
  refine ⟨List.exists_of_findSome?_eq_some, ?_⟩
  rintro ⟨f, hf, hi⟩
  cases hfirst : fs.findSome? (· s) with
  | none => rw [List.findSome?_eq_none_iff.1 hfirst f hf] at hi; cases hi
  | some j =>
    obtain ⟨g, hg, hj⟩ := List.exists_of_findSome?_eq_some hfirst
    rw [← jointly?_of_mem_readings (hfs hg) hj, jointly?_of_mem_readings (hfs hf) hi]

/-- In any order the ways give the same answer. -/
theorem findSome?_eq_timestamp? {fs : List (List Char → Option Instant)} (h : fs.Perm readings)
    (s : String) : fs.findSome? (· (Text.trim s.toList)) = timestamp? s := by
  refine Option.ext fun i => ?_
  rw [timestamp?, findSome?_eq_some_iff h.subset, findSome?_eq_some_iff (List.Subset.refl _)]
  simp only [h.mem_iff]

/-- A text without blanks around it that a pattern takes is read as this pattern has it, with the
letter for UTC behind it or without. -/
theorem timestamp?_of_local {s : String} (hs : Text.trim s.toList = s.toList) {p : Pattern}
    (hp : p ∈ Pattern.localTimes) {i : Instant} (h : p.instant? s.toList = some i) (zone : String)
    (hzone : IsZone zone.toList) : timestamp? (s ++ zone) = some i := by
  obtain ⟨t, ht, -⟩ := Option.bind_eq_some_iff.1 h
  have hspares := Pattern.spares_scan .blank (Pattern.hasNoZone_of_mem_localTimes hp)
  obtain ⟨front, hfront, hletters, -⟩ := hspares _ t [] (whole_eq_some_iff.1 ht)
  rw [List.append_nil] at hfront
  have hlast : ∀ c ∈ s.toList.getLast?, c ≠ 'Z' ∧ c ≠ 'z' := by
    intro c hc
    exact hletters c (hfront ▸ List.mem_of_getLast? hc)
  have hmem : (fun t => p.instant? (dropZone t)) ∈ readings := by
    simp only [readings, List.mem_append, List.mem_map]
    exact .inl (.inr ⟨p, hp, rfl⟩)
  have hread : p.instant? (dropZone (s.toList ++ zone.toList)) = some i := by
    rwa [dropZone_append_zone hlast hzone]
  rw [timestamp?, String.toList_append, trim_append_zone hs hzone,
    findSome?_eq_some_iff (List.Subset.refl _)]
  exact ⟨_, hmem, hread⟩

/-- **The order of the readings is immaterial.** Two of them that succeed give the same instant, so
any order of them gives the same answer; and the letter for UTC behind a text without blanks around
it that is a time without an offset already changes nothing. -/
theorem order_of_readings_is_immaterial :
    (∀ s : String, ∀ f ∈ readings, ∀ g ∈ readings, ∀ i j : Instant,
        f (Text.trim s.toList) = some i → g (Text.trim s.toList) = some j → i = j) ∧
      (∀ fs : List (List Char → Option Instant), fs.Perm readings →
        ∀ s : String, fs.findSome? (· (Text.trim s.toList)) = timestamp? s) ∧
      ∀ s : String, Text.trim s.toList = s.toList →
        ∀ p ∈ Pattern.localTimes, ∀ i : Instant, p.instant? s.toList = some i →
          timestamp? s = some i ∧
            ∀ zone : String, zone = "Z" ∨ zone = "z" → timestamp? (s ++ zone) = timestamp? s := by
  refine ⟨fun s f hf g hg i j hi hj => ?_, fun fs hfs s => findSome?_eq_timestamp? hfs s, ?_⟩
  · have hjoint := jointly?_of_mem_readings hf hi
    rw [jointly?_of_mem_readings hg hj] at hjoint
    exact (Option.some.inj hjoint).symm
  · intro s hs p hp i h
    have hplain := timestamp?_of_local hs hp h "" (.inl rfl)
    rw [String.append_empty] at hplain
    refine ⟨hplain, fun zone hzone => ?_⟩
    have hletter : IsZone zone.toList := by
      rcases hzone with rfl | rfl
      · exact .inr (.inl rfl)
      · exact .inr (.inr rfl)
    rw [hplain, timestamp?_of_local hs hp h zone hletter]

/-- A leap second with its fraction is read by RFC 3339 and by a pattern, in either order. -/
theorem leapSecond_in_any_order :
    Text.trim " 2016-12-31T23:59:60.25Z\n".toList = "2016-12-31T23:59:60.25Z".toList ∧
      Text.trim "2016-12-31 23:59:60.25".toList = "2016-12-31 23:59:60.25".toList ∧
      (∀ f ∈ readings, ∀ i, f "2016-12-31T23:59:60.25Z".toList = some i →
        i = ⟨1483228799, 1250000000⟩) ∧
      readings.reverse.findSome? (· "2016-12-31T23:59:60.25Z".toList)
        = some ⟨1483228799, 1250000000⟩ ∧
      timestamp? ("2016-12-31 23:59:60.25" ++ "z") = some ⟨1483228799, 1250000000⟩ := by
  have htrim : Text.trim " 2016-12-31T23:59:60.25Z\n".toList
      = "2016-12-31T23:59:60.25Z".toList := rfl
  have hplain : Text.trim "2016-12-31 23:59:60.25".toList = "2016-12-31 23:59:60.25".toList := rfl
  have hread : Internet.instant? "2016-12-31T23:59:60.25Z".toList
      = some ⟨1483228799, 1250000000⟩ := rfl
  have hfirst : timestamp? " 2016-12-31T23:59:60.25Z\n" = some ⟨1483228799, 1250000000⟩ := rfl
  have hlocal : Pattern.instant? (Pattern.date ++ [.blanks] ++ Pattern.seconds)
      "2016-12-31 23:59:60.25".toList = some ⟨1483228799, 1250000000⟩ := by decide +kernel
  obtain ⟨hagree, hperm, hzone⟩ := order_of_readings_is_immaterial
  refine ⟨htrim, hplain, fun f hf i hi => ?_, ?_, ?_⟩
  · rw [← htrim] at hi hread
    exact hagree _ f hf Internet.instant? List.mem_cons_self i _ hi hread
  · rw [← htrim, hperm _ (List.reverse_perm _), hfirst]
  · obtain ⟨hvalue, hletter⟩ := hzone _ hplain _ (by decide) _ hlocal
    rw [hletter "z" (.inr rfl), hvalue]

end Herald.Time
