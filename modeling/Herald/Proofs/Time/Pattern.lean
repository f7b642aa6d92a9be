import Herald.Proofs.Time.Spelling
import Herald.Time.Pattern

/-!
# What is spelled by a pattern

* `findSome?_localTimes`: a day and a time of the day are read by one of the patterns for times
  without an offset, with seconds or without;
* `findSome?_localTimes_dayText`, `instant?_dayText`: a day alone is not, but is read as its
  beginning by the pattern of a day.
-/

namespace Herald.Time.Pattern

open Scanner Date

variable {n : Int} {t : Nat}

theorem scan_cons (u : Stamp) (i : Item) (p : Pattern) (s : List Char) :
    scan u (i :: p) s = resume (i.scan u s) fun u => scan u p := bind_apply _ _ s

theorem scan_nil (u : Stamp) (s : List Char) : scan u [] s = some (u, s) := rfl

/-- A pattern is followed part by part. -/
theorem scan_append (u : Stamp) (p q : Pattern) (s : List Char) :
    scan u (p ++ q) s = resume (scan u p s) fun u => scan u q := by
  induction p generalizing u s with
  | nil => rfl
  | cons i p ih =>
    rw [List.cons_append, scan_cons, scan_cons]
    cases i.scan u s with
    | none => rfl
    | some x => exact ih x.1 x.2

/-- A numeral has no sign in front. -/
theorem numeral_ne_cons {cs : List Char} (hcs : ∀ c ∈ cs, c.isDigit) (hpos : cs ≠ []) {c : Char}
    (hc : c.isDigit = false) (r s : List Char) : cs ++ r ≠ c :: s := by
  cases cs with
  | nil => exact absurd rfl hpos
  | cons x cs =>
    intro he
    have hx := hcs x List.mem_cons_self
    rw [(List.cons.inj he).1, hc] at hx
    cases hx

theorem scanYear_padded {k : Nat} (hk : k < Nat.pow 10 4) (r : List Char) :
    Item.scanYear ((padded 4 k).toList ++ r) = some ((k : Int), r) := by
  have hnum := isNumeral_padded 4 k
  have hlength : (padded 4 k).toList.length = 4 := length_padded (by decide) hk
  have hrun : digitRun 1 (some 4) ((padded 4 k).toList ++ r)
      = some ((padded 4 k).toList.map digitValue, r) :=
    digitRun_append hnum.digits (by omega) (fun j hj => by cases hj; omega)
      (.inl (congrArg some hlength.symm))
  have hsign {c : Char} (hc : c.isDigit = false) (s : List Char) :=
    numeral_ne_cons hnum.digits (padded_ne_nil 4 k) hc r s
  simp only [Item.scanYear, bind_apply, blanks_apply, resume_some, dropBlanks_padded]
  split
  · rename_i s he
    exact absurd he (hsign (by decide) s)
  · rename_i s he
    exact absurd he (hsign (by decide) s)
  · rw [hrun, Option.map_some, hnum.value]

theorem scanShort_padded {k : Nat} (hk : k < Nat.pow 10 2) (r : List Char) :
    Item.scanShort ((padded 2 k).toList ++ r) = some (k, r) := by
  simp only [Item.scanShort, bind_apply, blanks_apply, resume_some, dropBlanks_padded]
  exact number_padded 1 (by decide) (by decide) hk r

/-- A day is read as it is written. -/
theorem scan_date (u : Stamp) (hn : HasFourDigits n) (r : List Char) :
    scan u date ((dayText n).toList ++ r)
      = some ({ u with year := (ofDay n).year, month := (ofDay n).month, day := (ofDay n).day },
          r) := by
  have hyear : ((ofDay n).year.toNat : Int) = (ofDay n).year := Int.toNat_of_nonneg hn.1
  simp only [date, scan_cons, scan_nil, Item.scan, toList_dayText, bind_apply, resume_some,
    pure_apply, mark_cons, scanYear_padded (year_lt hn), scanShort_padded (month_lt n),
    scanShort_padded (day_lt n), hyear]

/-- A time of the day up to the minutes is read as it is written. -/
theorem scan_minutes (u : Stamp) (ht : t < 86400000) (r : List Char) :
    scan u minutes ((minutesText t).toList ++ r)
      = some ({ u with hour := t / 3600000, minute := t / 60000 % 60 }, r) := by
  simp only [minutes, scan_cons, scan_nil, Item.scan, toList_minutesText, bind_apply, resume_some,
    pure_apply, mark_cons, scanShort_padded (hour_lt ht), scanShort_padded (minute_lt t)]

/-- The pattern of a time of the day. -/
def ofPrecision : Precision → Pattern
  | .minutes => minutes
  | .seconds | .millis => seconds

/-- A time of the day is read as it is written. -/
theorem scan_clockText (n : Int) (p : Precision) (ht : t < 86400000) :
    scan (stampAt none n .minutes 0 0) (ofPrecision p) (clockText p t).toList
      = some (stampAt none n p t 0, []) := by
  have htext := toList_clockText p t []
  have hends : Ends [] := ⟨stops_nil, by simp⟩
  rw [List.append_nil] at htext
  by_cases hp : p = .minutes
  · rw [htext, hp, ofPrecision, scan_minutes _ ht]
    rfl
  · have hpattern : ofPrecision p = minutes ++ [.mark ':', .second, .fraction] := by
      cases p with
      | minutes => exact absurd rfl hp
      | seconds | millis => rfl
    have hfraction := fraction_fractionText p t hends
    rw [List.append_nil] at hfraction
    rw [htext, hpattern, scan_append, scan_minutes _ ht, toList_text hp]
    simp only [resume_some, scan_cons, scan_nil, Item.scan, bind_apply, pure_apply, mark_cons,
      scanShort_padded (second_lt t), List.append_nil, hfraction]
    rw [← second_eq hp]
    rfl

/-- There are no seconds to be read where none are written. -/
theorem scan_seconds_minutesText (u : Stamp) (ht : t < 86400000) :
    scan u seconds (clockText .minutes t).toList = none := by
  have htext := toList_clockText .minutes t []
  rw [List.append_nil] at htext
  rw [htext, seconds, scan_append, scan_minutes u ht]
  rfl

/-- The day is taken first; a mark or blanks and the time of the day follow. -/
theorem scan_dayText (hn : HasFourDigits n) (i : Item) (q : Pattern) (r : List Char) :
    scan .blank (date ++ [i] ++ q) ((dayText n).toList ++ r)
      = resume (i.scan (stampAt none n .minutes 0 0) r) fun u => scan u q := by
  rw [List.append_assoc, scan_append, scan_date .blank hn, resume_some, List.singleton_append,
    scan_cons]
  rfl

/-- A text that does not fit is not read. -/
theorem instant?_of_scan_eq_none {q : Pattern} {s : List Char} (h : scan .blank q s = none) :
    q.instant? s = none := by
  rw [instant?, whole_eq_none h]
  rfl

/-- Of two patterns with the same part between day and time, one is for the seconds and one for
times without them. -/
theorem findSome?_of_scan {i : Item} {s : List Char} {v : Instant} (hn : HasFourDigits n)
    (ht : t < 86400000) (p : Precision) (hi : ∀ u, i.scan u s = some (u, (clockText p t).toList))
    (hv : (stampAt none n p t 0).instant? = some v) :
    [date ++ [i] ++ seconds, date ++ [i] ++ minutes].findSome?
      (·.instant? ((dayText n).toList ++ s)) = some v := by
  have hread {q : Pattern} (hq : ofPrecision p = q) :
      (date ++ [i] ++ q).instant? ((dayText n).toList ++ s) = some v := by
    have hscan : scan .blank (date ++ [i] ++ q) ((dayText n).toList ++ s)
        = some (stampAt none n p t 0, []) := by
      rw [scan_dayText hn, hi, resume_some, ← hq, scan_clockText n p ht]
    rw [instant?, whole_eq_some hscan, Option.bind_some, hv]
  cases p with
  | seconds | millis =>
    have hseconds := hread (q := seconds) rfl
    simp only [List.findSome?_cons, hseconds]
  | minutes =>
    have hscan : scan .blank (date ++ [i] ++ seconds) ((dayText n).toList ++ s) = none := by
      rw [scan_dayText hn, hi, resume_some, scan_seconds_minutesText _ ht]
    have hseconds := instant?_of_scan_eq_none hscan
    have hminutes := hread (q := minutes) rfl
    simp only [List.findSome?_cons, hseconds, hminutes]

/-- A day and a time of the day are read by the first pattern they fit. -/
theorem findSome?_localTimes {c : Char} {v : Instant} (hn : HasFourDigits n) (ht : t < 86400000)
    (hc : c = 'T' ∨ c = ' ') (p : Precision) (hv : (stampAt none n p t 0).instant? = some v) :
    localTimes.findSome? (·.instant? ((dayText n).toList ++ c :: (clockText p t).toList))
      = some v := by
  have hlocal : localTimes = [date ++ [.mark 'T'] ++ seconds, date ++ [.mark 'T'] ++ minutes]
      ++ [date ++ [.blanks] ++ seconds, date ++ [.blanks] ++ minutes] := rfl
  rw [hlocal, List.findSome?_append]
  rcases hc with rfl | rfl
  · have hletter := findSome?_of_scan hn ht p (i := .mark 'T')
      (s := 'T' :: (clockText p t).toList) (fun _ => rfl) hv
    rw [hletter, Option.some_or]
  · have hletters : [date ++ [.mark 'T'] ++ seconds, date ++ [.mark 'T'] ++ minutes].findSome?
        (·.instant? ((dayText n).toList ++ ' ' :: (clockText p t).toList)) = none := by
      refine List.findSome?_eq_none_iff.2 fun q hq => instant?_of_scan_eq_none ?_
      simp only [List.mem_cons, List.not_mem_nil, or_false] at hq
      rcases hq with rfl | rfl <;> rw [scan_dayText hn] <;> rfl
    have hdrop : Text.dropBlanks (' ' :: (clockText p t).toList) = (clockText p t).toList := by
      have htext := toList_clockText p t []
      rw [List.append_nil, toList_minutesText] at htext
      rw [Text.dropBlanks_cons_of_blank (by decide), htext, dropBlanks_padded]
    have hblanks (u : Stamp) : Item.blanks.scan u (' ' :: (clockText p t).toList)
        = some (u, (clockText p t).toList) := by
      simp only [Item.scan, bind_apply, blanks_apply, resume_some, pure_apply, hdrop]
    rw [hletters, Option.none_or]
    exact findSome?_of_scan hn ht p hblanks hv

/-- A day alone has no time of the day. -/
theorem findSome?_localTimes_dayText (hn : HasFourDigits n) :
    localTimes.findSome? (·.instant? (dayText n).toList) = none := by
  refine List.findSome?_eq_none_iff.2 fun q hq => instant?_of_scan_eq_none ?_
  have htext : (dayText n).toList = (dayText n).toList ++ [] := (List.append_nil _).symm
  simp only [localTimes, List.mem_cons, List.not_mem_nil, or_false] at hq
  rcases hq with rfl | rfl | rfl | rfl <;> rw [htext, scan_dayText hn] <;> rfl

/-- A day alone is read as its beginning. -/
theorem instant?_dayText (hn : HasFourDigits n) :
    date.instant? (dayText n).toList = (stampAt none n .minutes 0 0).instant? := by
  have hscan := scan_date .blank hn []
  rw [List.append_nil] at hscan
  rw [instant?, whole_eq_some hscan]
  rfl

end Herald.Time.Pattern
