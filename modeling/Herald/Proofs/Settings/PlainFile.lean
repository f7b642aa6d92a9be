import Herald.Settings.Environment
import Mathlib.Data.List.Basic
import Mathlib.Tactic.SplitIfs

/-!
# Plain environment files

A plain file has lines `KEY=VALUE` and nothing that stands for anything else: no quotes, no blanks,
no backslash, no dollar and no hash. Nor has it the null character, which no variable can hold.

* `IsKey`, `IsSolid`, `PlainFile`: the keys, the characters of values, and the texts of such files;
* `entry_assignmentText`: a line is read as it is written;
* `get?_setDefault`: a variable that is set stays as it is;
* `get?_load`: after the file is read, a variable has the value of the environment, or else the one
  that stands first in the file.
-/

namespace Herald.Settings

/-- A character that stands for itself wherever it is, and that a variable can hold. -/
def IsSolid (c : Char) : Prop :=
  Text.isBlank c = false ∧ c ∉ ['\'', '"', '$', '#', '\\', '\x00']

/-- A key: a letter or an underscore, and then letters, digits, underscores and points. -/
def IsKey (key : String) : Prop :=
  (∃ c ∈ key.toList.head?, c.isAlpha ∨ c = '_') ∧
    ∀ c ∈ key.toList, c.isAlphanum ∨ c = '_' ∨ c = '.'

/-- The text of a file with these assignments, one on each line. The last line need not be ended. -/
inductive PlainFile : List (String × String) → String → Prop
  | empty : PlainFile [] ""
  | last {key value : String} (hkey : IsKey key) (hvalue : ∀ c ∈ value.toList, IsSolid c) :
      PlainFile [(key, value)] (key ++ "=" ++ value)
  | line {key value ending : String} (hkey : IsKey key) (hvalue : ∀ c ∈ value.toList, IsSolid c)
      (hending : ending = "\n" ∨ ending = "\r\n") {assignments : List (String × String)}
      {rest : String} (h : PlainFile assignments rest) :
      PlainFile ((key, value) :: assignments) (key ++ "=" ++ value ++ ending ++ rest)

namespace Environment

/-! ### Characters -/

theorem isBlank_of_isAlphanum {c : Char} (h : c.isAlphanum) : Text.isBlank c = false := by
  have hbounds : (65 ≤ c.toNat ∧ c.toNat ≤ 90 ∨ 97 ≤ c.toNat ∧ c.toNat ≤ 122) ∨
      48 ≤ c.toNat ∧ c.toNat ≤ 57 := by
    unfold Char.isAlphanum Char.isAlpha Char.isUpper Char.isLower Char.isDigit at h
    simp only [Bool.or_eq_true, Bool.and_eq_true, decide_eq_true_eq, UInt32.le_iff_toNat_le,
      ge_iff_le] at h
    exact h
  simp only [Text.isBlank, Bool.or_eq_false_iff, Bool.and_eq_false_imp, decide_eq_true_eq,
    decide_eq_false_iff_not, beq_eq_false_iff_ne]
  omega

theorem isSolid_of_isKeyChar {c : Char} (h : isKeyChar c) : IsSolid c := by
  simp only [isKeyChar, Bool.or_eq_true, beq_iff_eq] at h
  rcases h with (h | rfl) | rfl
  · refine ⟨isBlank_of_isAlphanum h, fun hc => ?_⟩
    simp only [List.mem_cons, List.not_mem_nil, or_false] at hc
    rcases hc with rfl | rfl | rfl | rfl | rfl | rfl <;> exact absurd h (by decide)
  · exact ⟨by decide, by decide⟩
  · exact ⟨by decide, by decide⟩

end Environment

open Environment

/-- A key as its characters. -/
theorem IsKey.chars {key : String} (h : IsKey key) :
    ∃ c cs, key.toList = c :: cs ∧ isKeyStart c ∧ ∀ x ∈ c :: cs, isKeyChar x := by
  obtain ⟨⟨c, hhead, hc⟩, hchars⟩ := h
  obtain ⟨cs, hkey⟩ := List.head?_eq_some_iff.1 hhead
  refine ⟨c, cs, hkey, by simpa [isKeyStart] using hc, fun x hx => ?_⟩
  simpa [isKeyChar, or_assoc] using hchars x (hkey ▸ hx)

/-- A line without its end. -/
def assignmentText (key value : String) : List Char := key.toList ++ '=' :: value.toList

namespace Environment

/-! ### Lines -/

theorem lines_append {l : List Char} (hl : '\n' ∉ l) (rest : List Char) :
    lines (l ++ '\n' :: rest) = (l ++ ['\n']) :: lines rest := by
  induction l with
  | nil => rfl
  | cons c l ih =>
    rw [List.mem_cons, not_or] at hl
    rw [List.cons_append, lines, if_neg (Ne.symm hl.1), ih hl.2]
    rfl

theorem lines_of_not_mem {l : List Char} (hl : '\n' ∉ l) (hne : l ≠ []) : lines l = [l] := by
  induction l with
  | nil => exact absurd rfl hne
  | cons c l ih =>
    rw [List.mem_cons, not_or] at hl
    rw [lines, if_neg (Ne.symm hl.1)]
    cases l with
    | nil => rfl
    | cons d l => rw [ih hl.2 (List.cons_ne_nil d l)]

/-- What a line of a file ends with; the last line may end with nothing. -/
def IsEnding (e : List Char) : Prop := e = [] ∨ e = ['\n'] ∨ e = ['\r', '\n']

/-- Solid characters and line ends open nothing. -/
theorem lineState_plain {l : List Char} (hl : ∀ c ∈ l, IsSolid c ∨ c = '\n' ∨ c = '\r') :
    lineState .plain l = (.plain, l) := by
  induction l with
  | nil => rfl
  | cons c l ih =>
    rw [List.forall_mem_cons] at hl
    -- A blank that ends no line would lead out of the plain state, and no solid character is one.
    have hstep : LineState.step .plain c = .plain := by
      rcases hl.1 with ⟨hblank, hc⟩ | rfl | rfl
      · simp only [List.mem_cons, List.not_mem_nil, or_false, not_or] at hc
        simp [LineState.step, LineState.opened, hblank, hc]
      · rfl
      · rfl
    simp only [lineState, hstep, ih hl.2]

/-- The end of a line is taken off it. -/
theorem chomp_append {l e : List Char} (hl : ∀ c ∈ l, IsSolid c) (he : IsEnding e) :
    chomp (l ++ e) = l := by
  have hhead : ∀ c r, l.reverse = c :: r → c ≠ '\n' ∧ c ≠ '\r' := by
    intro c r h
    have hc := (hl c (List.mem_reverse.1 (h ▸ List.mem_cons_self))).1
    constructor <;> rintro rfl <;> cases hc
  -- The text is looked at from its end, so the cases are those of the ending.
  rw [chomp, List.reverse_append]
  rcases he with rfl | rfl | rfl
  · rw [List.reverse_nil, List.nil_append]
    split
    · rename_i h; exact absurd rfl (hhead _ _ h).1
    · rename_i h; exact absurd rfl (hhead _ _ h).1
    · exact List.reverse_reverse l
  · rw [List.reverse_singleton, List.singleton_append]
    split
    · rename_i h
      exact absurd rfl (hhead _ _ (List.cons.inj h).2).2
    · rename_i h
      rw [← (List.cons.inj h).2, List.reverse_reverse]
    · rename_i hnone
      exact absurd rfl (hnone _)
  · exact List.reverse_reverse l

/-! ### Values and entries -/

theorem dropBlanks_of_isSolid {l : List Char} (hl : ∀ c ∈ l, IsSolid c) :
    Text.dropBlanks l = l := by
  cases l with
  | nil => rfl
  | cons c l => exact Text.dropBlanks_cons_of_not_blank (hl c List.mem_cons_self).1 l

theorem dropBlanksEnd_of_isSolid {l : List Char} (hl : ∀ c ∈ l, IsSolid c) :
    Text.dropBlanksEnd l = l := by
  rw [Text.dropBlanksEnd, dropBlanks_of_isSolid fun c hc => hl c (List.mem_reverse.1 hc),
    List.reverse_reverse]

theorem isVoid_cons_of_isSolid {c : Char} (hc : IsSolid c) (l : List Char) :
    isVoid (c :: l) = false := by
  have hhash : c ≠ '#' := by
    rintro rfl
    exact hc.2 (by decide)
  exact beq_false_of_ne hhash

/-- A solid character is added to the value. -/
theorem Draft.step_of_isSolid (env : Environment) {c : Char} (hc : IsSolid c) (out : List Char) :
    Draft.step env { Draft.start with output := out } c =
      some { Draft.start with output := c :: out } := by
  obtain ⟨hblank, hc⟩ := hc
  have hspace : c ≠ ' ' ∧ c ≠ '\t' := by
    constructor <;> rintro rfl <;> cases hblank
  simp only [List.mem_cons, List.not_mem_nil, or_false, not_or] at hc
  simp [Draft.step, Draft.start, Draft.add, hc, hspace]

theorem Draft.value?_of_isSolid (env : Environment) {l : List Char} (hl : ∀ c ∈ l, IsSolid c)
    (out : List Char) : Draft.value? env { Draft.start with output := out } l =
      some (String.ofList (out.reverse ++ l)) := by
  induction l generalizing out with
  | nil => simp [Draft.value?, Draft.done?, Draft.start, Draft.substitute]
  | cons c l ih =>
    rw [List.forall_mem_cons] at hl
    rw [Draft.value?, if_neg (by simp [Draft.start]), Draft.step_of_isSolid env hl.1,
      Option.bind_some, ih hl.2, List.reverse_cons, List.append_assoc, List.singleton_append]

section Assignment

variable {key value : String} (hkey : IsKey key)
include hkey

theorem key?_assignmentText :
    key? (assignmentText key value) = some (key, '=' :: value.toList) := by
  obtain ⟨c, cs, htext, hstart, hchars⟩ := hkey.chars
  have hequals : isKeyChar '=' = false := by decide
  rw [assignmentText, htext, List.cons_append, key?, if_pos hstart, ← List.cons_append,
    List.takeWhile_append_of_pos hchars, List.dropWhile_append_of_pos hchars,
    List.takeWhile_cons_of_neg (by simp [hequals]), List.dropWhile_cons_of_neg (by simp [hequals]),
    List.append_nil, ← htext, String.ofList_toList,
    Text.dropBlanks_cons_of_not_blank (by decide)]

theorem assignment?_assignmentText :
    assignment? (assignmentText key value) = some (key, value.toList) := by
  rw [assignment?, key?_assignmentText hkey]
  rfl

variable (hvalue : ∀ c ∈ value.toList, IsSolid c)
include hvalue

theorem isSolid_assignmentText : ∀ c ∈ assignmentText key value, IsSolid c := by
  obtain ⟨c, cs, htext, -, hchars⟩ := hkey.chars
  rw [assignmentText, htext]
  refine List.forall_mem_append.2 ⟨fun x hx => isSolid_of_isKeyChar (hchars x hx), ?_⟩
  exact List.forall_mem_cons.2 ⟨⟨by decide, by decide⟩, hvalue⟩

/-- An assignment is read as it is written. -/
theorem entry_assignmentText (env : Environment) :
    entry env (assignmentText key value) = .variable key value := by
  have hsolid := isSolid_assignmentText hkey hvalue
  have hvoid : isVoid (assignmentText key value) = false := by
    obtain ⟨c, cs, htext, -⟩ := hkey.chars
    rw [assignmentText, htext] at hsolid ⊢
    exact isVoid_cons_of_isSolid (hsolid c List.mem_cons_self) _
  have hread := Draft.value?_of_isSolid env hvalue []
  simp only [entry, dropBlanksEnd_of_isSolid hsolid, dropBlanks_of_isSolid hsolid, hvoid,
    assignment?_assignmentText hkey, dropBlanks_of_isSolid hvalue]
  -- An empty value never comes to the reader of values.
  cases hchars : value.toList with
  | nil =>
    have hempty : value = "" := String.toList_inj.1 hchars
    simp [isVoid, hempty]
  | cons c l =>
    rw [hchars] at hvalue
    have hofList : String.ofList (c :: l) = value := by rw [← hchars, String.ofList_toList]
    rw [hchars, List.reverse_nil, List.nil_append, hofList] at hread
    have hstart : Draft.value? env Draft.start (c :: l) = some value := hread
    simp [isVoid_cons_of_isSolid (hvalue c List.mem_cons_self), hstart]

end Assignment

/-! ### Whole files -/

theorem get?_append (env more : Environment) (name : String) :
    get? (env ++ more) name = (env.get? name).or (more.get? name) := by
  rw [get?, List.find?_append, Option.map_or]
  rfl

theorem get?_singleton_of_ne {key name : String} (h : key ≠ name) (value : String) :
    get? [(key, value)] name = none := by
  rw [get?, List.find?_cons_of_neg (by simpa using h)]
  rfl

/-- A variable that is set stays as it is, and one that is not gets the value. -/
theorem get?_setDefault (env : Environment) (key value name : String) :
    (env.setDefault key value).get? name = (env.get? name).or (get? [(key, value)] name) := by
  rw [setDefault]
  split_ifs with hset
  · by_cases hname : key = name
    · obtain ⟨v, hv⟩ := Option.isSome_iff_exists.1 hset
      rw [← hname, hv, Option.some_or]
    · rw [get?_singleton_of_ne hname, Option.or_none]
  · exact get?_append env _ name

/-- The entry of a line is added, and reading goes on after it. -/
theorem addEntries_line (env : Environment) {key value : String} (hkey : IsKey key)
    (hvalue : ∀ c ∈ value.toList, IsSolid c) {e : List Char} (he : IsEnding e)
    (ls : List (List Char)) :
    env.addEntries (entries .plain [] ((assignmentText key value ++ e) :: ls)) =
      (env.setDefault key value).addEntries (entries .plain [] ls) := by
  have hsolid := isSolid_assignmentText hkey hvalue
  have hcomment : (Text.dropBlanks (assignmentText key value ++ e)).head? ≠ some '#' := by
    obtain ⟨c, cs, htext, -⟩ := hkey.chars
    rw [assignmentText, htext] at hsolid ⊢
    have hc := hsolid c List.mem_cons_self
    rw [List.cons_append, List.cons_append, Text.dropBlanks_cons_of_not_blank hc.1, List.head?_cons]
    rintro ⟨⟩
    exact hc.2 (by decide)
  have hstate : lineState .plain (assignmentText key value ++ e) =
      (.plain, assignmentText key value ++ e) := by
    refine lineState_plain (List.forall_mem_append.2 ⟨fun c hc => .inl (hsolid c hc), ?_⟩)
    intro c hc
    rcases he with rfl | rfl | rfl <;> simp_all [or_comm]
  have hentries : entries .plain [] ((assignmentText key value ++ e) :: ls) =
      some (assignmentText key value) :: entries .plain [] ls := by
    simp only [entries, hcomment, hstate, decide_false, Bool.and_false, Bool.false_eq_true,
      if_false]
    rw [joined, List.reverse_singleton, List.flatten_singleton, chomp_append hsolid he]
  rw [hentries, addEntries, entry_assignmentText hkey hvalue]

/-- A solid text has no line feed. -/
theorem not_mem_of_isSolid {l : List Char} (hl : ∀ c ∈ l, IsSolid c) : '\n' ∉ l := by
  intro h
  cases (hl _ h).1

theorem get?_addEntries {assignments : List (String × String)} {file : String}
    (h : PlainFile assignments file) (env : Environment) (name : String) :
    (env.addEntries (entries .plain [] (lines file.toList))).get? name =
      (env.get? name).or (get? assignments name) := by
  induction h generalizing env with
  | empty => exact (Option.or_none).symm
  | @last key value hkey hvalue =>
    have hsolid := isSolid_assignmentText hkey hvalue
    have hne : assignmentText key value ≠ [] :=
      List.append_ne_nil_of_right_ne_nil _ (List.cons_ne_nil _ _)
    have hfile : (key ++ "=" ++ value).toList = assignmentText key value := by
      simp [assignmentText]
    have hread := addEntries_line env hkey hvalue (.inl rfl) []
    rw [List.append_nil] at hread
    rw [hfile, lines_of_not_mem (not_mem_of_isSolid hsolid) hne, hread]
    exact get?_setDefault env key value name
  | @line key value ending hkey hvalue hending assignments rest h ih =>
    have hsolid := isSolid_assignmentText hkey hvalue
    -- A carriage return stays with its line until it is chomped; the line feed alone parts lines.
    obtain ⟨e, hnone, hlist, he⟩ :
        ∃ e : List Char, '\n' ∉ e ∧ ending.toList = e ++ ['\n'] ∧ IsEnding (e ++ ['\n']) := by
      rcases hending with rfl | rfl
      · exact ⟨[], by decide, rfl, .inr (.inl rfl)⟩
      · exact ⟨['\r'], by decide, rfl, .inr (.inr rfl)⟩
    have hfile : (key ++ "=" ++ value ++ ending ++ rest).toList =
        (assignmentText key value ++ e) ++ '\n' :: rest.toList := by
      simp [assignmentText, hlist]
    have hfeed : '\n' ∉ assignmentText key value ++ e :=
      List.not_mem_append (not_mem_of_isSolid hsolid) hnone
    rw [hfile, lines_append hfeed, List.append_assoc, addEntries_line env hkey hvalue he, ih,
      get?_setDefault, Option.or_assoc, ← get?_append]
    rfl

/-- A plain file has no byte order mark. -/
theorem dropMark_of_plainFile {assignments : List (String × String)} {file : String}
    (h : PlainFile assignments file) : dropMark file.toList = file.toList := by
  have hmark {key : String} (hkey : IsKey key) (l : List Char) :
      dropMark (key.toList ++ l) = key.toList ++ l := by
    obtain ⟨c, cs, htext, hstart, -⟩ := hkey.chars
    rw [htext, List.cons_append, dropMark]
    rintro s ⟨⟩
    exact absurd hstart (by decide)
  cases h with
  | empty => rfl
  | last hkey hvalue => simpa using hmark hkey _
  | line hkey hvalue hending h => simpa using hmark hkey _

/-- After a plain file is read, a variable has its value in the environment, or else the one that
stands first in the file. -/
theorem get?_load {assignments : List (String × String)} {file : String}
    (h : PlainFile assignments file) (env : Environment) (name : String) :
    (env.load file).get? name = (env.get? name).or (get? assignments name) := by
  rw [load, dropMark_of_plainFile h, get?_addEntries h]

end Environment

end Herald.Settings
