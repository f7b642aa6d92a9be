import Herald.Proofs.Json.Spelling

/-!
# Spelled texts are scanned

* `Scan.run`: a scan over bytes, one after another;
* `Scan.Settles`: a scan that has a value behind it, as any byte that may follow a value will find;
* `Scan.settles_of_spells`, `Scan.run_of_spellItems`, `Scan.run_of_spellMembers`: a spelled value is
  what the scan has behind it, whatever containers wait for it;
* `Text.ofBytes_of_spells`: the shape of a text is the one that it spells.

Only a numeral leaves the scan open: it may go on, and the byte after it decides.
-/

namespace Herald.Json

namespace Scan

/-- Take bytes one after another. -/
def run (c : Scan) (bs : List UInt8) : Scan := bs.foldl step c

@[simp] theorem run_nil (c : Scan) : run c [] = c := rfl

@[simp] theorem run_cons (c : Scan) (b : UInt8) (bs : List UInt8) :
    run c (b :: bs) = run (c.step b) bs := rfl

@[simp] theorem run_append (c : Scan) (bs bs' : List UInt8) :
    run c (bs ++ bs') = run (run c bs) bs' := List.foldl_append ..

/-! ### Blanks -/

/-- Blanks change nothing where a value is due, or a key, or a colon, or what comes after a
value. -/
theorem run_of_areBlank {c : Scan} {w : List UInt8} (hw : AreBlank w)
    (h : ∀ b, isSpace b = true → c.step b = c) : run c w = c := by
  induction w with
  | nil => rfl
  | cons b w ih =>
    obtain ⟨hb, hw⟩ := List.forall_mem_cons.1 hw
    rw [run_cons, h b hb]
    exact ih hw

theorem step_value_of_isSpace (stack : List Frame) {b : UInt8} (h : isSpace b = true) :
    step ⟨stack, .value⟩ b = ⟨stack, .value⟩ := by simp [step, h]

theorem step_firstItem_of_isSpace (stack : List Frame) {b : UInt8} (h : isSpace b = true) :
    step ⟨stack, .firstItem⟩ b = ⟨stack, .firstItem⟩ := by simp [step, h]

theorem step_firstKey_of_isSpace (stack : List Frame) {b : UInt8} (h : isSpace b = true) :
    step ⟨stack, .firstKey⟩ b = ⟨stack, .firstKey⟩ := by simp [step, h]

theorem step_key_of_isSpace (stack : List Frame) (ms : List (Quoted × Shape)) {b : UInt8}
    (h : isSpace b = true) : step ⟨stack, .key ms⟩ b = ⟨stack, .key ms⟩ := by simp [step, h]

theorem step_colon_of_isSpace (stack : List Frame) (ms : List (Quoted × Shape)) (k : Quoted)
    {b : UInt8} (h : isSpace b = true) :
    step ⟨stack, .colon ms k⟩ b = ⟨stack, .colon ms k⟩ := by simp [step, h]

/-! ### Values behind a scan -/

/-- A byte that may stand after a value: a blank, a comma, or the end of a container. -/
def EndsValue (b : UInt8) : Prop := isSpace b = true ∨ b = 0x2C ∨ b = 0x5D ∨ b = 0x7D

/-- A scan with a value behind it, inside these containers. -/
structure Settles (c : Scan) (s : Shape) (stack : List Frame) : Prop where
  ended : c.endNumeral = push s stack
  step : ∀ b, EndsValue b → c.step b = (push s stack).step b

/-- What comes after a value is a byte after it. -/
theorem step_push (s : Shape) (stack : List Frame) (b : UInt8) :
    (push s stack).step b = after (push s stack) b := by
  cases stack with
  | nil => rfl
  | cons f fs => cases f <;> rfl

theorem settles_push (s : Shape) (stack : List Frame) : (push s stack).Settles s stack := by
  refine ⟨?_, fun b _ => rfl⟩
  cases stack with
  | nil => rfl
  | cons f fs => cases f <;> rfl

theorem step_push_of_isSpace (s : Shape) (stack : List Frame) {b : UInt8} (h : isSpace b = true) :
    (push s stack).step b = push s stack := by
  rw [step_push, after, if_pos h]

/-- Blanks after a value leave it behind. -/
theorem Settles.run_blank {c : Scan} {s : Shape} {stack : List Frame} (h : c.Settles s stack)
    {w : List UInt8} (hw : AreBlank w) : (run c w).Settles s stack := by
  cases w with
  | nil => exact h
  | cons b w =>
    obtain ⟨hb, hw⟩ := List.forall_mem_cons.1 hw
    rw [run_cons, h.step b (.inl hb), step_push_of_isSpace s stack hb,
      run_of_areBlank hw fun _ => step_push_of_isSpace s stack]
    exact settles_push s stack

/-! ### Quoted texts -/

theorem run_of_spellPieces {bs : List UInt8} {ps : List Piece} (h : SpellPieces bs ps)
    (stack : List Frame) (before : Option (List (Quoted × Shape))) (done : List Piece) :
    run ⟨stack, .quoted before done .plain⟩ bs
      = ⟨stack, .quoted before (ps.reverse ++ done) .plain⟩ := by
  induction h generalizing done with
  | nil => rfl
  | plain hg hq hb _ ih =>
    have hs : ∀ b : UInt8, 0x20 ≤ b → ¬ b < 0x20 := fun b h => UInt8.not_lt.2 h
    simp [step, stepQuoted, QuotedPart.step, hq, hb, hs _ hg, ih]
  | short he _ ih =>
    have hu : ∀ {e c : UInt8}, QuotedPart.shortEscape? e = some c → e ≠ 0x75 := by
      rintro e c h rfl
      cases h
    simp [step, stepQuoted, QuotedPart.step, hu he, he, ih]
  | unit hd _ ih => simp [step, stepQuoted, QuotedPart.step, hd, ih]

theorem run_of_spellsQuoted {bs : List UInt8} {q : Quoted} (h : SpellsQuoted bs q)
    (stack : List Frame) :
    run ⟨stack, .value⟩ bs = push (.string q) stack ∧
      ∀ ms, run ⟨stack, .key ms⟩ bs = ⟨stack, .colon ms q⟩ := by
  obtain ⟨hp⟩ := h
  constructor
  · rw [run_cons, run_append]
    show run (run ⟨stack, .quoted none [] .plain⟩ _) _ = _
    rw [run_of_spellPieces hp]
    simp [step, stepQuoted, pushQuoted]
  · intro ms
    rw [run_cons, run_append]
    show run (run ⟨stack, .quoted (some ms) [] .plain⟩ _) _ = _
    rw [run_of_spellPieces hp]
    simp [step, stepQuoted, pushQuoted]

/-! ### Numerals -/

section Numeral

variable {stack : List Frame} {n n' : NumeralDraft} {b : UInt8} {bs : List UInt8} {d : Nat}
  {ds : List Nat} {negative : Bool} {whole fraction : List Nat}

theorem step_numeral_of_digit (h : NumeralDraft.digit? b = some d) (ht : n.takeDigit d = some n') :
    step ⟨stack, .numeral n⟩ b = ⟨stack, .numeral n'⟩ := by
  simp [step, stepNumeral, h, ht]

theorem step_numeral_of_mark (h : NumeralDraft.digit? b = none) (ht : n.takeMark b = some n') :
    step ⟨stack, .numeral n⟩ b = ⟨stack, .numeral n'⟩ := by
  simp [step, stepNumeral, h, ht]

/-- No byte that ends a value goes on with a numeral. -/
theorem EndsValue.goes_on (hb : EndsValue b) (n : NumeralDraft) :
    NumeralDraft.digit? b = none ∧ n.takeMark b = none := by
  have hcases : b = 0x20 ∨ b = 0x09 ∨ b = 0x0A ∨ b = 0x0D ∨ b = 0x2C ∨ b = 0x5D ∨ b = 0x7D := by
    simpa [EndsValue, isSpace, or_assoc] using hb
  obtain ⟨part, -, -, -, -, -⟩ := n
  rcases hcases with rfl | rfl | rfl | rfl | rfl | rfl | rfl <;> cases part <;> exact ⟨rfl, rfl⟩

/-- A numeral that may end here is a value. -/
theorem settles_numeral {m : Numeral} (h : n.done? = some m) :
    Settles ⟨stack, .numeral n⟩ (.number m) stack := by
  refine ⟨by simp [endNumeral, h], fun b hb => ?_⟩
  obtain ⟨hd, hm⟩ := hb.goes_on n
  rw [step_push]
  simp [Scan.step, stepNumeral, hd, hm, h]

theorem spellDigits_cons (h : SpellDigits bs (d :: ds)) :
    ∃ b bs', bs = b :: bs' ∧ NumeralDraft.digit? b = some d ∧ SpellDigits bs' ds := by
  cases bs with
  | nil => cases h
  | cons b bs =>
    obtain ⟨hb, hbs⟩ := List.cons.inj h
    exact ⟨b, bs, rfl, hb, hbs⟩

theorem eq_nil_of_spellDigits (h : SpellDigits bs []) : bs = [] := List.map_eq_nil_iff.1 h

theorem ne_of_digit (h : NumeralDraft.digit? b = some d) {x : UInt8}
    (hx : NumeralDraft.digit? x = none) : b ≠ x := by
  rintro rfl
  rw [hx] at h
  cases h

theorem isSpace_of_digit (h : NumeralDraft.digit? b = some d) : isSpace b = false := by
  have h₁ : b ≠ 0x20 := ne_of_digit h rfl
  have h₂ : b ≠ 0x09 := ne_of_digit h rfl
  have h₃ : b ≠ 0x0A := ne_of_digit h rfl
  have h₄ : b ≠ 0x0D := ne_of_digit h rfl
  simp [isSpace, h₁, h₂, h₃, h₄]

/-- A digit begins a numeral. -/
theorem step_value_of_digit (h : NumeralDraft.digit? b = some d) :
    step ⟨stack, .value⟩ b = step ⟨stack, .numeral (.start false)⟩ b := by
  have hne : ∀ x, NumeralDraft.digit? x = none → b ≠ x := fun _ => ne_of_digit h
  have hspace : isSpace b = false := isSpace_of_digit h
  have ht : (NumeralDraft.start false).takeDigit d
      = some ⟨if d = 0 then .zero else .whole, false, [d], [], false, 0⟩ := rfl
  rw [step_numeral_of_digit h ht]
  simp [step, hspace, startValue, hne 0x22 rfl, hne 0x5B rfl, hne 0x7B rfl, hne 0x2D rfl,
    hne 0x6E rfl, hne 0x74 rfl, hne 0x66 rfl, h, ht]

theorem run_whole (h : SpellDigits bs ds) (done : List Nat) :
    run ⟨stack, .numeral ⟨.whole, negative, done, [], false, 0⟩⟩ bs
      = ⟨stack, .numeral ⟨.whole, negative, ds.reverse ++ done, [], false, 0⟩⟩ := by
  induction ds generalizing bs done with
  | nil =>
    obtain rfl := eq_nil_of_spellDigits h
    rfl
  | cons d ds ih =>
    obtain ⟨b, bs, rfl, hb, hbs⟩ := spellDigits_cons h
    rw [run_cons, step_numeral_of_digit hb rfl, ih hbs]
    simp

theorem run_fraction (h : SpellDigits bs ds) (done : List Nat) :
    run ⟨stack, .numeral ⟨.fraction, negative, whole, done, false, 0⟩⟩ bs
      = ⟨stack, .numeral ⟨.fraction, negative, whole, ds.reverse ++ done, false, 0⟩⟩ := by
  induction ds generalizing bs done with
  | nil =>
    obtain rfl := eq_nil_of_spellDigits h
    rfl
  | cons d ds ih =>
    obtain ⟨b, bs, rfl, hb, hbs⟩ := spellDigits_cons h
    rw [run_cons, step_numeral_of_digit hb rfl, ih hbs]
    simp

theorem run_exponent (h : SpellDigits bs ds) (below : Bool) (done : Nat) :
    run ⟨stack, .numeral ⟨.exponent, negative, whole, fraction, below, done⟩⟩ bs
      = ⟨stack, .numeral ⟨.exponent, negative, whole, fraction, below,
          Numeral.append done ds⟩⟩ := by
  induction ds generalizing bs done with
  | nil =>
    obtain rfl := eq_nil_of_spellDigits h
    rfl
  | cons d ds ih =>
    obtain ⟨b, bs, rfl, hb, hbs⟩ := spellDigits_cons h
    rw [run_cons, step_numeral_of_digit hb rfl, ih hbs]
    rfl

/-- After the digits before the point. -/
theorem run_of_spellsWhole (h : SpellsWhole bs whole) :
    ∃ part, (part = .zero ∨ part = .whole) ∧
      run ⟨stack, .numeral (.start negative)⟩ bs
        = ⟨stack, .numeral ⟨part, negative, whole.reverse, [], false, 0⟩⟩ := by
  cases h with
  | zero => exact ⟨.zero, .inl rfl, rfl⟩
  | digits hs hd =>
    obtain ⟨b, bs, rfl, hb, hbs⟩ := spellDigits_cons hs
    refine ⟨.whole, .inr rfl, ?_⟩
    rw [run_cons, step_numeral_of_digit hb rfl, if_neg hd]
    show run ⟨stack, .numeral ⟨.whole, negative, [_], [], false, 0⟩⟩ bs = _
    rw [run_whole hbs, List.reverse_cons]

/-- After the fraction, if there is one. -/
theorem run_of_spellsFraction (h : SpellsFraction bs fraction) {part : NumeralPart}
    (hp : part = .zero ∨ part = .whole) :
    ∃ part', (part' = .fraction ∨ (part' = .zero ∨ part' = .whole) ∧ fraction = []) ∧
      run ⟨stack, .numeral ⟨part, negative, whole, [], false, 0⟩⟩ bs
        = ⟨stack, .numeral ⟨part', negative, whole, fraction.reverse, false, 0⟩⟩ := by
  cases h with
  | absent => exact ⟨part, .inr ⟨hp, rfl⟩, rfl⟩
  | digits hs =>
    obtain ⟨b, bs, rfl, hb, hbs⟩ := spellDigits_cons hs
    refine ⟨.fraction, .inl rfl, ?_⟩
    have hpoint : NumeralDraft.takeMark ⟨part, negative, whole, [], false, 0⟩ 0x2E
        = some ⟨.point, negative, whole, [], false, 0⟩ := by
      rcases hp with rfl | rfl <;> rfl
    rw [run_cons, step_numeral_of_mark rfl hpoint, run_cons, step_numeral_of_digit hb rfl]
    show run ⟨stack, .numeral ⟨.fraction, negative, whole, [_], false, 0⟩⟩ bs = _
    rw [run_fraction hbs, List.reverse_cons]

/-- After the exponent, if there is one: the numeral may end. -/
theorem settles_of_spellsExponent {exponent : Option Int} (h : SpellsExponent bs exponent)
    {part : NumeralPart} (hp : part = .fraction ∨ (part = .zero ∨ part = .whole) ∧ fraction = []) :
    (run ⟨stack, .numeral ⟨part, negative, whole.reverse, fraction.reverse, false, 0⟩⟩ bs).Settles
      (.number ⟨negative, whole, fraction, exponent⟩) stack := by
  have hmark : ∀ mark : UInt8, mark = 0x65 ∨ mark = 0x45 →
      step ⟨stack, .numeral ⟨part, negative, whole.reverse, fraction.reverse, false, 0⟩⟩ mark
        = ⟨stack, .numeral ⟨.mark, negative, whole.reverse, fraction.reverse, false, 0⟩⟩ := by
    rintro mark (rfl | rfl) <;> refine step_numeral_of_mark rfl ?_ <;>
      rcases hp with rfl | ⟨rfl | rfl, -⟩ <;> rfl
  cases h with
  | absent =>
    refine settles_numeral ?_
    rcases hp with rfl | ⟨rfl | rfl, rfl⟩ <;> simp [NumeralDraft.done?]
  | @marked mark sign _ below d ds hm hsign hs =>
    obtain ⟨b, bs, rfl, hb, hbs⟩ := spellDigits_cons hs
    have hsigned : ∃ p, (p = .mark ∨ p = .markSign) ∧
        run ⟨stack, .numeral ⟨.mark, negative, whole.reverse, fraction.reverse, false, 0⟩⟩ sign
          = ⟨stack, .numeral ⟨p, negative, whole.reverse, fraction.reverse, below, 0⟩⟩ := by
      cases hsign with
      | absent => exact ⟨.mark, .inl rfl, rfl⟩
      | plus => exact ⟨.markSign, .inr rfl, rfl⟩
      | minus => exact ⟨.markSign, .inr rfl, rfl⟩
    obtain ⟨p, hp', hrun⟩ := hsigned
    have hfirst : step ⟨stack, .numeral ⟨p, negative, whole.reverse, fraction.reverse, below, 0⟩⟩ b
        = ⟨stack, .numeral ⟨.exponent, negative, whole.reverse, fraction.reverse, below, d⟩⟩ := by
      refine step_numeral_of_digit hb ?_
      rcases hp' with rfl | rfl <;> simp [NumeralDraft.takeDigit]
    have hdigits : Numeral.append 0 (d :: ds) = Numeral.append d ds := by simp [Numeral.append]
    rw [run_cons, hmark mark hm, run_append, hrun, run_cons, hfirst, run_exponent hbs, hdigits]
    exact settles_numeral (by simp [NumeralDraft.done?])

/-- A numeral without a sign begins with its first digit. -/
theorem run_value_of_spellsWhole (h : SpellsWhole bs whole) (stack : List Frame) :
    run ⟨stack, .value⟩ bs = run ⟨stack, .numeral (.start false)⟩ bs := by
  cases h with
  | zero => rfl
  | digits hs _ =>
    obtain ⟨b, bs, rfl, hb, -⟩ := spellDigits_cons hs
    rw [run_cons, run_cons, step_value_of_digit hb]

theorem settles_of_spellsNumeral {m : Numeral} (h : SpellsNumeral bs m) (stack : List Frame) :
    (run ⟨stack, .value⟩ bs).Settles (.number m) stack := by
  have hstart : ∀ {negative : Bool} {ws fs es : List UInt8} {whole fraction : List Nat}
      {exponent : Option Int}, SpellsWhole ws whole → SpellsFraction fs fraction →
      SpellsExponent es exponent →
      (run ⟨stack, .numeral (.start negative)⟩ (ws ++ (fs ++ es))).Settles
        (.number ⟨negative, whole, fraction, exponent⟩) stack := by
    intro negative ws fs es whole fraction exponent hw hf he
    obtain ⟨part, hp, hrun⟩ := run_of_spellsWhole hw
    obtain ⟨part', hp', hrun'⟩ := run_of_spellsFraction hf hp
    rw [run_append, hrun, run_append, hrun']
    exact settles_of_spellsExponent he hp'
  cases h with
  | positive hw hf he =>
    rw [run_append, run_value_of_spellsWhole hw, ← run_append]
    exact hstart hw hf he
  | negative hw hf he => exact hstart hw hf he

end Numeral

/-! ### Values -/

/-- A value begins with a byte that neither is a blank nor ends a list. -/
theorem exists_cons_of_spells {bs : List UInt8} {s : Shape} (h : Spells bs s) :
    ∃ b bs', bs = b :: bs' ∧ isSpace b = false ∧ b ≠ 0x5D := by
  cases h with
  | number hn =>
    cases hn with
    | positive hw =>
      cases hw with
      | zero => exact ⟨_, _, rfl, rfl, by decide⟩
      | digits hs =>
        obtain ⟨b, bs, rfl, hb, -⟩ := spellDigits_cons hs
        exact ⟨b, _, rfl, isSpace_of_digit hb, ne_of_digit hb rfl⟩
    | negative => exact ⟨_, _, rfl, rfl, by decide⟩
  | string hq =>
    cases hq
    exact ⟨_, _, rfl, rfl, by decide⟩
  | _ => exact ⟨_, _, rfl, rfl, by decide⟩

/-- Where the first item or the end of a list is due, spelled items go on as items. -/
theorem run_firstItem {bs : List UInt8} {ss : List Shape} (h : SpellItems bs ss)
    (stack : List Frame) :
    run ⟨stack, .firstItem⟩ bs = run ⟨.item [] :: stack, .value⟩ bs := by
  have hpadded : ∀ {bs : List UInt8} {s : Shape}, SpellsPadded bs s →
      run ⟨stack, .firstItem⟩ bs = run ⟨.item [] :: stack, .value⟩ bs := by
    rintro _ s ⟨hw, hs, -⟩
    obtain ⟨b, bs, rfl, hb, hne⟩ := exists_cons_of_spells hs
    simp only [run_append]
    rw [run_of_areBlank hw fun _ => step_firstItem_of_isSpace stack,
      run_of_areBlank hw fun _ => step_value_of_isSpace _]
    simp [step, hb, hne]
  cases h with
  | last hs => exact hpadded hs
  | cons hs => rw [run_append, run_append, hpadded hs]

/-- Where the first key or the end of an object is due, spelled members go on as members. -/
theorem run_firstKey {bs : List UInt8} {ms : List (Quoted × Shape)} (h : SpellMembers bs ms)
    (stack : List Frame) : run ⟨stack, .firstKey⟩ bs = run ⟨stack, .key []⟩ bs := by
  have hmember : ∀ {bs : List UInt8} {m : Quoted × Shape}, SpellsMember bs m →
      run ⟨stack, .firstKey⟩ bs = run ⟨stack, .key []⟩ bs := by
    rintro _ _ ⟨hw, ⟨hp⟩, -, -⟩
    simp only [run_append]
    rw [run_of_areBlank hw fun _ => step_firstKey_of_isSpace stack,
      run_of_areBlank hw fun _ => step_key_of_isSpace stack []]
    rfl
  cases h with
  | last hm => exact hmember hm
  | cons hm => rw [run_append, run_append, hmember hm]

mutual

/-- A spelled value is behind the scan that has taken it. -/
theorem settles_of_spells : ∀ {bs : List UInt8} {s : Shape}, Spells bs s →
    ∀ stack : List Frame, (run ⟨stack, .value⟩ bs).Settles s stack
  | _, _, .null, stack | _, _, .true, stack | _, _, .false, stack => settles_push _ stack
  | _, _, .number h, stack => settles_of_spellsNumeral h stack
  | _, _, .string h, stack => by
    rw [(run_of_spellsQuoted h stack).1]
    exact settles_push _ stack
  | _, _, .emptyArray hw, stack => by
    rw [run_cons, run_append]
    show (run (run ⟨stack, .firstItem⟩ _) _).Settles _ stack
    rw [run_of_areBlank hw fun _ => step_firstItem_of_isSpace stack]
    exact settles_push _ stack
  | _, _, .array h, stack => by
    rw [run_cons, run_append]
    show (run (run ⟨stack, .firstItem⟩ _) _).Settles _ stack
    rw [run_firstItem h, ← run_append, run_of_spellItems h stack []]
    exact settles_push _ stack
  | _, _, .emptyObject hw, stack => by
    rw [run_cons, run_append]
    show (run (run ⟨stack, .firstKey⟩ _) _).Settles _ stack
    rw [run_of_areBlank hw fun _ => step_firstKey_of_isSpace stack]
    exact settles_push _ stack
  | _, _, .object h, stack => by
    rw [run_cons, run_append]
    show (run (run ⟨stack, .firstKey⟩ _) _).Settles _ stack
    rw [run_firstKey h, ← run_append, run_of_spellMembers h stack []]
    exact settles_push _ stack

theorem settles_of_spellsPadded : ∀ {bs : List UInt8} {s : Shape}, SpellsPadded bs s →
    ∀ stack : List Frame, (run ⟨stack, .value⟩ bs).Settles s stack
  | _, _, .blanks hw hs hw', stack => by
    rw [run_append, run_of_areBlank hw fun _ => step_value_of_isSpace stack, run_append]
    exact (settles_of_spells hs stack).run_blank hw'

/-- A member is behind the scan with its key before it. -/
theorem settles_of_spellsMember : ∀ {bs : List UInt8} {m : Quoted × Shape}, SpellsMember bs m →
    ∀ (stack : List Frame) (done : List (Quoted × Shape)),
      (run ⟨stack, .key done⟩ bs).Settles m.2 (.member done m.1 :: stack)
  | _, _, .member hw hk hw' hs, stack, done => by
    rw [run_append, run_of_areBlank hw fun _ => step_key_of_isSpace stack done, run_append,
      (run_of_spellsQuoted hk stack).2, run_append,
      run_of_areBlank hw' fun _ => step_colon_of_isSpace stack done _]
    exact settles_of_spellsPadded hs (.member done _ :: stack)

/-- Spelled items and the end of their list make up the list. -/
theorem run_of_spellItems : ∀ {bs : List UInt8} {ss : List Shape}, SpellItems bs ss →
    ∀ (stack : List Frame) (done : List Shape),
      run ⟨.item done :: stack, .value⟩ (bs ++ [0x5D])
        = push (.array (done.reverse ++ ss) none) stack
  | _, _, .last hs, stack, done => by
    rw [run_append, run_cons, run_nil, (settles_of_spellsPadded hs _).step _ (by simp [EndsValue])]
    show push (.array (_ :: done).reverse none) stack = _
    rw [List.reverse_cons]
  | _, _, .cons hs hss, stack, done => by
    rw [List.append_assoc, run_append, List.cons_append, run_cons,
      (settles_of_spellsPadded hs _).step _ (by simp [EndsValue])]
    show run ⟨.item (_ :: done) :: stack, .value⟩ _ = _
    rw [run_of_spellItems hss stack, List.reverse_cons, List.append_assoc, List.singleton_append]

/-- Spelled members and the end of their object make up the object. -/
theorem run_of_spellMembers : ∀ {bs : List UInt8} {ms : List (Quoted × Shape)},
    SpellMembers bs ms → ∀ (stack : List Frame) (done : List (Quoted × Shape)),
      run ⟨stack, .key done⟩ (bs ++ [0x7D]) = push (.object (done.reverse ++ ms) none) stack
  | _, _, .last hm, stack, done => by
    rw [run_append, run_cons, run_nil,
      (settles_of_spellsMember hm stack done).step _ (by simp [EndsValue])]
    show push (.object (_ :: done).reverse none) stack = _
    rw [List.reverse_cons]
  | _, _, .cons hm hms, stack, done => by
    rw [List.append_assoc, run_append, List.cons_append, run_cons,
      (settles_of_spellsMember hm stack done).step _ (by simp [EndsValue])]
    show run ⟨stack, .key (_ :: done)⟩ _ = _
    rw [run_of_spellMembers hms stack, List.reverse_cons, List.append_assoc,
      List.singleton_append]

end

end Scan

/-- **The shape of a text is the one that it spells**, and nothing follows it. -/
theorem Text.ofBytes_of_spells {bs : List UInt8} {s : Shape} (h : SpellsPadded bs s) :
    Text.ofBytes bs = ⟨s, false⟩ := by
  have hend : (Scan.run Scan.start bs).endNumeral = ⟨[], .complete s⟩ :=
    (Scan.settles_of_spellsPadded h []).ended
  have htrailing : (Scan.run Scan.start bs).isTrailing = false := by
    generalize Scan.run Scan.start bs = c at hend
    obtain ⟨stack, state⟩ := c
    cases state with
    | trailing root => cases hend
    | _ => rfl
  show (⟨(Scan.run Scan.start bs).endNumeral.shape .truncated, _⟩ : Text) = _
  rw [hend]
  exact congrArg (Text.mk s) htrailing

end Herald.Json
