import Herald.Proofs.Json.Record
import Herald.Proofs.Json.Scanning
import Mathlib.Tactic.SplitIfs

/-!
# Quoted texts are read back

* `toList_toUTF8`: the bytes of a text, character by character;
* `Text.ofString`: a text that is given as a string;
* `quoted`: the pieces that are written for a text between quotes;
* `spellsQuoted_quote`, `decode_quoted`: a quoted text is spelled in these pieces, and they stand
  for the text. No character is lost, whether it is written as such or escaped.
-/

namespace Herald.Json

/-! ### The bytes of a text -/

theorem toList_loop (b : ByteArray) (i : Nat) (bs : List UInt8) :
    ByteArray.toList.loop b i bs = bs.reverse ++ b.data.toList.drop i := by
  fun_induction ByteArray.toList.loop b i bs with
  | case1 i bs h ih =>
    have hi : i < b.data.toList.length := h
    have hget : b.get! i = b.data.toList[i] := getElem!_pos b.data i h
    rw [ih, hget, List.reverse_cons, List.append_assoc, List.singleton_append,
      ← List.drop_eq_getElem_cons hi]
  | case2 i bs h =>
    have hi : b.data.toList.length ≤ i := Nat.le_of_not_lt h
    rw [List.drop_eq_nil_of_le hi, List.append_nil]

theorem toList_byteArray (b : ByteArray) : b.toList = b.data.toList := by
  rw [ByteArray.toList, toList_loop]
  rfl

/-- The bytes of a text are those of its characters. -/
theorem toList_toUTF8 (s : String) : s.toUTF8.toList = s.toList.flatMap String.utf8EncodeChar := by
  show s.toByteArray.toList = _
  rw [toList_byteArray, ← String.utf8Encode_toList, List.utf8Encode, List.toList_data_toByteArray]

@[simp] theorem toList_toUTF8_append (s t : String) :
    (s ++ t).toUTF8.toList = s.toUTF8.toList ++ t.toUTF8.toList := by
  simp only [toList_toUTF8, String.toList_append, List.flatMap_append]

/-- The bytes of a text are read as the text. -/
theorem fromUTF8?_toList (s : String) : String.fromUTF8? ⟨s.toUTF8.toList.toArray⟩ = some s := by
  have hb : (⟨s.toUTF8.toList.toArray⟩ : ByteArray) = s.toByteArray := by
    rw [toList_byteArray]
    rfl
  rw [hb, String.fromUTF8?, dif_pos s.isValidUTF8]
  rfl

/-- A text that is given as a string. -/
def Text.ofString (s : String) : Text := ofBytes s.toUTF8.toList

/-! ### Pieces -/

theorem SpellPieces.append {bs bs' : List UInt8} {ps ps' : List Piece} (h : SpellPieces bs ps)
    (h' : SpellPieces bs' ps') : SpellPieces (bs ++ bs') (ps ++ ps') := by
  induction h with
  | nil => exact h'
  | plain hg hq hb _ ih => exact .plain hg hq hb ih
  | short he _ ih => exact .short he ih
  | unit hd _ ih => exact .unit hd ih

/-- A byte that stands for itself between quotes. -/
def StandsForItself (b : UInt8) : Prop := 0x20 ≤ b ∧ b ≠ 0x22 ∧ b ≠ 0x5C

theorem spellPieces_map_byte {bs : List UInt8} (h : ∀ b ∈ bs, StandsForItself b) :
    SpellPieces bs (bs.map .byte) := by
  induction bs with
  | nil => exact .nil
  | cons b bs ih =>
    obtain ⟨⟨hg, hq, hb⟩, hbs⟩ := List.forall_mem_cons.1 h
    exact .plain hg hq hb (ih hbs)

theorem standsForItself_ofNat {n : Nat} (h : n < 0x100) (hg : 0x20 ≤ n) (hq : n ≠ 0x22)
    (hb : n ≠ 0x5C) : StandsForItself (UInt8.ofNat n) := by
  have hn : (UInt8.ofNat n).toNat = n := UInt8.toNat_ofNat_of_lt' h
  have hne : ∀ {b : UInt8}, n ≠ b.toNat → UInt8.ofNat n ≠ b := by
    rintro _ hne rfl
    exact hne hn.symm
  exact ⟨UInt8.le_iff_toNat_le.2 (hn.symm ▸ hg), hne hq, hne hb⟩

/-- The bytes of a character that is not escaped. If it has several, none of them is ASCII. -/
theorem standsForItself_utf8EncodeChar {c : Char} (hc : 0x20 ≤ c.toNat) (hq : c ≠ '"')
    (hb : c ≠ '\\') : ∀ b ∈ String.utf8EncodeChar c, StandsForItself b := by
  have hne : ∀ {d : Char}, c ≠ d → c.toNat ≠ d.toNat := fun h he => h (Char.toNat_inj.1 he)
  have hq : c.val.toNat ≠ 0x22 := hne hq
  have hb : c.val.toNat ≠ 0x5C := hne hb
  have habove : ∀ n, 0x80 ≤ n → n < 0x100 → StandsForItself (UInt8.ofNat n) := fun n h₁ h₂ =>
    standsForItself_ofNat h₂ (by omega) (by omega) (by omega)
  rw [String.utf8EncodeChar]
  split
  · rw [List.forall_mem_singleton]
    exact standsForItself_ofNat (by omega) hc hq hb
  · split
    · rw [List.forall_mem_cons, List.forall_mem_singleton]
      exact ⟨habove _ (by omega) (by omega), habove _ (by omega) (by omega)⟩
    · split
      · rw [List.forall_mem_cons, List.forall_mem_cons, List.forall_mem_singleton]
        exact ⟨habove _ (by omega) (by omega), habove _ (by omega) (by omega),
          habove _ (by omega) (by omega)⟩
      · rw [List.forall_mem_cons, List.forall_mem_cons, List.forall_mem_cons,
          List.forall_mem_singleton]
        exact ⟨habove _ (by omega) (by omega), habove _ (by omega) (by omega),
          habove _ (by omega) (by omega), habove _ (by omega) (by omega)⟩

/-- The control characters that have no short escape. -/
def IsSpelledOut (c : Char) : Prop :=
  c.toNat < 0x20 ∧ c ∉ ['\x08', '\t', '\n', '\x0C', '\r']

instance (c : Char) : Decidable (IsSpelledOut c) :=
  inferInstanceAs (Decidable (_ ∧ _))

/-- The pieces of a character between quotes. -/
def piecesOf (c : Char) : List Piece :=
  if IsSpelledOut c then [.unit c.toNat] else (String.utf8EncodeChar c).map .byte

/-- The four digits of a control character. -/
theorem spellPieces_hexDigits {n : Nat} (h : n < 0x20) :
    SpellPieces (['\\', 'u', '0', '0', hexDigit (n / 16), hexDigit (n % 16)].flatMap
      String.utf8EncodeChar) [.unit n] := by
  have hbyte : ∀ d < 16, String.utf8EncodeChar (hexDigit d) = [(hexDigit d).toNat.toUInt8] := by
    decide
  have hunit : ∀ n < 0x20, QuotedPart.unit? [(hexDigit (n % 16)).toNat.toUInt8,
      (hexDigit (n / 16)).toNat.toUInt8, 0x30, 0x30] = some n := by
    decide
  simp only [List.flatMap_cons, List.flatMap_nil, hbyte (n / 16) (by omega),
    hbyte (n % 16) (by omega)]
  exact .unit (hunit n h) .nil

/-- A character is spelled in its pieces. -/
theorem spellPieces_escapeChar (c : Char) :
    SpellPieces ((escapeChar c).flatMap String.utf8EncodeChar) (piecesOf c) := by
  by_cases h : IsSpelledOut c
  · have hc : c.toNat < 0x20 := h.1
    have hne : c ∉ _ := h.2
    simp only [List.mem_cons, List.not_mem_nil, or_false, not_or] at hne
    obtain ⟨h₁, h₂, h₃, h₄, h₅⟩ := hne
    have hq : c ≠ '"' := by
      rintro rfl
      exact absurd hc (by decide)
    have hb : c ≠ '\\' := by
      rintro rfl
      exact absurd hc (by decide)
    rw [piecesOf, if_pos h, escapeChar, if_neg hq, if_neg hb, if_neg h₁, if_neg h₂, if_neg h₃,
      if_neg h₄, if_neg h₅, if_pos hc]
    exact spellPieces_hexDigits hc
  · rw [piecesOf, if_neg h]
    unfold escapeChar
    split_ifs with hq hb h₁ h₂ h₃ h₄ h₅ hc
    -- Quote, backslash and five control characters have a short escape.
    · subst hq
      exact .short rfl .nil
    · subst hb
      exact .short rfl .nil
    · subst h₁
      exact .short rfl .nil
    · subst h₂
      exact .short rfl .nil
    · subst h₃
      exact .short rfl .nil
    · subst h₄
      exact .short rfl .nil
    · subst h₅
      exact .short rfl .nil
    · exact absurd ⟨hc, by simp [h₁, h₂, h₃, h₄, h₅]⟩ h
    · rw [List.flatMap_singleton]
      exact spellPieces_map_byte (standsForItself_utf8EncodeChar (Nat.le_of_not_lt hc) hq hb)

/-! ### Texts between quotes -/

/-- The pieces that are written for a text between quotes. -/
def quoted (s : String) : Quoted := ⟨s.toList.flatMap piecesOf, none⟩

/-- A quoted text is spelled in its pieces. -/
theorem spellsQuoted_quote (s : String) : SpellsQuoted (quote s).toUTF8.toList (quoted s) := by
  have hpieces : ∀ cs : List Char, SpellPieces ((cs.flatMap escapeChar).flatMap
      String.utf8EncodeChar) (cs.flatMap piecesOf) := by
    intro cs
    induction cs with
    | nil => exact .nil
    | cons c cs ih =>
      rw [List.flatMap_cons, List.flatMap_append, List.flatMap_cons]
      exact (spellPieces_escapeChar c).append ih
  rw [toList_toUTF8, quote, String.toList_ofList, List.cons_append, List.flatMap_cons,
    List.flatMap_append]
  exact .quotes (hpieces s.toList)

namespace Quoted

theorem bytes_map_byte (bs : List UInt8) (ps : List Piece) :
    bytes none (bs.map .byte ++ ps) = (bytes none ps).map (bs ++ ·) := by
  induction bs with
  | nil =>
    rw [List.map_nil, List.nil_append]
    cases bytes none ps <;> rfl
  | cons b bs ih =>
    rw [List.map_cons, List.cons_append, bytes, ih]
    cases bytes none ps <;> rfl

/-- The pieces of a character stand for its bytes. -/
theorem bytes_piecesOf (c : Char) (ps : List Piece) :
    bytes none (piecesOf c ++ ps) = (bytes none ps).map (String.utf8EncodeChar c ++ ·) := by
  rw [piecesOf]
  split
  · rename_i h
    have hc : c.toNat < 0x20 := h.1
    have hl : isLow c.toNat = false := by
      rw [isLow, Bool.and_eq_false_iff, decide_eq_false_iff_not]
      exact .inl (by omega)
    have hh : isHigh c.toNat = false := by
      rw [isHigh, Bool.and_eq_false_iff, decide_eq_false_iff_not]
      exact .inl (by omega)
    have hb : codePointBytes c.toNat = String.utf8EncodeChar c := by
      have hv : c.val.toNat ≤ 0x7f := Nat.le_trans (Nat.le_of_lt hc) (by decide)
      rw [codePointBytes, if_pos (Nat.lt_trans hc (by decide)), String.utf8EncodeChar,
        if_pos hv]
      rfl
    rw [List.singleton_append, bytes.eq_def]
    simp [hl, hh, hb]
  · exact bytes_map_byte _ ps

/-- What is needed for pieces to stand for a text. -/
theorem decode_eq_ok {q : Quoted} {bs : List UInt8} {s : String}
    (h : bytes q.stop q.pieces = .ok bs) (hs : String.fromUTF8? ⟨bs.toArray⟩ = some s) :
    q.decode = .ok s := by
  rw [decode, h]
  simp only [bind, Except.bind, hs]
  rfl

end Quoted

/-- **A quoted text stands for the text**, whatever its characters are. -/
theorem decode_quoted (s : String) : (quoted s).decode = .ok s := by
  have hbytes : ∀ cs : List Char, Quoted.bytes none (cs.flatMap piecesOf)
      = .ok (cs.flatMap String.utf8EncodeChar) := by
    intro cs
    induction cs with
    | nil => rfl
    | cons c cs ih =>
      rw [List.flatMap_cons, Quoted.bytes_piecesOf, ih]
      rfl
  refine Quoted.decode_eq_ok (hbytes s.toList) ?_
  rw [← toList_toUTF8]
  exact fromUTF8?_toList s

end Herald.Json
