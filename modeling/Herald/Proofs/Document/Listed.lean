import Herald.Proofs.Document.Field
import Herald.Proofs.Json.Containers
import Herald.Proofs.Json.Quoting
import Herald.Proofs.Json.Scanning
import Herald.Proofs.RichText.Direct
import Herald.Proofs.RichText.Element

/-!
# Entries of lists, and the same read by themselves

A node or a field is read from a text of its own in the order of the text. As an entry of a list it
is read from the value of the list, in which the keys ascend. An entry that cannot be read does not
spoil its list: it becomes the unknown node, or is passed over.

* `Field.result?_read`: a field that is read directly is the one that its value stands for;
* `enlist`: the text of a list with one item;
* `listed_eq_read`: both ways of reading agree.
-/

namespace Herald

namespace Json

/-- The text of a list with one item. -/
def enlist (bs : List UInt8) : List UInt8 := 0x5B :: (bs ++ [0x5D])

theorem spells_enlist {bs : List UInt8} {s : Shape} (h : SpellsPadded bs s) :
    SpellsPadded (enlist bs) (.array [s] none) := by
  have hblank : AreBlank [] := nofun
  have hlist := SpellsPadded.blanks hblank (.array (.last h)) hblank
  rwa [List.nil_append, List.append_nil] at hlist

end Json

namespace Document

open Json RichText

namespace Field

theorem putsIn_putShape (depth : Nat) :
    Shape.PutsIn putShape (fun k v f => (put k v f).value) depth := by
  intro k s v f hv _
  rw [putShape, Reading.result?_bind, Reading.result?_ofExcept]
  simp only [Reading.result?_require]
  by_cases hk : k = "name"
  · subst hk
    rw [if_pos rfl]
    show _ = (orDefault? "" Value.text? v).map fun name => { f with name := name }
    rw [← Shape.toOption_textOrNull hv]
    cases s.textOrNull <;> rfl
  · rw [if_neg hk, hv]
    rfl

/-- **A field that is read directly is the one that its value stands for.** -/
theorem result?_read {depth : Nat} {s : Shape} {v : Value} (hv : s.value depth = .ok v)
    (hr : s.repeatsNoKey = true) : (read depth s).result? = (ofValue? v).value := by
  rw [read, Shape.result?_record (by decide) commutes_put (fun d _ => putsIn_putShape d) hv hr,
    ofValue?, Value.value_record? (by decide) commutes_put (Shape.isOrdered_of_value hv)]

end Field

/-- **Reading directly and reading as an entry agree.** Let a text spell a shape that repeats no
key, and let the list that has it as its only item have a value. Then the nodes of the list are the
one node that is read directly, or the unknown node if none is; and the fields of the list are the
one field that is read directly, or none if none is. -/
theorem listed_eq_read {bs : List UInt8} {s : Shape} {w : Value} (hs : SpellsPadded bs s)
    (hr : s.repeatsNoKey = true) (hw : Value.ofBytes (enlist bs) = .ok w) :
    (((Text.ofBytes (enlist bs)).read Node.readAll).result?
        = some [((Text.ofBytes bs).read Node.read).result?.getD .unknown]) ∧
      (tolerantList Field.ofValue? w).value
        = ((Text.ofBytes bs).read Field.read).result?.toList := by
  obtain ⟨hroot, -⟩ := Value.ofBytes_eq_ok_iff.1 hw
  rw [Text.ofBytes_of_spells (spells_enlist hs)] at hroot
  obtain ⟨d, vs, hd, hvs, -, rfl⟩ := Shape.value_array_eq_ok_iff.1 hroot
  obtain rfl : 126 = d := Nat.succ.inj hd
  obtain ⟨v, vs', hv, hvs', rfl⟩ := Shape.values_cons_eq_ok_iff.1 hvs
  cases hvs'
  -- In the list one container is open already, so at the top there is room for one more.
  have hdirect : s.value nestingLimit = .ok v := Shape.value_succ hv
  rw [Text.ofBytes_of_spells hs, Text.ofBytes_of_spells (spells_enlist hs),
    Reading.result?_read _ _ rfl, Reading.result?_read _ _ rfl, Reading.result?_read _ _ rfl]
  constructor
  · rw [Node.readAll, Reading.result?_bind, Reading.result?_ofExcept, hroot,
      Node.result?_read hdirect hr]
    show some (Node.nodes (.array [v])).value = _
    rw [Node.value_nodes_array]
    rfl
  · rw [Field.result?_read hdirect hr, tolerantList, tolerantEntries_eq]
    cases h : (Field.ofValue? v).value <;> simp [h]

/-- A paragraph with its kind at the end, and with a name that no field could have. -/
def lateKind : List UInt8 :=
  "\x7b\"tag\":\"p\",\"name\":5, \"type\":\"tag\"\x7d".toUTF8.toList

/-- What the text spells. -/
def lateKindShape : Shape :=
  .object [(quoted "tag", .string (quoted "p")), (quoted "name", .number ⟨false, [5], [], none⟩),
    (quoted "type", .string (quoted "tag"))] none

theorem spells_lateKind : SpellsPadded lateKind lateKindShape := by
  have hn : AreBlank [] := nofun
  have hb : AreBlank [0x20] := by decide
  have htag := SpellsMember.member hn (spellsQuoted_quote "tag") hn
    (.blanks hn (.string (spellsQuoted_quote "p")) hn)
  have hdigits : SpellDigits [0x35] [5] := rfl
  have hfive : SpellsNumeral [0x35] ⟨false, [5], [], none⟩ :=
    .positive (.digits hdigits (by decide)) .absent .absent
  have hname := SpellsMember.member hn (spellsQuoted_quote "name") hn
    (.blanks hn (.number hfive) hn)
  have htype := SpellsMember.member hb (spellsQuoted_quote "type") hn
    (.blanks hn (.string (spellsQuoted_quote "tag")) hn)
  have htext := SpellsPadded.blanks hn (.object (.cons htag (.cons hname (.last htype)))) hn
  refine cast (congrArg (SpellsPadded · lateKindShape) ?_) htext
  decide +kernel

/-- It is an element on both ways, and a field on neither. -/
theorem listed_lateKind :
    SpellsPadded lateKind lateKindShape ∧ lateKindShape.repeatsNoKey = true ∧
      ∃ w n, Value.ofBytes (enlist lateKind) = .ok w ∧ n.isElement = true ∧
        ((Text.ofBytes (enlist lateKind)).read Node.readAll).result? = some [n] ∧
        (tolerantList Field.ofValue? w).value = [] := by
  have hkeys : lateKindShape.repeatsNoKey = true := by decide +kernel
  have hlist : (Value.ofBytes (enlist lateKind)).toOption.isSome = true := by decide +kernel
  obtain ⟨w, hw⟩ := Option.isSome_iff_exists.1 hlist
  have hnode : ((Text.ofBytes lateKind).read Node.read).result?.any Node.isElement = true := by
    decide +kernel
  obtain ⟨n, hn, helement⟩ := (Option.any_eq_true _ _).1 hnode
  have hfield : ((Text.ofBytes lateKind).read Field.read).result?.isNone = true := by
    decide +kernel
  obtain ⟨hnodes, hfields⟩ := listed_eq_read spells_lateKind hkeys (ok_of_toOption hw)
  rw [hn] at hnodes
  rw [Option.isNone_iff_eq_none.1 hfield] at hfields
  exact ⟨spells_lateKind, hkeys, w, n, ok_of_toOption hw, helement, hnodes, hfields⟩

end Document

end Herald
