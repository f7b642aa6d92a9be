import Herald.Proofs.Document.Respelled
import Herald.Proofs.Json.Parts
import Herald.Proofs.Service.Session

/-!
# Which documents are delivered

An event with a document may have anything in it, as long as its parts can be read. A name or a slug
that is no text loses the whole event, and so does a part that cannot be kept, or a key. The sender
does not learn of it.

* `Event.Carries`: the texts of an event with a document, by the grammar alone;
* `Event.IsReadable`: what is asked of the parts of the document;
* `Document.ofMembers?`: the document with these parts;
* `Service.delivered_handle_of_document`: what is handed over for such a text;
* `Service.numberedName_delivers_nothing`: a name that is a number loses a document.
-/

namespace Herald

open Json Message

/-! ### Documents of members -/

namespace Document

/-- The document of the members of an object. Its parts are read one by one, and what is absent
counts as null. -/
def ofMembers? (depth : Nat) (ms : List (Quoted × Shape)) : Option Document := do
  let name ← (Shape.partOrNull "name" ms).textOrNull.toOption
  let slug ← (Shape.partOrNull "slug" ms).textOrNull.toOption
  let createdAt ← ((Shape.partOrNull "createdAt" ms).value depth).toOption
  let updatedAt ← ((Shape.partOrNull "updatedAt" ms).value depth).toOption
  let fields ← ((Shape.partOrNull "fields" ms).value depth).toOption
  pure ⟨name, slug, createdAt, updatedAt, (tolerantList Field.ofValue? fields).value⟩

/-- Putting in the parts of a document makes the document of the members. -/
theorem putParts_eq_ofMembers? (depth : Nat) (ms : List (Quoted × Shape)) :
    Shape.putParts putShape depth ms keys blank = ofMembers? depth ms := by
  have hresult := fun k hk => Event.result?_putShape depth (k := k) hk (Shape.partOrNull k ms)
  show (Shape.putPart putShape depth ms blank "name").bind _ = _
  rw [Shape.putPart_bind rfl (hresult "name" (by decide) blank)]
  refine Option.bind_congr fun name _ => ?_
  show (Shape.putPart putShape depth ms { blank with name := name } "slug").bind _ = _
  rw [Shape.putPart_bind rfl (hresult "slug" (by decide) _)]
  refine Option.bind_congr fun slug _ => ?_
  show (Shape.putPart putShape depth ms { blank with name := name, slug := slug }
    "createdAt").bind _ = _
  rw [Shape.putPart_bind rfl (hresult "createdAt" (by decide) _)]
  refine Option.bind_congr fun createdAt _ => ?_
  show (Shape.putPart putShape depth ms ⟨name, slug, createdAt, .null, []⟩ "updatedAt").bind _ = _
  rw [Shape.putPart_bind rfl (hresult "updatedAt" (by decide) _)]
  refine Option.bind_congr fun updatedAt _ => ?_
  show (Shape.putPart putShape depth ms ⟨name, slug, createdAt, updatedAt, []⟩ "fields").bind _ = _
  rw [Shape.putPart_bind rfl (hresult "fields" (by decide) _)]
  rfl

/-- There is such a document just if the name and the slug are texts or null and the other parts can
be kept. -/
theorem exists_ofMembers?_iff {depth : Nat} {ms : List (Quoted × Shape)}
    (hn : ∀ m ∈ ms, m.2.nesting ≤ depth) :
    (∃ d, ofMembers? depth ms = some d) ↔
      (Shape.partOrNull "name" ms).IsTextOrNull ∧ (Shape.partOrNull "slug" ms).IsTextOrNull ∧
        ∀ key ∈ ["createdAt", "updatedAt", "fields"], (Shape.partOrNull key ms).IsKept := by
  have hnesting : ∀ key, (Shape.partOrNull key ms).nesting ≤ depth :=
    Shape.of_partOrNull (P := fun s => s.nesting ≤ depth) (Nat.zero_le depth) hn
  have hvalue : ∀ key, (Shape.partOrNull key ms).IsKept ↔
      ∃ v, (Shape.partOrNull key ms).value depth = .ok v := fun key => by
    rw [Shape.exists_value_iff]
    exact (and_iff_left (hnesting key)).symm
  rw [← Shape.exists_textOrNull_iff, ← Shape.exists_textOrNull_iff]
  simp only [List.forall_mem_cons, hvalue]
  constructor
  · rintro ⟨d, h⟩
    obtain ⟨name, hname, h⟩ := Option.bind_eq_some_iff.1 h
    obtain ⟨slug, hslug, h⟩ := Option.bind_eq_some_iff.1 h
    obtain ⟨createdAt, hcreated, h⟩ := Option.bind_eq_some_iff.1 h
    obtain ⟨updatedAt, hupdated, h⟩ := Option.bind_eq_some_iff.1 h
    obtain ⟨fields, hfields, -⟩ := Option.bind_eq_some_iff.1 h
    exact ⟨⟨name, ok_of_toOption hname⟩, ⟨slug, ok_of_toOption hslug⟩,
      ⟨createdAt, ok_of_toOption hcreated⟩, ⟨updatedAt, ok_of_toOption hupdated⟩,
      ⟨fields, ok_of_toOption hfields⟩, List.forall_mem_nil _⟩
  · rintro ⟨⟨name, hname⟩, ⟨slug, hslug⟩, ⟨createdAt, hcreated⟩, ⟨updatedAt, hupdated⟩,
      ⟨fields, hfields⟩, -⟩
    unfold ofMembers?
    rw [hname, hslug, hcreated, hupdated, hfields]
    exact ⟨_, rfl⟩

end Document

/-! ### Events with a document -/

namespace Event

/-- The text of an event with a document, by the grammar alone: an object that has another one under
its key `document`. Neither of them repeats a key, and not too many containers lie in one
another. -/
structure Carries (body : List UInt8) (event document : List (Quoted × Shape)) : Prop where
  spelled : SpellsPadded body (.object event none)
  eventKeys : (Shape.keysOf event).Nodup
  found : Shape.partOrNull "document" event = .object document none
  documentKeys : (Shape.keysOf document).Nodup
  nesting : (Shape.object event none).nesting ≤ nestingLimit

/-- What is asked of an event and its document: the keys of both stand for texts, the name and the
slug are texts or null, and everything in the times and the fields can be kept. -/
structure IsReadable (event document : List (Quoted × Shape)) : Prop where
  eventKeys : ∀ m ∈ event, m.1.IsText
  documentKeys : ∀ m ∈ document, m.1.IsText
  name : (Shape.partOrNull "name" document).IsTextOrNull
  slug : (Shape.partOrNull "slug" document).IsTextOrNull
  values : ∀ key ∈ ["createdAt", "updatedAt", "fields"],
    (Shape.partOrNull key document).IsKept

variable {body : List UInt8} {event document : List (Quoted × Shape)}

/-- The document stands under its key. -/
theorem Carries.last? (h : Carries body event document) :
    Shape.last? "document" event = some (.object document none) := by
  have hfound := h.found
  unfold Shape.partOrNull at hfound
  cases hs : Shape.last? "document" event with
  | none =>
    rw [hs] at hfound
    cases hfound
  | some s =>
    rw [hs] at hfound
    exact congrArg some hfound

/-- It is one of the members of the event, and may be passed over as they may. -/
theorem Carries.skip (h : Carries body event document) :
    (∀ m ∈ event, m.2.skip = .ok ()) ∧ ∀ m ∈ document, m.2.skip = .ok () := by
  obtain ⟨q, -, hm⟩ := Shape.mem_of_last? h.last?
  have hevent := Shape.skip_object_eq_ok_iff.1 (Shape.skip_of_spellsPadded h.spelled)
  have hdocument := Shape.skip_object_eq_ok_iff.1 (hevent _ hm).2
  exact ⟨fun m hm => (hevent m hm).2, fun m hm => (hdocument m hm).2⟩

/-- The members of the document are nested two levels less deep than the event. -/
theorem Carries.nesting_of_mem (h : Carries body event document) :
    ∀ m ∈ document, m.2.nesting ≤ nestingLimit - 2 := by
  obtain ⟨q, -, hm⟩ := Shape.mem_of_last? h.last?
  have hevent : (Shape.object event none).nesting ≤ nestingLimit - 1 + 1 := h.nesting
  have hdocument : (Shape.object document none).nesting ≤ nestingLimit - 2 + 1 :=
    Shape.nesting_of_mem hevent hm
  exact fun m hm => Shape.nesting_of_mem hdocument hm

/-- An event whose keys are texts is read as the document in it. -/
theorem Carries.result?_eq_document (h : Carries body event document)
    (hkeys : ∀ m ∈ event, m.1.IsText) :
    (ofBytes body).result?
      = (Document.read (nestingLimit - 1) (.object document none)).result? := by
  rw [ofBytes, Text.ofBytes_of_spells h.spelled, Reading.result?_read _ _ rfl, read,
    Reading.result?_bind]
  show (Shape.record ["document"] putShape none (nestingLimit - 1 + 1)
    (.object event none)).result?.bind _ = _
  rw [Shape.result?_record_eq_putParts (readsCommute_event _) (by decide) h.eventKeys hkeys
    h.skip.1]
  show ((Shape.putPart putShape (nestingLimit - 1) event none "document").bind some).bind _ = _
  rw [Shape.putPart, h.last?]
  show ((Reading.result? (Document.read (nestingLimit - 1) (.object document none) >>= fun d =>
    pure (some d))).bind some).bind _ = _
  rw [Reading.result?_bind]
  cases (Document.read (nestingLimit - 1) (.object document none)).result? <;> rfl

/-- **The event of a text with a document** is read as the document of its members, if all keys are
texts. -/
theorem Carries.result?_of_isText (h : Carries body event document)
    (he : ∀ m ∈ event, m.1.IsText) (hd : ∀ m ∈ document, m.1.IsText) :
    (ofBytes body).result? = Document.ofMembers? (nestingLimit - 2) document := by
  rw [h.result?_eq_document he]
  show (Shape.record Document.keys Document.putShape Document.blank (nestingLimit - 2 + 1)
    (.object document none)).result? = _
  rw [Shape.result?_record_eq_putParts (readsCommute_document _) (by decide) h.documentKeys hd
    h.skip.2, Document.putParts_eq_ofMembers?]

/-- A key that is no text loses the event. -/
theorem Carries.result?_of_not_isText (h : Carries body event document)
    (hk : ¬ ((∀ m ∈ event, m.1.IsText) ∧ ∀ m ∈ document, m.1.IsText)) :
    (ofBytes body).result? = none := by
  by_cases he : ∀ m ∈ event, m.1.IsText
  · rw [h.result?_eq_document he]
    show (Shape.record Document.keys Document.putShape Document.blank (nestingLimit - 2 + 1)
      (.object document none)).result? = none
    exact Shape.result?_record_of_not_isText h.documentKeys fun hd => hk ⟨he, hd⟩
  · rw [ofBytes, Text.ofBytes_of_spells h.spelled, Reading.result?_read _ _ rfl, read,
      Reading.result?_bind]
    have hnone : (Shape.record ["document"] putShape none (nestingLimit - 1 + 1)
        (.object event none)).result? = none := Shape.result?_record_of_not_isText h.eventKeys he
    show (Shape.record ["document"] putShape none (nestingLimit - 1 + 1)
      (.object event none)).result?.bind _ = none
    rw [hnone]
    rfl

/-- A text with a document is read just if its parts can be, and then as the document of its
members. -/
theorem Carries.isReadable_iff (h : Carries body event document) :
    IsReadable event document ↔ ∃ d, (ofBytes body).result? = some d := by
  have hparts := Document.exists_ofMembers?_iff h.nesting_of_mem
  by_cases hk : (∀ m ∈ event, m.1.IsText) ∧ ∀ m ∈ document, m.1.IsText
  · rw [h.result?_of_isText hk.1 hk.2, hparts]
    exact ⟨fun hr => ⟨hr.name, hr.slug, hr.values⟩, fun hr => ⟨hk.1, hk.2, hr.1, hr.2.1, hr.2.2⟩⟩
  · rw [h.result?_of_not_isText hk]
    exact ⟨fun hr => absurd ⟨hr.eventKeys, hr.documentKeys⟩ hk, fun ⟨_, hd⟩ => nomatch hd⟩

end Event

namespace Service

/-- **What is delivered for a document.** Whatever a text with a document has in it, the sender gets
it back. There is one message more if and only if the event is readable, and then it is that of the
document of its members; otherwise there is none. -/
theorem delivered_handle_of_document {r : Request} {event document : List (Quoted × Shape)}
    (f : Option Failure) (record : List (List Block)) (hr : r.Publishes)
    (hd : Event.Carries r.body event document) :
    ((handle (.record f) r).run record).value.1 = ok r.body ∧
      ((∃ blocks, ((handle (.record f) r).run record).value.2 = record ++ [blocks]) ↔
        Event.IsReadable event document) ∧
      (Event.IsReadable event document →
        ∃ d, Document.ofMembers? (nestingLimit - 2) document = some d ∧
          ((handle (.record f) r).run record).value.2 = record ++ [(assemble d).value]) ∧
      (¬ Event.IsReadable event document →
        ((handle (.record f) r).run record).value.2 = record) := by
  have hafter : ((handle (.record f) r).run record).value.2
      = record ++ ((Event.ofBytes r.body).result?.map fun d => (assemble d).value).toList := by
    rw [value_run_handle, Request.message?, if_pos hr]
    rfl
  have hread : Event.IsReadable event document →
      ∃ d, Document.ofMembers? (nestingLimit - 2) document = some d ∧
        ((handle (.record f) r).run record).value.2 = record ++ [(assemble d).value] := by
    intro hreadable
    obtain ⟨d, hresult⟩ := hd.isReadable_iff.1 hreadable
    have hmembers := hd.result?_of_isText hreadable.eventKeys hreadable.documentKeys
    refine ⟨d, hmembers.symm.trans hresult, ?_⟩
    rw [hafter, hresult]
    rfl
  have hlost : ¬ Event.IsReadable event document →
      ((handle (.record f) r).run record).value.2 = record := by
    intro hnot
    have hresult : (Event.ofBytes r.body).result? = none := by
      rw [← Option.not_isSome_iff_eq_none, Option.isSome_iff_exists, ← hd.isReadable_iff]
      exact hnot
    rw [hafter, hresult]
    exact List.append_nil record
  refine ⟨?_, ⟨?_, fun hreadable => ?_⟩, hread, hlost⟩
  · rw [handle_of_publishes hr]
    rfl
  · rintro ⟨blocks, hblocks⟩
    refine Classical.by_contradiction fun hnot => ?_
    have hnil : record ++ [blocks] = record := hblocks.symm.trans (hlost hnot)
    simp at hnil
  · obtain ⟨d, -, h⟩ := hread hreadable
    exact ⟨(assemble d).value, h⟩

/-- A posted event. -/
def posted (event : String) : Request := ⟨"POST", "/document/published", [], bytes event⟩

/-- The members of an event with this document. -/
def carrying (document : List (Quoted × Shape)) : List (Quoted × Shape) :=
  [(quoted "document", .object document none)]

/-- The spelling of a document around which an event is spelled. -/
theorem carries_of_spells {bs : List UInt8} {document : List (Quoted × Shape)}
    (h : Spells bs (.object document none)) (hd : (Shape.keysOf document).Nodup)
    (hn : (Shape.object (carrying document) none).nesting ≤ nestingLimit) :
    Event.Carries (0x7B :: ((quote "document").toUTF8.toList ++ 0x3A :: (bs ++ [0x7D])))
      (carrying document) document := by
  have hblank : AreBlank [] := nofun
  have hmember := SpellsMember.member hblank (spellsQuoted_quote "document") hblank
    (.blanks hblank h hblank)
  have hevent := SpellsPadded.blanks hblank (.object (.last hmember)) hblank
  refine ⟨by simpa [carrying] using hevent, ?_, ?_, hd, hn⟩
  · simp [carrying, Shape.keysOf, decode_quoted, Except.toOption]
  · simp [carrying, Shape.partOrNull, Shape.last?, decode_quoted, Except.toOption]

/-- A digit is a numeral. -/
theorem spells_digit {b : UInt8} {d : Nat} (hb : NumeralDraft.digit? b = some d) (hd : d ≠ 0) :
    Spells [b] (.number ⟨false, [d], [], none⟩) := by
  have hspelled : SpellDigits [b] [d] := by simp [SpellDigits, hb]
  exact .number (.positive (.digits hspelled hd) .absent .absent)

/-- A document of which only the name is as it should be. -/
def oddDocument : List (Quoted × Shape) :=
  [(quoted "slug", .null), (quoted "name", .string (quoted "A")),
    (quoted "createdAt", .array [] none), (quoted "fields", .number ⟨false, [7], [], none⟩)]

/-- The event of that document. -/
def oddEvent : Request :=
  posted ("\x7b\"document\":" ++
    "\x7b\"slug\":null,\"name\":\"A\",\"createdAt\":[],\"fields\":7\x7d\x7d")

theorem carries_oddEvent :
    Event.Carries oddEvent.body (carrying oddDocument) oddDocument := by
  have hn : AreBlank [] := nofun
  have hslug := SpellsMember.member hn (spellsQuoted_quote "slug") hn (.blanks hn .null hn)
  have hname := SpellsMember.member hn (spellsQuoted_quote "name") hn
    (.blanks hn (.string (spellsQuoted_quote "A")) hn)
  have hcreated := SpellsMember.member hn (spellsQuoted_quote "createdAt") hn
    (.blanks hn (.emptyArray hn) hn)
  have hseven : Spells [0x37] (.number ⟨false, [7], [], none⟩) := spells_digit rfl (by decide)
  have hfields := SpellsMember.member hn (spellsQuoted_quote "fields") hn (.blanks hn hseven hn)
  have hdistinct : (Shape.keysOf oddDocument).Nodup := by
    simp [oddDocument, Shape.keysOf, decode_quoted, Except.toOption]
  have hcarries := carries_of_spells
    (.object (.cons hslug (.cons hname (.cons hcreated (.last hfields))))) hdistinct (by decide)
  refine cast (congrArg (Event.Carries · (carrying oddDocument) oddDocument) ?_) hcarries
  decide +kernel

theorem isReadable_oddDocument : Event.IsReadable (carrying oddDocument) oddDocument := by
  have htext : ∀ s, (quoted s).IsText := fun s => ⟨s, decode_quoted s⟩
  have hpart : ∀ key, Shape.last? key oddDocument
      = (if "fields" = key then some (.number ⟨false, [7], [], none⟩) else none).or
          ((if "createdAt" = key then some (.array [] none) else none).or
            ((if "name" = key then some (.string (quoted "A")) else none).or
              (if "slug" = key then some .null else none))) := by
    intro key
    simp [oddDocument, Shape.last?, decode_quoted, Except.toOption, Option.or_assoc]
  have hseven : (Numeral.mk false [7] [] none).toNumber?.isSome = true := by decide
  have hvalues : ∀ key ∈ ["createdAt", "updatedAt", "fields"],
      (Shape.partOrNull key oddDocument).IsKept := by
    simp only [List.forall_mem_cons, Shape.partOrNull, hpart]
    exact ⟨.array (List.forall_mem_nil _), .null, .number hseven, List.forall_mem_nil _⟩
  refine ⟨by simp [carrying, htext], by simp [oddDocument, htext], ?_, ?_, hvalues⟩
  · rw [Shape.partOrNull, hpart]
    exact htext "A"
  · rw [Shape.partOrNull, hpart]
    trivial

/-- It is delivered all the same. -/
theorem oddEvent_is_delivered :
    oddEvent.Publishes ∧ Event.Carries oddEvent.body (carrying oddDocument) oddDocument ∧
      ∃ blocks, ((handle (.record none) oddEvent).run [[.divider]]).value.2
        = [[.divider], blocks] := by
  have hp : oddEvent.Publishes := by decide +kernel
  have hdelivered := delivered_handle_of_document none [[.divider]] hp carries_oddEvent
  exact ⟨hp, carries_oddEvent, hdelivered.2.1.2 isReadable_oddDocument⟩

/-- A document whose name is a number. -/
def numberedDocument : List (Quoted × Shape) :=
  [(quoted "name", .number ⟨false, [5], [], none⟩)]

/-- The event of that document. -/
def numberedName : Request := posted "\x7b\"document\":\x7b\"name\":5\x7d\x7d"

/-- A name that is a number is not passed over: nothing is delivered. -/
theorem numberedName_delivers_nothing :
    numberedName.Publishes ∧
      Event.Carries numberedName.body (carrying numberedDocument) numberedDocument ∧
      ∀ (f : Option Failure) (record : List (List Block)),
        ((handle (.record f) numberedName).run record).value.2 = record := by
  have hp : numberedName.Publishes := by decide +kernel
  have hn : AreBlank [] := nofun
  have hfive : Spells [0x35] (.number ⟨false, [5], [], none⟩) := spells_digit rfl (by decide)
  have hname := SpellsMember.member hn (spellsQuoted_quote "name") hn (.blanks hn hfive hn)
  have hdistinct : (Shape.keysOf numberedDocument).Nodup := by
    simp [numberedDocument, Shape.keysOf, decode_quoted, Except.toOption]
  have hcarries := carries_of_spells (.object (.last hname)) hdistinct (by decide)
  have hm : numberedName.message? = none := by decide +kernel
  refine ⟨hp, cast (congrArg (Event.Carries · (carrying numberedDocument) numberedDocument) ?_)
    hcarries, fun f record => ?_⟩
  · decide +kernel
  · rw [value_run_handle, hm]
    cases Channel.isRecord (.record f) <;> simp

end Service

end Herald
