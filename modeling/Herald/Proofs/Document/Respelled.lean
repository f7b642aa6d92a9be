import Herald.Message.Assembly
import Herald.Proofs.Document.Respelling
import Herald.Proofs.Json.Quoting

/-!
# The message does not depend on the spelling

* `result?_record_of_change`: one change of the spelling does nothing to a record, if it does
  nothing to what is put into it;
* `result?_document_of_change`, `result?_read_of_change`: so it is with the document that is read,
  and with the one that an event announces;
* `message_of_respelled`: any number of changes does nothing to the message, nor do the blanks
  between tokens.
-/

namespace Herald.Event

open Json Document

variable {d : Nat} {s s' : Shape}

/-! ### Records -/

section Record

variable {σ : Type} {p : Part} {keys : List String} {read : Nat → String → Shape → σ → Reading σ}

/-- **A change does nothing to a record** whose places are those of its keys, if it does nothing to
what is put in under them, and if what is put in may be put in in any order. -/
theorem result?_record_of_change {start : σ}
    (hplaces : ∀ n k, keys[n]? = some k → p.item n = p.under (some k))
    (hput : ∀ d s s', ∀ k ∈ keys, Change (p.under (some k)) d s s' →
      ∀ r, (read d k s r).result? = (read d k s' r).result?)
    (hcommute : ∀ d, Shape.ReadsCommute keys read d)
    (hignored : ∀ ms k, p.Ignores ms k → k ∉ keys) (h : Change p d s s') :
    (s.record keys read start d).result? = (s'.record keys read start d).result? := by
  cases h with
  | string h => rfl
  | key ms s ms' h => exact Shape.result?_record_member h.text rfl fun _ _ _ _ => rfl
  | item ss ss' h =>
    refine Shape.result?_record_item fun k hk r => ?_
    rw [hplaces _ k hk] at h
    exact hput _ _ _ k (List.mem_of_getElem? hk) h r
  | member ms q ms' h =>
    refine Shape.result?_record_member rfl (skip_of_change h) fun k hk hq r => ?_
    rw [hq] at h
    exact hput _ _ _ k hk h r
  | order hp hd => exact Shape.result?_record_of_perm (hcommute _) hp hd
  | extra hq hk hv => exact (Shape.result?_record_extra hq (hignored _ _ hk) hv).symm

end Record

/-! ### Documents -/

/-- What is put into a document under a key, from what is wanted of the shape. -/
theorem result?_putShape (d : Nat) {k : String} (hk : k ∈ Document.keys) (s : Shape)
    (r : Document) :
    (Document.putShape d k s r).result? =
      match k with
      | "name" => s.textOrNull.toOption.map fun t => { r with name := t }
      | "slug" => s.textOrNull.toOption.map fun t => { r with slug := t }
      | "createdAt" => (s.value d).toOption.map fun v => { r with createdAt := v }
      | "updatedAt" => (s.value d).toOption.map fun v => { r with updatedAt := v }
      | _ => (s.value d).toOption.map fun v =>
          { r with fields := (tolerantList Field.ofValue? v).value } := by
  have htake : ∀ {α β : Type} (x : Except Fault α) (f : α → Noted β) (g : β → Document),
      (Reading.ofExcept x >>= fun a => Reading.ofNoted (f a) >>= fun b => pure (g b) :
        Reading Document).result? = x.toOption.map fun a => g (f a).value := by
    intro α β x f g
    rw [Reading.result?_bind, Reading.result?_ofExcept]
    cases x.toOption <;> rfl
  simp only [Document.keys, List.mem_cons, List.not_mem_nil, or_false] at hk
  rcases hk with rfl | rfl | rfl | rfl | rfl
  · exact htake s.textOrNull pure fun t => { r with name := t }
  · exact htake s.textOrNull pure fun t => { r with slug := t }
  · exact htake (s.value d) pure fun v => { r with createdAt := v }
  · exact htake (s.value d) pure fun v => { r with updatedAt := v }
  · exact htake (s.value d) (tolerantList Field.ofValue?) fun fs => { r with fields := fs }

/-- What is put into a document under two of its keys may be put in either way round. -/
theorem readsCommute_document (d : Nat) :
    Shape.ReadsCommute Document.keys Document.putShape d := by
  intro k hk k' hk' hne s s' r
  simp only [result?_putShape d hk, result?_putShape d hk']
  generalize s.textOrNull.toOption = t
  generalize s'.textOrNull.toOption = t'
  generalize (s.value d).toOption = v
  generalize (s'.value d).toOption = v'
  simp only [Document.keys, List.mem_cons, List.not_mem_nil, or_false] at hk hk'
  -- Both keys put in a text or a value, each at a place of its own.
  rcases hk with rfl | rfl | rfl | rfl | rfl <;>
    rcases hk' with rfl | rfl | rfl | rfl | rfl <;> first
    | exact absurd rfl hne
    | cases t <;> cases t' <;> rfl
    | cases t <;> cases v' <;> rfl
    | cases v <;> cases t' <;> rfl
    | cases v <;> cases v' <;> rfl

/-- A change does nothing to what is put into a document. -/
theorem result?_putShape_of_change {k : String} (hk : k ∈ Document.keys)
    (h : Change (Part.document.under (some k)) d s s') (r : Document) :
    (Document.putShape d k s r).result? = (Document.putShape d k s' r).result? := by
  have hrel := rel_value_of_change h
  rw [result?_putShape d hk, result?_putShape d hk, textOrNull_of_change h]
  simp only [Document.keys, List.mem_cons, List.not_mem_nil, or_false] at hk
  rcases hk with rfl | rfl | rfl | rfl | rfl
  · rfl
  · rfl
  · exact map_eq_of_rel hrel fun v w (hvw : v = w) => by rw [hvw]
  · exact map_eq_of_rel hrel fun v w (hvw : v = w) => by rw [hvw]
  · refine map_eq_of_rel hrel fun v w hvw => ?_
    have hfields : (tolerantList Field.ofValue? v).value = (tolerantList Field.ofValue? w).value :=
      hvw
    rw [hfields]

/-- The places of a document are those of its keys. -/
theorem item_document (n : Nat) (k : String) (h : Document.keys[n]? = some k) :
    Part.document.item n = Part.document.under (some k) := by
  match n, h with
  | 0, h | 1, h | 2, h | 3, h | 4, h =>
    cases h
    rfl
  | _ + 5, h => cases h

/-- **A change does nothing to the document that is read.** -/
theorem result?_document_of_change (h : Change .document d s s') :
    (Document.read d s).result? = (Document.read d s').result? := by
  refine result?_record_of_change item_document (fun _ _ _ _ => result?_putShape_of_change)
    readsCommute_document (fun ms k hk => ?_) h
  cases hk with
  | document hk => exact hk

/-! ### Events -/

/-- An event has one key only. -/
theorem readsCommute_event (d : Nat) : Shape.ReadsCommute ["document"] putShape d := by
  intro k hk k' hk' hne
  exact absurd ((List.mem_singleton.1 hk).trans (List.mem_singleton.1 hk').symm) hne

/-- **A change does nothing to the document that an event announces.** -/
theorem result?_read_of_change (h : Change .event d s s') :
    (read d s).result? = (read d s').result? := by
  have hplaces : ∀ n k, ["document"][n]? = some k →
      Part.event.item n = Part.event.under (some k) := by
    intro n k hk
    cases n with
    | zero =>
      cases hk
      rfl
    | succ n => cases hk
  have hput : ∀ d s s', ∀ k ∈ ["document"], Change (Part.event.under (some k)) d s s' →
      ∀ r, (putShape d k s r).result? = (putShape d k s' r).result? := by
    intro d s s' k hk h r
    rw [List.mem_singleton.1 hk] at h
    rw [putShape, putShape, Reading.result?_bind, Reading.result?_bind,
      result?_document_of_change h]
  have hignored : ∀ ms k, Part.event.Ignores ms k → k ∉ ["document"] := by
    rintro ms k ⟨hk⟩
    exact mt List.mem_singleton.1 hk
  rw [read, read, Reading.result?_bind, Reading.result?_bind,
    result?_record_of_change hplaces hput readsCommute_event hignored h]

/-- What one change leaves as it is, any number of changes does. -/
theorem result?_read_of_alike (h : Alike .event d s s') :
    (read d s).result? = (read d s').result? := by
  induction h with
  | rel _ _ h => exact result?_read_of_change h
  | refl => rfl
  | symm _ _ _ ih => exact ih.symm
  | trans _ _ _ _ _ ih ih' => exact ih.trans ih'

/-- **The message of an event does not depend on its spelling.** Two texts that spell shapes which
are alike are both refused, or both announce a document, and the documents have the same message.
Blanks between the tokens make no difference to the shapes. -/
theorem message_of_respelled {bs bs' : List UInt8} (hs : SpellsPadded bs s)
    (hs' : SpellsPadded bs' s') (h : Alike .event nestingLimit s s') :
    (∃ f f', (ofBytes bs).run.value = .error f ∧ (ofBytes bs').run.value = .error f') ∨
      ∃ doc doc', (ofBytes bs).run.value = .ok doc ∧ (ofBytes bs').run.value = .ok doc' ∧
        (Message.assemble doc).value = (Message.assemble doc').value := by
  have hresult : (ofBytes bs).result? = (ofBytes bs').result? := by
    rw [ofBytes, ofBytes, Text.ofBytes_of_spells hs, Text.ofBytes_of_spells hs',
      Reading.result?_read _ _ rfl, Reading.result?_read _ _ rfl]
    exact result?_read_of_alike h
  unfold Reading.result? at hresult
  cases hd : (ofBytes bs).run.value with
  | error f =>
    cases hd' : (ofBytes bs').run.value with
    | error f' => exact .inl ⟨f, f', rfl, rfl⟩
    | ok doc' =>
      rw [hd, hd'] at hresult
      cases hresult
  | ok doc =>
    cases hd' : (ofBytes bs').run.value with
    | error f' =>
      rw [hd, hd'] at hresult
      cases hresult
    | ok doc' =>
      rw [hd, hd'] at hresult
      cases hresult
      exact .inr ⟨doc, doc, rfl, rfl, rfl⟩

/-- A document of two members. -/
def terse : List UInt8 :=
  "\x7b\"document\":\x7b\"name\":\"a\",\"slug\":\"b\"\x7d\x7d".toUTF8.toList

/-- The same with its members the other way round, an escape, blanks, and one more member. -/
def verbose : List UInt8 :=
  (" \x7b\"document\" :\x7b\"x\":[],\"slug\":\"b\"," ++
    "\"name\": \"\\u0061\"\x7d\x7d").toUTF8.toList

/-- The shape of an event around the members of its document. -/
def eventOf (ms : List (Quoted × Shape)) : Shape :=
  .object [(quoted "document", .object ms none)] none

/-- A letter in an escape. -/
def escapedLetter : Quoted := ⟨[.unit 0x61], none⟩

/-- What the first text spells. -/
def terseShape : Shape :=
  eventOf [(quoted "name", .string (quoted "a")), (quoted "slug", .string (quoted "b"))]

/-- What the second text spells. -/
def verboseShape : Shape :=
  eventOf [(quoted "x", .array [] none), (quoted "slug", .string (quoted "b")),
    (quoted "name", .string escapedLetter)]

theorem spells_terse : SpellsPadded terse terseShape := by
  have hn : AreBlank [] := nofun
  have hname := SpellsMember.member hn (spellsQuoted_quote "name") hn
    (.blanks hn (.string (spellsQuoted_quote "a")) hn)
  have hslug := SpellsMember.member hn (spellsQuoted_quote "slug") hn
    (.blanks hn (.string (spellsQuoted_quote "b")) hn)
  have hdocument := SpellsMember.member hn (spellsQuoted_quote "document") hn
    (.blanks hn (.object (.cons hname (.last hslug))) hn)
  have hevent := SpellsPadded.blanks hn (.object (.last hdocument)) hn
  refine cast (congrArg (SpellsPadded · terseShape) ?_) hevent
  decide +kernel

theorem spells_verbose : SpellsPadded verbose verboseShape := by
  have hn : AreBlank [] := nofun
  have hb : AreBlank [0x20] := by decide
  have hextra := SpellsMember.member hn (spellsQuoted_quote "x") hn (.blanks hn (.emptyArray hn) hn)
  have hslug := SpellsMember.member hn (spellsQuoted_quote "slug") hn
    (.blanks hn (.string (spellsQuoted_quote "b")) hn)
  have hletter : SpellsQuoted [0x22, 0x5C, 0x75, 0x30, 0x30, 0x36, 0x31, 0x22] escapedLetter :=
    .quotes (.unit rfl .nil)
  have hname := SpellsMember.member hn (spellsQuoted_quote "name") hn
    (.blanks hb (.string hletter) hn)
  have hdocument := SpellsMember.member hn (spellsQuoted_quote "document") hb
    (.blanks hn (.object (.cons hextra (.cons hslug (.last hname)))) hn)
  have hevent := SpellsPadded.blanks hb (.object (.last hdocument)) hn
  refine cast (congrArg (SpellsPadded · verboseShape) ?_) hevent
  decide +kernel

/-- The members change places, the name is written in an escape, and a member joins them. -/
theorem alike_terse_verbose : Alike .event nestingLimit terseShape verboseShape := by
  have hinside : ∀ {ms ms' : List (Quoted × Shape)},
      Change .document 126 (.object ms none) (.object ms' none) →
      Alike .event nestingLimit (eventOf ms) (eventOf ms') := by
    intro ms ms' h
    refine .rel _ _ (.member [] (quoted "document") [] ?_)
    rw [decode_quoted]
    exact h
  have hdistinct : (Shape.keysOf [(quoted "name", .string (quoted "a")),
      (quoted "slug", .string (quoted "b"))]).Nodup := by
    simp [Shape.keysOf, decode_quoted, Except.toOption]
  have hsame : SameText (quoted "a") escapedLetter := by
    refine ⟨?_, rfl⟩
    rw [decode_quoted]
    decide +kernel
  have hswap := hinside (.order (.swap ..) hdistinct)
  have hescape := hinside
    (.member [(quoted "slug", .string (quoted "b"))] (quoted "name") [] (.string hsame))
  have hreadable : (Shape.array [] none).value 125 = .ok (.array []) := rfl
  refine .trans _ _ _ hswap (.trans _ _ _ hescape (hinside ?_))
  exact .extra (decode_quoted "x") (.document (by decide)) hreadable

/-- Both texts are read, and have the same message. -/
theorem terse_and_verbose :
    SpellsPadded terse terseShape ∧ SpellsPadded verbose verboseShape ∧
      Alike .event nestingLimit terseShape verboseShape ∧
      ∃ doc doc', (ofBytes terse).run.value = .ok doc ∧ (ofBytes verbose).run.value = .ok doc' ∧
        (Message.assemble doc).value = (Message.assemble doc').value := by
  refine ⟨spells_terse, spells_verbose, alike_terse_verbose, ?_⟩
  rcases message_of_respelled spells_terse spells_verbose alike_terse_verbose with
    ⟨f, f', hf, -⟩ | h
  · have hread : (ofBytes terse).result?.isSome = true := by decide +kernel
    rw [Reading.result?, hf] at hread
    cases hread
  · exact h

end Herald.Event
