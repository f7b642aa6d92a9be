import Herald.Proofs.Document.Acceptance
import Herald.Proofs.Json.Equality

/-!
# The events that are accepted

* `Event.Announces`: what stands in the place of the document of an event;
* `Document.Fits`: the values that stand for a document;
* `Value.ReadsAs`, `Document.Stands`: the texts a value is read as, and what a document takes from
  the value that stands for it;
* `Event.accepts_iff_fits`: a text announces a document exactly if its value has one that
  fits, and then the document is the one that stands there.

An object counts by its keys and a list by its places, five of them for a document and one for an
event.
-/

namespace Herald

open Json

namespace Json.Value

/-- The text that a value is read as where null stands for the empty text. -/
inductive ReadsAs : Value → String → Prop
  | null : ReadsAs .null ""
  | string (s : String) : ReadsAs (.string s) s

theorem readsAs_iff {v : Value} {t : String} :
    v.ReadsAs t ↔ orDefault? "" text? v = some t := by
  constructor
  · rintro (_ | _) <;> rfl
  · intro h
    cases v with
    | null =>
      cases h
      exact .null
    | string s =>
      cases h
      exact .string t
    | _ => cases h

end Json.Value

namespace Document

/-- The values that stand for a document: an object whose name and slug are absent, null or texts,
or a list of at most five items whose first two, if there are any, are null or texts. Nothing else
about them matters. -/
inductive Fits : Value → Prop
  | members {ms : Members} (name : ∀ v, ms.get? "name" = some v → v.IsTextOrNull)
      (slug : ∀ v, ms.get? "slug" = some v → v.IsTextOrNull) : Fits (.object ms)
  | items {items : List Value} (length : items.length ≤ 5)
      (name : ∀ v, items[0]? = some v → v.IsTextOrNull)
      (slug : ∀ v, items[1]? = some v → v.IsTextOrNull) : Fits (.array items)

/-- What a document takes from the value that stands for it. What is absent counts as null. -/
inductive Stands : Value → Document → Prop
  | members {ms : Members} {d : Document} (name : (ms.orNull "name").ReadsAs d.name)
      (slug : (ms.orNull "slug").ReadsAs d.slug) (created : d.createdAt = ms.orNull "createdAt")
      (updated : d.updatedAt = ms.orNull "updatedAt")
      (fields : d.fields = (tolerantList Field.ofValue? (ms.orNull "fields")).value) :
      Stands (.object ms) d
  | items {items : List Value} {d : Document} (length : items.length ≤ 5)
      (name : (items.getD 0 Value.null).ReadsAs d.name)
      (slug : (items.getD 1 Value.null).ReadsAs d.slug)
      (created : d.createdAt = items.getD 2 .null)
      (updated : d.updatedAt = items.getD 3 .null)
      (fields : d.fields = (tolerantList Field.ofValue? (items.getD 4 .null)).value) :
      Stands (.array items) d

/-- The parts of a document one by one. -/
theorem ofParts?_eq_some_iff {part : String → Value} {d : Document} :
    ofParts? part = some d ↔
      (part "name").ReadsAs d.name ∧ (part "slug").ReadsAs d.slug ∧
        d.createdAt = part "createdAt" ∧ d.updatedAt = part "updatedAt" ∧
        d.fields = (tolerantList Field.ofValue? (part "fields")).value := by
  rw [Value.readsAs_iff, Value.readsAs_iff, ofParts?]
  constructor
  · intro h
    obtain ⟨name, hn, h⟩ := Option.bind_eq_some_iff.1 h
    obtain ⟨slug, hs, h⟩ := Option.bind_eq_some_iff.1 h
    cases h
    exact ⟨hn, hs, rfl, rfl, rfl⟩
  · obtain ⟨name, slug, created, updated, fields⟩ := d
    rintro ⟨hn, hs, hc, hu, hf⟩
    dsimp only at hn hs hc hu hf
    subst hc hu hf
    rw [hn, hs]
    rfl

theorem ofValue?_object (ms : Members) :
    ofValue? (.object ms) = ofParts? fun key => ms.orNull key := if_pos trivial

theorem ofValue?_array (items : List Value) :
    ofValue? (.array items)
      = if items.length ≤ 5 then ofParts? (Value.partOrNull keys (.array items)) else none := rfl

/-- A document is read from the values that stand for one. -/
theorem ofValue?_eq_some_iff {v : Value} {d : Document} : ofValue? v = some d ↔ Stands v d := by
  cases v with
  | object ms =>
    rw [ofValue?_object, ofParts?_eq_some_iff]
    constructor
    · rintro ⟨hn, hs, hc, hu, hf⟩
      exact .members hn hs hc hu hf
    · rintro ⟨hn, hs, hc, hu, hf⟩
      exact ⟨hn, hs, hc, hu, hf⟩
  | array items =>
    rw [ofValue?_array, Option.ite_none_right_eq_some, ofParts?_eq_some_iff]
    constructor
    · rintro ⟨hl, hn, hs, hc, hu, hf⟩
      exact .items hl hn hs hc hu hf
    · intro h
      cases h with
      | items hl hn hs hc hu hf => exact ⟨hl, hn, hs, hc, hu, hf⟩
  | _ => exact ⟨nofun, nofun⟩

/-- A part fits if it is absent or fits as it stands. -/
theorem isTextOrNull_getD_iff {o : Option Value} :
    (o.getD .null).IsTextOrNull ↔ ∀ v, o = some v → v.IsTextOrNull := by
  cases o with
  | none => simp [Value.IsTextOrNull]
  | some v => simp

/-- The values that stand for some document. -/
theorem exists_stands_iff {v : Value} : (∃ d, Stands v d) ↔ Fits v := by
  simp only [← ofValue?_eq_some_iff]
  cases v with
  | object ms =>
    rw [ofValue?_object, exists_ofParts?_iff, Members.orNull, Members.orNull,
      isTextOrNull_getD_iff, isTextOrNull_getD_iff]
    constructor
    · rintro ⟨hn, hs⟩
      exact .members hn hs
    · rintro ⟨hn, hs⟩
      exact ⟨hn, hs⟩
  | array items =>
    have hn : (Value.partOrNull keys (.array items) "name").IsTextOrNull ↔
        ∀ v, items[0]? = some v → v.IsTextOrNull := isTextOrNull_getD_iff
    have hs : (Value.partOrNull keys (.array items) "slug").IsTextOrNull ↔
        ∀ v, items[1]? = some v → v.IsTextOrNull := isTextOrNull_getD_iff
    simp only [ofValue?_array, Option.ite_none_right_eq_some, exists_and_left,
      exists_ofParts?_iff, hn, hs]
    constructor
    · rintro ⟨hl, hn, hs⟩
      exact .items hl hn hs
    · rintro ⟨⟩
      exact ⟨‹_›, ‹_›, ‹_›⟩
  | _ => exact ⟨nofun, nofun⟩

end Document

namespace Event

/-- What stands in the place of the document of an event: the member of an object under its key, or
the only item of a list. -/
inductive Announces : Value → Value → Prop
  | member {ms : Members} {w : Value} (document : ms.get? "document" = some w) :
      Announces (.object ms) w
  | item (w : Value) : Announces (.array [w]) w

/-- The document of a value is the one that stands in its place. -/
theorem ofValue?_eq_some_iff {v : Value} {d : Document} :
    ofValue? v = some d ↔ ∃ w, Announces v w ∧ Document.Stands w d := by
  unfold ofValue?
  simp only [Option.ite_none_right_eq_some, Option.bind_eq_some_iff,
    Document.ofValue?_eq_some_iff]
  constructor
  · rintro ⟨hr, w, hw, hd⟩
    refine ⟨w, ?_, hd⟩
    cases v with
    | object ms => exact .member hw
    | array items =>
      match items, hr, hw with
      | [_], _, rfl => exact .item w
    | _ => cases hr
  · rintro ⟨w, hw, hd⟩
    cases hw with
    | member h => exact ⟨trivial, w, h, hd⟩
    | item => exact ⟨Nat.le_refl 1, w, rfl, hd⟩

/-- **The events that are accepted.** A text that has a value and repeats no key announces a
document if and only if a value that fits stands in the place of one, whatever else there is in the
text; and the document is the one that stands there. -/
theorem accepts_iff_fits {bs : List UInt8} {v : Value} (hv : Value.ofBytes bs = .ok v)
    (hr : (Text.ofBytes bs).root.repeatsNoKey = true) :
    ((∃ d, (ofBytes bs).run.value = .ok d) ↔ ∃ w, Announces v w ∧ Document.Fits w) ∧
      ∀ d, (ofBytes bs).run.value = .ok d → ∃ w, Announces v w ∧ Document.Stands w d := by
  have hread : ∀ d, (ofBytes bs).run.value = .ok d ↔ ∃ w, Announces v w ∧ Document.Stands w d := by
    intro d
    rw [← ofValue?_eq_some_iff, ← result?_ofBytes hv hr]
    unfold Reading.result?
    cases (ofBytes bs).run.value <;> simp [Except.toOption]
  refine ⟨?_, fun d => (hread d).1⟩
  simp only [hread, ← Document.exists_stands_iff]
  constructor
  · rintro ⟨d, w, hw, hd⟩
    exact ⟨w, hw, d, hd⟩
  · rintro ⟨w, hw, d, hd⟩
    exact ⟨d, w, hw, hd⟩

/-- An event and its document as lists: a name that is null, a slug, and two odd times. -/
def listed : List UInt8 := "[[null,\"a\",[1],\x7b\"b\":2\x7d]]".toUTF8.toList

/-- The document in it. -/
def listedDocument : List Value :=
  [.null, .string "a", .array [.number (.integer 1)], .object [("b", .number (.integer 2))]]

/-- It is accepted, and the times are kept as they are. -/
theorem listed_is_accepted :
    Value.ofBytes listed = .ok (.array [.array listedDocument]) ∧
      (Text.ofBytes listed).root.repeatsNoKey = true ∧
      ∃ d, (ofBytes listed).run.value = .ok d ∧ d.name = "" ∧ d.slug = "a" ∧
        d.createdAt = .array [.number (.integer 1)] ∧
        d.updatedAt = .object [("b", .number (.integer 2))] := by
  have hv : Value.ofBytes listed = .ok (.array [.array listedDocument]) := by
    decide +kernel
  have hr : (Text.ofBytes listed).root.repeatsNoKey = true := by decide +kernel
  obtain ⟨haccepted, hstands⟩ := accepts_iff_fits hv hr
  have hfits : Document.Fits (.array listedDocument) := by
    refine .items (by decide) (fun v h => ?_) (fun v h => ?_)
    · cases h
      trivial
    · cases h
      trivial
  obtain ⟨d, hd⟩ := haccepted.2 ⟨_, .item _, hfits⟩
  obtain ⟨w, hw, hs⟩ := hstands d hd
  cases hw with
  | item =>
    cases hs with
    | items _ hn hs hc hu _ =>
      refine ⟨hv, hr, d, hd, ?_, ?_, hc, hu⟩
      · exact (Option.some.inj (Value.readsAs_iff.1 hn)).symm
      · exact (Option.some.inj (Value.readsAs_iff.1 hs)).symm

end Event

end Herald
