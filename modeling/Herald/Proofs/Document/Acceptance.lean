import Herald.Document
import Herald.Proofs.Json.Lookup

/-!
# The documents that are accepted

* `Document.ofParts?`: the document with these parts. A name and a slug are texts or null, and
  nothing else can be wrong;
* `Document.ofValue?`, `Event.ofValue?`: the document of a value, and the one that it announces;
* `Document.result?_read`, `Event.result?_ofBytes`: a text that has a value and repeats no key is
  read as that document, or refused if there is none.
-/

namespace Herald

open Json

namespace Document

/-- Put in the value of a key. -/
def put (key : String) (v : Value) (d : Document) : Option Document :=
  match key with
  | "name" => (orDefault? "" Value.text? v).map fun s => { d with name := s }
  | "slug" => (orDefault? "" Value.text? v).map fun s => { d with slug := s }
  | "createdAt" => some { d with createdAt := v }
  | "updatedAt" => some { d with updatedAt := v }
  | "fields" => some { d with fields := (tolerantList Field.ofValue? v).value }
  | _ => some d

/-- The document with these parts, null where there is none. -/
def ofParts? (part : String → Value) : Option Document := do
  let name ← orDefault? "" Value.text? (part "name")
  let slug ← orDefault? "" Value.text? (part "slug")
  pure ⟨name, slug, part "createdAt", part "updatedAt",
    (tolerantList Field.ofValue? (part "fields")).value⟩

/-- Only a name or a slug that is neither a text nor null makes a document impossible. -/
theorem exists_ofParts?_iff {part : String → Value} :
    (∃ d, ofParts? part = some d) ↔
      (part "name").IsTextOrNull ∧ (part "slug").IsTextOrNull := by
  rw [← Value.exists_orDefault?_iff, ← Value.exists_orDefault?_iff]
  unfold ofParts?
  constructor
  · rintro ⟨d, h⟩
    obtain ⟨name, hn, h₁⟩ := Option.bind_eq_some_iff.1 h
    obtain ⟨slug, hs, -⟩ := Option.bind_eq_some_iff.1 h₁
    exact ⟨⟨name, hn⟩, ⟨slug, hs⟩⟩
  · rintro ⟨⟨name, hn⟩, ⟨slug, hs⟩⟩
    rw [hn, hs]
    exact ⟨_, rfl⟩

/-- The document of a value. -/
def ofValue? (v : Value) : Option Document :=
  if v.IsRecord keys then ofParts? (v.partOrNull keys) else none

/-- No two keys are put in at one place. -/
theorem commutes_put : Members.Commutes keys put := by
  intro k _ k' _ hk v v' d
  unfold put
  generalize orDefault? "" Value.text? v = t
  generalize orDefault? "" Value.text? v' = t'
  cases t <;> cases t' <;> split <;> split <;> first
    | exact absurd rfl hk
    | rfl

theorem putsIn_putShape (depth : Nat) : Shape.PutsIn putShape put depth := by
  intro k s v d hv _
  have htext : ∀ f : String → Document,
      (Reading.ofExcept s.textOrNull >>= fun t => pure (f t) : Reading Document).result?
        = (orDefault? "" Value.text? v).map f := by
    intro f
    rw [Reading.result?_bind, Reading.result?_ofExcept, Shape.toOption_textOrNull hv,
      Option.map_eq_bind]
    rfl
  unfold putShape
  split
  · exact htext _
  · exact htext _
  · rw [hv]
    rfl
  · rw [hv]
    rfl
  · rw [hv]
    rfl
  · rw [put] <;> first | rfl | assumption

/-- What is collected for a document is the document with these parts: nothing is absent, as null is
the same. -/
theorem collect?_put (v : Value) : v.collect? keys put blank = ofValue? v := by
  unfold Value.collect? ofValue?
  split
  · rw [ofParts?, keys, Members.fill_part rfl]
    show Members.fill put _ ((orDefault? "" Value.text? (v.partOrNull keys "name")).map _)
      = (orDefault? "" Value.text? (v.partOrNull keys "name")).bind _
    cases orDefault? "" Value.text? (v.partOrNull keys "name") with
    | none => exact Members.fill_none
    | some name =>
      show Members.fill put _ (some { blank with name := name }) = _
      rw [Members.fill_part rfl]
      show Members.fill put _ ((orDefault? "" Value.text? (v.partOrNull keys "slug")).map _)
        = (orDefault? "" Value.text? (v.partOrNull keys "slug")).bind _
      cases orDefault? "" Value.text? (v.partOrNull keys "slug") with
      | none => exact Members.fill_none
      | some slug =>
        show Members.fill put _ (some { blank with name := name, slug := slug }) = _
        rw [Members.fill_part rfl]
        show Members.fill put _ (some ⟨name, slug, v.partOrNull keys "createdAt", .null, []⟩) = _
        rw [Members.fill_part rfl]
        show Members.fill put _ (some ⟨name, slug, v.partOrNull keys "createdAt",
          v.partOrNull keys "updatedAt", []⟩) = _
        rw [Members.fill_part rfl]
        rfl
  · rfl

/-- **The document of a text.** -/
theorem result?_read {depth : Nat} {s : Shape} {v : Value} (hv : s.value depth = .ok v)
    (hr : s.repeatsNoKey = true) : (read depth s).result? = ofValue? v := by
  rw [read, Shape.result?_record (by decide) commutes_put (fun d _ => putsIn_putShape d) hv hr,
    collect?_put]

end Document

namespace Event

/-- The document that a value announces. -/
def ofValue? (v : Value) : Option Document :=
  if v.IsRecord ["document"] then (v.part? ["document"] "document").bind Document.ofValue?
  else none

/-- Put in the document of a value. -/
def put (_ : String) (v : Value) (_ : Option Document) : Option (Option Document) :=
  (Document.ofValue? v).map some

theorem putsIn_putShape (depth : Nat) : Shape.PutsIn putShape put depth := by
  intro k s v o hv hr
  rw [putShape, Reading.result?_bind, Document.result?_read hv hr, put, Option.map_eq_bind]
  rfl

theorem result?_read {depth : Nat} {s : Shape} {v : Value} (hv : s.value depth = .ok v)
    (hr : s.repeatsNoKey = true) : (read depth s).result? = ofValue? v := by
  have hc : Members.Commutes ["document"] put := by
    intro k hk k' hk' hne
    exact absurd ((List.mem_singleton.1 hk).trans (List.mem_singleton.1 hk').symm) hne
  rw [read, Reading.result?_bind, Shape.result?_record (by decide) hc
    (fun d _ => putsIn_putShape d) hv hr]
  unfold Value.collect? ofValue?
  split
  · rw [List.filterMap_cons]
    cases v.part? ["document"] "document" with
    | none => rfl
    | some w =>
      show ((Document.ofValue? w).map some).bind _ = Document.ofValue? w
      cases Document.ofValue? w <;> rfl
  · rfl

/-- **The document that a text announces.** -/
theorem result?_ofBytes {bs : List UInt8} {v : Value} (hv : Value.ofBytes bs = .ok v)
    (hr : (Text.ofBytes bs).root.repeatsNoKey = true) : (ofBytes bs).result? = ofValue? v := by
  obtain ⟨hroot, ht⟩ := Value.ofBytes_eq_ok_iff.1 hv
  rw [ofBytes, Reading.result?_read _ _ ht, result?_read hroot hr]

end Event

end Herald
