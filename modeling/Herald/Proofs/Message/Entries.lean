import Herald.Message.Assembly
import Herald.Proofs.Document.Field
import Herald.Proofs.Json.Numeral

/-!
# No field is lost silently

An entry of the list of fields is read (`readEntry`) and then formatted (`formatEntry`), and may be
left out by either. `Notice.isDrop` is what is said then.

* `Noted.IsAccounted`: there is a result, or it is said once that an entry is left out;
* `isAccounted_entryBlock?`: this holds for every entry, from its reading and its formatting;
* `isSome_entryBlock?_iff`: the objects that have a block;
* `Document.yields_read_fields`: the fields of a document are read entry by entry;
* `assemble_entries`: the message of a document, entry by entry.
-/

namespace Herald

open Json Document

/-- What is said about an entry that is left out. -/
def dropMessages : List String :=
  ["Skipping malformed list entry", "Unknown field type, dropping field",
    "Field without a numeric type, dropping field"]

/-- A warning that an entry is left out. -/
def Notice.isDrop (n : Notice) : Bool := n.level = .warn && dropMessages.contains n.message

namespace Noted

variable {α β : Type}

/-- How many entries are left out on the way to a result. -/
def drops (x : Noted α) : Nat := x.notices.countP Notice.isDrop

@[simp] theorem drops_pure (a : α) : (pure a : Noted α).drops = 0 := rfl

@[simp] theorem drops_bind (x : Noted α) (f : α → Noted β) :
    (x >>= f).drops = x.drops + (f x.value).drops := by
  rw [drops, notices_bind, List.countP_append]
  rfl

@[simp] theorem drops_map (f : α → β) (x : Noted α) : (f <$> x).drops = x.drops := by
  rw [drops, notices_map]
  rfl

@[simp] theorem drops_give (n : Notice) : (give n).drops = if n.isDrop then 1 else 0 := by
  rw [drops, notices_give, List.countP_singleton]

/-- There is a result, or it is said once that an entry is left out, but not both. -/
def IsAccounted (x : Noted (Option α)) : Prop :=
  (x.value.isSome ∧ x.drops = 0) ∨ (x.value = none ∧ x.drops = 1)

theorem IsAccounted.of_some {x : Noted (Option α)} {a : α} (h : x.value = some a)
    (hd : x.drops = 0) : x.IsAccounted := .inl ⟨by rw [h]; rfl, hd⟩

/-- What cannot be read or is left out later on is accounted for by one of the two. -/
theorem IsAccounted.bind {x : Noted (Option α)} {f : α → Noted (Option β)} (hx : x.IsAccounted)
    (hf : ∀ a, (f a).IsAccounted) :
    (x >>= fun o => o.elim (pure none) f).IsAccounted := by
  rcases hx with ⟨hs, hd⟩ | ⟨hn, hd⟩
  · obtain ⟨a, ha⟩ := Option.isSome_iff_exists.1 hs
    have h := hf a
    rw [IsAccounted, value_bind, drops_bind, ha, hd, Nat.zero_add]
    exact h
  · rw [IsAccounted, value_bind, drops_bind, hn, hd]
    exact .inr ⟨rfl, rfl⟩

theorem drops_eq_zero {P : Notice → Prop} {x : Noted α} (hx : x.All P)
    (hP : ∀ n, P n → n.isDrop = false) : x.drops = 0 := by
  rw [drops, List.countP_eq_zero]
  intro n hn
  rw [hP n (hx n hn)]
  decide

end Noted

theorem Notice.isDrop_eq_false_of_isOfReading (n : Notice) (h : n.isOfReading) :
    n.isDrop = false := by
  cases n <;> first | rfl | cases h

theorem Notice.isDrop_eq_false_of_isOfRendering (n : Notice) (h : n.isOfRendering) :
    n.isDrop = false := by
  cases n <;> first | rfl | cases h

namespace Message

/-! ### Formatting -/

theorem drops_dateText (s : String) : (Time.dateText s).drops = 0 := by
  unfold Time.dateText
  split
  · exact Noted.drops_pure _
  · have h : (Notice.unparseableDate s).isDrop = false := rfl
    simp [h]

theorem drops_dateTextOfValue (v : Value) : (Time.dateTextOfValue v).drops = 0 := by
  unfold Time.dateTextOfValue
  split
  · exact drops_dateText _
  · split <;> exact Noted.drops_pure _
  · exact Noted.drops_pure _

theorem drops_toMrkdwn (nodes : List RichText.Node) : (RichText.toMrkdwn nodes).drops = 0 :=
  Noted.drops_eq_zero (RichText.Node.all_toMrkdwn nodes) Notice.isDrop_eq_false_of_isOfRendering

/-- A field has a block, or it is said that it is left out. -/
theorem isAccounted_fieldBlock? (f : Field) : (fieldBlock? f).IsAccounted := by
  unfold fieldBlock?
  split
  · exact .of_some rfl rfl
  · dsimp only
    split
    · have h : (Notice.emptyRichText f.name).isDrop = false := rfl
      exact .of_some rfl (by simp [h, drops_toMrkdwn])
    · exact .of_some rfl (by simp [drops_toMrkdwn])
  · exact .of_some rfl rfl
  · exact .of_some rfl rfl
  · exact .of_some rfl rfl
  · exact .of_some rfl (by simp [drops_dateTextOfValue])
  · exact .inr ⟨rfl, rfl⟩
  · exact .inr ⟨rfl, rfl⟩

/-! ### Entries -/

/-- An entry of the list of fields is read. -/
def readEntry (v : Value) : Noted (Option Field) := tolerantEntry Field.ofValue? v

/-- The block of an entry that can be read. -/
def formatEntry (f : Option Field) : Noted (Option Block) := f.elim (pure none) fieldBlock?

/-- The block of an entry, by itself. -/
def entryBlock? (v : Value) : Noted (Option Block) := readEntry v >>= formatEntry

theorem isAccounted_readEntry (v : Value) : (readEntry v).IsAccounted := by
  have hd : (Field.ofValue? v).drops = 0 :=
    Noted.drops_eq_zero (Field.all_ofValue? v) Notice.isDrop_eq_false_of_isOfReading
  rw [readEntry, tolerantEntry, Noted.IsAccounted, Noted.value_bind, Noted.drops_bind, hd]
  cases (Field.ofValue? v).value with
  | some f => exact .inl ⟨rfl, rfl⟩
  | none => exact .inr ⟨rfl, rfl⟩

/-- An entry has a block, or it is said once that it is left out. -/
theorem isAccounted_entryBlock? (v : Value) : (entryBlock? v).IsAccounted :=
  (isAccounted_readEntry v).bind isAccounted_fieldBlock?

/-- A field of a known kind has a block, and no other. -/
theorem isSome_fieldBlock?_iff (f : Field) : (fieldBlock? f).value.isSome ↔ f.kind.isKnown := by
  obtain ⟨kind, name, value, nodes⟩ := f
  cases kind with
  | richText =>
    dsimp only [fieldBlock?]
    split <;> simp [FieldKind.isKnown]
  | _ => simp [fieldBlock?, FieldKind.isKnown]

/-- **The objects that have a block.** -/
theorem isSome_entryBlock?_iff {depth : Nat} {members : List (Quoted × Shape)}
    {stop : Option Fault} {v : Value} (h : (Shape.object members stop).value depth = .ok v) :
    (entryBlock? v).value.isSome ↔ Field.IsSpelled members := by
  rw [← Field.isKnown_ofValue?_iff h, entryBlock?, Noted.value_bind, readEntry,
    value_tolerantEntry]
  cases (Field.ofValue? v).value with
  | none => simp [formatEntry]
  | some f => simpa [formatEntry] using isSome_fieldBlock?_iff f

end Message

namespace Document

/-! ### The document -/

/-- The list of fields is put in as it is read; no other member changes it or gives a notice. -/
theorem leavesAlone_putShape (depth : Nat) : Shape.LeavesAlone putShape depth "fields" fields := by
  intro k hk s r r' ns h
  unfold putShape at h
  split at h
  · obtain ⟨_, -, rfl, rfl⟩ := Reading.yields_ofExcept_pure.1 h
    exact ⟨rfl, rfl⟩
  · obtain ⟨_, -, rfl, rfl⟩ := Reading.yields_ofExcept_pure.1 h
    exact ⟨rfl, rfl⟩
  · obtain ⟨_, -, rfl, rfl⟩ := Reading.yields_ofExcept_pure.1 h
    exact ⟨rfl, rfl⟩
  · obtain ⟨_, -, rfl, rfl⟩ := Reading.yields_ofExcept_pure.1 h
    exact ⟨rfl, rfl⟩
  · exact absurd rfl hk
  · obtain ⟨rfl, rfl⟩ := Reading.yields_pure.1 h
    exact ⟨rfl, rfl⟩

/-- These are the fields of the list that a shape stands for, and these the notices about them. -/
def AreFieldsOf (depth : Nat) (s : Shape) (fs : List Field) (ns : List Notice) : Prop :=
  ∃ v, s.value depth = .ok v ∧ tolerantList Field.ofValue? v = ⟨fs, ns⟩

theorem areFieldsOf_of_yields {depth : Nat} (s : Shape) (r r' : Document) (ns : List Notice)
    (h : (putShape depth "fields" s r).Yields r' ns) : AreFieldsOf depth s r'.fields ns := by
  obtain ⟨v, hv, h⟩ := Reading.yields_ofExcept_bind.1 h
  obtain ⟨fields, ns₁, ns₂, hf, hp, rfl⟩ := Reading.yields_bind.1 h
  obtain ⟨rfl, rfl⟩ := Reading.yields_pure.1 hp
  refine ⟨v, hv, ?_⟩
  rw [Reading.yields_ofNoted.1 hf, List.append_nil]

/-- The fields of a document that is read are those of its entries that can be read. -/
theorem yields_read_fields {depth : Nat} {members : List (Quoted × Shape)} {stop : Option Fault}
    {d : Document} {ns : List Notice} {q : Quoted} {items : List Shape} {stop' : Option Fault}
    (h : (read depth (.object members stop)).Yields d ns)
    (hm : (q, .array items stop') ∈ members) (hq : q.decode = .ok "fields") :
    ∃ vs : List Value, items.map (Shape.value (depth - 2)) = vs.map .ok ∧
      d.fields = vs.filterMap (fun v => (Message.readEntry v).value) ∧
      ns = vs.flatMap fun v => (Message.readEntry v).notices := by
  rw [read, Shape.record, Reading.yields_ofExcept_bind] at h
  obtain ⟨d₁, hd, h⟩ := h
  obtain ⟨r, ns₁, ns₂, hr, hc, rfl⟩ := Reading.yields_bind.1 h
  obtain ⟨_, -, rfl, rfl⟩ := Reading.yields_ofExcept_pure.1 hc
  -- Whatever stands before and after the list of fields, its effect is there in the end.
  obtain ⟨v, hv, hf⟩ := Shape.yields_recordMembers_of_mem (P := AreFieldsOf d₁)
    (leavesAlone_putShape d₁) (by decide) areFieldsOf_of_yields hm hq hr
  obtain ⟨d₂, vs, rfl, hvs, -, rfl⟩ := Shape.value_array_eq_ok_iff.1 hv
  obtain rfl := Shape.enter_eq_ok_iff.1 hd
  rw [tolerantList, tolerantEntries_eq, Noted.mk.injEq] at hf
  refine ⟨vs, Shape.values_eq_ok_iff.1 hvs, ?_, ?_⟩
  · rw [← hf.1]
    simp only [Message.readEntry, value_tolerantEntry]
  · rw [List.append_nil, ← hf.2]
    rfl

end Document

namespace Message

/-- The fields of entries are formatted entry by entry. -/
theorem fieldBlocks_filterMap_readEntry (vs : List Value) :
    fieldBlocks (vs.filterMap fun v => (readEntry v).value)
      = ⟨vs.filterMap fun v => (entryBlock? v).value,
          vs.flatMap fun v => (formatEntry (readEntry v).value).notices⟩ := by
  induction vs with
  | nil => rfl
  | cons v vs ih =>
    have hb : (entryBlock? v).value = (formatEntry (readEntry v).value).value := rfl
    rw [List.filterMap_cons, List.filterMap_cons, List.flatMap_cons, hb]
    cases (readEntry v).value with
    | none => exact ih
    | some f =>
      dsimp only
      rw [fieldBlocks, ih]
      ext1
      · cases h : (fieldBlock? f).value <;> simp [formatEntry, h]
      · simp [formatEntry]

/-- Each entry is a block or a notice that it is left out. -/
theorem length_add_countP_isDrop (vs : List Value) :
    (vs.filterMap fun v => (entryBlock? v).value).length
        + ((vs.flatMap fun v => (readEntry v).notices).countP Notice.isDrop
          + (vs.flatMap fun v => (formatEntry (readEntry v).value).notices).countP Notice.isDrop)
      = vs.length := by
  induction vs with
  | nil => rfl
  | cons v vs ih =>
    -- An entry may be left out in either pass, but the two together say so once.
    have hd : (readEntry v).notices.countP Notice.isDrop
        + (formatEntry (readEntry v).value).notices.countP Notice.isDrop = (entryBlock? v).drops :=
      (Noted.drops_bind _ _).symm
    rw [List.filterMap_cons, List.flatMap_cons, List.flatMap_cons, List.countP_append,
      List.countP_append, List.length_cons]
    rcases isAccounted_entryBlock? v with ⟨hs, h₀⟩ | ⟨hn, h₁⟩
    · obtain ⟨b, hb⟩ := Option.isSome_iff_exists.1 hs
      rw [hb]
      dsimp only
      rw [List.length_cons]
      omega
    · rw [hn]
      dsimp only
      omega

theorem drops_contextBlock (d : Document) : (contextBlock d).drops = 0 := by
  simp [contextBlock, drops_dateTextOfValue]

/-- **No field is lost silently, and none disturbs another.** The message of a document that is read
from an object is its context, with both dates and the slug, its header, and the blocks of the
entries of its list of fields, in their order. What an entry brings depends on it alone: one block,
or none and one warning that it is left out. So the message is shorter than the list by the number
of these warnings. An entry that is an object has a block if its members are spelled as a field of a
known kind. -/
theorem assemble_entries {depth : Nat} {members : List (Quoted × Shape)} {stop : Option Fault}
    {d : Document} {ns : List Notice} {q : Quoted} {items : List Shape} {stop' : Option Fault}
    (h : (Document.read depth (.object members stop)).Yields d ns)
    (hm : (q, .array items stop') ∈ members) (hq : q.decode = .ok "fields") :
    ∃ vs : List Value, items.map (Shape.value (depth - 2)) = vs.map .ok ∧
      (assemble d).value
        = .contextOf ["Created: *" ++ (Time.dateTextOfValue d.createdAt).value ++ "*",
              "Updated: *" ++ (Time.dateTextOfValue d.updatedAt).value ++ "*",
              "Slug: *" ++ d.slug ++ "*"] ::
            .headerOf d.name :: vs.filterMap (fun v => (entryBlock? v).value) ∧
      ns = vs.flatMap (fun v => (readEntry v).notices) ∧
      (assemble d).notices = (contextBlock d).notices ++
        vs.flatMap (fun v => (formatEntry (readEntry v).value).notices) ∧
      (∀ v ∈ vs, (entryBlock? v).IsAccounted) ∧
      (assemble d).value.length + (ns ++ (assemble d).notices).countP Notice.isDrop
        = 2 + items.length ∧
      ∀ ms e v, Shape.object ms e ∈ items → (Shape.object ms e).value (depth - 2) = .ok v →
        ((entryBlock? v).value.isSome ↔ Field.IsSpelled ms) := by
  obtain ⟨vs, hvs, hf, hns⟩ := Document.yields_read_fields h hm hq
  have hb := fieldBlocks_filterMap_readEntry vs
  rw [← hf] at hb
  have hvalue : (assemble d).value = (contextBlock d).value :: .headerOf d.name ::
      vs.filterMap (fun v => (entryBlock? v).value) := by
    simp [assemble, hb]
  have hnotices : (assemble d).notices = (contextBlock d).notices ++
      vs.flatMap (fun v => (formatEntry (readEntry v).value).notices) := by
    simp [assemble, hb]
  refine ⟨vs, hvs, hvalue, hns, hnotices, fun v _ => isAccounted_entryBlock? v, ?_,
    fun ms e v _ hv => isSome_entryBlock?_iff hv⟩
  have hl : items.length = vs.length := by
    simpa using congrArg List.length hvs
  have hc : (contextBlock d).notices.countP Notice.isDrop = 0 := drops_contextBlock d
  have hsum := length_add_countP_isDrop vs
  rw [hvalue, hnotices, hns, List.countP_append, List.countP_append, hc, hl, List.length_cons,
    List.length_cons]
  omega

/-- A text between quotes without any escape. -/
def plainly (s : String) : Quoted := ⟨s.toUTF8.toList.map .byte, none⟩

/-- A text field without a name, a truth value, and an object without members. -/
def threeEntries : List Shape :=
  [.object [(plainly "type", .number ⟨false, [1], [], none⟩)] none, .bool true, .object [] none]

/-- Of these entries two are left out. -/
theorem assemble_threeEntries :
    ∃ d ns, (Document.read 3
        (.object [(plainly "fields", .array threeEntries none)] none)).Yields d ns ∧
      (assemble d).value.length + (ns ++ (assemble d).notices).countP Notice.isDrop = 2 + 3 := by
  have hf : (plainly "fields").decode = .ok "fields" := by decide +kernel
  have ht : (plainly "type").decode = .ok "type" := by decide +kernel
  have hv : (Shape.array threeEntries none).value 2
      = .ok (.array [.object [("type", .number (.integer 1))], .bool true, .object []]) := by
    simp [threeEntries, Shape.value, Shape.values, Shape.memberValues, ht, enter, closed]
    rfl
  have hr : (Document.read 3 (.object [(plainly "fields", .array threeEntries none)] none)).Yields
      ⟨"", "", .null, .null, [⟨.text, "", .null, none⟩, ⟨.missing, "", .null, none⟩]⟩
      [.malformedEntry] := by
    unfold Reading.Yields
    simp only [Document.read, Shape.record, Shape.recordMembers, hf, enter]
    simp [Reading.ofExcept, hv, putShape, keys, ExceptT.run_bind, closed]
    rfl
  obtain ⟨vs, -, -, -, -, -, hc, -⟩ := assemble_entries hr List.mem_cons_self hf
  exact ⟨_, _, hr, hc⟩

end Message

end Herald
