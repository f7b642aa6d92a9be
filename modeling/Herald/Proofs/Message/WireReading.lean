import Herald.Message.Reading
import Herald.Message.Wire
import Herald.Proofs.Json.Lookup
import Herald.Proofs.Json.Quoting
import Mathlib.Data.List.Forall2

/-!
# The wire form is read back

* `Writes`: a text spells a shape, without blanks around it;
* `writes_wireList`, `writes_wireObject`: what lists and objects on the wire spell, part by part;
* `TextObject.shape`, `Block.shape`: the shapes that texts and blocks are written in;
* `blocks_of_wire`: a message is an object with a list of blocks, each of which is read back.
-/

namespace Herald.Message

open Json

/-! ### Spelled parts -/

/-- A text spells a shape. -/
def Writes (t : String) (s : Shape) : Prop := Spells t.toUTF8.toList s

theorem areBlank_nil : AreBlank [] := nofun

theorem areBlank_empty : AreBlank "".toUTF8.toList := by
  rw [toList_toUTF8]
  exact areBlank_nil

theorem Writes.padded {t : String} {s : Shape} (h : Writes t s) :
    SpellsPadded t.toUTF8.toList s := by
  simpa using SpellsPadded.blanks areBlank_nil h areBlank_nil

/-- What a text spells is its shape. -/
theorem Writes.ofString {t : String} {s : Shape} (h : Writes t s) :
    Text.ofString t = ⟨s, false⟩ := Text.ofBytes_of_spells h.padded

theorem writes_quote (s : String) : Writes (quote s) (.string (quoted s)) :=
  .string (spellsQuoted_quote s)

/-- Spelled items parted by commas. -/
theorem spellItems_commaSeparated {t : String} {s : Shape} {ts : List String} {ss : List Shape}
    (h : Writes t s) (hs : List.Forall₂ Writes ts ss) :
    SpellItems (commaSeparated (t :: ts)).toUTF8.toList (s :: ss) := by
  have hcomma : ",".toUTF8.toList = [0x2C] := toList_toUTF8 ","
  induction hs generalizing t s with
  | nil => exact .last h.padded
  | cons h' _ ih =>
    rw [commaSeparated, toList_toUTF8_append, toList_toUTF8_append, hcomma, List.append_assoc]
    · exact .cons h.padded (ih h')
    · nofun

/-- A list on the wire. -/
theorem writes_wireList {ts : List String} {ss : List Shape} (h : List.Forall₂ Writes ts ss) :
    Writes (wireList ts) (.array ss none) := by
  have hopen : "[".toUTF8.toList = [0x5B] := toList_toUTF8 "["
  have hclose : "]".toUTF8.toList = [0x5D] := toList_toUTF8 "]"
  rw [Writes, wireList, toList_toUTF8_append, toList_toUTF8_append, hopen, hclose,
    List.append_assoc]
  cases h with
  | nil => exact .emptyArray areBlank_empty
  | cons h hs => exact .array (spellItems_commaSeparated h hs)

/-- A key and what stands under it, as it is written. -/
def WritesMember (m : String × String) (p : String × Shape) : Prop :=
  m.1 = p.1 ∧ Writes m.2 p.2

theorem spellsMember_of_writes {m : String × String} {p : String × Shape}
    (h : WritesMember m p) :
    SpellsMember (quote m.1 ++ ":" ++ m.2).toUTF8.toList (quoted p.1, p.2) := by
  have hcolon : ":".toUTF8.toList = [0x3A] := toList_toUTF8 ":"
  rw [toList_toUTF8_append, toList_toUTF8_append, hcolon, h.1, List.append_assoc]
  exact .member areBlank_nil (spellsQuoted_quote p.1) areBlank_nil h.2.padded

/-- The shape of an object without blanks whose keys are written one way. -/
def objectOf (ps : List (String × Shape)) : Shape :=
  .object (ps.map fun p => (quoted p.1, p.2)) none

/-- An object on the wire. -/
theorem writes_wireObject {ms : List (String × String)} {ps : List (String × Shape)}
    (h : List.Forall₂ WritesMember ms ps) : Writes (wireObject ms) (objectOf ps) := by
  have hmembers : ∀ {m p ms ps}, WritesMember m p → List.Forall₂ WritesMember ms ps →
      SpellMembers (commaSeparated ((m :: ms).map fun m => quote m.1 ++ ":" ++ m.2)).toUTF8.toList
        ((p :: ps).map fun p => (quoted p.1, p.2)) := by
    have hcomma : ",".toUTF8.toList = [0x2C] := toList_toUTF8 ","
    intro m p ms ps h hs
    induction hs generalizing m p with
    | nil => exact .last (spellsMember_of_writes h)
    | cons h' _ ih =>
      rw [List.map_cons, List.map_cons, commaSeparated, toList_toUTF8_append,
        toList_toUTF8_append _ ",", hcomma, List.append_assoc]
      · exact .cons (spellsMember_of_writes h) (ih h')
      · nofun
  have hopen : "\x7b".toUTF8.toList = [0x7B] := toList_toUTF8 "\x7b"
  have hclose : "\x7d".toUTF8.toList = [0x7D] := toList_toUTF8 "\x7d"
  rw [Writes, wireObject, toList_toUTF8_append, toList_toUTF8_append, hopen, hclose,
    List.append_assoc]
  cases h with
  | nil => exact .emptyObject areBlank_empty
  | cons h hs => exact .object (hmembers h hs)

/-! ### The shapes of texts and blocks -/

/-- The name of the kind of a text. -/
def TextObject.kind : TextObject → String
  | mrkdwn _ => "mrkdwn"
  | plain _ => "plain_text"

/-- The shape that a string is written in. -/
def stringOf (s : String) : Shape := .string (quoted s)

/-- The shape that a text is written in. -/
def TextObject.shape (t : TextObject) : Shape :=
  objectOf [("type", stringOf t.kind), ("text", stringOf t.text)]

/-- What belongs to the kind of a block, as it is written. -/
def Block.parts : Block → List (String × Shape)
  | context elements => [("elements", .array (elements.map TextObject.shape) none)]
  | header text | textSection text => [("text", text.shape)]
  | divider => []
  | image url alt title =>
    [("image_url", stringOf url), ("alt_text", stringOf alt), ("title", title.shape)]

/-- The shape that a block is written in. -/
def Block.shape (b : Block) : Shape := objectOf (("type", stringOf b.kind) :: b.parts)

theorem TextObject.writes_wire (t : TextObject) : Writes t.wire t.shape := by
  cases t with
  | mrkdwn s | plain s =>
    exact writes_wireObject (.cons ⟨rfl, writes_quote _⟩ (.cons ⟨rfl, writes_quote s⟩ .nil))

theorem Block.writes_parts (b : Block) : List.Forall₂ WritesMember b.wireMembers b.parts := by
  cases b with
  | context elements =>
    have helements : List.Forall₂ Writes (elements.map TextObject.wire)
        (elements.map TextObject.shape) := by
      rw [List.forall₂_map_left_iff, List.forall₂_map_right_iff, List.forall₂_same]
      exact fun t _ => t.writes_wire
    exact .cons ⟨rfl, writes_wireList helements⟩ .nil
  | header text | textSection text => exact .cons ⟨rfl, text.writes_wire⟩ .nil
  | divider => exact .nil
  | image url alt title =>
    exact .cons ⟨rfl, writes_quote url⟩
      (.cons ⟨rfl, writes_quote alt⟩ (.cons ⟨rfl, title.writes_wire⟩ .nil))

theorem Block.writes_wire (b : Block) : Writes b.wire b.shape :=
  writes_wireObject (.cons ⟨rfl, writes_quote b.kind⟩ b.writes_parts)

/-! ### Their values -/

/-- A shape has a value where so many more containers may be open. -/
def HasValue (depth : Nat) (s : Shape) : Prop := ∃ v, s.value depth = .ok v

theorem hasValue_stringOf (depth : Nat) (s : String) : HasValue depth (stringOf s) :=
  ⟨_, Shape.value_string_eq_ok_iff.2 ⟨s, decode_quoted s, rfl⟩⟩

/-- Items that have values. -/
theorem exists_values {depth : Nat} {ss : List Shape} (h : ∀ s ∈ ss, HasValue depth s) :
    ∃ vs, Shape.values depth ss = .ok vs ∧ vs.length = ss.length := by
  induction ss with
  | nil => exact ⟨[], rfl, rfl⟩
  | cons s ss ih =>
    obtain ⟨⟨v, hv⟩, hss⟩ := List.forall_mem_cons.1 h
    obtain ⟨vs, hvs, hl⟩ := ih hss
    refine ⟨v :: vs, Shape.values_cons_eq_ok_iff.2 ⟨v, vs, hv, hvs, rfl⟩, ?_⟩
    rw [List.length_cons, List.length_cons, hl]

theorem hasValue_array {depth : Nat} {ss : List Shape} (h : ∀ s ∈ ss, HasValue depth s) :
    HasValue (depth + 1) (.array ss none) := by
  obtain ⟨vs, hvs, -⟩ := exists_values h
  exact ⟨_, Shape.value_array_eq_ok_iff.2 ⟨depth, vs, rfl, hvs, rfl, rfl⟩⟩

theorem hasValue_objectOf {depth : Nat} {ps : List (String × Shape)}
    (h : ∀ p ∈ ps, HasValue depth p.2) : HasValue (depth + 1) (objectOf ps) := by
  have hmembers : ∃ ms, Shape.memberValues depth (ps.map fun p => (quoted p.1, p.2)) = .ok ms := by
    induction ps with
    | nil => exact ⟨[], rfl⟩
    | cons p ps ih =>
      obtain ⟨⟨v, hv⟩, hps⟩ := List.forall_mem_cons.1 h
      obtain ⟨ms, hms⟩ := ih hps
      exact ⟨_, Shape.memberValues_cons_eq_ok_iff.2 ⟨_, v, ms, decode_quoted _, hv, hms, rfl⟩⟩
  obtain ⟨ms, hms⟩ := hmembers
  exact ⟨_, Shape.value_object_eq_ok_iff.2 ⟨depth, ms, rfl, hms, rfl, rfl⟩⟩

theorem TextObject.hasValue_shape (depth : Nat) (t : TextObject) :
    HasValue (depth + 1) t.shape := by
  refine hasValue_objectOf ?_
  rw [List.forall_mem_cons, List.forall_mem_singleton]
  exact ⟨hasValue_stringOf depth _, hasValue_stringOf depth _⟩

theorem Block.hasValue_parts (depth : Nat) (b : Block) :
    ∀ p ∈ b.parts, HasValue (depth + 2) p.2 := by
  cases b with
  | context elements =>
    rw [parts, List.forall_mem_singleton]
    refine hasValue_array fun s hs => ?_
    obtain ⟨t, -, rfl⟩ := List.mem_map.1 hs
    exact t.hasValue_shape depth
  | header text | textSection text =>
    rw [parts, List.forall_mem_singleton]
    exact text.hasValue_shape (depth + 1)
  | divider => nofun
  | image url alt title =>
    rw [parts, List.forall_mem_cons, List.forall_mem_cons, List.forall_mem_singleton]
    exact ⟨hasValue_stringOf _ url, hasValue_stringOf _ alt, title.hasValue_shape (depth + 1)⟩

theorem Block.hasValue_shape (depth : Nat) (b : Block) : HasValue (depth + 3) b.shape := by
  refine hasValue_objectOf (List.forall_mem_cons.2 ⟨hasValue_stringOf _ _, b.hasValue_parts depth⟩)

/-! ### Reading back -/

theorem shapeText?_stringOf (s : String) : shapeText? (stringOf s) = some s := by
  rw [stringOf, shapeText?, decode_quoted]
  rfl

/-- A text is read back. -/
theorem TextObject.ofShape?_shape (t : TextObject) : ofShape? t.shape = some t := by
  have hms : ([("type", stringOf t.kind), ("text", stringOf t.text)].map fun p =>
      (quoted p.1, p.2)).filterMap (fun m => m.1.decode.toOption.map (·, m.2))
        = [("type", stringOf t.kind), ("text", stringOf t.text)] := by
    simp [decode_quoted, Except.toOption]
  rw [shape, objectOf, ofShape?, hms]
  show ((ofKind? (stringOf t.kind)).bind fun kind =>
    (shapeText? (stringOf t.text)).bind fun text => some (kind text)) = some t
  rw [shapeText?_stringOf]
  cases t with
  | mrkdwn s | plain s =>
    rw [stringOf, kind, ofKind?, decode_quoted]
    rfl

theorem TextObject.listOfShape?_map_shape (ts : List TextObject) :
    listOfShape? (.array (ts.map shape) none) = some ts := by
  rw [listOfShape?]
  induction ts with
  | nil => rfl
  | cons t ts ih =>
    rw [List.map_cons, List.mapM_cons, ofShape?_shape, ih]
    rfl

/-- Members that are written, with no second kind among them, are kept as they are. -/
theorem taggedMembers_quoted {known : String → Bool} {depth : Nat} {found : Option String}
    {ps : List (String × Shape)} (hk : ∀ p ∈ ps, p.1 ≠ "type")
    (hv : ∀ p ∈ ps, HasValue depth p.2) :
    ∃ ks, Shape.taggedMembers known depth found (ps.map fun p => (quoted p.1, p.2))
        = .ok (found, ks) ∧ ks.map (fun m => (m.1, m.2.shape)) = ps := by
  induction ps with
  | nil => exact ⟨[], rfl, rfl⟩
  | cons p ps ih =>
    obtain ⟨hne, hk⟩ := List.forall_mem_cons.1 hk
    obtain ⟨⟨v, hv⟩, hvs⟩ := List.forall_mem_cons.1 hv
    obtain ⟨ks, hks, hmap⟩ := ih hk hvs
    refine ⟨(p.1, ⟨p.2, v⟩) :: ks, ?_, by rw [List.map_cons, hmap]⟩
    rw [List.map_cons, Shape.taggedMembers, decode_quoted]
    show (if p.1 = "type" then _ else _) = _
    rw [if_neg hne, Shape.keep, hv, hks]
    rfl

theorem theOnly?_map {α β : Type} (f : α → β) (key : String) (ms : List (String × α)) :
    theOnly? key (ms.map fun m => (m.1, f m.2)) = (theOnly? key ms).map f := by
  have hfilter : (ms.map fun m => (m.1, f m.2)).filter (·.1 = key)
      = (ms.filter (·.1 = key)).map fun m => (m.1, f m.2) := by
    rw [List.filter_map]
    rfl
  rw [theOnly?, theOnly?, hfilter]
  cases ms.filter (·.1 = key) with
  | nil => rfl
  | cons m rest => cases rest <;> rfl

namespace Block

theorem parts_ne_type (b : Block) : ∀ p ∈ b.parts, p.1 ≠ "type" := by
  cases b <;> simp [parts]

/-- A block is made of its parts. -/
theorem ofTagged?_parts (b : Block) {ks : List (String × Kept)}
    (h : ks.map (fun m => (m.1, m.2.shape)) = b.parts) :
    ofTagged? ⟨b.kind, .members ks⟩ = some b := by
  have hparts : ∀ key, (theOnly? key ks).map Kept.shape = theOnly? key b.parts := fun key => by
    rw [← theOnly?_map, h]
  simp only [ofTagged?, hparts]
  cases b <;>
    simp [kind, keys, parts, theOnly?, ofParts?, TextObject.ofShape?_shape, shapeText?_stringOf,
      TextObject.listOfShape?_map_shape]

/-- **A block is read back** from the shape that it is written in. -/
theorem yields_read_shape (depth : Nat) (b : Block) : (read (depth + 3) b.shape).Yields b [] := by
  have hkind : (stringOf b.kind).kind (fun k => kinds.contains k) = .ok b.kind := by
    have hk : kinds.contains b.kind = true := by cases b <;> rfl
    rw [Shape.kind, stringOf, Shape.text, decode_quoted]
    show (if kinds.contains b.kind then _ else _) = _
    rw [if_pos hk]
    rfl
  obtain ⟨ks, hks, hmap⟩ := taggedMembers_quoted b.parts_ne_type (b.hasValue_parts depth)
  have hmembers : Shape.taggedMembers (fun k => kinds.contains k) (depth + 2) none
      ((("type", stringOf b.kind) :: b.parts).map fun p => (quoted p.1, p.2))
        = .ok (some b.kind, ks) := by
    rw [List.map_cons, Shape.taggedMembers, decode_quoted]
    show ((stringOf b.kind).kind _ >>= fun k => Shape.taggedMembers _ _ (some k) _) = _
    rw [hkind]
    exact hks
  have htagged : b.shape.tagged (fun k => kinds.contains k) (depth + 3)
      = .ok ⟨b.kind, .members ks⟩ := by
    rw [shape, objectOf, Shape.tagged]
    show (Shape.taggedMembers _ (depth + 2) none _ >>= _) = _
    rw [hmembers]
    rfl
  rw [read, Reading.yields_ofExcept_bind]
  refine ⟨_, htagged, ?_⟩
  rw [Reading.yields_require, ofTagged?_parts b hmap]
  rfl

/-- The wire form of a block is read as the block. -/
theorem result?_read_wire (b : Block) : ((Text.ofString b.wire).read read).result? = some b := by
  rw [b.writes_wire.ofString, Reading.result?_read _ _ rfl, Reading.result?, nestingLimit,
    b.yields_read_shape 124]
  rfl

end Block

/-! ### Messages -/

theorem writes_wire (blocks : List Block) :
    Writes (wire blocks) (objectOf [("blocks", .array (blocks.map Block.shape) none)]) := by
  have hblocks : List.Forall₂ Writes (blocks.map Block.wire) (blocks.map Block.shape) := by
    rw [List.forall₂_map_left_iff, List.forall₂_map_right_iff, List.forall₂_same]
    exact fun b _ => b.writes_wire
  exact writes_wireObject (.cons ⟨rfl, writes_wireList hblocks⟩ .nil)

/-- The value of a message has one item for each block. -/
theorem exists_value_wire (blocks : List Block) : ∃ vs,
    (Text.ofString (wire blocks)).value = .ok (.object [("blocks", .array vs)]) ∧
      vs.length = blocks.length := by
  have hshapes : ∀ s ∈ blocks.map Block.shape, HasValue 125 s := by
    intro s hs
    obtain ⟨b, -, rfl⟩ := List.mem_map.1 hs
    exact b.hasValue_shape 122
  obtain ⟨vs, hvs, hl⟩ := exists_values hshapes
  have harray : (Shape.array (blocks.map Block.shape) none).value 126 = .ok (.array vs) :=
    Shape.value_array_eq_ok_iff.2 ⟨125, vs, rfl, hvs, rfl, rfl⟩
  have hmembers : Shape.memberValues 126 [(quoted "blocks", .array (blocks.map Block.shape) none)]
      = .ok [("blocks", .array vs)] :=
    Shape.memberValues_cons_eq_ok_iff.2 ⟨_, _, _, decode_quoted _, harray, rfl, rfl⟩
  have hobject : (objectOf [("blocks", .array (blocks.map Block.shape) none)]).value nestingLimit
      = .ok (.object [("blocks", .array vs)]) :=
    Shape.value_object_eq_ok_iff.2 ⟨126, _, rfl, hmembers, rfl, rfl⟩
  refine ⟨vs, ?_, by rw [hl, List.length_map]⟩
  rw [(writes_wire blocks).ofString, Text.value, hobject]
  rfl

/-- **The wire form loses nothing.** A message is the object whose only key is `blocks`, and under
it stands the list of what the blocks are written as, one item for each, and each is read as its
block. And whatever text has been read as a block, what the block is written as is read as the block
again, and is written the same again. -/
theorem blocks_of_wire :
    (∀ blocks : List Block, ∃ (q : Quoted) (items : List Shape) (vs : List Value),
      wire blocks = "\x7b\"blocks\":" ++ wireList (blocks.map Block.wire) ++ "\x7d" ∧
        Text.ofString (wire blocks) = ⟨.object [(q, .array items none)] none, false⟩ ∧
        q.decode = .ok "blocks" ∧
        (Text.ofString (wire blocks)).value = .ok (.object [("blocks", .array vs)]) ∧
        vs.length = blocks.length ∧ items.length = blocks.length ∧
        ∀ (i : Nat) (b : Block), blocks[i]? = some b →
          ∃ s, items[i]? = some s ∧ Text.ofString b.wire = ⟨s, false⟩ ∧
            ((Text.ofString b.wire).read Block.read).result? = some b) ∧
      ∀ (bs : List UInt8) (b : Block), ((Text.ofBytes bs).read Block.read).result? = some b →
        ((Text.ofString b.wire).read Block.read).result? = some b ∧
          ∀ b', ((Text.ofString b.wire).read Block.read).result? = some b' → b'.wire = b.wire := by
  constructor
  · intro blocks
    obtain ⟨vs, hvs, hl⟩ := exists_value_wire blocks
    have hquote : "\x7b" ++ (quote "blocks" ++ ":") = "\x7b\"blocks\":" := by decide +kernel
    have hwire : wire blocks = "\x7b\"blocks\":" ++ wireList (blocks.map Block.wire) ++ "\x7d" := by
      rw [← hquote, String.append_assoc]
      simp only [wire, wireObject, List.map_cons, List.map_nil, commaSeparated, String.append_assoc]
    refine ⟨quoted "blocks", blocks.map Block.shape, vs, hwire, (writes_wire blocks).ofString,
      decode_quoted _, hvs, hl, List.length_map _, ?_⟩
    intro i b hb
    refine ⟨b.shape, ?_, b.writes_wire.ofString, b.result?_read_wire⟩
    rw [List.getElem?_map, hb]
    rfl
  · intro bs b _
    refine ⟨b.result?_read_wire, fun b' hb' => ?_⟩
    rw [Option.some.inj (hb'.symm.trans b.result?_read_wire)]

/-- A headline as lists. -/
def listedHeader : List UInt8 := "[\"header\", [\"plain_text\", \"\\u0061\\\"\"]]".toUTF8.toList

/-- It is read, and what it is written as is read again. -/
theorem listedHeader_of_wire :
    ((Text.ofBytes listedHeader).read Block.read).result? = some (.headerOf "a\"") ∧
      ((Text.ofString (Block.headerOf "a\"").wire).read Block.read).result?
        = some (.headerOf "a\"") := by
  have hread : ((Text.ofBytes listedHeader).read Block.read).result? = some (.headerOf "a\"") := by
    decide +kernel
  exact ⟨hread, (blocks_of_wire.2 _ _ hread).1⟩

end Herald.Message
