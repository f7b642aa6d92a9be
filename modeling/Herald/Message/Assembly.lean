import Herald.Display
import Herald.Document
import Herald.Message.Block
import Herald.RichText.Rendering
import Herald.Time.Timestamp

/-!
# The message of a document

* `fieldBlock?`: the block of a field, if its kind is known;
* `contextBlock`: the dates and the slug of a document;
* `assemble`: the whole message.
-/

namespace Herald.Message

open Document

/-- A name and a text, as a section. -/
def labelled (name text : String) : Block := .sectionOf ("*" ++ name ++ "*: " ++ text)

/-- The block of a field. A text is escaped; a number, a file and the names are not. A field of no
known kind has no block, which is noted. -/
def fieldBlock? (f : Field) : Noted (Option Block) :=
  match f.kind with
  | .text => pure (some (labelled f.name (Markup.escape (display f.value))))
  | .richText => do
    let nodes := f.nodes.getD []
    if nodes.isEmpty then Noted.give (.emptyRichText f.name)
    let text ← RichText.toMrkdwn nodes
    pure (some (.sectionOf text))
  | .number | .file => pure (some (labelled f.name (display f.value)))
  | .image => pure (some (.imageOf (display f.value) f.name))
  | .date => do
    let text ← Time.dateTextOfValue f.value
    pure (some (labelled f.name text))
  | .unknown code => do
    Noted.give (.unknownFieldKind f.name code)
    pure none
  | .missing => do
    Noted.give (.fieldWithoutKind f.name)
    pure none

/-- The blocks of fields, in order. -/
def fieldBlocks : List Field → Noted (List Block)
  | [] => pure []
  | f :: fs => do
    let b ← fieldBlock? f
    let bs ← fieldBlocks fs
    pure (b.toList ++ bs)

/-- When a document was created and updated, and its slug. -/
def contextBlock (d : Document) : Noted Block := do
  let created ← Time.dateTextOfValue d.createdAt
  let updated ← Time.dateTextOfValue d.updatedAt
  pure (.contextOf ["Created: *" ++ created ++ "*", "Updated: *" ++ updated ++ "*",
    "Slug: *" ++ d.slug ++ "*"])

/-- The message of a document: its context, its name, and a block for each field of a known kind. -/
def assemble (d : Document) : Noted (List Block) := do
  let context ← contextBlock d
  let blocks ← fieldBlocks d.fields
  pure (context :: .headerOf d.name :: blocks)

end Herald.Message
