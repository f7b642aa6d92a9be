import Herald.Json.Tagged
import Herald.Message.Block

/-!
# Reading blocks

* `TextObject.ofShape?`: the text object of a shape that is kept;
* `Block.read`: the block that a shape stands for.

A block is a tagged form of one of five kinds. The texts inside it are tagged forms too, which may
also name their kind by its place, counted from zero.
-/

namespace Herald.Message

open Json

/-- The text of a shape that is a string. -/
def shapeText? : Shape → Option String
  | .string q => q.decode.toOption
  | _ => none

/-- The one value under a key, if the key stands exactly once. -/
def theOnly? {α : Type} (key : String) (ms : List (String × α)) : Option α :=
  match ms.filter (·.1 = key) with
  | [m] => some m.2
  | _ => none

namespace TextObject

/-- The text object of a kind, which a shape names. -/
def ofKind? : Shape → Option (String → TextObject)
  | .string q =>
    match q.decode with
    | .ok "mrkdwn" => some .mrkdwn
    | .ok "plain_text" => some .plain
    | _ => none
  | .number n =>
    match n.toNumber?.bind Number.natural? with
    | some 0 => some .mrkdwn
    | some 1 => some .plain
    | _ => none
  | _ => none

/-- The text object of a shape that is kept. -/
def ofShape? : Shape → Option TextObject
  | .object members _ => do
    let ms := members.filterMap fun m => m.1.decode.toOption.map (·, m.2)
    let kind ← (theOnly? "type" ms).bind ofKind?
    let text ← (theOnly? "text" ms).bind shapeText?
    pure (kind text)
  | .array [k, t] _ => do
    let kind ← ofKind? k
    let text ← shapeText? t
    pure (kind text)
  | _ => none

/-- The text objects of a list. -/
def listOfShape? : Shape → Option (List TextObject)
  | .array items _ => items.mapM ofShape?
  | _ => none

end TextObject

namespace Block

/-- The kinds of blocks. -/
def kinds : List String := ["context", "header", "divider", "section", "image"]

/-- What belongs to a kind of blocks, in order. -/
def keys : String → List String
  | "context" => ["elements"]
  | "header" | "section" => ["text"]
  | "image" => ["image_url", "alt_text", "title"]
  | _ => []

/-- The block of a kind from what belongs to it, in order. -/
def ofParts? : String → List Shape → Option Block
  | "context", [elements] => (TextObject.listOfShape? elements).map .context
  | "header", [text] => (TextObject.ofShape? text).map .header
  | "section", [text] => (TextObject.ofShape? text).map .textSection
  | "divider", [] => some .divider
  | "image", [url, alt, title] => do
    let url ← shapeText? url
    let alt ← shapeText? alt
    let title ← TextObject.ofShape? title
    pure (.image url alt title)
  | _, _ => none

/-- The block of a tagged form. -/
def ofTagged? (t : Tagged) : Option Block :=
  match t.content with
  | .members ms =>
    ((keys t.kind).mapM fun k => (theOnly? k ms).map Kept.shape).bind (ofParts? t.kind)
  | .items is => ofParts? t.kind (is.map Kept.shape)

/-- The block that a shape stands for. -/
def read (depth : Nat) (s : Shape) : Reading Block := do
  let t ← Reading.ofExcept (s.tagged (fun k => kinds.contains k) depth)
  Reading.require (pure (ofTagged? t))

end Block

end Herald.Message
