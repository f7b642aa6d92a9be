import Herald.Json.Quoted
import Herald.Message.Block

/-!
# The wire form of messages

* `wireObject`: an object spelled from its members, in the order given;
* `TextObject.wire`, `Block.wire`, `wire`: a text, a block and a whole message.

The kind of a form comes first, then what belongs to it; there are no blanks.
-/

namespace Herald.Message

open Json

/-- Spellings, parted by commas. -/
def commaSeparated : List String → String
  | [] => ""
  | [s] => s
  | s :: ss => s ++ "," ++ commaSeparated ss

/-- An object whose values are spelled already. -/
def wireObject (members : List (String × String)) : String :=
  "\x7b" ++ commaSeparated (members.map fun m => quote m.1 ++ ":" ++ m.2) ++ "\x7d"

/-- A list whose items are spelled already. -/
def wireList (items : List String) : String := "[" ++ commaSeparated items ++ "]"

/-- The wire form of a text. -/
def TextObject.wire : TextObject → String
  | mrkdwn text => wireObject [("type", quote "mrkdwn"), ("text", quote text)]
  | plain text => wireObject [("type", quote "plain_text"), ("text", quote text)]

/-- What belongs to the kind of a block. -/
def Block.wireMembers : Block → List (String × String)
  | context elements => [("elements", wireList (elements.map TextObject.wire))]
  | header text | textSection text => [("text", text.wire)]
  | divider => []
  | image url alt title =>
    [("image_url", quote url), ("alt_text", quote alt), ("title", title.wire)]

/-- The wire form of a block. -/
def Block.wire (b : Block) : String := wireObject (("type", quote b.kind) :: b.wireMembers)

/-- The wire form of a message. -/
def wire (blocks : List Block) : String :=
  wireObject [("blocks", wireList (blocks.map Block.wire))]

example : wire [.divider] = "\x7b\"blocks\":[\x7b\"type\":\"divider\"\x7d]\x7d" := by
  decide +kernel

end Herald.Message
