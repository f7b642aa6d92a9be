/-!
# Blocks

A message is a list of layout blocks.

* `TextObject`: a text in one of the two forms;
* `Block`: a layout block;
* `Block.contextOf`, `Block.headerOf`, `Block.sectionOf`, `Block.imageOf`: blocks of plain strings.
-/

namespace Herald.Message

/-- A text in a block. -/
inductive TextObject
  | mrkdwn (text : String)
  | plain (text : String)
  deriving DecidableEq, Repr

/-- The text itself. -/
def TextObject.text : TextObject → String
  | mrkdwn text | plain text => text

/-- A layout block. -/
inductive Block
  | context (elements : List TextObject)
  | header (text : TextObject)
  | divider
  | textSection (text : TextObject)
  | image (url : String) (alt : String) (title : TextObject)
  deriving DecidableEq, Repr

namespace Block

/-- Small texts in a row. -/
def contextOf (texts : List String) : Block := .context (texts.map .mrkdwn)

/-- A headline. -/
def headerOf (text : String) : Block := .header (.plain text)

/-- A passage of text. -/
def sectionOf (text : String) : Block := .textSection (.mrkdwn text)

/-- An image with a name, which is also shown in its place. -/
def imageOf (url name : String) : Block := .image url name (.plain name)

/-- The name of the kind of a block. -/
def kind : Block → String
  | context _ => "context"
  | header _ => "header"
  | divider => "divider"
  | textSection _ => "section"
  | image .. => "image"

/-- The texts in a block. -/
def texts : Block → List TextObject
  | context elements => elements
  | header text | textSection text => [text]
  | divider => []
  | image _ _ title => [title]

end Block

end Herald.Message
