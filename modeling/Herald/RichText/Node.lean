import Herald.Json.Members
import Herald.RichText.Tag

/-!
# Rich text trees
-/

namespace Herald.RichText

open Json

/-- A node of a rich text. -/
inductive Node
  | text (data : String)
  | element (tag : Tag) (attributes : Members) (children : List Node)
  /-- Something that could not be read, or is of no known kind. -/
  | unknown
  deriving Repr, Inhabited

namespace Node

/-- An element without attributes. -/
def plain (tag : Tag) (children : List Node) : Node := .element tag [] children

/-- A link to a target. -/
def linkTo (target : String) (children : List Node) : Node :=
  .element .link [("href", .string target)] children

/-- An attribute of a node, if it is a string. -/
def attribute? (name : String) : Node → Option String
  | .element _ attributes _ => (attributes.get? name).bind Value.text?
  | .text _ | .unknown => none

end Node

end Herald.RichText
