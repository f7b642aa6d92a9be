/-!
# Tags

* `Tag`: what an element of a rich text is;
* `Tag.ofName`, `Tag.name`: its name; a name that stands for nothing known is kept.
-/

namespace Herald.RichText

/-- What an element is. -/
inductive Tag
  | paragraph
  | bold
  | italic
  | strikethrough
  | link
  | lineBreak
  | codeBlock
  | inlineCode
  | blockquote
  | unorderedList
  | orderedList
  | listItem
  /-- A heading, of level 1 to 6. -/
  | heading (level : Nat)
  | horizontalRule
  | unknown (name : String)
  deriving DecidableEq, Repr

namespace Tag

/-- The tag that a name stands for. -/
def ofName (name : String) : Tag :=
  if name = "p" then .paragraph
  else if name = "strong" then .bold
  else if name = "em" then .italic
  else if name = "s" then .strikethrough
  else if name = "a" then .link
  else if name = "br" then .lineBreak
  else if name = "code" then .codeBlock
  else if name = "inline_code" then .inlineCode
  else if name = "blockquote" then .blockquote
  else if name = "ul" then .unorderedList
  else if name = "ol" then .orderedList
  else if name = "li" then .listItem
  else if name = "h1" then .heading 1
  else if name = "h2" then .heading 2
  else if name = "h3" then .heading 3
  else if name = "h4" then .heading 4
  else if name = "h5" then .heading 5
  else if name = "h6" then .heading 6
  else if name = "hr" then .horizontalRule
  else .unknown name

/-- The name of a tag. Headings beyond the fifth level share one. -/
def name : Tag → String
  | paragraph => "p"
  | bold => "strong"
  | italic => "em"
  | strikethrough => "s"
  | link => "a"
  | lineBreak => "br"
  | codeBlock => "code"
  | inlineCode => "inline_code"
  | blockquote => "blockquote"
  | unorderedList => "ul"
  | orderedList => "ol"
  | listItem => "li"
  | heading 1 => "h1"
  | heading 2 => "h2"
  | heading 3 => "h3"
  | heading 4 => "h4"
  | heading 5 => "h5"
  | heading _ => "h6"
  | horizontalRule => "hr"
  | unknown name => name

/-- The level of a heading. -/
def level? : Tag → Option Nat
  | heading n => some n
  | _ => none

end Tag

end Herald.RichText
