/-!
# Markup dialects

`Dialect` says how one chat markup spells each construct of a rich text. What a construct encloses is
spelled already when the dialect is asked.
-/

namespace Herald.Markup

/-- The spelling of each construct. -/
structure Dialect where
  /-- Plain text. -/
  text : String → String
  paragraph : String → String
  bold : String → String
  italic : String → String
  strikethrough : String → String
  /-- A link: where it leads and what it shows. -/
  link : String → String → String
  /-- A line break; inside a quote the quote goes on after it. -/
  lineBreak : Bool → String
  codeBlock : String → String
  inlineCode : String → String
  /-- One child of a quote. -/
  quote : String → String
  /-- The items of a list. -/
  list : String → String
  /-- An item of a list, with its number in an ordered one. -/
  listItem : Option Nat → String → String
  /-- A heading of a level. -/
  heading : Nat → String → String

end Herald.Markup
