import Herald.Markup.Dialect
import Herald.Markup.Escape

/-!
# The dialect mrkdwn
-/

namespace Herald.Markup

namespace Mrkdwn

/-- One child of a quote, on lines of its own. -/
def quote (inner : String) : String :=
  if inner.toList.getLast? = some '\n' then "> " ++ inner else "> " ++ inner ++ "\n"

/-- A line of a list, numbered or with a dash. -/
def listItem (number : Option Nat) (inner : String) : String :=
  match number with
  | some n => toString n ++ ". " ++ inner ++ "\n"
  | none => "- " ++ inner ++ "\n"

end Mrkdwn

/-- Slack's dialect. It has no headings; every level is a bold line. -/
def mrkdwn : Dialect where
  text := escape
  paragraph inner := inner ++ "\n\n"
  bold inner := "*" ++ inner ++ "*"
  italic inner := "_" ++ inner ++ "_"
  strikethrough inner := "~" ++ inner ++ "~"
  link target inner := "<" ++ target ++ "|" ++ inner ++ ">"
  lineBreak quoted := if quoted then "\n >" else "\n"
  codeBlock inner := "```" ++ inner ++ "```\n"
  inlineCode inner := "`" ++ inner ++ "`"
  quote := Mrkdwn.quote
  list inner := inner ++ "\n"
  listItem := Mrkdwn.listItem
  heading _ inner := "*" ++ inner ++ "*\n"

end Herald.Markup
