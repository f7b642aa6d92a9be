/-!
# Escaping of plain text

The characters that control mrkdwn are spelled as entities. Every character is looked at once, so
nothing that escaping writes is escaped again.
-/

namespace Herald.Markup

/-- The spelling of one character. -/
def escapeChar (c : Char) : List Char :=
  if c = '&' then ['&', 'a', 'm', 'p', ';']
  else if c = '<' then ['&', 'l', 't', ';']
  else if c = '>' then ['&', 'g', 't', ';']
  else [c]

/-- The spelling of a plain text. -/
def escape (s : String) : String := String.ofList (s.toList.flatMap escapeChar)

@[simp] theorem toList_escape (s : String) :
    (escape s).toList = s.toList.flatMap escapeChar := by simp [escape]

theorem escape_append (s t : String) : escape (s ++ t) = escape s ++ escape t := by
  apply String.toList_inj.1
  simp

end Herald.Markup
