/-!
# Why a JSON text is refused
-/

namespace Herald.Json

/-- The three reasons to refuse a text; whichever is met first in the text decides. -/
inductive Fault
  /-- The text breaks the grammar, or a value in it cannot be kept. -/
  | malformed
  /-- The text ends too early. -/
  | truncated
  /-- The text is JSON of another form than the one wanted. -/
  | misfit
  deriving DecidableEq, Repr

end Herald.Json
