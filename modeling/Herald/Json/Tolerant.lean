import Herald.Json.Value
import Herald.Notice

/-!
# Tolerant reading

* `tolerantList`: the entries of a list that can be read, the others skipped with a notice;
* `orDefault?`: a value that may be null.
-/

namespace Herald.Json

variable {α : Type}

/-- Read the entries of a list one by one, and skip with a notice the ones that cannot be read. -/
def tolerantEntries (read : Value → Noted (Option α)) : List Value → Noted (List α)
  | [] => pure []
  | v :: vs => do
    match ← read v with
    | some a =>
      let rest ← tolerantEntries read vs
      pure (a :: rest)
    | none =>
      Noted.give .malformedEntry
      tolerantEntries read vs

/-- The entries of a list that can be read. Null stands for the empty list, and so does anything else
that is no list, with a notice. -/
def tolerantList (read : Value → Noted (Option α)) : Value → Noted (List α)
  | .array items => tolerantEntries read items
  | .null => pure []
  | v => do
    Noted.give (.notAList v.text)
    pure []

/-- Read a value, null standing for the default. -/
def orDefault? (default : α) (read : Value → Option α) : Value → Option α
  | .null => some default
  | v => read v

end Herald.Json
