import Herald.Text.Alphanumeric
import Herald.Text.Blank

/-!
# The environment and its file

* `Environment`: variables with their values;
* `Environment.load`: add the variables of an environment file.

The file holds entries `KEY=VALUE`. It never changes a variable that is set, so of several entries for
one key the first counts. Reading stops at the first entry that is none; the ones before it count.

A value may be quoted. Between single quotes everything stands for itself. Elsewhere a backslash
takes the character after it out of its role, and `$NAME` and `$` with a name in braces stand for a
variable; a name without braces has letters and digits only, and the character after it stands for
itself, even if it is a quote. A hash after a blank begins a comment. Quotes reach over line ends.
-/

namespace Herald.Settings

/-- Variables with their values; the first entry of a key counts. -/
abbrev Environment := List (String × String)

namespace Environment

/-- The value of a variable. -/
def get? (env : Environment) (key : String) : Option String :=
  (env.find? (·.1 = key)).map (·.2)

/-- Set a variable that is not set. -/
def setDefault (env : Environment) (key value : String) : Environment :=
  if (env.get? key).isSome then env else env ++ [(key, value)]

/-! ### Entries and lines -/

/-- Where a line ends within its quotes and blanks. -/
inductive LineState
  | plain
  | escape
  | blank
  | strong
  | strongEscape
  | weak
  | weakEscape
  /-- A comment has begun; the line ends there. -/
  | comment
  deriving DecidableEq, Repr

/-- The state outside quotes after a character that may open a quote or an escape. -/
def LineState.opened (c : Char) : LineState :=
  if c = '\\' then .escape else if c = '"' then .weak else if c = '\'' then .strong else .plain

/-- The state after a character. -/
def LineState.step (s : LineState) (c : Char) : LineState :=
  match s with
  | .blank => if c = '#' then .comment else opened c
  | .plain =>
    if Text.isBlank c && c != '\n' && c != '\r' then .blank else opened c
  | .escape => .plain
  | .weak => if c = '\\' then .weakEscape else if c = '"' then .plain else .weak
  | .weakEscape => .weak
  | .strong => if c = '\\' then .strongEscape else if c = '\'' then .plain else .strong
  | .strongEscape => .strong
  | .comment => .comment

/-- The state after a line, and the part of the line before a comment. -/
def lineState (s : LineState) : List Char → LineState × List Char
  | [] => (s, [])
  | c :: cs =>
    match s.step c with
    | .comment => (.comment, [])
    | s =>
      let (t, kept) := lineState s cs
      (t, c :: kept)

/-- The lines of a text, each with the line feed that ends it. -/
def lines : List Char → List (List Char)
  | [] => []
  | c :: cs =>
    if c = '\n' then ['\n'] :: lines cs
    else
      match lines cs with
      | [] => [[c]]
      | l :: ls => (c :: l) :: ls

/-- A line without its end. -/
def chomp (l : List Char) : List Char :=
  match l.reverse with
  | '\n' :: '\r' :: r => r.reverse
  | '\n' :: r => r.reverse
  | r => r.reverse

/-- Lines joined, the last one apart and the ones before it last first. -/
def joined (before : List (List Char)) (last : List Char) : List Char :=
  (last :: before).reverse.flatten

/-- The entries of a file: lines, joined where a quote reaches over their end; `before` are the lines
of an entry so far, last first. Nothing stands for an entry that the file breaks off. A line that is
only a comment is an empty entry. -/
def entries (s : LineState) (before : List (List Char)) :
    List (List Char) → List (Option (List Char))
  | [] => if s = .plain then [] else [none]
  | l :: ls =>
    if before.isEmpty && (Text.dropBlanks l).head? = some '#' then some [] :: entries .plain [] ls
    else
      match lineState s l with
      | (.plain, _) => some (chomp (joined before l)) :: entries .plain [] ls
      | (.comment, kept) => some (joined before kept) :: entries .plain [] ls
      | (t, _) => entries t (l :: before) ls

/-! ### Values -/

/-- A variable that is being named inside a value. -/
structure Naming where
  braced : Bool
  /-- The name so far, last character first. -/
  name : List Char
  deriving DecidableEq, Repr

/-- A value that is being read. -/
structure Draft where
  /-- The value so far, last character first. -/
  output : List Char
  strong : Bool
  weak : Bool
  escaped : Bool
  /-- After the blank that ends the value. -/
  ended : Bool
  naming : Option Naming
  deriving DecidableEq, Repr

namespace Draft

/-- A value of which nothing is read yet. -/
def start : Draft := ⟨[], false, false, false, false, none⟩

/-- Add a character to the value. -/
def add (d : Draft) (c : Char) : Draft := { d with output := c :: d.output }

/-- Put the value of the variable that is named in its place. -/
def substitute (env : Environment) (d : Draft) : Draft :=
  match d.naming with
  | some n =>
    let value := (env.get? (String.ofList n.name.reverse)).getD ""
    { d with output := value.toList.reverse ++ d.output, naming := none }
  | none => d

/-- The next character of the name of a variable. -/
def stepNaming (env : Environment) (d : Draft) (n : Naming) (c : Char) : Draft :=
  if Text.isAlphanumeric c then { d with naming := some { n with name := c :: n.name } }
  else if n.braced then
    if c = '\x7d' then d.substitute env
    else { d with naming := some { n with name := c :: n.name } }
  else if c = '\x7b' && n.name.isEmpty then { d with naming := some ⟨true, []⟩ }
  else if c = '$' then { d.substitute env with naming := some ⟨false, []⟩ }
  else (d.substitute env).add c

/-- The character that an escape stands for. -/
def unescape? (c : Char) : Option Char :=
  if c = '\\' || c = '\'' || c = '"' || c = '$' || c = ' ' then some c
  else if c = 'n' then some '\n'
  else none

/-- The next character of a value that has not ended. -/
def step (env : Environment) (d : Draft) (c : Char) : Option Draft :=
  if d.escaped then (unescape? c).map fun c => { d.add c with escaped := false }
  else if d.strong then some (if c = '\'' then { d with strong := false } else d.add c)
  else
    match d.naming with
    | some n => some (d.stepNaming env n c)
    | none =>
      if c = '$' then some { d with naming := some ⟨false, []⟩ }
      else if c = '\\' then some { d with escaped := true }
      else if d.weak then some (if c = '"' then { d with weak := false } else d.add c)
      else if c = '\'' then some { d with strong := true }
      else if c = '"' then some { d with weak := true }
      else if c = ' ' || c = '\t' then some { d with ended := true }
      else some (d.add c)

/-- The value, once all of it is read: no quote and no brace may be open. -/
def done? (env : Environment) (d : Draft) : Option String :=
  if d.strong || d.weak || d.naming.any (·.braced) then none
  else some (String.ofList (d.substitute env).output.reverse)

/-- Read a value. After the blank that ends it only blanks and a comment may follow. -/
def value? (env : Environment) (d : Draft) : List Char → Option String
  | [] => d.done? env
  | c :: cs =>
    if d.ended then
      if c = ' ' || c = '\t' then value? env d cs
      else if c = '#' then d.done? env
      else none
    else (d.step env c).bind fun d => value? env d cs

end Draft

/-! ### Entries with a key -/

/-- A character that begins a key. -/
def isKeyStart (c : Char) : Bool := c.isAlpha || c == '_'

/-- A character of a key. -/
def isKeyChar (c : Char) : Bool := c.isAlphanum || c == '_' || c == '.'

/-- The key in front of an entry, and what comes after it and the blanks behind it. -/
def key? (s : List Char) : Option (String × List Char) :=
  match s with
  | c :: _ =>
    if isKeyStart c then
      some (String.ofList (s.takeWhile isKeyChar), Text.dropBlanks (s.dropWhile isKeyChar))
    else none
  | [] => none

/-- The text after an equals sign. -/
def afterEquals? : List Char → Option (List Char)
  | '=' :: s => some s
  | _ => none

/-- The key of an entry and the text of its value. A word `export` may stand in front, unless it is
the key. -/
def assignment? (s : List Char) : Option (String × List Char) := do
  let (key, rest) ← key? s
  match afterEquals? rest with
  | some value => pure (key, value)
  | none =>
    if key = "export" then
      let (key, rest) ← key? rest
      let value ← afterEquals? rest
      pure (key, value)
    else none

/-- An entry of the file. -/
inductive Entry
  | empty
  | variable (key value : String)
  | malformed
  deriving DecidableEq, Repr

/-- Whether there is nothing but a comment at most. -/
def isVoid (s : List Char) : Bool :=
  match s with
  | [] => true
  | c :: _ => c == '#'

/-- The entry that a text stands for. -/
def entry (env : Environment) (s : List Char) : Entry :=
  let s := Text.dropBlanks (Text.dropBlanksEnd s)
  if isVoid s then .empty
  else
    match assignment? s with
    | none => .malformed
    | some (key, rest) =>
      let rest := Text.dropBlanks rest
      if isVoid rest then .variable key ""
      else
        match Draft.value? env .start rest with
        | some value => .variable key value
        | none => .malformed

/-- Add entries one after another, up to the first that is none. -/
def addEntries (env : Environment) : List (Option (List Char)) → Environment
  | [] => env
  | none :: _ => env
  | some s :: rest =>
    match entry env s with
    | .empty => addEntries env rest
    | .variable key value => addEntries (env.setDefault key value) rest
    | .malformed => env

/-- The file without a byte order mark. -/
def dropMark (s : List Char) : List Char :=
  match s with
  | '\ufeff' :: s => s
  | s => s

/-- Add the variables of an environment file. -/
def load (env : Environment) (file : String) : Environment :=
  env.addEntries (entries .plain [] (lines (dropMark file.toList)))

end Environment

end Herald.Settings
