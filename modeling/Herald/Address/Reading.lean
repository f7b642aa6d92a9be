import Herald.Address

/-!
# Reading web addresses

* `Address.read?`: the address that a text spells, if it is absolute.

An address is read as a browser reads it. Special schemes have a port of their own, or are `file`;
under them a backslash is as good as a slash. Behind the scheme, the fragment and the query are cut
off first, since nothing in front of them can hold `#` or `?`; then come the host with what belongs
to it, and the path.
-/

namespace Herald.Address

/-- What a scheme says about its addresses. -/
inductive Kind
  /-- Special, with a usual port. -/
  | served (port : Nat)
  /-- Special, without a port. -/
  | file
  | other
  deriving DecidableEq, Repr

/-- The kind of a scheme. -/
def Kind.ofScheme (scheme : String) : Kind :=
  if scheme = "http" ∨ scheme = "ws" then .served 80
  else if scheme = "https" ∨ scheme = "wss" then .served 443
  else if scheme = "ftp" then .served 21
  else if scheme = "file" then .file
  else .other

/-- Whether a scheme is special. -/
def Kind.isSpecial : Kind → Bool
  | served _ | file => true
  | other => false

/-- A slash, or a backslash under a special scheme. -/
def isSlash (special : Bool) (c : Char) : Bool := c == '/' || (special && c == '\\')

/-- The characters that count: none of the blanks and control characters at both ends, and no tab
or line break anywhere. -/
def significant (cs : List Char) : List Char :=
  let isEdge (c : Char) : Bool := c.toNat ≤ 0x20
  ((cs.dropWhile isEdge).reverse.dropWhile isEdge).reverse.filter fun c =>
    c != '\t' && c != '\n' && c != '\r'

/-- A character of a scheme, after its first letter. -/
def isSchemeChar (c : Char) : Bool :=
  c.isAlphanum || c == '+' || c == '-' || c == '.'

/-- The scheme of an address, in lower case, and what comes after its colon. -/
def splitScheme? (cs : List Char) : Option (String × List Char) :=
  if (cs.head?.map Char.isAlpha).getD false then
    match cs.dropWhile isSchemeChar with
    | ':' :: rest => some (String.ofList ((cs.takeWhile isSchemeChar).map Char.toLower), rest)
    | _ => none
  else none

/-- A text up to the first occurrence of a character, and what comes after it if there is one. -/
def cut (c : Char) (cs : List Char) : List Char × Option (List Char) :=
  (cs.takeWhile (· != c), (cs.dropWhile (· != c)).tail?)

/-- The user name and the password in front of the last `@`, and the rest. -/
def splitCredentials (cs : List Char) : List Char × List Char :=
  let host := (cs.reverse.takeWhile (· != '@')).reverse
  (cs.take (cs.length - host.length - 1), host)

/-- User name and password, if one of them is given. The first colon stands between them. -/
def credentials? (cs : List Char) : Option Credentials :=
  let spell (p : List Char) : String := String.ofList (escape inCredentials p)
  match cut ':' cs with
  | ([], none) | ([], some []) => none
  | (user, none) | (user, some []) => some ⟨spell user, none⟩
  | (user, some password) => some ⟨spell user, some (spell password)⟩

/-- How many characters come before the colon in front of the port: a colon in brackets is none. -/
def hostLength (inBrackets : Bool) : List Char → Nat
  | [] => 0
  | c :: cs =>
    if c == ':' && !inBrackets then 0
    else 1 + hostLength (c == '[' || (inBrackets && c != ']')) cs

/-- The port that digits spell, where there are any. -/
def port? (ds : List Char) : Option (Option Nat) :=
  if ds.isEmpty then some none
  else if ds.all Char.isDigit then ((Host.value? 10 ds).filter (· ≤ 65535)).map some
  else none

/-- The host with what belongs to it. -/
structure Authority where
  credentials : Option Credentials
  host : Host
  port : Option Nat

/-- Read the host with what belongs to it. Only a scheme that is not special leaves it empty, and
then neither user name nor password nor port is there. -/
def authority? (kind : Kind) (cs : List Char) : Option Authority := do
  if cs = ['@'] then none
  let (front, rest) := splitCredentials cs
  let credentials := credentials? front
  let n := hostLength false rest
  let name := rest.take n
  let host ← if kind.isSpecial then Host.special? name else Host.plain? name
  let port ← port? (rest.drop (n + 1))
  if name.isEmpty && (credentials.isSome || n < rest.length) then none
  let usual : Option Nat := match kind with
    | .served p => some p
    | .file | .other => none
  some ⟨credentials, host, if port = usual then none else port⟩

/-- A segment that stands for the one above it. -/
def isParent (s : String) : Bool :=
  ["..", ".%2e", "%2e.", "%2e%2e"].contains s.toLower

/-- A segment that stands for its own place. -/
def isSelf (s : String) : Bool := [".", "%2e"].contains s.toLower

/-- The name of a drive: a letter and a colon, or a bar in place of the colon. -/
def isDrive : List Char → Bool
  | [l, c] => l.isAlpha && (c == ':' || c == '|')
  | _ => false

/-- The segments above the last one, which stand in reverse. A drive is not left. -/
def above : List String → List String
  | [] => []
  | s :: ss => if isDrive s.toList then s :: ss else ss

/-- Walk along segments; those passed so far stand in reverse. -/
def walk (passed : List String) : List String → List String
  | [] => passed.reverse
  | [s] =>
    if isParent s then ("" :: above passed).reverse
    else if isSelf s then ("" :: passed).reverse
    else (s :: passed).reverse
  | s :: ss =>
    if isParent s then walk (above passed) ss
    else if isSelf s then walk passed ss
    else walk (s :: passed) ss

/-- The segments of a text, each spelled as in a path. -/
def spelledSegments (special : Bool) (cs : List Char) : List String :=
  (cs.splitOnP (isSlash special)).map fun s => String.ofList (escape inSegment s)

/-- The path after the slash that starts it. -/
def segments (special : Bool) (cs : List Char) : Path :=
  .segments (walk [] (spelledSegments special cs))

/-- The path after a host. -/
def pathAfterHost (kind : Kind) (cs : List Char) : Path :=
  if kind.isSpecial then
    segments true (if (cs.head?.map (isSlash true)).getD false then cs.tail else cs)
  else if cs.isEmpty then .segments []
  else segments false cs.tail

/-- The path of a file, and whether it starts with a drive. No empty segment stands at its start,
but where it is the only one. -/
def filePath (cs : List Char) : Path × Bool :=
  let ss := (spelledSegments true cs).dropWhile (· == "")
  match ss with
  | s :: rest =>
    if isDrive s.toList then (.segments (walk [] (String.ofList [s.front, ':'] :: rest)), true)
    else
      let ss := (walk [] ss).dropWhile (· == "")
      (.segments (if ss.isEmpty then [""] else ss), false)
  | [] => (.segments [""], false)

/-- The host and the path of a file. A drive where the host should stand is part of the path, a
drive in the path leaves no host, and `localhost` is none. -/
def file? (cs : List Char) : Option (Host × Path) := do
  match cs with
  | a :: b :: rest =>
    if isSlash true a && isSlash true b then
      let name := rest.takeWhile (!isSlash true ·)
      if name.isEmpty || isDrive name then some (.name "", (filePath rest).1)
      else
        let host ← Host.special? name
        let (path, onDrive) := filePath (rest.drop name.length)
        some (if onDrive || host == .name "localhost" then .name "" else host, path)
    else some (.name "", (filePath cs).1)
  | _ => some (.name "", (filePath cs).1)

/-- The address with a scheme of a kind and a text after its colon, but for query and fragment. -/
def hierarchy? (scheme : String) (kind : Kind) (cs : List Char) : Option Address := do
  let hosted (cs : List Char) : Option Address := do
    let isEnd := isSlash kind.isSpecial
    let a ← authority? kind (cs.takeWhile (!isEnd ·))
    let path := pathAfterHost kind (cs.dropWhile (!isEnd ·))
    some ⟨scheme, a.credentials, some a.host, a.port, path, none, none⟩
  match kind with
  | .served _ => hosted (cs.dropWhile (isSlash true))
  | .file =>
    let (host, path) ← file? cs
    some ⟨scheme, none, some host, none, path, none, none⟩
  | .other =>
    match cs with
    | '/' :: '/' :: rest => hosted rest
    | '/' :: rest => some ⟨scheme, none, none, none, segments false rest, none, none⟩
    | _ =>
      let path := String.ofList (escape isControl cs)
      some ⟨scheme, none, none, none, .plain path, none, none⟩

/-- The address that a text spells, if it is absolute. -/
def read? (s : String) : Option Address := do
  let (scheme, rest) ← splitScheme? (significant s.toList)
  let kind := Kind.ofScheme scheme
  let (rest, fragment) := cut '#' rest
  let (rest, query) := cut '?' rest
  let a ← hierarchy? scheme kind rest
  some { a with
    query := query.map fun q => String.ofList (escape (inQuery kind.isSpecial) q)
    fragment := fragment.map fun f => String.ofList (escape inFragment f) }

example : (read? " HTTPS:\\\\A.b:443\\x/../y z?q#f").map text = some "https://a.b/y%20z?q#f" := by
  decide +kernel
example : (read? "mailto:a@b c").map text = some "mailto:a@b c" := by decide +kernel
example : read? "http://" = none := by decide +kernel
example : read? "a/b:c" = none := by decide +kernel

end Herald.Address
