import Herald.Address.CaseFolding
import Herald.Address.Escape
import Herald.Address.NameCharacter
import Herald.Address.Punycode

/-!
# Hosts

* `Host`: a name, or a numeric address of four bytes or of eight groups;
* `Host.text`: its spelling;
* `Host.special?`, `Host.plain?`: the host that a text names, under a special scheme such as `https`
  and under any other.

Under a special scheme, names are lower-cased, labels beyond ASCII are written in Punycode, and a
name whose last label is a number has to be an address of four bytes.
-/

namespace Herald.Address

/-- A host. -/
inductive Host
  | name (text : String)
  /-- An address of four bytes, the first one highest. -/
  | four (n : Nat)
  /-- An address of eight groups of sixteen bits. -/
  | eight (groups : List Nat)
  deriving DecidableEq, Repr

namespace Host

/-- The first longest run of two or more zeros in a list of groups: where it starts and how long it
is. -/
def longestGap? (groups : List Nat) : Option (Nat × Nat) :=
  let runs := (List.range groups.length).map fun i =>
    (i, ((groups.drop i).takeWhile (· == 0)).length)
  runs.foldl (fun best r => if max 1 ((best.map Prod.snd).getD 0) < r.2 then some r else best) none

/-- Groups in hexadecimal, with colons between them. -/
def groupsText (groups : List Nat) : String :=
  ":".intercalate (groups.map fun g => String.ofList (Nat.toDigits 16 g))

/-- The spelling of a host. In an address of eight groups, the first longest run of zeros is left
out. -/
def text : Host → String
  | name s => s
  | four n => ".".intercalate
      ([n / 0x1000000, n / 0x10000 % 0x100, n / 0x100 % 0x100, n % 0x100].map toString)
  | eight groups =>
    match longestGap? groups with
    | some (start, length) =>
      let after := groups.drop (start + length)
      "[" ++ groupsText (groups.take start) ++ "::" ++ groupsText after ++ "]"
    | none => "[" ++ groupsText groups ++ "]"

/-- The value of digits to a base. -/
def value? (base : Nat) (ds : List Char) : Option Nat :=
  ds.foldlM (fun n c => do
    let d ← hexValue? c
    if d < base then some (n * base + d) else none) 0

/-- One number of an address of four bytes: hexadecimal after `0x`, octal after another zero. -/
def number? : List Char → Option Nat
  | [] => none
  | '0' :: 'x' :: ds => value? 16 ds
  | '0' :: d :: ds => value? 8 (d :: ds)
  | ds => value? 10 ds

/-- The numbers of an address put together in a room of some bytes: the last one fills what the
others leave. -/
def join? : Nat → List Nat → Option Nat
  | 0, _ | _, [] => none
  | room + 1, [n] => if n < Nat.pow 256 (room + 1) then some n else none
  | room + 1, n :: ns => if n < 256 then (join? room ns).map (n * Nat.pow 256 room + ·) else none

/-- The labels of a name, without the empty one after a full stop at its end. -/
def labels (cs : List Char) : List (List Char) :=
  let ls := cs.splitOn '.'
  if ls.getLast? = some [] then ls.dropLast else ls

/-- A label that makes the name an address if it comes last. -/
def isNumeric (label : List Char) : Bool :=
  (!label.isEmpty && label.all Char.isDigit) || (number? label).isSome

/-- One byte in decimal, without leading zeros. -/
def byte? (ds : List Char) : Option Nat :=
  if ds.isEmpty || (ds.head? == some '0' && 1 < ds.length) || !ds.all Char.isDigit then none
  else (value? 10 ds).filter (· < 256)

/-- One group in hexadecimal. -/
def group? (ds : List Char) : Option Nat :=
  if ds.isEmpty || 4 < ds.length then none else value? 16 ds

/-- Groups with colons between them. Two groups at the end may be given as four bytes. -/
def groups? (cs : List Char) : Option (List Nat) := do
  let parts := cs.splitOn ':'
  let lead ← parts.dropLast.mapM group?
  let last := parts.getLast?.getD []
  match (last.splitOn '.').mapM byte? with
  | some [a, b, c, d] => some (lead ++ [256 * a + b, 256 * c + d])
  | _ => (group? last).map fun g => lead ++ [g]

/-- The groups on one side of a gap, where there may be none. -/
def sideGroups? (cs : List Char) : Option (List Nat) := if cs.isEmpty then some [] else groups? cs

/-- What comes before and after the first pair of colons. -/
def splitGap? : List Char → Option (List Char × List Char)
  | ':' :: ':' :: cs => some ([], cs)
  | c :: cs => (splitGap? cs).map fun p => (c :: p.1, p.2)
  | [] => none

/-- An address of eight groups. A gap stands for one group of zeros or more, and four bytes come at
its end only. -/
def eight? (cs : List Char) : Option Host := do
  match splitGap? cs with
  | none =>
    let gs ← groups? cs
    if gs.length = 8 then some (.eight gs) else none
  | some (before, after) =>
    if before.contains '.' then none
    let l ← sideGroups? before
    let r ← sideGroups? after
    if l.length + r.length < 8 then
      some (.eight (l ++ List.replicate (8 - l.length - r.length) 0 ++ r))
    else none

/-- The address of eight groups in brackets, which a text that starts with a bracket has to be. -/
def bracketed? (cs : List Char) : Option Host :=
  if cs.getLast? = some ']' then eight? cs.dropLast else none

/-- A character that no name holds as it is. -/
def isReserved (c : Char) : Bool :=
  ['\x00', '\t', '\n', '\r', ' ', '#', '/', ':', '<', '>', '?', '@', '[', '\\', ']', '^',
    '|'].contains c

/-- A character that a name may hold under a special scheme. -/
def isAllowed (c : Char) : Bool :=
  if c.toNat < 0x80 then !(isControl c || c == '%' || isReserved c) else isNameChar c

/-- A character that a name holds as it is under a special scheme. -/
def isHeld (c : Char) : Bool := isAllowed c && foldCase c == c

/-- A label in ASCII. A label beyond ASCII is written in Punycode behind `xn--`, and what stands
behind `xn--` already has to be Punycode of such a label. -/
def label? (cs : List Char) : Option (List Char) :=
  let mark := ['x', 'n', '-', '-']
  if !cs.all isAllowed then none
  else if mark.isPrefixOf cs then
    match Punycode.decode (cs.drop 4) with
    | some l => if !l.all Punycode.isBasic && l.all isHeld then some cs else none
    | none => none
  else if cs.all Punycode.isBasic then some cs
  else some (mark ++ Punycode.encode cs)

/-- A name in ASCII. -/
def ascii? (cs : List Char) : Option (List Char) := do
  let seen := (cs.filter (!isIgnored ·)).map fun c => if isFullStop c then '.' else foldCase c
  let ls ← (seen.splitOn '.').mapM label?
  let name := ['.'].intercalate ls
  if name.isEmpty then none else some name

/-- The host that a text names under a special scheme. -/
def special? : List Char → Option Host
  | '[' :: cs => bracketed? cs
  | cs => do
    let name ← ascii? (← unescape? cs).toList
    let ls := labels name
    if isNumeric (ls.getLast?.getD []) then
      (ls.mapM number?).bind fun ns => (join? 4 ns).map .four
    else some (.name (String.ofList name))

/-- The host that a text names under any other scheme. -/
def plain? : List Char → Option Host
  | '[' :: cs => bracketed? cs
  | cs => if cs.any isReserved then none else some (.name (String.ofList (escape isControl cs)))

example : (special? "BÜCHER.example".toList).map text = some "xn--bcher-kva.example" := by
  decide +kernel
example : (special? "127.1".toList).map text = some "127.0.0.1" := by decide +kernel
example : (special? "[1:0:0:2::]".toList).map text = some "[1:0:0:2::]" := by decide +kernel
example : special? "a b".toList = none := by decide +kernel
example : special? "256.256.256.256".toList = none := by decide +kernel

end Host

end Herald.Address
