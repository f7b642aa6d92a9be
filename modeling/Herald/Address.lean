import Herald.Address.Host

/-!
# Web addresses

* `Address`: an absolute address, taken apart;
* `Address.text`: its spelling;
* `Address.anonymous`: an address without its user name and password;
* `Address.isPostable`: whether a request can be sent there.
-/

namespace Herald

open Address (Host)

/-- The user name and the password of an address, as they are spelled. -/
structure Address.Credentials where
  user : String
  password : Option String
  deriving DecidableEq, Repr

/-- The path of an address: segments, each with a slash in front, or a text without structure. -/
inductive Address.Path
  | segments (ss : List String)
  | plain (text : String)
  deriving DecidableEq, Repr

/-- An absolute address, with its parts as they are spelled. -/
structure Address where
  scheme : String
  credentials : Option Address.Credentials
  /-- Absent where no two slashes follow the scheme. -/
  host : Option Host
  /-- Absent where it is the usual one of the scheme. -/
  port : Option Nat
  path : Address.Path
  query : Option String
  fragment : Option String
  deriving DecidableEq, Repr

namespace Address

/-- User name and password, up to the host. -/
def Credentials.text (c : Credentials) : String :=
  match c.password with
  | some p => c.user ++ ":" ++ p ++ "@"
  | none => c.user ++ "@"

/-- The spelling of a path. -/
def Path.text : Path → String
  | segments ss => String.join (ss.map ("/" ++ ·))
  | plain t => t

/-- A path that would be taken for a host if it followed the scheme directly. -/
def Path.looksLikeHost : Path → Bool
  | segments ("" :: _ :: _) => true
  | segments _ | plain _ => false

/-- What stands between the colon of the scheme and the path. -/
def front (a : Address) : String :=
  match a.host with
  | some h =>
    "//" ++ (a.credentials.map Credentials.text).getD "" ++ h.text
      ++ (a.port.map fun p => ":" ++ toString p).getD ""
  | none => if a.path.looksLikeHost then "/." else ""

/-- The spelling of an address. -/
def text (a : Address) : String :=
  a.scheme ++ ":" ++ a.front ++ a.path.text
    ++ (a.query.map ("?" ++ ·)).getD "" ++ (a.fragment.map ("#" ++ ·)).getD ""

/-- Whether an address names a host. -/
def hasHost (a : Address) : Bool :=
  match a.host with
  | some h => h ≠ .name ""
  | none => false

/-- User name and password that stand for texts, at least one of them not empty. -/
def Credentials.areReadable (c : Credentials) : Bool :=
  match unescape? c.user.toList with
  | some u => u ≠ "" || (c.password.bind (unescape? ·.toList)).isSome
  | none => false

/-- An address without user name and password: they are sent apart from it. Those that stand for no
text are kept. -/
def anonymous (a : Address) : Address :=
  if (a.credentials.map Credentials.areReadable).getD false then { a with credentials := none }
  else a

/-- The greatest length of an address to which a request is sent. -/
def lengthLimit : Nat := 65534

/-- A character of a host name that the address of a request does not hold. -/
def isRefused (c : Char) : Bool := ['"', '\x60', '\x7b', '\x7d'].contains c

/-- Whether a request can be sent to an address. -/
def isPostable (a : Address) : Bool :=
  (a.scheme == "http" || a.scheme == "https") && a.hasHost && a.text.length ≤ lengthLimit
    && (a.host.map fun h => !h.text.toList.any isRefused).getD false

end Address

end Herald
