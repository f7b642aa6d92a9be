import Herald.Delivery

/-!
# The service

* `Request`, `Reply`: what comes in and what goes out;
* `Service.publishEvent`: what is done with the body of a request that publishes;
* `Service.handle`: the reply to a request;
* `Service.run`: a session, one request after another.

A published document is answered with the body of the request, whatever becomes of it.
-/

namespace Herald

open Message

/-- A request. -/
structure Request where
  method : String
  /-- The path, with a query if there is one; scheme and host may stand in front. -/
  target : String
  /-- No reply depends on them: a body is taken for what it is, and every origin is welcome. -/
  headers : List (String × String)
  body : List UInt8
  deriving Repr

/-- A reply. -/
structure Reply where
  status : Nat
  headers : List (String × String)
  body : List UInt8
  deriving Repr

namespace Service

/-- The resources of the service. -/
inductive Route
  | health
  | published
  deriving DecidableEq, Repr

/-- A character of the scheme of a target. -/
def isSchemeChar (c : Char) : Bool :=
  c.isAlphanum || c == '+' || c == '-' || c == '.' || c == '~'

/-- A character at which the host of a target ends. -/
def endsHost (c : Char) : Bool := c == '/' || c == '?' || c == '#'

/-- What comes after the scheme and the host of a target that has them. -/
def afterHost? (target : List Char) : Option (List Char) :=
  match target.dropWhile isSchemeChar with
  | ':' :: '/' :: '/' :: rest => some (rest.dropWhile (!endsHost ·))
  | _ => none

/-- The path of a target: scheme and host in front, and query and fragment behind, are left out. -/
def path (target : String) : String :=
  let cs := target.toList
  String.ofList (((afterHost? cs).getD cs).takeWhile fun c => c != '?' && c != '#')

/-- The resource at a path. -/
def route? (path : String) : Option Route :=
  if path = "/health" then some .health
  else if path = "/document/published" then some .published
  else none

/-- The methods of a resource. -/
def Route.allow : Route → String
  | .health => "GET,HEAD"
  | .published => "POST"

/-- The greatest length of a body that is read. -/
def bodyLimit : Nat := 2097152

/-- Every reply may be read from anywhere. -/
def anyOrigin : String × String := ("access-control-allow-origin", "*")

/-- The header that lists the methods of a resource. -/
def allowHeader : Option Route → List (String × String)
  | some r => [("allow", r.allow)]
  | none => []

/-- The bytes of a text. -/
def bytes (s : String) : List UInt8 := s.toUTF8.toList

/-- The answer to the question which requests are welcome. -/
def preflight (r : Option Route) : Reply :=
  ⟨200, anyOrigin :: ("access-control-allow-methods", "GET,POST")
    :: ("access-control-allow-headers", "content-type") :: allowHeader r, []⟩

/-- There is nothing at the path. -/
def notFound : Reply := ⟨404, [anyOrigin], []⟩

/-- The resource has other methods. -/
def wrongMethod (r : Route) : Reply := ⟨405, anyOrigin :: allowHeader (some r), []⟩

/-- The body is too long. -/
def tooLong : Reply :=
  ⟨413, [anyOrigin, ("content-type", "text/plain; charset=utf-8")],
    bytes "Failed to buffer the request body: length limit exceeded"⟩

/-- A body of JSON. -/
def ok (body : List UInt8) : Reply :=
  ⟨200, [anyOrigin, ("content-type", "application/json")], body⟩

/-- The state of the service. -/
def healthText : String := "\x7b\"status\":\"healthy\",\"version\":\"0.1.0\"\x7d"

/-- Publish the document that the event in a body announces. -/
def publishEvent (c : Channel) (body : List UInt8) : Delivering Unit := do
  Noted.give .eventReceived
  match ← (Event.ofBytes body).run with
  | .ok d =>
    let _ ← publish c d
  | .error _ => Noted.give .malformedEvent

/-- The reply to a request. -/
def handle (c : Channel) (r : Request) : Delivering Reply :=
  let route := route? (path r.target)
  if r.method = "OPTIONS" then pure (preflight route)
  else
    match route with
    | none => pure notFound
    | some .health =>
      if r.method = "GET" then pure (ok (bytes healthText))
      else if r.method = "HEAD" then pure (ok [])
      else pure (wrongMethod .health)
    | some .published =>
      if r.method = "POST" then
        if bodyLimit < r.body.length then pure tooLong
        else do
          publishEvent c r.body
          pure (ok r.body)
      else pure (wrongMethod .published)

/-- Handle requests one after another. -/
def run (c : Channel) : List Request → Delivering (List Reply)
  | [] => pure []
  | r :: rs => do
    let reply ← handle c r
    let replies ← run c rs
    pure (reply :: replies)

end Service

end Herald
