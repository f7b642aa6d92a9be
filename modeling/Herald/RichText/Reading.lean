import Herald.Json.Tagged
import Herald.Notice
import Herald.RichText.Node

/-!
# Reading rich text

* `Node.nodes`: the nodes of a value that should be a list of nodes. It never fails: an entry that is
  no node becomes the unknown node, with a notice;
* `Node.nodes?`: the same, with nothing for null;
* `Node.read`: the node that a shape stands for;
* `Node.readAll`, `Node.readAll?`: the nodes of the value of a shape.

A node is an object with a `type` of `text` or `tag` and the members that belong to it, or the list
of these in order. Any other type stands for the unknown node.
-/

namespace Herald.RichText

open Json

namespace Node

/-- The text node with these members: `data` once, a string. -/
def textOfMembers (data : Option String) : List (String × Value) → Option Node
  | [] => data.map .text
  | (k, v) :: ms =>
    if k = "data" then
      match data, v with
      | none, .string s => textOfMembers (some s) ms
      | _, _ => none
    else textOfMembers data ms

/-- The text node with these items. -/
def textOfItems : List Value → Option Node
  | [.string s] => some (.text s)
  | _ => none

/-- An element in the making. -/
structure Draft where
  tag : Option String
  attributes : Option Members
  children : Option (List Node)

/-- An element of which nothing is known yet. -/
def Draft.empty : Draft := ⟨none, none, none⟩

/-- The element, once its tag is known. -/
def Draft.done? (d : Draft) : Option Node :=
  d.tag.map fun t => .element (Tag.ofName t) (d.attributes.getD []) (d.children.getD [])

/-- Attributes: an object, or null for none. -/
def attributes? : Value → Option Members
  | .null => some []
  | .object ms => some ms
  | _ => none

/-- Choose by the kind that a node names. -/
@[macro_inline] def byKind (kind : String) (text : Option Node) (element : Noted (Option Node))
    (other : Option Node) : Noted (Option Node) :=
  if kind = "text" then pure text else if kind = "tag" then element else pure other

mutual

/-- The node that a value stands for. -/
def ofValue? : Value → Noted (Option Node)
  | .object ms =>
    match Members.get? "type" ms with
    | some (.string kind) =>
      byKind kind (textOfMembers none ms) (elementOfMembers? .empty ms) (some .unknown)
    | _ => pure none
  | .array (.string kind :: items) =>
    byKind kind (textOfItems items) (elementOfItems? items)
      (if items.isEmpty then some .unknown else none)
  | _ => pure none

/-- The element with these members. Each of `tag`, `attrs` and `children` stands once at most, and
the rest is passed over. -/
def elementOfMembers? (d : Draft) : List (String × Value) → Noted (Option Node)
  | [] => pure d.done?
  | (k, v) :: ms =>
    if k = "tag" then
      match d.tag, v with
      | none, .string t => elementOfMembers? { d with tag := some t } ms
      | _, _ => pure none
    else if k = "attrs" then
      match d.attributes, attributes? v with
      | none, some a => elementOfMembers? { d with attributes := some a } ms
      | _, _ => pure none
    else if k = "children" then
      match d.children with
      | none => do
        let ns ← nodes v
        elementOfMembers? { d with children := some ns } ms
      | some _ => pure none
    else elementOfMembers? d ms

/-- The element with these items: its tag, and if there are more its children and its attributes. -/
def elementOfItems? : List Value → Noted (Option Node)
  | [.string t] => pure (some (.element (Tag.ofName t) [] []))
  | [.string t, children] => do
    let ns ← nodes children
    pure (some (.element (Tag.ofName t) [] ns))
  | .string t :: children :: attributes :: rest => do
    let ns ← nodes children
    match attributes? attributes with
    | some a => pure (if rest.isEmpty then some (.element (Tag.ofName t) a ns) else none)
    | none => pure none
  | _ => pure none

/-- The nodes of a value that should be a list of nodes. -/
def nodes : Value → Noted (List Node)
  | .array items => entries items
  | .null => pure []
  | v => do
    Noted.give (.notANodeList v.text)
    pure []

/-- One node for each entry of a list. -/
def entries : List Value → Noted (List Node)
  | [] => pure []
  | v :: vs => do
    let n ← do
      match ← ofValue? v with
      | some n => pure n
      | none =>
        Noted.give .malformedNode
        pure .unknown
    let ns ← entries vs
    pure (n :: ns)

end

/-- The node of a kind with these members. -/
def ofMembers? (kind : String) (ms : List (String × Value)) : Noted (Option Node) :=
  byKind kind (textOfMembers none ms) (elementOfMembers? .empty ms) (some .unknown)

/-- The node of a kind with these items. -/
def ofItems? (kind : String) (items : List Value) : Noted (Option Node) :=
  byKind kind (textOfItems items) (elementOfItems? items)
    (if items.isEmpty then some .unknown else none)

/-- The node of a tagged form. -/
def ofTagged? (t : Tagged) : Noted (Option Node) :=
  match t.content with
  | .members ms => ofMembers? t.kind (ms.map fun m => (m.1, m.2.value))
  | .items is => ofItems? t.kind (is.map (·.value))

/-- The node that a shape stands for. A kind that is not known is fine: it is the unknown node. -/
def read (depth : Nat) (s : Shape) : Reading Node := do
  let t ← Reading.ofExcept (s.tagged (fun _ => true) depth)
  Reading.require (ofTagged? t)

/-- The nodes of a value, or nothing for null. -/
def nodes? : Value → Noted (Option (List Node))
  | .null => pure none
  | v => do
    let ns ← nodes v
    pure (some ns)

/-- The nodes of the value of a shape. -/
def readAll (depth : Nat) (s : Shape) : Reading (List Node) := do
  let v ← Reading.ofExcept (s.value depth)
  Reading.ofNoted (nodes v)

/-- The nodes of the value of a shape, or nothing for null. -/
def readAll? (depth : Nat) (s : Shape) : Reading (Option (List Node)) := do
  let v ← Reading.ofExcept (s.value depth)
  Reading.ofNoted (nodes? v)

end Node

end Herald.RichText
