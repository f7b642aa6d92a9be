/-!
# Notices

What the program has to say about its work, in order.

* `Notice`: one kind for each thing worth saying, with its level, message and fields;
* `Noted`: a result together with the notices given on the way to it.
-/

namespace Herald

/-- How much a notice matters. -/
inductive Level
  | error
  | warn
  | info
  | debug
  deriving DecidableEq, Repr

/-- A thing worth saying. -/
inductive Notice
  /-- An entry of a node list is no node. -/
  | malformedNode
  /-- Something else stands in the place of a node list; `value` is its spelling. -/
  | notANodeList (value : String)
  /-- Something else stands in the place of a list; `value` is its spelling. -/
  | notAList (value : String)
  /-- An entry of a list cannot be read. -/
  | malformedEntry
  | unknownNode
  | nestedTooDeeply (tag : String) (depth : Nat)
  | missingTag (tag : String)
  | linkWithoutTarget
  | unparseableDate (input : String)
  /-- A rich text field has nothing to render. -/
  | emptyRichText (field : String)
  | unknownFieldKind (field : String) (code : Nat)
  | fieldWithoutKind (field : String)
  | publishing (slug : String) (blockCount : Nat)
  | posting (blockCount : Nat)
  | delivered
  /-- The chat service has answered with an error. -/
  | rejected (status : Nat) (body : String)
  /-- The webhook could not be used. -/
  | webhookFailed (error : String) (timeout : Bool)
  | deliveryFailed (error : String)
  | eventReceived
  | malformedEvent
  deriving DecidableEq, Repr

namespace Notice

/-- How much it matters. -/
def level : Notice → Level
  | .malformedNode | .notANodeList _ | .notAList _ | .malformedEntry | .unknownNode
  | .nestedTooDeeply .. | .missingTag _ | .linkWithoutTarget | .unknownFieldKind ..
  | .fieldWithoutKind _ => .warn
  | .unparseableDate _ | .emptyRichText _ | .posting _ | .delivered | .eventReceived => .debug
  | .publishing .. => .info
  | .rejected .. | .webhookFailed .. | .deliveryFailed _ | .malformedEvent => .error

/-- What it says. -/
def message : Notice → String
  | .malformedNode => "Malformed structured text node"
  | .notANodeList _ => "Structured text is not a list, ignoring"
  | .notAList _ => "Expected a list, ignoring"
  | .malformedEntry => "Skipping malformed list entry"
  | .unknownNode => "Unknown structured text node, skipping"
  | .nestedTooDeeply .. => "Structured text nested too deeply, dropping subtree"
  | .missingTag _ => "Missing structured text tag, skipping"
  | .linkWithoutTarget => "Link without href, rendering text only"
  | .unparseableDate _ => "Unparseable date"
  | .emptyRichText _ => "Rich text field has no structured value"
  | .unknownFieldKind .. => "Unknown field type, dropping field"
  | .fieldWithoutKind _ => "Field without a numeric type, dropping field"
  | .publishing .. => "Publishing document to Slack"
  | .posting _ => "Posting blocks to Slack webhook"
  | .delivered => "Slack delivery succeeded"
  | .rejected .. => "Slack webhook rejected message"
  | .webhookFailed .. => "Slack webhook delivery failed"
  | .deliveryFailed _ => "Message delivery failed"
  | .eventReceived => "Received document published event"
  | .malformedEvent => "Malformed document published event, not delivering"

/-- What it is about. -/
def fields : Notice → List (String × String)
  | .notANodeList value | .notAList value => [("value", value)]
  | .nestedTooDeeply tag depth => [("tag", tag), ("depth", toString depth)]
  | .missingTag tag => [("tag", tag)]
  | .unparseableDate input => [("input", input)]
  | .emptyRichText field | .fieldWithoutKind field => [("field", field)]
  | .unknownFieldKind field code => [("field", field), ("code", toString code)]
  | .publishing slug count => [("slug", slug), ("block_count", toString count)]
  | .posting count => [("block_count", toString count)]
  | .rejected status body => [("status", toString status), ("body", body)]
  | .webhookFailed error timeout => [("error", error), ("timeout", toString timeout)]
  | .deliveryFailed error => [("error", error)]
  | .malformedNode | .malformedEntry | .unknownNode | .linkWithoutTarget | .delivered
  | .eventReceived | .malformedEvent => []

end Notice

/-- A result with the notices given on the way to it. -/
@[ext] structure Noted (α : Type) where
  value : α
  notices : List Notice
  deriving Repr

namespace Noted

variable {α β : Type}

/-- A result without a notice. -/
def silent (a : α) : Noted α := ⟨a, []⟩

/-- Give a notice. -/
def give (n : Notice) : Noted Unit := ⟨(), [n]⟩

/-- Go on with a result, its notices first. A step that gives no notice leaves them as they are. -/
def andThen (x : Noted α) (f : α → Noted β) : Noted β :=
  let y := f x.value
  ⟨y.value, if y.notices.isEmpty then x.notices else x.notices ++ y.notices⟩

theorem notices_andThen (x : Noted α) (f : α → Noted β) :
    (andThen x f).notices = x.notices ++ (f x.value).notices := by
  simp only [andThen]
  split
  · rename_i h
    rw [List.isEmpty_iff.1 h, List.append_nil]
  · rfl

instance : Monad Noted where
  pure := silent
  bind := andThen

@[simp] theorem value_pure (a : α) : (pure a : Noted α).value = a := rfl

@[simp] theorem notices_pure (a : α) : (pure a : Noted α).notices = [] := rfl

@[simp] theorem value_bind (x : Noted α) (f : α → Noted β) :
    (x >>= f).value = (f x.value).value := rfl

@[simp] theorem notices_bind (x : Noted α) (f : α → Noted β) :
    (x >>= f).notices = x.notices ++ (f x.value).notices := notices_andThen x f

@[simp] theorem value_give (n : Notice) : (give n).value = () := rfl

@[simp] theorem notices_give (n : Notice) : (give n).notices = [n] := rfl

@[simp] theorem value_map (f : α → β) (x : Noted α) : (f <$> x).value = f x.value := rfl

@[simp] theorem notices_map (f : α → β) (x : Noted α) : (f <$> x).notices = x.notices := rfl

instance : LawfulMonad Noted :=
  LawfulMonad.mk' Noted
    (fun x => by ext <;> simp)
    (fun a f => by ext <;> simp)
    (fun x f g => by ext <;> simp)

end Noted

end Herald
