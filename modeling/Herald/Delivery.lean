import Herald.Message.Assembly
import Herald.Webhook

/-!
# Delivery

* `Failure`, `Channel`: where messages go, and how they fail to arrive;
* `Delivering`: a step on the way of messages, with the record of those that have been handed over;
* `Channel.deliver`: hand over a message;
* `publish`: assemble the message of a document and hand it over.

A record takes up a message as it is handed over, before it fails. A failure is noted and goes no
further.
-/

namespace Herald

open Message

/-- Why a delivery has failed. -/
inductive Failure
  | webhook (e : WebhookError)
  /-- Any other reason. -/
  | other (text : String)
  deriving DecidableEq, Repr

/-- Where messages go. -/
inductive Channel
  /-- A record of the messages, which then may fail all the same. -/
  | record (failure : Option Failure)
  | webhook (w : Webhook)
  deriving DecidableEq, Repr

/-- A step on the way of messages. The state is the record: the messages that have been handed over
to be recorded, in order. -/
abbrev Delivering := StateT (List (List Block)) Noted

namespace Channel

/-- Hand over a message. -/
def deliver (c : Channel) (blocks : List Block) : Delivering (Except Failure Unit) :=
  match c with
  | record failure => do
    modify (· ++ [blocks])
    match failure with
    | none => pure (.ok ())
    | some f => pure (.error f)
  | webhook w => do
    match ← w.post blocks with
    | .ok _ => pure (.ok ())
    | .error e => pure (.error (.webhook e))

end Channel

/-- What is noted about the end of a delivery. -/
def outcome : Except Failure Unit → Notice
  | .ok () => .delivered
  | .error (.webhook (.api status text)) => .rejected status text
  | .error (.webhook e) => .webhookFailed e.message e.isTimeout
  | .error (.other text) => .deliveryFailed text

/-- Assemble the message of a document and hand it over. The result is the message. -/
def publish (c : Channel) (d : Document) : Delivering (List Block) := do
  let blocks ← assemble d
  Noted.give (.publishing d.slug blocks.length)
  let r ← c.deliver blocks
  Noted.give (outcome r)
  pure blocks

end Herald
