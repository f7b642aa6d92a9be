import Herald.Address.Reading
import Herald.Message.Wire
import Herald.Notice
import Herald.Text.Blank

/-!
# Webhooks

* `WebhookError`: why a message does not reach the chat service;
* `Webhook.create?`: the webhook at an address;
* `Webhook.request`: the request that posts a message, if one can be built;
* `Webhook.post`: posting a message, up to the request that carries it.
-/

namespace Herald

open Message

/-- Why a message does not reach the chat service. -/
inductive WebhookError
  /-- The webhook is not set up as it should be. -/
  | config (text : String)
  /-- No request can be built for the address, which is given if it is one at all. -/
  | unbuildable (address : Option String)
  /-- The chat service has answered with an error. -/
  | api (status : Nat) (text : String)
  deriving DecidableEq, Repr

namespace WebhookError

/-- The text of an error. -/
def message : WebhookError → String
  | config text => "Configuration error: " ++ text
  | unbuildable none => "Network error: builder error"
  | unbuildable (some a) => "Network error: builder error for url (" ++ a ++ ")"
  | api status text => "Slack API error (" ++ toString status ++ "): " ++ text

/-- The status with which the chat service has answered. -/
def status? : WebhookError → Option Nat
  | api status _ => some status
  | config _ | unbuildable _ => none

/-- Whether time has run out. None of the errors met before a request is sent is of that kind. -/
def isTimeout : WebhookError → Bool
  | config _ | unbuildable _ | api .. => false

end WebhookError

/-- A webhook of the chat service. -/
structure Webhook where
  address : String
  /-- How long one request may take, in milliseconds. -/
  timeout : Option Nat
  deriving DecidableEq, Repr

/-- A request that posts a message. -/
structure Posting where
  address : String
  contentType : String
  body : String
  deriving DecidableEq, Repr

namespace Webhook

/-- The webhook at an address, which must not be blank. The client that sends the requests is taken
to be at hand: setting one up, with a timeout or without, depends on the machine and not on
these. -/
def create? (address : String) (timeout : Option Nat) : Except WebhookError Webhook :=
  if address.toList.all Text.isBlank then .error (.config "webhook URL is empty")
  else .ok ⟨address, timeout⟩

/-- The request that posts a message. Only `http` and `https` lead to a chat service, and user name
and password are no part of the address that is asked for. -/
def request (w : Webhook) (blocks : List Block) : Except WebhookError Posting :=
  match Address.read? w.address with
  | none => .error (.unbuildable none)
  | some a =>
    let a := a.anonymous
    if a.isPostable then .ok ⟨a.text, "application/json", wire blocks⟩
    else .error (.unbuildable (some a.text))

/-- Post a message. -/
def post (w : Webhook) (blocks : List Block) : Noted (Except WebhookError Posting) := do
  Noted.give (.posting blocks.length)
  pure (w.request blocks)

end Webhook

end Herald
