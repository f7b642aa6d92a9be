import Herald.Settings.Environment
import Herald.Webhook

/-!
# Settings

* `Settings`: the port of the service, the address of the webhook, and how long a request may take;
* `Settings.ofEnvironment`: the settings of an environment;
* `Settings.webhook`: the webhook they describe.
-/

namespace Herald

/-- Why a text is no number. -/
inductive NumberError
  | empty
  | invalidDigit
  | tooLarge
  deriving DecidableEq, Repr

/-- The text of an error. -/
def NumberError.message : NumberError → String
  | empty => "cannot parse integer from empty string"
  | invalidDigit => "invalid digit found in string"
  | tooLarge => "number too large to fit in target type"

/-- Go on with a number at its next digit. What is met first decides: a character that is no digit, or
the bound. -/
def readDigits (bound n : Nat) : List Char → Except NumberError Nat
  | [] => .ok n
  | c :: cs =>
    if c.isDigit then
      let m := 10 * n + (c.toNat - '0'.toNat)
      if m < bound then readDigits bound m cs else .error .tooLarge
    else .error .invalidDigit

/-- The number below a bound that a text spells, with a plus sign or without. -/
def readNumber (bound : Nat) (s : String) : Except NumberError Nat :=
  match s.toList with
  | [] => .error .empty
  | ['+'] => .error .invalidDigit
  | '+' :: cs => readDigits bound 0 cs
  | cs => readDigits bound 0 cs

/-- The settings of the service. -/
structure Settings where
  port : Nat
  webhookAddress : String
  /-- How long one delivery may take, in seconds. -/
  timeoutSeconds : Option Nat
  deriving DecidableEq, Repr

/-- Why there are no settings. -/
inductive SettingsError
  | port (e : NumberError)
  | noAddress
  | timeout (e : NumberError)
  deriving DecidableEq, Repr

/-- The text of an error, its cause last. -/
def SettingsError.message : SettingsError → String
  | port e => "PORT must be a valid number: " ++ e.message
  | noAddress => "SLACK_INCOMING_WEBHOOK_URL must be set: environment variable not found"
  | timeout e => "SLACK_WEBHOOK_TIMEOUT_SECS must be a whole number of seconds: " ++ e.message

namespace Settings

/-- The port where none is set. -/
def defaultPort : String := "1337"

/-- The settings of an environment. Of several errors the port comes first, then the address. -/
def ofEnvironment (env : Settings.Environment) : Except SettingsError Settings := do
  let port ← (readNumber (Nat.pow 2 16) ((env.get? "PORT").getD defaultPort)).mapError .port
  let address ←
    match env.get? "SLACK_INCOMING_WEBHOOK_URL" with
    | some a => pure a
    | none => throw .noAddress
  let timeout ←
    match env.get? "SLACK_WEBHOOK_TIMEOUT_SECS" with
    | some s => ((readNumber (Nat.pow 2 64) s).mapError SettingsError.timeout).map some
    | none => pure none
  pure ⟨port, address, timeout⟩

/-- The webhook of the settings. -/
def webhook (s : Settings) : Except WebhookError Webhook :=
  Webhook.create? s.webhookAddress (s.timeoutSeconds.map (1000 * ·))

/-- What is said when the webhook cannot be set up. -/
def webhookMessage (e : WebhookError) : String :=
  "Failed to create Slack webhook client: " ++ e.message

end Settings

end Herald
