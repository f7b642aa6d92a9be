import Herald.Proofs.Json.Yields
import Herald.Service

/-!
# Sessions

The record of the messages is carried through a session: every hand-over adds to it, and nothing
else does.

* `Channel.value_run_deliver`, `value_run_publish`: what a hand-over does to the record, and what
  publishing a document does;
* `Request.Publishes`, `Request.message?`: the requests that publish, and the message of one;
* `Service.value_run_handle`: the reply to one request, and the record after it;
* `Service.runEach`: a session in which the channel may behave otherwise at each request;
* `Service.runEach_replies_and_record`: what is answered in a session, and what is handed over.
-/

namespace Herald

open Message

/-! ### Handing over -/

/-- A step that hands nothing over. -/
theorem value_run_lift {α : Type} (x : Noted α) (record : List (List Block)) :
    (StateT.run (liftM x : Delivering α) record).value = (x.value, record) := rfl

namespace Channel

/-- A channel that keeps what is handed over to it. -/
def isRecord : Channel → Bool
  | record _ => true
  | webhook _ => false

/-- **A record takes up the message that is handed over, once and as it is**, whether it fails or
not. A webhook does not touch it. -/
theorem value_run_deliver (c : Channel) (blocks : List Block) (record : List (List Block)) :
    ((c.deliver blocks).run record).value.2
      = if c.isRecord then record ++ [blocks] else record := by
  cases c with
  | record failure => cases failure <;> rfl
  | webhook w =>
    unfold deliver
    dsimp only
    rw [StateT.run_bind, Noted.value_bind, value_run_lift]
    cases (w.post blocks).value <;> rfl

end Channel

/-- The message of a document is handed over once, whatever becomes of it, and is the result. -/
theorem value_run_publish (c : Channel) (d : Document) (record : List (List Block)) :
    ((publish c d).run record).value
      = ((assemble d).value,
          if c.isRecord then record ++ [(assemble d).value] else record) := by
  rw [← c.value_run_deliver]
  rfl

namespace Request

/-- A request that publishes: a posted body, not too long, for the right path. -/
def Publishes (r : Request) : Prop :=
  r.method = "POST" ∧ Service.path r.target = "/document/published" ∧
    r.body.length ≤ Service.bodyLimit

instance (r : Request) : Decidable r.Publishes := by
  unfold Publishes
  infer_instance

/-- The message of the document that a request announces, if it publishes and its body can be
read. -/
def message? (r : Request) : Option (List Block) :=
  if r.Publishes then
    (Event.ofBytes r.body).run.value.toOption.map fun d => (assemble d).value
  else none

end Request

namespace Service

/-! ### One request -/

theorem route?_eq_published_iff {p : String} :
    route? p = some .published ↔ p = "/document/published" := by
  constructor
  · intro h
    unfold route? at h
    split at h
    · cases h
    split at h
    · assumption
    · cases h
  · rintro rfl
    rfl

/-- A query does not belong to the path. -/
theorem path_append_query (query : String) :
    path ("/document/published?" ++ query) = "/document/published" := by
  have h : ("/document/published?" ++ query).toList
      = "/document/published".toList ++ '?' :: query.toList := by
    rw [String.toList_append]
    rfl
  unfold path
  dsimp only
  rw [h]
  rfl

/-- A request that publishes has its event published, and is answered with its body. -/
theorem handle_of_publishes {r : Request} (h : r.Publishes) (c : Channel) :
    handle c r = (do
      publishEvent c r.body
      pure (ok r.body)) := by
  obtain ⟨hm, hp, hl⟩ := h
  have hmo : r.method ≠ "OPTIONS" := by
    rw [hm]
    decide
  unfold handle
  dsimp only
  rw [if_neg hmo, route?_eq_published_iff.2 hp]
  dsimp only
  rw [if_pos hm, if_neg (Nat.not_lt.2 hl)]

/-- Any other request is answered without the channel. -/
theorem handle_of_not_publishes {r : Request} (h : ¬ r.Publishes) :
    ∃ reply, ∀ c, handle c r = pure reply := by
  unfold handle
  dsimp only
  split
  · exact ⟨_, fun _ => rfl⟩
  split
  · exact ⟨_, fun _ => rfl⟩
  · split
    · exact ⟨_, fun _ => rfl⟩
    split <;> exact ⟨_, fun _ => rfl⟩
  · rename_i hroute
    split
    · rename_i hm
      -- All that is left is a body that is too long: a shorter one would be published.
      have hl : bodyLimit < r.body.length := by
        refine Nat.lt_of_not_le fun hl => h ⟨hm, ?_, hl⟩
        exact route?_eq_published_iff.1 hroute
      exact ⟨tooLong, fun _ => if_pos hl⟩
    · exact ⟨_, fun _ => rfl⟩

/-- The message of an event that can be read is handed over, and nothing else is. -/
theorem value_run_publishEvent (c : Channel) (body : List UInt8) (record : List (List Block)) :
    ((publishEvent c body).run record).value.2
      = if c.isRecord then
          record ++ ((Event.ofBytes body).run.value.toOption.map fun d => (assemble d).value).toList
        else record := by
  unfold publishEvent
  rw [StateT.run_bind, Noted.value_bind, StateT.run_bind, Noted.value_bind, value_run_lift,
    value_run_lift]
  cases (Event.ofBytes body).run.value with
  | error e =>
    show record = if c.isRecord then record ++ [] else record
    rw [List.append_nil, ite_self]
  | ok d => exact congrArg Prod.snd (value_run_publish c d record)

/-- **One request.** The reply depends on nothing but the request. The record then has its message
at the end, if it has one and the channel keeps it. -/
theorem value_run_handle (c : Channel) (r : Request) (record : List (List Block)) :
    ((handle c r).run record).value
      = (((handle (.record none) r).run []).value.1,
          if c.isRecord then record ++ r.message?.toList else record) := by
  unfold Request.message?
  by_cases h : r.Publishes
  · rw [if_pos h, handle_of_publishes h, handle_of_publishes h, ← value_run_publishEvent]
    rfl
  · obtain ⟨reply, hreply⟩ := handle_of_not_publishes h
    rw [if_neg h, hreply, hreply]
    show (reply, record) = (reply, if c.isRecord then record ++ [] else record)
    rw [List.append_nil, ite_self]

/-! ### Sessions -/

/-- Handle requests one after another, with a channel that may be another one each time. -/
def runEach : List (Channel × Request) → Delivering (List Reply)
  | [] => pure []
  | (c, r) :: steps => do
    let reply ← handle c r
    let replies ← runEach steps
    pure (reply :: replies)

/-- A session has the same channel all along. -/
theorem run_eq_runEach (c : Channel) (rs : List Request) : run c rs = runEach (rs.map (c, ·)) := by
  induction rs with
  | nil => rfl
  | cons r rs ih =>
    rw [run, ih]
    rfl

/-- The messages of the requests of a session that are handed over to a record, in order. -/
def messages (steps : List (Channel × Request)) : List (List Block) :=
  (steps.filter (·.1.isRecord)).filterMap (·.2.message?)

/-- **A session.** Each request is answered by itself, and the messages are added to the record in
the order of the requests. -/
theorem value_run_runEach (steps : List (Channel × Request)) (record : List (List Block)) :
    ((runEach steps).run record).value
      = (steps.map fun s => ((handle (.record none) s.2).run []).value.1,
          record ++ messages steps) := by
  induction steps generalizing record with
  | nil => exact congrArg _ (List.append_nil record).symm
  | cons s steps ih =>
    obtain ⟨c, r⟩ := s
    rw [runEach, StateT.run_bind, Noted.value_bind, value_run_handle, StateT.run_bind,
      Noted.value_bind, ih]
    show (_, _) = (_, _)
    congr 1
    unfold messages
    cases hc : c.isRecord with
    | false => simp [hc]
    | true => cases hm : r.message? <;> simp [hc, hm]

/-- A session with a record hands over the messages of its requests. -/
theorem messages_of_isRecord {steps : List (Channel × Request)}
    (h : ∀ s ∈ steps, s.1.isRecord = true) :
    messages steps = (steps.map Prod.snd).filterMap Request.message? := by
  rw [messages, List.filter_eq_self.2 h, List.filterMap_map]
  rfl

/-- **What is answered and what is handed over.** A request has one answer, wherever it stands in a
session, whatever the channel does then or has done before, and whatever the record holds. A request
that publishes is answered with its own body, as JSON. A record takes up the messages of the
requests in order, and nothing else, whether or not it fails each time; a webhook leaves it as it
is. A query makes no difference. -/
theorem runEach_replies_and_record :
    ∃ answer : Request → Reply,
      (∀ (steps : List (Channel × Request)) (record : List (List Block)),
        ((runEach steps).run record).value.1 = steps.map fun s => answer s.2) ∧
      (∀ (c : Channel) (rs : List Request) (record : List (List Block)),
        ((run c rs).run record).value.1 = rs.map answer) ∧
      (∀ r : Request, r.Publishes → (answer r).status = 200 ∧
        (∀ v, ("content-type", v) ∈ (answer r).headers ↔ v = "application/json") ∧
        (answer r).body = r.body) ∧
      (∀ (steps : List (Channel × Request)) (record : List (List Block)),
        (∀ s ∈ steps, ∃ f, s.1 = .record f) →
          ((runEach steps).run record).value.2
            = record ++ (steps.map Prod.snd).filterMap Request.message?) ∧
      (∀ (f : Option Failure) (rs : List Request) (record : List (List Block)),
        ((run (.record f) rs).run record).value.2 = record ++ rs.filterMap Request.message?) ∧
      (∀ (w : Webhook) (rs : List Request) (record : List (List Block)),
        ((run (.webhook w) rs).run record).value.2 = record) ∧
      ∀ query : String, path ("/document/published?" ++ query) = "/document/published" := by
  refine ⟨fun r => ((handle (.record none) r).run []).value.1, ?_, ?_, ?_, ?_, ?_, ?_,
    path_append_query⟩
  · intro steps record
    rw [value_run_runEach]
  · intro c rs record
    rw [run_eq_runEach, value_run_runEach, List.map_map]
    rfl
  · intro r h
    dsimp only
    rw [handle_of_publishes h]
    refine ⟨rfl, fun v => ?_, rfl⟩
    show ("content-type", v) ∈ (ok r.body).headers ↔ _
    simp [ok, anyOrigin]
  · intro steps record h
    rw [value_run_runEach, messages_of_isRecord]
    intro s hs
    obtain ⟨f, hf⟩ := h s hs
    rw [hf]
    rfl
  · intro f rs record
    have hrecord : ∀ s ∈ rs.map fun r => (Channel.record f, r), s.1.isRecord = true := by
      intro s hs
      obtain ⟨r, -, rfl⟩ := List.mem_map.1 hs
      rfl
    have hrequests : (rs.map fun r => (Channel.record f, r)).map Prod.snd = rs := by
      rw [List.map_map]
      exact List.map_id rs
    rw [run_eq_runEach, value_run_runEach, messages_of_isRecord hrecord, hrequests]
  · intro w rs record
    have hnone : (rs.map fun r => (Channel.webhook w, r)).filter (·.1.isRecord) = [] := by
      simp [Channel.isRecord]
    rw [run_eq_runEach, value_run_runEach, messages, hnone]
    exact List.append_nil record

/-- A posted event whose document is blank. -/
def blankEvent : Request :=
  ⟨"POST", "/document/published?again", [], bytes "\x7b\"document\":\x7b\x7d\x7d"⟩

/-- A record that fails each time takes up the one message, behind what it holds. -/
theorem record_blankEvent :
    ((run (.record (some (.other "down")))
        [blankEvent, { blankEvent with method := "PUT" }]).run [[.divider]]).value.2
      = [[.divider],
          [.contextOf ["Created: *Invalid Date*", "Updated: *Invalid Date*", "Slug: **"],
            .headerOf ""]] := by
  obtain ⟨answer, -, -, -, -, hd, -⟩ := runEach_replies_and_record
  rw [hd]
  decide +kernel

end Service

end Herald
