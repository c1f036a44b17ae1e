import DeltaFeedback.Server.Handlers
import DeltaFeedback.Server.Indistinct

namespace DeltaFeedback.Server

open Text Interleaving Db
open Feedback (sampleService)

variable {Json : Type} (crow : Crow Json) (service : Feedback.Service)
variable {id : Bytes} {left right : Secret}

-- The ticket a request is addressed to.
def Route.ticket? : Route → Option Bytes
  | .Captcha => none
  | .PostFeedback => none
  | .GetTicket id => some id
  | .PostTicket id => some id

-- A request that does not carry a ticket's token to it.
def ApiCall.Lacks (call : ApiCall) (id tokenHash : Bytes) : Prop :=
  call.route.ticket? = some id → bearer call.req ≠ [] →
    (service.crypto.sha256 (bearer call.req)).val ≠ tokenHash

theorem blind_postFeedback (req : Request) (env : Feedback.Env) : Blind id left right (· = ·)
    (postFeedback crow service req env) (postFeedback crow service req env) := by
  unfold postFeedback
  cases crow.load req.body with
  | none => exact twins_ret rfl
  | some body =>
      dsimp only
      cases submitInput crow req body with
      | error what => exact twins_ret rfl
      | ok input => exact (blind_submitNew service input env).bind_eq fun _ => twins_ret rfl

theorem blind_getTicket_other (req : Request) {other : Bytes} (hother : other ≠ id) :
    Blind id left right (· = ·) (getTicket service req other) (getTicket service req other) := by
  unfold getTicket
  refine twins_ite (fun _ => twins_ret rfl) fun _ => ?_
  refine (blind_get hother).bind_eq fun found => ?_
  cases found with
  | none => exact twins_ret rfl
  | some t =>
      refine twins_ite (fun _ => twins_ret rfl) fun _ => ?_
      refine (blind_perform (.MessagesByTicket other) rfl rfl
        (beq_eq_false_iff_ne.mpr hother)).bind_eq fun msgs => ?_
      exact twins_ite (fun _ => twins_ret rfl) fun _ => twins_ret rfl

theorem blind_getTicket_self (req : Request) (htoken : bearer req ≠ [] →
      (service.crypto.sha256 (bearer req)).val ≠ left.ticket.readTokenHash) :
    Blind id left right (· = ·) (getTicket service req id) (getTicket service req id) := by
  unfold getTicket
  refine twins_ite (fun _ => twins_ret rfl) fun hbearer => ?_
  have hne := htoken (by simpa using hbearer)
  refine blind_get_self.bind fun found same hfound => ?_
  obtain ⟨rfl, rfl, hhash⟩ := hfound
  dsimp only
  rw [if_pos ((xorDiff_lengths_iff _ _).mpr hne),
    if_pos ((xorDiff_lengths_iff _ _).mpr (hhash ▸ hne))]
  exact twins_ret rfl

theorem replyInput_ok {req : Request} {id token : Bytes} {body : Json} {input : Feedback.ReplyInput}
    (h : replyInput crow req id token body = .ok input) :
    input.ticketId = id ∧ input.readToken = token := by
  simp only [replyInput, bind, Except.bind, pure, Except.pure] at h
  split at h
  · simp at h
  split at h
  · simp at h
  split at h
  · simp at h
  · obtain rfl := Except.ok.inj h
    exact ⟨rfl, rfl⟩

theorem blind_postTicket (req : Request) (other : Bytes) (env : Feedback.Env)
    (htoken : other = id → bearer req ≠ [] →
      (service.crypto.sha256 (bearer req)).val ≠ left.ticket.readTokenHash) :
    Blind id left right (· = ·) (postTicket crow service req other env)
      (postTicket crow service req other env) := by
  unfold postTicket
  refine twins_ite (fun _ => twins_ret rfl) fun hbearer => ?_
  cases crow.load req.body with
  | none => exact twins_ret rfl
  | some body =>
      dsimp only
      cases hinput : replyInput crow req other (bearer req) body with
      | error what => exact twins_ret rfl
      | ok input =>
          obtain ⟨hticket, htokenOf⟩ := replyInput_ok crow hinput
          have hreply : Blind id left right (· = ·) (service.submitReply input env)
              (service.submitReply input env) := by
            by_cases hid : other = id
            · exact blind_submitReply_self service input env (hticket.trans hid)
                (htokenOf ▸ htoken hid (by simpa using hbearer))
            · exact blind_submitReply_other service input env (hticket ▸ hid)
          exact hreply.bind_eq fun _ => twins_ret rfl

theorem blind_handler (call : ApiCall) (h : call.Lacks service id left.ticket.readTokenHash) :
    Blind id left right (· = ·) (handler crow service call) (handler crow service call) := by
  obtain ⟨route, req, steadyClock, env⟩ := call
  cases route with
  | Captcha => exact twins_ret rfl
  | PostFeedback => exact blind_postFeedback crow service req env
  | GetTicket other =>
      by_cases hid : other = id
      · subst hid
        exact blind_getTicket_self service req (h rfl)
      · exact blind_getTicket_other service req hid
  | PostTicket other =>
      exact blind_postTicket crow service req other env fun hid => h (congrArg some hid)

-- Two states of the server that differ in a ticket's name, status, close and
-- messages only.
structure State.AgreeBut (id : Bytes) (first second : State) : Prop where
  tables : first.world.db.conceal id = second.world.db.conceal id
  owner : first.world.owner = second.world.owner
  outbox : first.world.outbox = second.world.outbox
  rlCaptcha : first.rlCaptcha = second.rlCaptcha
  rlSubmit : first.rlSubmit = second.rlSubmit
  rlPoll : first.rlPoll = second.rlPoll

-- A ticket and its messages as they were.
structure State.Keeps (id : Bytes) (before after : State) : Prop where
  ticket : after.world.db.ticket? id = before.world.db.ticket? id
  messages : after.world.db.messagesOf id = before.world.db.messagesOf id

-- Two such states, with what they hold of the ticket.
structure State.Holding (id : Bytes) (left right : Secret) (first second : State) : Prop where
  agree : first.AgreeBut id second
  left : first.world.db.Holds id left
  right : second.world.db.Holds id right

namespace State

variable {first second : State}

theorem AgreeBut.exists_ticket {t : TicketRow} (h : first.AgreeBut id second)
    (ht : first.world.db.ticket? id = some t) : ∃ u, second.world.db.ticket? id = some u := by
  have hticket := congrArg (fun tables => tables.ticket? id) h.tables
  simp only [Tables.ticket?_conceal, ht, Option.map_some] at hticket
  obtain ⟨u, hu, -⟩ := Option.map_eq_some_iff.mp hticket.symm
  exact ⟨u, hu⟩

theorem Holding.indistinct (h : Holding id left right first second) :
    Indistinct id left right first.world second.world :=
  ⟨h.agree.tables, h.agree.owner, h.agree.outbox, h.left, h.right⟩

theorem Holding.later {world last : World} (h : Holding id left right first second)
    (hworlds : Indistinct id left right world last) :
    Holding id left right { first with world } { second with world := last } where
  agree := { h.agree with
    tables := hworlds.tables, owner := hworlds.owner, outbox := hworlds.outbox }
  left := hworlds.left
  right := hworlds.right

theorem Holding.allow (h : Holding id left right first second) (route : Route) (now : Int)
    (key : Bytes) : (first.allow route now key).1 = (second.allow route now key).1 ∧
      Holding id left right (first.allow route now key).2 (second.allow route now key).2 := by
  obtain ⟨hagree, hleft, hright⟩ := h
  cases route with
  | Captcha =>
      simp only [State.allow, hagree.rlCaptcha, true_and]
      exact ⟨{ hagree with rlCaptcha := rfl }, hleft, hright⟩
  | PostFeedback =>
      simp only [State.allow, hagree.rlSubmit, true_and]
      exact ⟨{ hagree with rlSubmit := rfl }, hleft, hright⟩
  | GetTicket other =>
      simp only [State.allow, hagree.rlPoll, true_and]
      exact ⟨{ hagree with rlPoll := rfl }, hleft, hright⟩
  | PostTicket other =>
      simp only [State.allow, hagree.rlSubmit, true_and]
      exact ⟨{ hagree with rlSubmit := rfl }, hleft, hright⟩

theorem Holding.serve (call : ApiCall) (h : Holding id left right first second)
    (hcall : call.Lacks service id left.ticket.readTokenHash) :
    (serve crow service call first).1 = (serve crow service call second).1 ∧
      Holding id left right (serve crow service call first).2 (serve crow service call second).2 := by
  obtain ⟨hallowed, hlimited⟩ := h.allow call.route call.steadyClock (visitorIp call.req)
  unfold Server.serve
  generalize first.allow call.route call.steadyClock (visitorIp call.req) = limited at *
  generalize second.allow call.route call.steadyClock (visitorIp call.req) = other at *
  obtain ⟨allowed, limited⟩ := limited
  obtain ⟨_, other⟩ := other
  obtain rfl : allowed = _ := hallowed
  cases allowed with
  | false => exact ⟨rfl, hlimited⟩
  | true =>
      obtain ⟨hends, hworlds⟩ := blind_handler crow service call hcall _ _ [] [] hlimited.indistinct
      refine ⟨?_, hlimited.later hworlds⟩
      exact congrArg (respond crow) hends.eq

theorem Holding.serveAll {calls : List ApiCall} (h : Holding id left right first second)
    (hcalls : ∀ call ∈ calls, call.Lacks service id left.ticket.readTokenHash) :
    (serveAll crow service calls first).1 = (serveAll crow service calls second).1 ∧
      Holding id left right (serveAll crow service calls first).2
        (serveAll crow service calls second).2 := by
  induction calls generalizing first second with
  | nil => exact ⟨rfl, h⟩
  | cons call rest ih =>
      rw [List.forall_mem_cons] at hcalls
      obtain ⟨hresponse, hnext⟩ := h.serve crow service call hcalls.1
      obtain ⟨hresponses, hlast⟩ := ih hnext hcalls.2
      exact ⟨congrArg₂ List.cons hresponse hresponses, hlast⟩

end State

-- To everyone without its token a ticket's contents make no difference.
theorem ticket_confidential (id : Bytes) (t : TicketRow) (first second : State)
    (ht : first.world.db.ticket? id = some t) (hagree : first.AgreeBut id second)
    (calls : List ApiCall) (hcalls : ∀ call ∈ calls, call.Lacks service id t.readTokenHash) :
    (serveAll crow service calls first).1 = (serveAll crow service calls second).1 ∧
      (serveAll crow service calls first).2.AgreeBut id (serveAll crow service calls second).2 ∧
      first.Keeps id (serveAll crow service calls first).2 ∧
      second.Keeps id (serveAll crow service calls second).2 := by
  obtain ⟨u, hu⟩ := hagree.exists_ticket ht
  have hholding : State.Holding id ⟨t, first.world.db.messagesOf id⟩
      ⟨u, second.world.db.messagesOf id⟩ first second := ⟨hagree, ⟨ht, rfl⟩, ⟨hu, rfl⟩⟩
  obtain ⟨hresponses, hagrees, hfirst, hsecond⟩ := hholding.serveAll crow service hcalls
  exact ⟨hresponses, hagrees, ⟨hfirst.ticket.trans ht.symm, hfirst.messages⟩,
    ⟨hsecond.ticket.trans hu.symm, hsecond.messages⟩⟩

-- A ticket, two messages, and what has become of it.
def worldWith (name body answer : Bytes) (ending : Proc Unit) : World :=
  let setup : Proc Unit := do
    TicketsRepo.insertNew
      { id := utf8 "A3F2K9"
        readTokenHash := (Pow.fips.sha256 (utf8 "read-token")).val
        name
        locale := utf8 "en"
        status := .AwaitingAdmin
        createdAt := 1700000000
        closedAt := none }
    let _ ← MessagesRepo.append (utf8 "A3F2K9") .Visitor body 1700000000 []
    let _ ← MessagesRepo.append (utf8 "A3F2K9") .Admin answer 1700000005 []
    ending
  (setup.run exec [] { World.empty with owner := 7 }).2.2

def openWorld : World :=
  worldWith (utf8 "Ann") (utf8 "hello") (utf8 "hi")
    (TicketsRepo.setStatus (utf8 "A3F2K9") .AwaitingVisitor)

def closedWorld : World :=
  worldWith [] (utf8 "nobody may know") (utf8 "nobody will")
    (TicketsRepo.close (utf8 "A3F2K9") 1700000009)

def sampleToken : Bytes := (sampleService.issuer.issue Pow.fips 1700000000 (utf8 "first")).token

def sampleText : Bytes :=
  utf8 "\x7b\"pow_token\":\"" ++ sampleToken ++
    utf8 "\",\"locale\":\"en\",\"message\":\"hello\",\"fill_time_ms\":2000\x7d"

-- A reader of the one text, into its members.
def sampleCrow : Crow (List (Bytes × (Bytes ⊕ Int))) where
  load text :=
    if text = sampleText then
      some [(utf8 "pow_token", .inl sampleToken), (utf8 "locale", .inl (utf8 "en")),
        (utf8 "message", .inl (utf8 "hello")), (utf8 "fill_time_ms", .inr 2000)]
    else none
  has body k := .ok (body.lookup k).isSome
  isString body k := .ok ((body.lookup k).any Sum.isLeft)
  s body k := match body.lookup k with
    | some (.inl text) => .ok text
    | _ => .error (utf8 "value is not string")
  i body k := match body.lookup k with
    | some (.inr v) => .ok v
    | _ => .error (utf8 "value is not number")
  handleException _ := .text 500 []

def sampleCall (route : Route) : ApiCall where
  route
  req :=
    { header := fun name => if name = utf8 "Authorization" then utf8 "Bearer guessed" else []
      remoteIpAddress := utf8 "192.0.2.1"
      urlParam := fun _ => none
      body := sampleText }
  steadyClock := 1
  env :=
    { verifyClock := 1700000010
      consumeClock := 1700000010
      writeClock := 1700000010
      draw := fun _ => 0
      delivery := ⟨12, true, true, 100⟩ }

def sampleCalls : List ApiCall :=
  [sampleCall .Captcha, sampleCall (.GetTicket (utf8 "A3F2K9")), sampleCall .PostFeedback,
    sampleCall (.PostTicket (utf8 "A3F2K9"))]

-- A stranger gets a challenge, leaves feedback, and learns nothing.
theorem ticket_confidential_sample :
    (serveAll sampleCrow sampleService sampleCalls (.start openWorld)).1.map (fun r => r.code) =
      [200, 403, 200, 403] ∧
    (serveAll sampleCrow sampleService sampleCalls (.start openWorld)).1 =
      (serveAll sampleCrow sampleService sampleCalls (.start closedWorld)).1 ∧
    (serveAll sampleCrow sampleService sampleCalls (.start openWorld)).2.AgreeBut (utf8 "A3F2K9")
      (serveAll sampleCrow sampleService sampleCalls (.start closedWorld)).2 ∧
    (State.start openWorld).Keeps (utf8 "A3F2K9")
      (serveAll sampleCrow sampleService sampleCalls (.start openWorld)).2 ∧
    (State.start closedWorld).Keeps (utf8 "A3F2K9")
      (serveAll sampleCrow sampleService sampleCalls (.start closedWorld)).2 := by
  obtain ⟨t, ht, hhash⟩ : ∃ t, openWorld.db.ticket? (utf8 "A3F2K9") = some t ∧
      t.readTokenHash = (Pow.fips.sha256 (utf8 "read-token")).val :=
    Option.map_eq_some_iff.mp (by decide +kernel)
  refine ⟨by decide +kernel, ticket_confidential sampleCrow sampleService (utf8 "A3F2K9") t
    (.start openWorld) (.start closedWorld) ht
    ⟨by decide +kernel, by decide +kernel, by decide +kernel, rfl, rfl, rfl⟩ sampleCalls
    fun call hcall _ _ => ?_⟩
  have hbearer : bearer call.req = utf8 "guessed" := by
    simp only [sampleCalls, List.mem_cons, List.not_mem_nil, or_false] at hcall
    rcases hcall with rfl | rfl | rfl | rfl <;> decide +kernel
  rw [hbearer, hhash]
  decide +kernel

end DeltaFeedback.Server
