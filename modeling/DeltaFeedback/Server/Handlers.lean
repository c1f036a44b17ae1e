import DeltaFeedback.Feedback.Service
import DeltaFeedback.Server.Http
import DeltaFeedback.Server.RateLimit

namespace DeltaFeedback

open Text Interleaving Db

def Db.TicketStatus.toString : TicketStatus → Bytes
  | .AwaitingAdmin => utf8 "awaiting_admin"
  | .AwaitingVisitor => utf8 "awaiting_visitor"
  | .Closed => utf8 "closed"

namespace Server

def mapSubmitError : Feedback.SubmitError → Nat × Bytes
  | .Ok => (200, utf8 "ok")
  | .NoOwnerConfigured => (503, utf8 "no_owner")
  | .PowMissing => (400, utf8 "pow_failed")
  | .PowInvalid => (400, utf8 "pow_failed")
  | .PowExpired => (400, utf8 "pow_failed")
  | .PowReplayed => (400, utf8 "pow_failed")
  | .PowInsufficient => (400, utf8 "pow_failed")
  | .HoneypotTripped => (400, utf8 "honeypot")
  | .FilledTooFast => (400, utf8 "too_fast")
  | .BadField => (400, utf8 "bad_field")
  | .SendFailed => (502, utf8 "send_failed")

def mapReplyError : Feedback.ReplyError → Nat × Bytes
  | .Ok => (200, utf8 "ok")
  | .NotFound => (404, utf8 "not_found")
  | .BadToken => (403, utf8 "bad_token")
  | .NotAwaitingVisitor => (409, utf8 "not_your_turn")
  | .Closed => (410, utf8 "ticket_closed")
  | .PowInvalid => (400, utf8 "pow_failed")
  | .PowExpired => (400, utf8 "pow_failed")
  | .PowReplayed => (400, utf8 "pow_failed")
  | .PowInsufficient => (400, utf8 "pow_failed")
  | .PowMissing => (400, utf8 "pow_failed")
  | .BadField => (400, utf8 "bad_field")
  | .SendFailed => (502, utf8 "send_failed")

def randomBytes (draw : Nat → UInt64) (n : Nat) : Bytes := Feedback.makeRandom draw n

-- What a handler returns, or the exception Crow's JSON reader has thrown in it.
abbrev Handler := Proc (Except Bytes Response)

section Handlers

variable {Json : Type} (crow : Crow Json) (service : Feedback.Service)

def captcha (env : Feedback.Env) : Handler :=
  let c := service.issuer.issue service.crypto env.verifyClock (randomBytes env.draw 16)
  return .ok (.json 200 (.Captcha c.token c.difficultyBits c.expiresUnix))

-- The handlers' lambda `str`.
def str (body : Json) (k : String) : Except Bytes Bytes := do
  if !(← crow.has body (utf8 k)) then return []
  if !(← crow.isString body (utf8 k)) then return []
  crow.s body (utf8 k)

def submitInput (req : Request) (body : Json) : Except Bytes Feedback.SubmitInput := do
  let powToken ← str crow body "pow_token"
  let powNonce ← str crow body "pow_nonce"
  let name ← str crow body "name"
  let locale ← str crow body "locale"
  let honeypot ← str crow body "honeypot"
  let message ← str crow body "message"
  let fillTimeMs ←
    if ← crow.has body (utf8 "fill_time_ms") then crow.i body (utf8 "fill_time_ms") else pure 0
  return { powToken, powNonce, name, locale, honeypot, message, fillTimeMs, visitorIp := visitorIp req }

def submitResponse (r : Feedback.SubmitResult) : Response :=
  let (status, code) := mapSubmitError r.error
  .json status (if r.error = .Ok then .Submitted code r.ticketId r.readToken else .Code code)

def postFeedback (req : Request) (env : Feedback.Env) : Handler := do
  let some body := crow.load req.body | return .ok (.error 400 "bad_json")
  match submitInput crow req body with
  | .error what => return .error what
  | .ok input =>
      let r ← service.submitNew input env
      return .ok (submitResponse r)

def ticketMessage (m : Message) : TicketMessage where
  sender := if m.sender = .Visitor then utf8 "visitor" else utf8 "admin"
  body := m.body
  createdAt := m.createdAt

-- The client has as many messages as there are, and the status.
def unchanged (req : Request) (msgs : List Message) (currentStatus : Bytes) : Bool :=
  let haveCount := (req.urlParam (utf8 "have_count")).getD []
  let haveStatus := (req.urlParam (utf8 "have_status")).getD []
  !haveCount.isEmpty && !haveStatus.isEmpty &&
    (stoul haveCount == some msgs.length && haveStatus == currentStatus)

def getTicket (req : Request) (id : Bytes) : Handler := do
  let token := bearer req
  if token.isEmpty then return .ok (.error 401 "missing_auth")
  let some t ← TicketsRepo.get id | return .ok (.error 404 "not_found")
  let h := (service.crypto.sha256 token).val
  let diff := xorDiff (if h.length ≠ t.readTokenHash.length then 1 else 0) h t.readTokenHash
  if diff ≠ 0 then return .ok (.error 403 "bad_token")
  let msgs ← MessagesRepo.list id
  let currentStatus := t.status.toString
  if unchanged req msgs currentStatus then return .ok (.text 304 [])
  return .ok (.json 200 (.Ticket currentStatus (msgs.map ticketMessage)))

def replyInput (req : Request) (id token : Bytes) (body : Json) :
    Except Bytes Feedback.ReplyInput := do
  let powToken ← str crow body "pow_token"
  let powNonce ← str crow body "pow_nonce"
  let text ← str crow body "body"
  return { ticketId := id, readToken := token, powToken, powNonce, body := text
           visitorIp := visitorIp req }

def replyResponse (error : Feedback.ReplyError) : Response :=
  let (status, code) := mapReplyError error
  .json status (.Code code)

def postTicket (req : Request) (id : Bytes) (env : Feedback.Env) : Handler := do
  let token := bearer req
  if token.isEmpty then return .ok (.error 401 "missing_auth")
  let some body := crow.load req.body | return .ok (.error 400 "bad_json")
  match replyInput crow req id token body with
  | .error what => return .error what
  | .ok input =>
      let error ← service.submitReply input env
      return .ok (replyResponse error)

end Handlers

inductive Route
  | Captcha
  | PostFeedback
  | GetTicket (id : Bytes)
  | PostTicket (id : Bytes)

-- A request of the API, and what is read from outside while it is answered.
structure ApiCall where
  route : Route
  req : Request
  steadyClock : Int
  env : Feedback.Env

structure State where
  world : World
  rlCaptcha : TokenBucket
  rlSubmit : TokenBucket
  rlPoll : TokenBucket

def State.start (world : World) : State := ⟨world, .new (2 / 5) 20, .new (1 / 10) 6, .new 1 60⟩

def State.allow (state : State) (route : Route) (now : Int) (key : Bytes) : Bool × State :=
  match route with
  | .Captcha =>
      let (allowed, rlCaptcha) := state.rlCaptcha.allow now key
      (allowed, { state with rlCaptcha })
  | .PostFeedback =>
      let (allowed, rlSubmit) := state.rlSubmit.allow now key
      (allowed, { state with rlSubmit })
  | .GetTicket _ =>
      let (allowed, rlPoll) := state.rlPoll.allow now key
      (allowed, { state with rlPoll })
  | .PostTicket _ =>
      let (allowed, rlSubmit) := state.rlSubmit.allow now key
      (allowed, { state with rlSubmit })

section Serve

variable {Json : Type} (crow : Crow Json) (service : Feedback.Service)

-- A handler past its rate limit.
def handler (call : ApiCall) : Handler :=
  match call.route with
  | .Captcha => captcha service call.env
  | .PostFeedback => postFeedback crow service call.req call.env
  | .GetTicket id => getTicket service call.req id
  | .PostTicket id => postTicket crow service call.req id call.env

def respond : Except SqlError (Except Bytes Response) → Response
  | .ok (.ok response) => response
  | .ok (.error what) => crow.handleException (.Json what)
  | .error exn => crow.handleException (.Sql exn)

-- A request with the server to itself.
def serve (call : ApiCall) (state : State) : Response × State :=
  match state.allow call.route call.steadyClock (visitorIp call.req) with
  | (false, limited) => (.error 429 "rate_limited", limited)
  | (true, limited) =>
      let (outcome, _, world) := (handler crow service call).run exec [] limited.world
      (respond crow outcome, { limited with world })

def serveAll : List ApiCall → State → List Response × State
  | [], state => ([], state)
  | call :: rest, state =>
      let (response, next) := serve crow service call state
      let (responses, last) := serveAll rest next
      (response :: responses, last)

end Serve

end Server

end DeltaFeedback
