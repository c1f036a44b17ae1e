import DeltaFeedback.Dc.Sender
import DeltaFeedback.Feedback.Notification
import DeltaFeedback.Feedback.Validator
import DeltaFeedback.Pow.Challenge

namespace DeltaFeedback.Feedback

open Text Interleaving Db

inductive SubmitError
  | Ok
  | NoOwnerConfigured
  | PowMissing
  | PowInvalid
  | PowReplayed
  | PowExpired
  | PowInsufficient
  | HoneypotTripped
  | FilledTooFast
  | BadField
  | SendFailed
deriving DecidableEq

structure SubmitResult where
  error : SubmitError
  ticketId : Bytes
  readToken : Bytes
deriving DecidableEq

def SubmitResult.failed (error : SubmitError) : SubmitResult := ⟨error, [], []⟩

inductive ReplyError
  | Ok
  | NotFound
  | BadToken
  | NotAwaitingVisitor
  | Closed
  | PowMissing
  | PowInvalid
  | PowReplayed
  | PowExpired
  | PowInsufficient
  | BadField
  | SendFailed
deriving DecidableEq

structure SubmitInput where
  powToken : Bytes
  powNonce : Bytes
  name : Bytes
  locale : Bytes
  honeypot : Bytes
  message : Bytes
  fillTimeMs : Int
  visitorIp : Bytes

structure ReplyInput where
  ticketId : Bytes
  readToken : Bytes
  powToken : Bytes
  powNonce : Bytes
  body : Bytes
  visitorIp : Bytes

-- What a call reads from outside: the issuer's clock, the two readings of
-- now_unix, the draws of the thread's random engine, and Delta Chat's answers.
structure Env where
  verifyClock : Int
  consumeClock : Int
  writeClock : Int
  draw : Nat → UInt64
  delivery : Dc.Delivery

structure Service where
  crypto : Pow.Crypto
  issuer : Pow.ChallengeIssuer
  limits : Limits

-- The generous expiry of a replay record, in seconds.
def kReplayTtl : Int := 3600

def submitPowError : Pow.VerifyResult → Option SubmitError
  | .Ok => none
  | .Malformed => some .PowInvalid
  | .BadSignature => some .PowInvalid
  | .Expired => some .PowExpired
  | .InsufficientWork => some .PowInsufficient
  | .Replay => some .PowReplayed

def replyPowError : Pow.VerifyResult → Option ReplyError
  | .Ok => none
  | .Malformed => some .PowInvalid
  | .BadSignature => some .PowInvalid
  | .Expired => some .PowExpired
  | .InsufficientWork => some .PowInsufficient
  | .Replay => some .PowReplayed

def reportError (r : ValidationReport) : SubmitError :=
  if r.honeypot ≠ .Ok then .HoneypotTripped
  else if r.timing ≠ .Ok then .FilledTooFast
  else .BadField

namespace Service

variable (service : Service)

-- challenge_id is empty until the issuer has written it.
def verify (powToken powNonce : Bytes) (env : Env) : Pow.VerifyResult × Bytes :=
  let pv := service.issuer.verify service.crypto powToken powNonce env.verifyClock
  (pv.1, pv.2.getD [])

def readToken (env : Env) : Bytes := Pow.toHex (makeRandom (fun i => env.draw (i + 1)) 32)

def newTicket (input : SubmitInput) (env : Env) : Ticket where
  id := makeTicketId (env.draw 0)
  readTokenHash := (service.crypto.sha256 (readToken env)).val
  name := input.name
  locale := input.locale
  status := .AwaitingAdmin
  createdAt := env.writeClock
  closedAt := none

def submissionInput (input : SubmitInput) : SubmissionInput :=
  ⟨input.name, input.message, input.locale, input.honeypot, input.fillTimeMs⟩

def submitNew (input : SubmitInput) (env : Env) : Proc SubmitResult := do
  let pv := service.verify input.powToken input.powNonce env
  if let some error := submitPowError pv.1 then return .failed error
  let fresh ← ReplayStore.tryConsume pv.2 (env.consumeClock + kReplayTtl)
  if !fresh then return .failed .PowReplayed
  let rep := service.limits.validate (submissionInput input)
  if !rep.ok then return .failed (reportError rep)
  let owner ← Dc.ownerContactId
  if owner.isNone then return .failed .NoOwnerConfigured
  let t := service.newTicket input env
  TicketsRepo.insertNew t
  let rowId ← MessagesRepo.append t.id .Visitor input.message t.createdAt input.visitorIp
  let note := formatAdminNotification t.id input.visitorIp t.createdAt input.locale input.name
    input.message false
  match ← Dc.sendToOwner env.delivery note 0 with
  | some dcMsgId =>
      MessagesRepo.setDcMsgId rowId dcMsgId
      return ⟨.Ok, t.id, readToken env⟩
  | none => return ⟨.SendFailed, t.id, readToken env⟩

def submitReply (input : ReplyInput) (env : Env) : Proc ReplyError := do
  let some t ← TicketsRepo.get input.ticketId | return .NotFound
  let h := (service.crypto.sha256 input.readToken).val
  if h.length ≠ t.readTokenHash.length then return .BadToken
  if xorDiff 0 h t.readTokenHash ≠ 0 then return .BadToken
  if t.status = .Closed then return .Closed
  if t.status ≠ .AwaitingVisitor then return .NotAwaitingVisitor
  let pv := service.verify input.powToken input.powNonce env
  if let some error := replyPowError pv.1 then return error
  let fresh ← ReplayStore.tryConsume pv.2 (env.consumeClock + kReplayTtl)
  if !fresh then return .PowReplayed
  if service.limits.validateReply input.body ≠ .Ok then return .BadField
  let quoteId ← MessagesRepo.latestDcMsgIdForTicket input.ticketId
  let rowId ← MessagesRepo.append input.ticketId .Visitor input.body env.writeClock input.visitorIp
  TicketsRepo.setStatus input.ticketId .AwaitingAdmin
  let note := formatAdminNotification input.ticketId input.visitorIp env.writeClock t.locale t.name
    input.body true
  let some dcMsgId ← Dc.sendToOwner env.delivery note (quoteId.getD 0) | return .SendFailed
  MessagesRepo.setDcMsgId rowId dcMsgId
  return .Ok

end Service

def sampleService : Service where
  crypto := Pow.fips
  issuer := ⟨utf8 "test-hmac-secret", 0, 300⟩
  limits := ⟨500, 40, 1500⟩

end DeltaFeedback.Feedback
