import DeltaFeedback.Dc.Sender.Theorems
import DeltaFeedback.Feedback.Service

namespace DeltaFeedback.Feedback.Service

open Text Interleaving Db

variable (service : Service)

theorem readToken_check (readToken hash : Bytes) :
    ((service.crypto.sha256 readToken).val.length = hash.length ∧
      xorDiff 0 (service.crypto.sha256 readToken).val hash = 0) ↔
      (service.crypto.sha256 readToken).val = hash := by
  constructor
  · rintro ⟨hlength, hdiff⟩
    exact ((xorDiff_eq_zero 0 _ _ hlength).mp hdiff).2
  · rintro rfl
    exact ⟨rfl, (xorDiff_eq_zero 0 _ _ rfl).mpr ⟨rfl, rfl⟩⟩

section Reply

variable (input : ReplyInput) (env : Env)

def replyVerdict : Pow.VerifyResult × Bytes := service.verify input.powToken input.powNonce env

def replyMessage : NewMessage :=
  MessagesRepo.newMessage input.ticketId .Visitor input.body env.writeClock input.visitorIp none

def replyNote (t : Ticket) : Bytes :=
  formatAdminNotification input.ticketId input.visitorIp env.writeClock t.locale t.name input.body
    true

theorem notifies_replyNote (t : Ticket) :
    Notifies (replyMessage input env).ticketId (cStr (replyNote input env t)) :=
  ⟨input.visitorIp, env.writeClock, t.locale, t.name, input.body, true, rfl⟩

-- A reply that has passed every check made before its challenge is consumed.
structure MayReply (t : Ticket) : Prop where
  token : (service.crypto.sha256 input.readToken).val = t.readTokenHash
  status : t.status = .AwaitingVisitor
  pow : replyPowError (service.replyVerdict input env).1 = none

abbrev replyRead (found : Option Ticket) : Trail := [⟨.TicketGetById input.ticketId, found⟩]

abbrev replyConsumed (t : Ticket) : Trail :=
  ⟨.ReplayInsert (service.replyVerdict input env).2 (env.consumeClock + kReplayTtl), ()⟩ ::
    replyRead input (some t)

abbrev replyQuoted (t : Ticket) (quoteId : Option UInt32) : Trail :=
  ⟨.LatestDcMsgIdForTicket input.ticketId, quoteId⟩ :: ⟨.Changes, (1 : Nat)⟩ ::
    service.replyConsumed input env t

abbrev replyStored (t : Ticket) (quoteId : Option UInt32) : Trail :=
  ⟨.MessageInsert (replyMessage input env), ()⟩ :: service.replyQuoted input env t quoteId

abbrev replyUpdated (t : Ticket) (quoteId : Option UInt32) (rowId : Nat) : Trail :=
  ⟨.TicketSetStatus input.ticketId .AwaitingAdmin, ()⟩ :: ⟨.LastInsertRowid, rowId⟩ ::
    service.replyStored input env t quoteId

abbrev replySent (t : Ticket) (quoteId : Option UInt32) (rowId : Nat) (owner quote : UInt32) : Trail :=
  ⟨.DcSend owner (cStr (replyNote input env t)) quote env.delivery.id, env.delivery.id⟩ ::
    ⟨.OwnerLoad, owner⟩ :: service.replyUpdated input env t quoteId rowId

-- The trails of a submit_reply: how far it can have come.
inductive ReplyTrail : Trail → Prop
  | Start : ReplyTrail []
  | Read (found : Option Ticket) : ReplyTrail (replyRead input found)
  | Consumed (t : Ticket) (h : service.MayReply input env t) :
      ReplyTrail (service.replyConsumed input env t)
  | Counted (t : Ticket) (n : Nat) (h : service.MayReply input env t) :
      ReplyTrail (⟨.Changes, n⟩ :: service.replyConsumed input env t)
  | Quoted (t : Ticket) (quoteId : Option UInt32) (h : service.MayReply input env t) :
      ReplyTrail (service.replyQuoted input env t quoteId)
  | Stored (t : Ticket) (quoteId : Option UInt32) (h : service.MayReply input env t) :
      ReplyTrail (service.replyStored input env t quoteId)
  | Numbered (t : Ticket) (quoteId : Option UInt32) (rowId : Nat)
      (h : service.MayReply input env t) :
      ReplyTrail (⟨.LastInsertRowid, rowId⟩ :: service.replyStored input env t quoteId)
  | Updated (t : Ticket) (quoteId : Option UInt32) (rowId : Nat)
      (h : service.MayReply input env t) :
      ReplyTrail (service.replyUpdated input env t quoteId rowId)
  | Sending (t : Ticket) (quoteId : Option UInt32) (rowId : Nat) (owner : UInt32)
      (h : service.MayReply input env t) :
      ReplyTrail (⟨.OwnerLoad, owner⟩ :: service.replyUpdated input env t quoteId rowId)
  | Sent (t : Ticket) (quoteId : Option UInt32) (rowId : Nat) (owner quote : UInt32)
      (h : service.MayReply input env t) :
      ReplyTrail (service.replySent input env t quoteId rowId owner quote)
  | Bound (t : Ticket) (quoteId : Option UInt32) (rowId : Nat) (owner quote : UInt32)
      (h : service.MayReply input env t) (hid : env.delivery.id ≠ 0) :
      ReplyTrail (⟨.MessageSetDcMsgId rowId env.delivery.id, ()⟩ ::
        service.replySent input env t quoteId rowId owner quote)

-- The ends of a submit_reply: its trail and what it returned or threw.
inductive ReplyEnd : Trail → Except SqlError ReplyError → Prop
  | NotFound : ReplyEnd (replyRead input none) (.ok .NotFound)
  | BadToken (t : Ticket) (h : (service.crypto.sha256 input.readToken).val ≠ t.readTokenHash) :
      ReplyEnd (replyRead input (some t)) (.ok .BadToken)
  | Closed (t : Ticket) (h : t.status = .Closed) :
      ReplyEnd (replyRead input (some t)) (.ok .Closed)
  | NotAwaitingVisitor (t : Ticket) (h : t.status = .AwaitingAdmin) :
      ReplyEnd (replyRead input (some t)) (.ok .NotAwaitingVisitor)
  | Pow (t : Ticket) (error : ReplyError) (hstatus : t.status = .AwaitingVisitor)
      (h : replyPowError (service.replyVerdict input env).1 = some error) :
      ReplyEnd (replyRead input (some t)) (.ok error)
  | Replayed (t : Ticket) (n : Nat) (h : service.MayReply input env t) (hn : n ≠ 1) :
      ReplyEnd (⟨.Changes, n⟩ :: service.replyConsumed input env t) (.ok .PowReplayed)
  | BadField (t : Ticket) (h : service.MayReply input env t)
      (hbody : service.limits.validateReply input.body ≠ .Ok) :
      ReplyEnd (⟨.Changes, (1 : Nat)⟩ :: service.replyConsumed input env t) (.ok .BadField)
  | Gone (t : Ticket) (quoteId : Option UInt32) (exn : SqlError)
      (h : service.MayReply input env t) :
      ReplyEnd (service.replyQuoted input env t quoteId) (.error exn)
  | Unsent (t : Ticket) (quoteId : Option UInt32) (rowId : Nat) (owner : UInt32)
      (h : service.MayReply input env t) :
      ReplyEnd (⟨.OwnerLoad, owner⟩ :: service.replyUpdated input env t quoteId rowId)
        (.ok .SendFailed)
  | Refused (t : Ticket) (quoteId : Option UInt32) (rowId : Nat) (owner quote : UInt32)
      (h : service.MayReply input env t) (hid : env.delivery.id = 0) :
      ReplyEnd (service.replySent input env t quoteId rowId owner quote) (.ok .SendFailed)
  | Ok (t : Ticket) (quoteId : Option UInt32) (rowId : Nat) (owner quote : UInt32)
      (h : service.MayReply input env t) (hid : env.delivery.id ≠ 0) :
      ReplyEnd (⟨.MessageSetDcMsgId rowId env.delivery.id, ()⟩ ::
        service.replySent input env t quoteId rowId owner quote) (.ok .Ok)

-- From the sending on: the row is stored and the status written.
theorem follows_replySend (t : Ticket) (quoteId : Option UInt32) (rowId : Nat)
    (h : service.MayReply input env t) :
    Follows exec (service.ReplyTrail input env) (service.ReplyEnd input env)
      (do
        let some dcMsgId ← Dc.sendToOwner env.delivery (replyNote input env t) (quoteId.getD 0) |
          return .SendFailed
        MessagesRepo.setDcMsgId rowId dcMsgId
        return .Ok)
      (service.replyUpdated input env t quoteId rowId) := by
  refine Follows.bind (Dc.follows_sendToOwner (fun owner => .Sending t quoteId rowId owner h)
    (fun owner quote => .Sent t quoteId rowId owner quote h)
    (fun owner => .Unsent t quoteId rowId owner h) fun owner quote => ?_)
  by_cases hid : env.delivery.id = 0
  · rw [if_pos hid]
    exact .Refused t quoteId rowId owner quote h hid
  · rw [if_neg hid]
    exact follows_call rfl fun _ _ _ _ => ⟨.Bound t quoteId rowId owner quote h hid,
      .Ok t quoteId rowId owner quote h hid⟩

theorem follows_submitReply :
    Follows exec (service.ReplyTrail input env) (service.ReplyEnd input env)
      (service.submitReply input env) [] := by
  refine follows_call rfl fun _ found _ _ => ⟨.Read found, ?_⟩
  cases found with
  | none => exact .NotFound
  | some t =>
      change Follows _ _ _ (ite _ _ _) _
      by_cases hlength : (service.crypto.sha256 input.readToken).val.length = t.readTokenHash.length
      case neg =>
        rw [if_pos hlength]
        exact .BadToken t fun h => hlength ((service.readToken_check _ _).mpr h).1
      rw [if_neg (not_not.mpr hlength)]
      by_cases hdiff : xorDiff 0 (service.crypto.sha256 input.readToken).val t.readTokenHash = 0
      case neg =>
        rw [if_pos hdiff]
        exact .BadToken t fun h => hdiff ((service.readToken_check _ _).mpr h).2
      rw [if_neg (not_not.mpr hdiff)]
      by_cases hclosed : t.status = .Closed
      · rw [if_pos hclosed]
        exact .Closed t hclosed
      rw [if_neg hclosed]
      by_cases hstatus : t.status = .AwaitingVisitor
      case neg =>
        rw [if_pos hstatus]
        refine .NotAwaitingVisitor t ?_
        cases hs : t.status <;> simp_all
      rw [if_neg (not_not.mpr hstatus)]
      rw [← replyVerdict]
      dsimp only
      cases hpow : replyPowError (service.replyVerdict input env).1 with
      | some error => exact .Pow t error hstatus hpow
      | none =>
          have h : service.MayReply input env t :=
            ⟨(service.readToken_check _ _).mp ⟨hlength, hdiff⟩, hstatus, hpow⟩
          refine follows_call rfl fun _ _ _ _ => ⟨.Consumed t h, ?_⟩
          refine follows_call rfl fun _ n _ _ => ⟨.Counted t n h, ?_⟩
          by_cases hn : n = 1
          case neg =>
            have hfresh : (!n == 1) = true := by simp [hn]
            change Follows _ _ _ (ite ((!n == 1) = true) _ _) _
            rw [if_pos hfresh]
            exact .Replayed t n h hn
          subst hn
          change Follows _ _ _ (ite _ _ _) _
          by_cases hbody : service.limits.validateReply input.body = .Ok
          case neg =>
            rw [if_pos hbody]
            exact .BadField t h hbody
          rw [if_neg (not_not.mpr hbody)]
          refine follows_call rfl fun _ quoteId _ _ => ⟨.Quoted t quoteId h, ?_⟩
          refine ⟨fun _ _ _ _ => ⟨.Stored t quoteId h, ?_⟩, fun _ exn _ _ => .Gone t quoteId exn h⟩
          refine follows_call rfl fun _ rowId _ _ => ⟨.Numbered t quoteId rowId h, ?_⟩
          refine follows_call rfl fun _ _ _ _ => ⟨.Updated t quoteId rowId h, ?_⟩
          exact service.follows_replySend input env t quoteId rowId h

end Reply

section Submit

variable (input : SubmitInput) (env : Env)

def submitVerdict : Pow.VerifyResult × Bytes := service.verify input.powToken input.powNonce env

def firstMessage : NewMessage :=
  MessagesRepo.newMessage (service.newTicket input env).id .Visitor input.message env.writeClock
    input.visitorIp none

def submitNote : Bytes :=
  formatAdminNotification (service.newTicket input env).id input.visitorIp env.writeClock
    input.locale input.name input.message false

theorem notifies_submitNote :
    Notifies (service.firstMessage input env).ticketId (cStr (service.submitNote input env)) :=
  ⟨input.visitorIp, env.writeClock, input.locale, input.name, input.message, false, rfl⟩

-- A submission whose proof of work is good.
def MaySubmit : Prop := submitPowError (service.submitVerdict input env).1 = none

abbrev submitConsumed : Trail :=
  [⟨.ReplayInsert (service.submitVerdict input env).2 (env.consumeClock + kReplayTtl), ()⟩]

abbrev submitAsked (owner : UInt32) : Trail :=
  ⟨.OwnerLoad, owner⟩ :: ⟨.Changes, (1 : Nat)⟩ :: service.submitConsumed input env

abbrev submitOpened (owner : UInt32) : Trail :=
  ⟨.TicketInsert (service.newTicket input env), ()⟩ :: service.submitAsked input env owner

abbrev submitStored (owner : UInt32) : Trail :=
  ⟨.MessageInsert (service.firstMessage input env), ()⟩ :: service.submitOpened input env owner

abbrev submitNumbered (owner : UInt32) (rowId : Nat) : Trail :=
  ⟨.LastInsertRowid, rowId⟩ :: service.submitStored input env owner

abbrev submitSent (owner : UInt32) (rowId : Nat) (contact quote : UInt32) : Trail :=
  ⟨.DcSend contact (cStr (service.submitNote input env)) quote env.delivery.id, env.delivery.id⟩ ::
    ⟨.OwnerLoad, contact⟩ :: service.submitNumbered input env owner rowId

-- The trails of a submit_new.
inductive SubmitTrail : Trail → Prop
  | Start : SubmitTrail []
  | Consumed (h : service.MaySubmit input env) :
      SubmitTrail (service.submitConsumed input env)
  | Counted (n : Nat) (h : service.MaySubmit input env) :
      SubmitTrail (⟨.Changes, n⟩ :: service.submitConsumed input env)
  | Asked (owner : UInt32) (h : service.MaySubmit input env) :
      SubmitTrail (service.submitAsked input env owner)
  | Opened (owner : UInt32) (h : service.MaySubmit input env) :
      SubmitTrail (service.submitOpened input env owner)
  | Stored (owner : UInt32) (h : service.MaySubmit input env) :
      SubmitTrail (service.submitStored input env owner)
  | Numbered (owner : UInt32) (rowId : Nat) (h : service.MaySubmit input env) :
      SubmitTrail (service.submitNumbered input env owner rowId)
  | Sending (owner : UInt32) (rowId : Nat) (contact : UInt32)
      (h : service.MaySubmit input env) :
      SubmitTrail (⟨.OwnerLoad, contact⟩ :: service.submitNumbered input env owner rowId)
  | Sent (owner : UInt32) (rowId : Nat) (contact quote : UInt32)
      (h : service.MaySubmit input env) :
      SubmitTrail (service.submitSent input env owner rowId contact quote)
  | Bound (owner : UInt32) (rowId : Nat) (contact quote : UInt32)
      (h : service.MaySubmit input env) (hid : env.delivery.id ≠ 0) :
      SubmitTrail (⟨.MessageSetDcMsgId rowId env.delivery.id, ()⟩ ::
        service.submitSent input env owner rowId contact quote)

-- The ends of a submit_new.
inductive SubmitEnd : Trail → Except SqlError SubmitResult → Prop
  | Pow (error : SubmitError) (h : submitPowError (service.submitVerdict input env).1 = some error) :
      SubmitEnd [] (.ok (.failed error))
  | Replayed (n : Nat) (h : service.MaySubmit input env) (hn : n ≠ 1) :
      SubmitEnd (⟨.Changes, n⟩ :: service.submitConsumed input env) (.ok (.failed .PowReplayed))
  | BadReport (h : service.MaySubmit input env)
      (hrep : (service.limits.validate (submissionInput input)).ok = false) :
      SubmitEnd (⟨.Changes, (1 : Nat)⟩ :: service.submitConsumed input env)
        (.ok (.failed (reportError (service.limits.validate (submissionInput input)))))
  | NoOwner (h : service.MaySubmit input env) :
      SubmitEnd (service.submitAsked input env 0) (.ok (.failed .NoOwnerConfigured))
  | Taken (owner : UInt32) (exn : SqlError) (h : service.MaySubmit input env) :
      SubmitEnd (service.submitAsked input env owner) (.error exn)
  | Gone (owner : UInt32) (exn : SqlError) (h : service.MaySubmit input env) :
      SubmitEnd (service.submitOpened input env owner) (.error exn)
  | Unsent (owner : UInt32) (rowId : Nat) (contact : UInt32)
      (h : service.MaySubmit input env) :
      SubmitEnd (⟨.OwnerLoad, contact⟩ :: service.submitNumbered input env owner rowId)
        (.ok ⟨.SendFailed, (service.newTicket input env).id, readToken env⟩)
  | Refused (owner : UInt32) (rowId : Nat) (contact quote : UInt32)
      (h : service.MaySubmit input env) (hid : env.delivery.id = 0) :
      SubmitEnd (service.submitSent input env owner rowId contact quote)
        (.ok ⟨.SendFailed, (service.newTicket input env).id, readToken env⟩)
  | Ok (owner : UInt32) (rowId : Nat) (contact quote : UInt32)
      (h : service.MaySubmit input env) (hid : env.delivery.id ≠ 0) :
      SubmitEnd (⟨.MessageSetDcMsgId rowId env.delivery.id, ()⟩ ::
        service.submitSent input env owner rowId contact quote)
        (.ok ⟨.Ok, (service.newTicket input env).id, readToken env⟩)

theorem follows_submitSend (owner : UInt32) (rowId : Nat)
    (h : service.MaySubmit input env) :
    Follows exec (service.SubmitTrail input env) (service.SubmitEnd input env)
      (do
        match ← Dc.sendToOwner env.delivery (service.submitNote input env) 0 with
        | some dcMsgId =>
            MessagesRepo.setDcMsgId rowId dcMsgId
            return ⟨.Ok, (service.newTicket input env).id, readToken env⟩
        | none => return ⟨.SendFailed, (service.newTicket input env).id, readToken env⟩)
      (service.submitNumbered input env owner rowId) := by
  refine Follows.bind (Dc.follows_sendToOwner (fun contact => .Sending owner rowId contact h)
    (fun contact quote => .Sent owner rowId contact quote h)
    (fun contact => .Unsent owner rowId contact h) fun contact quote => ?_)
  by_cases hid : env.delivery.id = 0
  · rw [if_pos hid]
    exact .Refused owner rowId contact quote h hid
  · rw [if_neg hid]
    exact follows_call rfl fun _ _ _ _ => ⟨.Bound owner rowId contact quote h hid,
      .Ok owner rowId contact quote h hid⟩

theorem follows_submitNew :
    Follows exec (service.SubmitTrail input env) (service.SubmitEnd input env)
      (service.submitNew input env) [] := by
  unfold submitNew
  rw [← submitVerdict]
  dsimp only
  cases h : submitPowError (service.submitVerdict input env).1 with
  | some error => exact .Pow error h
  | none =>
      refine follows_call rfl fun _ _ _ _ => ⟨.Consumed h, ?_⟩
      refine follows_call rfl fun _ n _ _ => ⟨.Counted n h, ?_⟩
      by_cases hn : n = 1
      case neg =>
        have hfresh : (!n == 1) = true := by simp [hn]
        change Follows _ _ _ (ite ((!n == 1) = true) _ _) _
        rw [if_pos hfresh]
        exact .Replayed n h hn
      subst hn
      change Follows _ _ _ (ite _ _ _) _
      by_cases hrep : (service.limits.validate (submissionInput input)).ok
      case neg =>
        rw [if_pos (by simpa using hrep)]
        exact .BadReport h (by simpa using hrep)
      rw [if_neg (by simpa using hrep)]
      refine follows_call rfl fun _ owner _ _ => ⟨.Asked owner h, ?_⟩
      by_cases howner : owner = 0
      · subst howner
        exact .NoOwner h
      have hsome : (if owner = 0 then none else some owner).isNone = false := by simp [howner]
      change Follows _ _ _ (ite ((if owner = 0 then none else some owner).isNone = true) _ _) _
      rw [if_neg (by simp [hsome])]
      refine ⟨fun _ _ _ _ => ⟨.Opened owner h, ?_⟩, fun _ exn _ _ => .Taken owner exn h⟩
      refine ⟨fun _ _ _ _ => ⟨.Stored owner h, ?_⟩, fun _ exn _ _ => .Gone owner exn h⟩
      refine follows_call rfl fun _ rowId _ _ => ⟨.Numbered owner rowId h, ?_⟩
      exact service.follows_submitSend input env owner rowId h

end Submit

end DeltaFeedback.Feedback.Service
