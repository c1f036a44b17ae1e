import DeltaFeedback.Sequential.Chronicle

namespace DeltaFeedback.Sequential

open Text Interleaving Db
open Feedback (ReplyInput ReplyError Env kReplayTtl sampleService)

section Reply

variable (service : Feedback.Service) (input : ReplyInput) (env : Env) (world : World)

-- A reply that gets as far as its notification.
structure Accepted (t : TicketRow) : Prop where
  ticket : world.db.ticket? input.ticketId = some t
  may : service.MayReply input env t.toTicket
  fresh : ¬ world.db.consumed (service.replyVerdict input env).2
  body : service.limits.validateReply input.body = .Ok

-- The notification the reply is sent as an answer to.
def quoteOf : UInt32 := (world.db.latestDcMsgIdForTicket input.ticketId).getD 0

def consumedTables : Tables :=
  world.db.replayInsert (service.replyVerdict input env).2 (env.consumeClock + kReplayTtl)

def storedTables : Tables :=
  ((consumedTables service input env world).messageInsert
    (Feedback.Service.replyMessage input env)).ticketSetStatus input.ticketId .AwaitingAdmin

variable {service input env world}

-- The reply is stored and the status written before Delta Chat is asked.
theorem eval_accepted {t : TicketRow} (h : Accepted service input env world t) :
    ∃ written rowId, written.owner = world.owner ∧ written.outbox = world.outbox ∧
      written.db.toTables = storedTables service input env world ∧
      (service.submitReply input env).eval exec world = (do
        let some dcMsgId ← Dc.sendToOwner env.delivery
          (Feedback.Service.replyNote input env t.toTicket) (quoteOf input world) |
            return ReplyError.SendFailed
        MessagesRepo.setDcMsgId rowId dcMsgId
        return .Ok : Proc ReplyError).eval exec written := by
  obtain ⟨consumed, hconsume, hcount, hconsumed, hconsumedOwner, hconsumedOutbox⟩ :=
    exec_replayInsert_fresh (env.consumeClock + kReplayTtl) h.fresh
  have ht : consumed.db.ticket? (Feedback.Service.replyMessage input env).ticketId = some t := by
    rw [hconsumed]
    exact h.ticket
  obtain ⟨stored, hstore⟩ := exec_messageInsert_known ht
  obtain ⟨hstored, hstoredOwner, hstoredOutbox⟩ := effect_of_exec hstore
  obtain ⟨hlength, hdiff⟩ := (service.readToken_check _ _).mpr h.may.token
  have hread : exec (.TicketGetById input.ticketId) world = .ok (some t.toTicket, world) := by
    simp only [exec, h.ticket, Option.map_some]
  have hquote : exec (.LatestDcMsgIdForTicket input.ticketId) consumed =
      .ok (world.db.latestDcMsgIdForTicket input.ticketId, consumed) := by
    simp only [exec, hconsumed]
    rfl
  have hnumber : exec .LastInsertRowid stored = .ok (stored.lastInsertRowid, stored) := rfl
  obtain ⟨written, hwrite⟩ : ∃ written,
      exec (.TicketSetStatus input.ticketId .AwaitingAdmin) stored = .ok ((), written) := ⟨_, rfl⟩
  obtain ⟨hwritten, hwrittenOwner, hwrittenOutbox⟩ := effect_of_exec hwrite
  refine ⟨written, stored.lastInsertRowid, ?_, ?_, ?_, ?_⟩
  · exact hwrittenOwner.trans (hstoredOwner.trans hconsumedOwner)
  · rw [hwrittenOutbox, hstoredOutbox, hconsumedOutbox]
    simp [Op.sends]
  · rw [hwritten, hstored, hconsumed]
    rfl
  refine Prog.eval_call hread ?_
  change Prog.eval _ (ite _ _ _) _ = _
  rw [if_neg (not_not.mpr hlength), if_neg (not_not.mpr hdiff), if_neg (by simp [h.may.status]),
    if_neg (not_not.mpr h.may.status)]
  rw [← Feedback.Service.replyVerdict]
  dsimp only
  rw [h.may.pow]
  refine Prog.eval_call hconsume (Prog.eval_call hcount ?_)
  change Prog.eval _ (ite _ _ _) _ = _
  rw [if_neg (not_not.mpr h.body)]
  exact Prog.eval_call hquote (Prog.eval_call hstore (Prog.eval_call hnumber
    (Prog.eval_call hwrite rfl)))

theorem outcome_accepted {t : TicketRow} (h : Accepted service input env world t) :
    (env.delivery.Takes world.owner (quoteOf input world) →
      ((service.submitReply input env).eval exec world).1 = .ok .Ok) ∧
    (¬ env.delivery.Takes world.owner (quoteOf input world) →
      ((service.submitReply input env).eval exec world).1 = .ok .SendFailed ∧
      ((service.submitReply input env).eval exec world).2.db.toTables =
        storedTables service input env world) := by
  obtain ⟨written, rowId, howner, -, htables, heval⟩ := eval_accepted h
  rw [heval, Prog.eval_bind, Dc.eval_sendToOwner, howner]
  constructor
  · intro htakes
    rw [if_pos htakes]
    rfl
  · intro htakes
    rw [if_neg htakes]
    exact ⟨rfl, htables⟩

theorem powError_ne {verdict : Pow.VerifyResult} {error : ReplyError}
    (h : Feedback.replyPowError verdict = some error) : error ≠ .Ok ∧ error ≠ .NotAwaitingVisitor := by
  cases verdict <;> simp only [Feedback.replyPowError, Option.some.injEq, reduceCtorEq] at h <;>
    subst h <;> simp

-- The end of a reply that was refused: at most its challenge is consumed.
structure Refused (service : Feedback.Service) (input : ReplyInput) (env : Env) (world : World)
    (ended : Except SqlError ReplyError × World) : Prop where
  error : ended.1 ≠ .ok .Ok
  tables : ended.2.db.toTables = world.db.toTables ∨
    ended.2.db.toTables = consumedTables service input env world

theorem eval_refused {ended : Except SqlError ReplyError × World}
    (h : ∀ t, ¬ Accepted service input env world t)
    (hended : (service.submitReply input env).eval exec world = ended) :
    Refused service input env world ended := by
  have hunread (error : ReplyError) (herror : error ≠ .Ok) :
      Refused service input env world (.ok error, world) :=
    ⟨by simpa using herror, .inl rfl⟩
  have hread : exec (.TicketGetById input.ticketId) world =
      .ok ((world.db.ticket? input.ticketId).map fun t => t.toTicket, world) := rfl
  have hfound := Prog.eval_of_call hread hended
  clear hended
  cases ht : world.db.ticket? input.ticketId with
  | none =>
      rw [ht] at hfound
      exact hfound ▸ hunread .NotFound (by simp)
  | some t =>
      rw [ht] at hfound
      change Prog.eval _ (ite _ _ _) _ = _ at hfound
      by_cases hlength : (service.crypto.sha256 input.readToken).val.length = t.readTokenHash.length
      case neg =>
        rw [if_pos hlength] at hfound
        exact hfound ▸ hunread .BadToken (by simp)
      rw [if_neg (not_not.mpr hlength)] at hfound
      by_cases hdiff : xorDiff 0 (service.crypto.sha256 input.readToken).val t.readTokenHash = 0
      case neg =>
        rw [if_pos hdiff] at hfound
        exact hfound ▸ hunread .BadToken (by simp)
      rw [if_neg (not_not.mpr hdiff)] at hfound
      by_cases hclosed : t.status = .Closed
      · rw [if_pos hclosed] at hfound
        exact hfound ▸ hunread .Closed (by simp)
      rw [if_neg hclosed] at hfound
      by_cases hstatus : t.status = .AwaitingVisitor
      case neg =>
        rw [if_pos hstatus] at hfound
        exact hfound ▸ hunread .NotAwaitingVisitor (by simp)
      rw [if_neg (not_not.mpr hstatus), ← Feedback.Service.replyVerdict] at hfound
      dsimp only at hfound
      cases hpow : Feedback.replyPowError (service.replyVerdict input env).1 with
      | some error =>
          rw [hpow] at hfound
          refine hfound ▸ hunread error ?_
          rintro rfl
          exact (powError_ne hpow).1 rfl
      | none =>
          rw [hpow] at hfound
          by_cases hfresh : world.db.consumed (service.replyVerdict input env).2
          · have hkept : exec (.ReplayInsert (service.replyVerdict input env).2
                (env.consumeClock + kReplayTtl)) world = .ok ((), { world with changes := 0 }) := by
              simp only [exec, dif_pos hfresh]
            have hcount : exec .Changes { world with changes := 0 } =
                .ok ((0 : Nat), { world with changes := 0 }) := rfl
            have hcounted : (Except.ok ReplyError.PowReplayed, { world with changes := 0 }) = ended :=
              Prog.eval_of_call hcount (Prog.eval_of_call hkept hfound)
            subst hcounted
            exact ⟨by simp, .inl rfl⟩
          · obtain ⟨consumed, hconsume, hcount, hconsumed, -⟩ :=
              exec_replayInsert_fresh (env.consumeClock + kReplayTtl) hfresh
            have hcounted := Prog.eval_of_call hcount (Prog.eval_of_call hconsume hfound)
            change Prog.eval _ (ite _ _ _) _ = _ at hcounted
            have hmay : service.MayReply input env t.toTicket :=
              ⟨(service.readToken_check _ _).mp ⟨hlength, hdiff⟩, hstatus, hpow⟩
            have hbody : service.limits.validateReply input.body ≠ .Ok :=
              fun hbody => h t ⟨ht, hmay, hfresh, hbody⟩
            rw [if_pos hbody] at hcounted
            subst hcounted
            exact ⟨by simp, .inr hconsumed⟩

-- What a call that was not accepted must leave to the visitor.
structure Retriable (service : Feedback.Service) (input : ReplyInput) (env : Env)
    (world last : World) : Prop where
  tables : last.db.toTables = world.db.toTables ∨
    last.db.toTables = consumedTables service input env world
  status : ∀ t, world.db.ticket? input.ticketId = some t → t.status = .AwaitingVisitor →
    ∃ now, last.db.ticket? input.ticketId = some now ∧ now.status = .AwaitingVisitor
  retry : ∀ t, world.db.ticket? input.ticketId = some t → t.status = .AwaitingVisitor →
    ∀ again later, again.ticketId = input.ticketId →
      ((Call.SubmitReply again later).run service last).1 ≠ .ok (.Replied .NotAwaitingVisitor)

theorem run_submitReply (service : Feedback.Service) (input : ReplyInput) (env : Env)
    (world : World) : ((Call.SubmitReply input env).run service world).1 =
        ((service.submitReply input env).eval exec world).1.map .Replied ∧
      ((Call.SubmitReply input env).run service world).2.2 =
        ((service.submitReply input env).eval exec world).2 := by
  have hrun : _ = ((Call.SubmitReply input env).prog service).eval exec world :=
    Prog.run_eq_eval _ [] world
  rw [Call.prog, Prog.eval_map] at hrun
  exact Prod.mk.inj hrun

-- While the visitor is waited for, no reply is told that it is not their turn.
theorem turn_of_awaiting {t : TicketRow} (ht : world.db.ticket? input.ticketId = some t)
    (hstatus : t.status = .AwaitingVisitor) :
    ((Call.SubmitReply input env).run service world).1 ≠ .ok (.Replied .NotAwaitingVisitor) := by
  intro hrun
  obtain ⟨reached, halone, -⟩ := Call.run_alone service (.SubmitReply input env) world
  rw [hrun] at halone
  generalize ((Call.SubmitReply input env).run service world).2.1 = trail at halone
  generalize houtcome : (Except.ok (Outcome.Replied .NotAwaitingVisitor) :
    Except SqlError Outcome) = outcome at halone
  have hdone := halone.done
  cases hdone with
  | SubmitReply _ _ trail answer h =>
      cases h with
      | NotAwaitingVisitor found hfound =>
          obtain ⟨before, hbefore, hread⟩ := halone.leads.of_cons
          obtain rfl := hbefore.of_nil
          simp only [exec, ht, Option.map_some, Except.ok.injEq, Prod.mk.injEq,
            Option.some.injEq] at hread
          rw [← hread.1, hstatus] at hfound
          simp at hfound
      | Pow found error hfound hpow =>
          cases houtcome
          exact (powError_ne hpow).2 rfl
      | _ => simp [Except.map] at houtcome

theorem retriable_of_tables {last : World} (h : last.db.toTables = world.db.toTables ∨
    last.db.toTables = consumedTables service input env world) :
    Retriable service input env world last := by
  have hsame : last.db.ticket? input.ticketId = world.db.ticket? input.ticketId := by
    rcases h with h | h
    · rw [h]
    · rw [h]
      rfl
  refine ⟨h, fun t ht hstatus => ⟨t, hsame.trans ht, hstatus⟩, fun t ht hstatus again later hid => ?_⟩
  refine turn_of_awaiting (t := t) ?_ hstatus
  rw [hid, hsame, ht]

theorem messages_storedTables (service : Feedback.Service) (input : ReplyInput) (env : Env)
    (world : World) : (storedTables service input env world).messages.length =
    world.db.messages.length + 1 := by
  simp [storedTables, consumedTables, Tables.ticketSetStatus, Tables.updateTickets,
    Tables.messageInsert, Tables.replayInsert]

-- A reply that is not told to have been sent can be sent again, but for one
-- that passes every check and whose notification Delta Chat does not take.
theorem reply_retriable (service : Feedback.Service) (world : World) (input : ReplyInput)
    (env : Env) :
    (((Call.SubmitReply input env).run service world).1 ≠ .ok (.Replied .Ok) →
      Retriable service input env world ((Call.SubmitReply input env).run service world).2.2) ↔
    ∀ t, Accepted service input env world t →
      env.delivery.Takes world.owner (quoteOf input world) := by
  obtain ⟨houtcome, hlast⟩ := run_submitReply service input env world
  rw [houtcome, hlast]
  constructor
  · intro hclaim t haccepted
    by_contra htakes
    obtain ⟨herror, htables⟩ := (outcome_accepted haccepted).2 htakes
    have hlength := messages_storedTables service input env world
    rw [← htables] at hlength
    rcases (hclaim (by simp [herror, Except.map])).tables with hsame | hsame <;> rw [hsame] at hlength
    · omega
    · simp [consumedTables, Tables.replayInsert] at hlength
  · intro htakes hnot
    by_cases haccepted : ∃ t, Accepted service input env world t
    · obtain ⟨t, haccepted⟩ := haccepted
      rw [(outcome_accepted haccepted).1 (htakes t haccepted)] at hnot
      exact absurd rfl hnot
    · exact retriable_of_tables (eval_refused (fun t h => haccepted ⟨t, h⟩) rfl).tables

end Reply

-- A conversation in which it is the visitor's turn.
def answered : World :=
  ([Chronicle.submission, Chronicle.answer (utf8 "hi")].foldl
    (fun chronicle call => chronicle.after sampleService call) (Chronicle.start 7)).world

def followUpEnv (dcMsgId : UInt32) : Env where
  verifyClock := 1700000040
  consumeClock := 1700000040
  writeClock := 1700000040
  draw := fun _ => 0
  delivery := ⟨12, true, true, dcMsgId⟩

def followUp (challengeId : Bytes) : ReplyInput where
  ticketId := utf8 "000000"
  readToken := Feedback.Service.readToken (followUpEnv 0)
  powToken := (sampleService.issuer.issue Pow.fips 1700000030 challengeId).token
  powNonce := []
  body := utf8 "one more thing"
  visitorIp := utf8 "192.0.2.1"

-- Delta Chat refuses the notification: the reply is said not to have been
-- delivered, and the next attempt, with a fresh challenge, is refused.
theorem reply_not_retriable : ¬ ∀ (service : Feedback.Service) (world : World) (input : ReplyInput)
    (env : Env), ((Call.SubmitReply input env).run service world).1 ≠ .ok (.Replied .Ok) →
      Retriable service input env world ((Call.SubmitReply input env).run service world).2.2 := by
  intro hclaim
  have hseen : ((answered.db.ticket? (utf8 "000000")).map fun t => t.status,
      ((Call.SubmitReply (followUp (utf8 "second")) (followUpEnv 0)).run sampleService answered).1,
      ((Call.SubmitReply (followUp (utf8 "third")) (followUpEnv 102)).run sampleService
        ((Call.SubmitReply (followUp (utf8 "second")) (followUpEnv 0)).run sampleService
          answered).2.2).1) =
      (some .AwaitingVisitor, .ok (.Replied .SendFailed), .ok (.Replied .NotAwaitingVisitor)) := by
    decide +kernel
  simp only [Prod.mk.injEq, Option.map_eq_some_iff] at hseen
  obtain ⟨⟨t, ht, hstatus⟩, hfailed, hretried⟩ := hseen
  have hretriable := hclaim sampleService answered (followUp (utf8 "second")) (followUpEnv 0)
    (by rw [hfailed]; simp)
  exact hretriable.retry t ht hstatus (followUp (utf8 "third")) (followUpEnv 102) rfl hretried

end DeltaFeedback.Sequential
