import DeltaFeedback.Calls.Steady

namespace DeltaFeedback.Sequential

open Text Interleaving Db
open Feedback (SubmitInput SubmitResult SubmitError Env kReplayTtl)

variable (service : Feedback.Service) (input : SubmitInput) (env : Env) (world : World)

-- A submission that opens a ticket.
structure Admitted : Prop where
  may : service.MaySubmit input env
  fresh : ¬ world.db.consumed (service.submitVerdict input env).2
  valid : (service.limits.validate (Feedback.Service.submissionInput input)).ok = true
  owner : world.owner ≠ 0
  unused : world.db.ticket? (service.newTicket input env).id = none

variable {service input env world}

-- The ticket is stored with its message before Delta Chat is asked.
theorem eval_admitted (h : Admitted service input env world) :
    ∃ stored rowId, stored.owner = world.owner ∧ stored.outbox = world.outbox ∧
      (∀ t ∈ stored.db.tickets, t ∈ world.db.tickets ∨ t.id = (service.newTicket input env).id) ∧
      (service.submitNew input env).eval exec world = (do
        match ← Dc.sendToOwner env.delivery (service.submitNote input env) 0 with
        | some dcMsgId =>
            MessagesRepo.setDcMsgId rowId dcMsgId
            return ⟨.Ok, (service.newTicket input env).id, Feedback.Service.readToken env⟩
        | none =>
            return ⟨.SendFailed, (service.newTicket input env).id, Feedback.Service.readToken env⟩ :
        Proc SubmitResult).eval exec stored := by
  obtain ⟨consumed, hconsume, hcount, hconsumed, hconsumedOwner, hconsumedOutbox⟩ :=
    exec_replayInsert_fresh (env.consumeClock + kReplayTtl) h.fresh
  have hunused : consumed.db.ticket? (service.newTicket input env).id = none := by
    rw [hconsumed]
    exact h.unused
  obtain ⟨opened, hopen⟩ := exec_ticketInsert_unused hunused
  obtain ⟨hopened, hopenedOwner, hopenedOutbox⟩ := effect_of_exec hopen
  obtain ⟨t, ht⟩ : ∃ t, opened.db.ticket? (service.firstMessage input env).ticketId = some t := by
    have hid : (service.firstMessage input env).ticketId = (service.newTicket input env).id := rfl
    rw [hid, hopened, Op.write, Tables.ticket?_ticketInsert, hunused]
    exact ⟨_, if_pos rfl⟩
  obtain ⟨stored, hstore⟩ := exec_messageInsert_known ht
  obtain ⟨hstored, hstoredOwner, hstoredOutbox⟩ := effect_of_exec hstore
  have howner : exec .OwnerLoad consumed = .ok (world.owner, consumed) :=
    congrArg (fun owner => Except.ok (owner, consumed)) hconsumedOwner
  have hnumber : exec .LastInsertRowid stored = .ok (stored.lastInsertRowid, stored) := rfl
  refine ⟨stored, stored.lastInsertRowid, hstoredOwner.trans (hopenedOwner.trans hconsumedOwner),
    ?_, fun t ht => ?_, ?_⟩
  · rw [hstoredOutbox, hopenedOutbox, hconsumedOutbox]
    simp [Op.sends]
  · rw [hstored, Op.write, Tables.messageInsert, hopened, Op.write, hconsumed] at ht
    rcases List.mem_append.mp ht with hold | hnew
    · exact .inl hold
    · exact .inr (List.mem_singleton.mp hnew ▸ rfl)
  · unfold Feedback.Service.submitNew
    rw [← Feedback.Service.submitVerdict]
    dsimp only
    rw [h.may]
    refine Prog.eval_call hconsume (Prog.eval_call hcount ?_)
    change Prog.eval _ (ite _ _ _) _ = _
    rw [if_neg (by simp [h.valid])]
    refine Prog.eval_call howner ?_
    change Prog.eval _ (ite ((if world.owner = 0 then none else some world.owner).isNone = true) _ _) _
      = _
    rw [if_neg (by simp [h.owner])]
    exact Prog.eval_call hopen (Prog.eval_call hstore (Prog.eval_call hnumber rfl))

-- A submission that opens none.
theorem eval_unadmitted {ended : Except SqlError SubmitResult × World}
    (h : ¬ Admitted service input env world)
    (hended : (service.submitNew input env).eval exec world = ended) : Steady world ended.2 := by
  unfold Feedback.Service.submitNew at hended
  rw [← Feedback.Service.submitVerdict] at hended
  dsimp only at hended
  cases hpow : Feedback.submitPowError (service.submitVerdict input env).1 with
  | some error =>
      rw [hpow] at hended
      exact hended ▸ .refl world
  | none =>
      rw [hpow] at hended
      obtain ⟨consumed, hconsume⟩ : ∃ consumed, exec (.ReplayInsert (service.submitVerdict input env).2
          (env.consumeClock + kReplayTtl)) world = .ok ((), consumed) := by
        simp only [exec]
        split <;> exact ⟨_, rfl⟩
      have hsteady := steady_of_exec rfl hconsume
      obtain ⟨hchanges, -⟩ := exec_replayInsert hconsume
      have hcount : exec .Changes consumed = .ok (consumed.changes, consumed) := rfl
      have hcounted := Prog.eval_of_call hcount (Prog.eval_of_call hconsume hended)
      change Prog.eval _ (ite ((!consumed.changes == 1) = true) _ _) _ = _ at hcounted
      by_cases hfresh : world.db.consumed (service.submitVerdict input env).2
      · rw [if_pos (by simp [hchanges, hfresh])] at hcounted
        exact hcounted ▸ hsteady
      rw [if_neg (by simp [hchanges, hfresh])] at hcounted
      by_cases hvalid : (service.limits.validate (Feedback.Service.submissionInput input)).ok = true
      case neg =>
        rw [if_pos (by simp [hvalid])] at hcounted
        exact hcounted ▸ hsteady
      rw [if_neg (by simp [hvalid])] at hcounted
      have hload : exec .OwnerLoad consumed = .ok (consumed.owner, consumed) := rfl
      have hloaded := Prog.eval_of_call hload hcounted
      change Prog.eval _ (ite ((if consumed.owner = 0 then none else some consumed.owner).isNone =
        true) _ _) _ = _ at hloaded
      by_cases howner : consumed.owner = 0
      · rw [if_pos (by simp [howner])] at hloaded
        exact hloaded ▸ hsteady
      rw [if_neg (by simp [howner])] at hloaded
      have hconsumed := effect_of_exec hconsume
      rw [hconsumed.owner] at howner
      have hused : (service.newTicket input env).id ∈ consumed.db.tickets.map fun t => t.id := by
        have hsome : world.db.ticket? (service.newTicket input env).id ≠ none :=
          fun hunused => h ⟨hpow, hfresh, hvalid, howner, hunused⟩
        rw [hconsumed.tables, Op.write, if_neg hfresh]
        by_contra habsent
        exact hsome ((world.db.ticket?_eq_none_iff _).mpr habsent)
      have htaken : exec (.TicketInsert (service.newTicket input env)) consumed =
          .error (.PrimaryKey, consumed.refused) := by
        simp only [exec, dif_pos hused]
      exact Prog.eval_of_error htaken hloaded ▸ hsteady.trans (steady_of_refused htaken)

end DeltaFeedback.Sequential
