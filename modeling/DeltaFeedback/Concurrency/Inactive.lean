import DeltaFeedback.Concurrency.Status
import DeltaFeedback.Db.Inactivity

namespace DeltaFeedback.Concurrency

open Text Interleaving Db
open Feedback (sampleService)

variable {ι : Type} [DecidableEq ι]

-- The clock reading a call dates its row with.
def clock? : Call → Option Int
  | .SubmitNew _ env => some env.writeClock
  | .SubmitReply _ env => some env.writeClock
  | .IncomingMsg _ now _ => some now
  | .RouteAdminMsg _ now _ _ => some now
  | .PurgeInactive _ => none
  | .PurgeExpired _ => none

-- The first message of a ticket is not dated before the ticket.
def FirstDated : Pool.Condition Op Op.Result World SqlError Outcome ι :=
  fun view _ op => match op with
    | .MessageInsert m => ∀ t ∈ view.world.db.ticket? m.ticketId,
        view.world.db.messagesByTicket m.ticketId = [] → t.createdAt ≤ m.createdAt
    | _ => True

variable {service : Feedback.Service} {call : Call} {trail : Trail}

theorem clock_of_messageInsert {m : NewMessage}
    (h : call.Legal service (⟨.MessageInsert m, ()⟩ :: trail)) : clock? call = some m.createdAt := by
  cases call with
  | SubmitNew input env =>
      cases h with
      | Stored => rfl
  | SubmitReply input env =>
      cases h with
      | Stored => rfl
  | IncomingMsg dc now msg =>
      obtain ⟨quoted, t, rest, rfl, -⟩ := Dc.message_of_routeTrail dc now msg.fromId msg
        (Dc.message_of_incomingTrail dc now msg h) (by simp)
      rfl
  | RouteAdminMsg dc now owner msg =>
      obtain ⟨quoted, t, rest, rfl, -⟩ := Dc.message_of_routeTrail dc now owner msg h (by simp)
      rfl
  | PurgeInactive cutoff => cases h
  | PurgeExpired now => cases h

theorem clock_of_ticketInsert {t : Ticket}
    (h : call.Legal service (⟨.TicketInsert t, ()⟩ :: trail)) : clock? call = some t.createdAt := by
  obtain ⟨input, env, owner, rfl, rfl, -⟩ := Call.submission_of_legal h
  rfl

theorem upkeep_dated (service : Feedback.Service) (calls : ι → Call)
    (hclocks : ∀ i now, clock? (calls i) = some now → 0 ≤ now) :
    Upkeep (fun i => (calls i).Legal service) (fun i => (calls i).Ends service) FirstDated
      fun view => ∀ id, view.world.db.Dated id where
  advance view i op result world _ hinv _ hlegal hadmits hexec := by
    intro id
    rw [View.advance_world, tables_of_exec hexec]
    refine (hinv id).write view.world.db.constraints ?_
    cases op with
    | TicketInsert t =>
        refine ⟨hclocks i _ (clock_of_ticketInsert hlegal), ?_⟩
        by_contra hused
        rw [Tables.ticket?_eq_none_iff, not_not] at hused
        simp [exec, hused] at hexec
    | MessageInsert m => exact ⟨hclocks i _ (clock_of_messageInsert hlegal), hadmits⟩
    | _ => trivial
  ends _ _ _ _ hinv _ _ := hinv
  uncounted _ _ hinv := hinv

theorem dated_of_reaches {owner : UInt32} {calls : ι → Call} {pool : CallPool ι}
    (hclocks : ∀ i now, clock? (calls i) = some now → 0 ≤ now)
    (hrun : Pool.Reaches exec FirstDated
      (startCalls service { World.empty with owner } calls) pool) (id : Bytes) :
    pool.world.db.Dated id := by
  have hsound : (startCalls service { World.empty with owner } calls).Sound exec
      (fun i => (calls i).Legal service) (fun i => (calls i).Ends service)
      fun view => ∀ id, view.world.db.Dated id :=
    .start (fun i => Call.legal_start service (calls i)) (fun i => (calls i).follows service)
      fun id => Tables.dated_of_absent Database.empty.constraints rfl
  exact (hsound.reaches (upkeep_dated service calls hclocks).preserves hrun).inv id

-- Every run in which the first message of each ticket is not dated before it:
-- a purge deletes what the comment on its statement says.
theorem purges_exactly (service : Feedback.Service) (owner : UInt32) (calls : ι → Call)
    (hclocks : ∀ i now, clock? (calls i) = some now → 0 ≤ now) (pool : CallPool ι)
    (hrun : Pool.Reaches exec FirstDated
      (startCalls service { World.empty with owner } calls) pool) (cutoff : Int) :
    pool.world.db.PurgesExactly
      ((TicketsRepo.purgeInactiveOlderThan cutoff).eval exec pool.world).2.db.toTables cutoff :=
  Tables.purgesExactly (dated_of_reaches hclocks hrun) pool.world.db.constraints cutoff

instance (view : CallView ι) (i : ι) : (op : Op) → Decidable (FirstDated view i op)
  | .MessageInsert m => inferInstanceAs (Decidable (∀ t ∈ view.world.db.ticket? m.ticketId,
      view.world.db.messagesByTicket m.ticketId = [] → t.createdAt ≤ m.createdAt))
  | .TicketInsert .. | .TicketGetById .. | .TicketSetStatus .. | .TicketClose ..
  | .TicketPurgeInactive .. | .MessageSetDcMsgId .. | .MessagesByTicket ..
  | .FindTicketByDcMsgId .. | .LatestDcMsgIdForTicket .. | .ReplayInsert .. | .ReplayPurge ..
  | .StateGet .. | .StateSet .. | .StateDel .. | .LastInsertRowid | .Changes | .OwnerLoad
  | .OwnerStore .. | .DcSend .. => isTrue trivial

-- A submission at 1700000010, and an answer to it when the clock has been set back.
def datedCalls : Fin 2 → Call
  | 0 => sampleSubmission 1 100
  | 1 => .RouteAdminMsg ⟨12, true, true, 200⟩ 1700000000 7
      { msgId := 50, fromId := 7, text := utf8 "[" ++ Feedback.makeTicketId 1 ++ utf8 "] done"
        quotedMsgId := 0, quotedText := [] }

theorem clock_datedCalls : ∀ i now, clock? (datedCalls i) = some now → 0 ≤ now
  | 0, _, h => Option.some.inj h ▸ by decide
  | 1, _, h => Option.some.inj h ▸ by decide

-- How many tickets a purge leaves, and how many it should leave.
def seeKept (pool : CallPool (Fin 2)) : Nat × Nat :=
  (((TicketsRepo.purgeInactiveOlderThan 1700000005).eval exec pool.world).2.db.tickets.length,
    (pool.world.db.tickets.filter fun t => 1700000005 ≤ pool.world.db.latestEvent t).length)

theorem purges_exactly_sample : ∃ pool : CallPool (Fin 2),
    (Pool.Reaches exec FirstDated
        (startCalls sampleService { World.empty with owner := 7 } datedCalls) pool ∧
      seeKept pool = (1, 1)) ∧
    ∀ cutoff, pool.world.db.PurgesExactly
      ((TicketsRepo.purgeInactiveOlderThan cutoff).eval exec pool.world).2.db.toTables cutoff := by
  obtain ⟨pool, hrun, hseen⟩ := Pool.exists_reaches_of_follow exec FirstDated
    [0, 0, 0, 0, 1, 0, 1, 0, 1, 1]
    (startCalls sampleService { World.empty with owner := 7 } datedCalls) seeKept (1, 1)
    (by decide +kernel)
  exact ⟨pool, ⟨hrun, hseen⟩, fun cutoff => purges_exactly sampleService 7 datedCalls
    clock_datedCalls pool hrun cutoff⟩

-- The answer is stored before the submission's own message: its ticket is
-- purged by a cutoff that lies before its creation.
theorem purge_inexact : ¬ ∀ pool : CallPool (Fin 2), Pool.Reaches exec (fun _ _ _ => True)
      (startCalls sampleService { World.empty with owner := 7 } datedCalls) pool →
    ∀ cutoff, pool.world.db.PurgesExactly
      ((TicketsRepo.purgeInactiveOlderThan cutoff).eval exec pool.world).2.db.toTables cutoff := by
  intro hclaim
  obtain ⟨pool, hrun, hseen⟩ := Pool.exists_reaches_of_follow exec (fun _ _ _ => True)
    [0, 0, 0, 0, 1, 1] (startCalls sampleService { World.empty with owner := 7 } datedCalls)
    seeKept (0, 1) (by decide +kernel)
  have hkept := congrArg List.length (hclaim pool hrun 1700000005).tickets
  have hcounts := Prod.mk.inj hseen
  rw [hcounts.1, hcounts.2] at hkept
  simp at hkept

end DeltaFeedback.Concurrency
