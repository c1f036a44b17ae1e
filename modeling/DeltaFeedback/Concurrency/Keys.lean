import DeltaFeedback.Concurrency.Status
import DeltaFeedback.Db.Queries.Purge

namespace DeltaFeedback.Concurrency

open Text Interleaving Db
open Feedback (sampleService)

variable {ι : Type} [DecidableEq ι]

-- The operations after which a call counts on a ticket to be there.
def holds (id : Bytes) : Op → Bool
  | .TicketGetById other => other == id
  | .TicketInsert t => t.id == id
  | _ => false

def deletes (id : Bytes) (before : World) : Op → Bool
  | .TicketPurgeInactive cutoff => before.db.gone cutoff id
  | _ => false

-- The id a call draws for its ticket.
def drawnId? (service : Feedback.Service) : Call → Option Bytes
  | .SubmitNew input env => some (service.newTicket input env).id
  | _ => none

-- The calls draw ids of their own, none of a ticket that is there at the start.
structure DrawnApart (service : Feedback.Service) (world : World) (calls : ι → Call) : Prop where
  unused : ∀ i id, drawnId? service (calls i) = some id → world.db.ticket? id = none
  apart : ∀ i j id, drawnId? service (calls i) = some id → drawnId? service (calls j) = some id → i = j

-- No call stores a message on a ticket that was purged after the call had read
-- or opened it.
def Undisturbed : Pool.Condition Op Op.Result World SqlError Outcome ι :=
  fun view i op => match op with
    | .MessageInsert m =>
        ∀ event ∈ view.sinceAny i (holds m.ticketId), deletes m.ticketId event.before event.op = false
    | _ => True

-- The last of a call's reads and INSERTs of a ticket has found or made it.
def Holds (id : Bytes) (trail : Trail) : Prop :=
  ∃ taken, trail.find? (fun taken => holds id taken.1) = some taken ∧
    taken ≠ ⟨.TicketGetById id, none⟩

-- A ticket that was found or made is there until a purge deletes it, and every
-- ticket was there at the start or is one that a call has drawn and made.
structure KeysInv (service : Feedback.Service) (start : World) (calls : ι → Call)
    (view : CallView ι) : Prop where
  held : ∀ i id, Holds id (view.trail i) →
    (∀ event ∈ view.sinceAny i (holds id), deletes id event.before event.op = false) →
    (view.world.db.ticket? id).isSome
  made : ∀ t ∈ view.world.db.tickets, (∃ old ∈ start.db.tickets, old.id = t.id) ∨
    ∃ i new, drawnId? service (calls i) = some t.id ∧ ⟨.TicketInsert new, ()⟩ ∈ view.trail i

variable {service : Feedback.Service} {start : World} {calls : ι → Call} {id : Bytes}
  {view : CallView ι} {i : ι} {op : Op} {result : op.Result} {world later : World} {trail : Trail}

theorem isSome_of_exec (hexec : exec op world = .ok (result, later))
    (hop : deletes id world op = false) (h : (world.db.ticket? id).isSome) :
    (later.db.ticket? id).isSome := by
  have htables := tables_of_exec hexec
  rw [htables]
  cases htouches : op.touches id with
  | false =>
      rw [(write_of_not_touches htouches _).1]
      exact h
  | true =>
      cases op with
      | TicketInsert t =>
          rw [Op.write, Tables.ticket?_ticketInsert, Option.isSome_or, h]
          exact Bool.true_or _
      | TicketSetStatus other status =>
          rw [Op.write, Tables.ticket?_ticketSetStatus, Option.isSome_map]
          exact h
      | TicketClose other closedAt =>
          rw [Op.write, Tables.ticket?_ticketClose, Option.isSome_map]
          exact h
      | TicketPurgeInactive cutoff =>
          rw [Op.write, (Tables.kept_of_not_gone world.db.constraints hop).1]
          exact h
      | MessageInsert m => exact h
      | _ => simp [Op.touches] at htouches

-- What a call holds once it has read or opened it is there.
theorem isSome_of_holds (hexec : exec op world = .ok (result, later)) (hop : holds id op = true)
    (hfound : (⟨op, result⟩ : Taken Op Op.Result) ≠ ⟨.TicketGetById id, none⟩) :
    (later.db.ticket? id).isSome := by
  cases op with
  | TicketGetById other =>
      obtain rfl := beq_iff_eq.mp hop
      simp only [exec, Except.ok.injEq, Prod.mk.injEq] at hexec
      obtain ⟨rfl, rfl⟩ := hexec
      cases hticket : world.db.ticket? other with
      | none => simp [hticket] at hfound
      | some t => rfl
  | TicketInsert t =>
      obtain rfl := beq_iff_eq.mp hop
      rw [tables_of_exec hexec, Op.write, Tables.ticket?_ticketInsert, if_pos rfl]
      simp
  | _ => simp [holds] at hop

theorem KeysInv.held_advance (h : KeysInv service start calls view)
    (hexec : exec op view.world = .ok (result, world)) (j : ι) (id : Bytes)
    (hholds : Holds id ((view.advance i op result world).trail j))
    (hkept : ∀ event ∈ (view.advance i op result world).sinceAny j (holds id),
      deletes id event.before event.op = false) : (world.db.ticket? id).isSome := by
  by_cases hop : i = j ∧ holds id op = true
  · obtain ⟨rfl, hop⟩ := hop
    obtain ⟨taken, hfind, hfound⟩ := hholds
    have hhead : holds id (⟨op, result⟩ : Taken Op Op.Result).1 = true := hop
    rw [View.advance_trail_self, List.find?_cons, hhead, Option.some.injEq] at hfind
    exact isSome_of_holds hexec hop (hfind ▸ hfound)
  · rw [View.advance_sinceAny_of_ne _ _ _ _ _ hop, List.forall_mem_cons] at hkept
    refine isSome_of_exec hexec hkept.1 (h.held j id ?_ hkept.2)
    obtain ⟨taken, hfind, hfound⟩ := hholds
    refine ⟨taken, ?_, hfound⟩
    by_cases hji : j = i
    · subst hji
      have hhead : holds id (⟨op, result⟩ : Taken Op Op.Result).1 = false := by
        simpa using hop
      rwa [View.advance_trail_self, List.find?_cons, hhead] at hfind
    · rwa [View.advance_trail_of_ne _ _ _ _ _ hji] at hfind

theorem KeysInv.made_advance (h : KeysInv service start calls view)
    (hlegal : (calls i).Legal service (⟨op, result⟩ :: view.trail i))
    (hexec : exec op view.world = .ok (result, world)) (t : TicketRow) (ht : t ∈ world.db.tickets) :
    (∃ old ∈ start.db.tickets, old.id = t.id) ∨ ∃ j new, drawnId? service (calls j) = some t.id ∧
      ⟨.TicketInsert new, ()⟩ ∈ (view.advance i op result world).trail j := by
  rw [tables_of_exec hexec] at ht
  rcases ticket_of_write ht with ⟨old, hold, hid⟩ | ⟨new, rfl, hid⟩
  · rw [← hid]
    refine (h.made old hold).imp_right fun ⟨j, new, hdrawn, hmade⟩ => ⟨j, new, hdrawn, ?_⟩
    exact (view.mem_trail_advance _ _ _ _).mpr (.inr hmade)
  · obtain ⟨input, env, owner, hcall, rfl, -⟩ := Call.submission_of_legal hlegal
    refine .inr ⟨i, service.newTicket input env, ?_, ?_⟩
    · rw [hcall, ← hid]
      rfl
    · rw [View.advance_trail_self]
      exact List.mem_cons_self

-- A call that opens its ticket finds the id unused.
theorem KeysInv.unused (h : KeysInv service start calls view)
    (hapart : DrawnApart service start calls) {t : Ticket}
    (hlegal : (calls i).Legal service (⟨.TicketInsert t, ()⟩ :: view.trail i)) :
    view.world.db.ticket? t.id = none := by
  obtain ⟨input, env, owner, hcall, rfl, htrail⟩ := Call.submission_of_legal hlegal
  have hdrawn : drawnId? service (calls i) = some (service.newTicket input env).id := by
    rw [hcall]
    rfl
  rw [Tables.ticket?_eq_none_iff]
  intro hused
  obtain ⟨row, hrow, hid⟩ := List.mem_map.mp hused
  rcases h.made row hrow with ⟨old, hold, holdId⟩ | ⟨j, new, hother, hmade⟩
  · have hunused := hapart.unused i _ hdrawn
    rw [Tables.ticket?_eq_none_iff] at hunused
    exact hunused (List.mem_map.mpr ⟨old, hold, holdId.trans hid⟩)
  · obtain rfl := hapart.apart i j _ hdrawn (hid ▸ hother)
    simp [htrail] at hmade

theorem upkeep_keysInv (service : Feedback.Service) (start : World) (calls : ι → Call) :
    Upkeep (fun i => (calls i).Legal service) (fun i => (calls i).Ends service) Undisturbed
      (KeysInv service start calls) where
  advance _ _ _ _ _ _ hinv _ hlegal _ hexec :=
    ⟨hinv.held_advance hexec, hinv.made_advance hlegal hexec⟩
  ends _ _ _ _ hinv _ _ := ⟨hinv.held, hinv.made⟩
  uncounted _ _ hinv := ⟨hinv.held, hinv.made⟩

theorem holds_of_routeTrail {dc : Dc.Delivery} {now : Int} {owner : UInt32} {msg : Dc.IncomingMsg}
    {base : Trail} {m : NewMessage} (hbase : ∀ m, ⟨.MessageInsert m, ()⟩ ∉ base)
    (h : Dc.RouteTrail dc now owner msg base (⟨.MessageInsert m, ()⟩ :: trail)) :
    Holds m.ticketId trail := by
  obtain ⟨quoted, t, rest, rfl, rfl⟩ := Dc.message_of_routeTrail dc now owner msg h hbase
  exact ⟨⟨.TicketGetById (Dc.adminRoute msg quoted).ticketId, some t⟩,
    List.find?_cons_of_pos (beq_self_eq_true _), by simp⟩

-- A call stores messages on tickets it has read or opened.
theorem holds_of_legal {call : Call} {m : NewMessage}
    (h : call.Legal service (⟨.MessageInsert m, ()⟩ :: trail)) : Holds m.ticketId trail := by
  cases call with
  | SubmitNew input env =>
      cases h with
      | Stored owner hmay =>
          exact ⟨⟨.TicketInsert (service.newTicket input env), ()⟩,
            List.find?_cons_of_pos (beq_self_eq_true _), by simp⟩
  | SubmitReply input env =>
      cases h with
      | Stored t quoteId hmay =>
          refine ⟨⟨.TicketGetById input.ticketId, some t⟩, ?_, by simp⟩
          simp [holds, Feedback.Service.replyMessage, MessagesRepo.newMessage]
  | IncomingMsg dc now msg => exact holds_of_routeTrail (by simp) (Dc.message_of_incomingTrail dc now msg h)
  | RouteAdminMsg dc now owner msg => exact holds_of_routeTrail (by simp) h
  | PurgeInactive cutoff => cases h
  | PurgeExpired now => cases h

-- Every run of calls that draw different new ids in which no ticket is purged
-- between a call's reading or opening it and its message on it.
theorem calls_never_fail (service : Feedback.Service) (world : World) (calls : ι → Call)
    (hdrawn : DrawnApart service world calls) (pool : CallPool ι)
    (hrun : Pool.Reaches exec Undisturbed (startCalls service world calls) pool) (i : ι)
    (exn : SqlError) : pool.result i ≠ some (.error exn) := by
  have hsound : (startCalls service world calls).Sound exec (fun i => (calls i).Legal service)
      (fun i => (calls i).Ends service) (KeysInv service world calls) := by
    refine .start (fun i => Call.legal_start service (calls i)) (fun i => (calls i).follows service)
      ⟨fun i id hholds => ?_, fun t ht => .inl ⟨t, ht, rfl⟩⟩
    obtain ⟨taken, hfind, -⟩ := hholds
    simp [Pool.start, View.trail] at hfind
  refine hsound.never_fails (upkeep_keysInv service world calls).preserves (fun i exn => by
    simp [startCalls, Pool.start]) ?_ hrun i exn
  intro view i op failed _ hinv hadmits hlegal hexec
  cases op with
  | TicketInsert t =>
      obtain ⟨before, _, later, hok⟩ := exists_exec (.TicketInsert t)
      have hunused := hinv.unused hdrawn (hlegal before () later hok)
      simp [exec, (view.world.db.ticket?_eq_none_iff t.id).mp hunused] at hexec
  | MessageInsert m =>
      obtain ⟨before, _, later, hok⟩ := exists_exec (.MessageInsert m)
      have hheld := holds_of_legal (hlegal before () later hok)
      have hticket := hinv.held i m.ticketId hheld hadmits
      rw [exec_messageInsert_error hexec] at hticket
      simp at hticket
  | _ => exact exec_ne_error rfl _ _ hexec

instance (view : CallView ι) (i : ι) : (op : Op) → Decidable (Undisturbed view i op)
  | .MessageInsert m => inferInstanceAs (Decidable
      (∀ event ∈ view.sinceAny i (holds m.ticketId), deletes m.ticketId event.before event.op = false))
  | .TicketInsert .. | .TicketGetById .. | .TicketSetStatus .. | .TicketClose .. | .TicketPurgeInactive ..
  | .MessageSetDcMsgId .. | .MessagesByTicket .. | .FindTicketByDcMsgId ..
  | .LatestDcMsgIdForTicket .. | .ReplayInsert .. | .ReplayPurge .. | .StateGet .. | .StateSet ..
  | .StateDel .. | .LastInsertRowid | .Changes | .OwnerLoad | .OwnerStore .. | .DcSend .. =>
      isTrue trivial

-- Two submissions, the second with a draw of its own or that of the first, an
-- answer to the first and a purge.
def sampleCalls (draw : UInt64) : Fin 4 → Call
  | 0 => sampleSubmission 1 100
  | 1 => sampleSubmission draw 101
  | 2 => sampleAnswer (utf8 "[" ++ Feedback.makeTicketId 1 ++ utf8 "] done")
  | 3 => .PurgeInactive 1700003600

def seeResults (pool : CallPool (Fin 4)) : List (Option (Except SqlError Outcome)) :=
  List.ofFn pool.result

def submitted (draw : UInt64) : Outcome :=
  .Submitted ⟨.Ok, Feedback.makeTicketId draw, Feedback.Service.readToken
    { sampleEnv 0 with draw := fun _ => draw }⟩

theorem drawn_sampleCalls {draw : UInt64} : ∀ {i : Fin 4} {id : Bytes},
    drawnId? sampleService (sampleCalls draw i) = some id →
      (i = 0 ∧ id = Feedback.makeTicketId 1) ∨ i = 1 ∧ id = Feedback.makeTicketId draw
  | 0, _, h => .inl ⟨rfl, (Option.some.inj h).symm⟩
  | 1, _, h => .inr ⟨rfl, (Option.some.inj h).symm⟩
  | 2, _, h => nomatch h
  | 3, _, h => nomatch h

theorem drawnApart_sampleCalls :
    DrawnApart sampleService { World.empty with owner := 7 } (sampleCalls 2) where
  unused _ _ _ := rfl
  apart i j id hi hj := by
    have hother : Feedback.makeTicketId 1 ≠ Feedback.makeTicketId 2 := by decide +kernel
    rcases drawn_sampleCalls hi with ⟨rfl, hid⟩ | ⟨rfl, hid⟩ <;>
      rcases drawn_sampleCalls hj with ⟨rfl, hother'⟩ | ⟨rfl, hother'⟩
    · rfl
    · exact absurd (hid.symm.trans hother') hother
    · exact absurd (hother'.symm.trans hid) hother
    · rfl

-- The first ticket is purged when it has been answered.
theorem calls_never_fail_sample : ∃ pool : CallPool (Fin 4),
    (Pool.Reaches exec Undisturbed
        (startCalls sampleService { World.empty with owner := 7 } (sampleCalls 2)) pool ∧
      seeResults pool = [some (.ok (submitted 1)), some (.ok (submitted 2)),
        some (.ok .Handled), some (.ok (.Purged 1))]) ∧
    ∀ i exn, pool.result i ≠ some (.error exn) := by
  obtain ⟨pool, hrun, hseen⟩ := Pool.exists_reaches_of_follow exec Undisturbed
    [0, 0, 0, 0, 0, 2, 0, 0, 0, 0, 2, 0, 2, 2, 2, 3, 3, 3, 1, 1, 1, 1, 1, 1, 1, 1, 1, 1]
    (startCalls sampleService { World.empty with owner := 7 } (sampleCalls 2)) seeResults
    [some (.ok (submitted 1)), some (.ok (submitted 2)), some (.ok .Handled), some (.ok (.Purged 1))]
    (by decide +kernel)
  exact ⟨pool, ⟨hrun, hseen⟩, fun i exn => calls_never_fail sampleService
    { World.empty with owner := 7 } (sampleCalls 2) drawnApart_sampleCalls pool hrun i exn⟩

-- The second submission draws the id of the first one's ticket; the ticket is
-- purged after the answer has been routed to it and before it is stored.
theorem calls_fail :
    (¬ ∀ pool : CallPool (Fin 4), Pool.Reaches exec (fun _ _ _ => True)
        (startCalls sampleService { World.empty with owner := 7 } (sampleCalls 1073741825)) pool →
      ∀ i, pool.result i ≠ some (.error .PrimaryKey)) ∧
    ¬ ∀ pool : CallPool (Fin 4), Pool.Reaches exec (fun _ _ _ => True)
        (startCalls sampleService { World.empty with owner := 7 } (sampleCalls 1073741825)) pool →
      ∀ i, pool.result i ≠ some (.error .ForeignKey) := by
  obtain ⟨pool, hrun, hseen⟩ := Pool.exists_reaches_of_follow exec (fun _ _ _ => True)
    [0, 0, 0, 0, 0, 0, 0, 0, 0, 0, 1, 1, 1, 1, 2, 3, 3, 3, 2]
    (startCalls sampleService { World.empty with owner := 7 } (sampleCalls 1073741825)) seeResults
    [some (.ok (submitted 1)), some (.error .PrimaryKey), some (.error .ForeignKey),
      some (.ok (.Purged 1))] (by decide +kernel)
  simp only [seeResults, List.ofFn_succ, List.ofFn_zero, List.cons.injEq] at hseen
  exact ⟨fun hclaim => hclaim pool hrun 1 hseen.2.1, fun hclaim => hclaim pool hrun 2 hseen.2.2.1⟩

end DeltaFeedback.Concurrency
