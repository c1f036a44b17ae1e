import DeltaFeedback.Calls.Conversation
import DeltaFeedback.Db.Turns

namespace DeltaFeedback.Concurrency

open Text Interleaving Db
open Feedback (sampleService)

abbrev CallView (ι : Type) := View Op Op.Result World SqlError Outcome ι

abbrev CallPool (ι : Type) := Pool Op Op.Result World SqlError Outcome ι

variable {ι : Type} [DecidableEq ι]

def startCalls (service : Feedback.Service) (world : World) (calls : ι → Call) : CallPool ι :=
  Pool.start world fun i => (calls i).prog service

-- A call between its message INSERT on a ticket and its status UPDATE.
structure Pending (id : Bytes) (side : Sender) (view : CallView ι) (i : ι) : Prop where
  running : (view.result i).isNone
  stored : ∃ taken ∈ view.trail i, taken.1.stores id side = true
  unwritten : ∀ taken ∈ view.trail i, taken.1.writesStatus id = false

instance (id : Bytes) (side : Sender) (view : CallView ι) (i : ι) :
    Decidable (Pending id side view i) :=
  decidable_of_iff ((view.result i).isNone ∧ (∃ taken ∈ view.trail i, taken.1.stores id side = true) ∧
    ∀ taken ∈ view.trail i, taken.1.writesStatus id = false)
    ⟨fun h => ⟨h.1, h.2.1, h.2.2⟩, fun h => ⟨h.running, h.stored, h.unwritten⟩⟩

-- A status UPDATE on an open ticket whose last message is the other side's
-- leaves a call of that side to write its own status later.
def LastWordWrites (id : Bytes) : Pool.Condition Op Op.Result World SqlError Outcome ι :=
  fun view i op => match op with
    | .TicketSetStatus other status => other = id →
        (∃ t ∈ view.world.db.ticket? id, t.status ≠ .Closed) →
        ∃ side ∈ view.world.db.lastSender id,
          status = side.statusAfter ∨ ∃ j, j ≠ i ∧ Pending id side view j
    | _ => True

def StatusInv (id : Bytes) (view : CallView ι) : Prop :=
  view.world.db.InTurn id ∨
    ∃ side j, view.world.db.lastSender id = some side ∧ Pending id side view j

variable {id : Bytes} {side : Sender} {view : CallView ι} {i j : ι} {op : Op} {result : op.Result}
  {world : World}

theorem Pending.advance_other (h : Pending id side view j) (hji : j ≠ i) :
    Pending id side (view.advance i op result world) j where
  running := h.running
  stored := by simpa only [View.advance_trail_of_ne _ _ _ _ _ hji] using h.stored
  unwritten := by simpa only [View.advance_trail_of_ne _ _ _ _ _ hji] using h.unwritten

theorem Pending.advance (h : Pending id side view j) (hop : op.writesStatus id = false) :
    Pending id side (view.advance i op result world) j := by
  by_cases hji : j = i
  · subst j
    obtain ⟨taken, hmem, hstores⟩ := h.stored
    refine ⟨h.running, ⟨taken, ?_, hstores⟩, ?_⟩
    · rw [View.advance_trail_self]
      exact List.mem_cons_of_mem _ hmem
    · rw [View.advance_trail_self, List.forall_mem_cons]
      exact ⟨hop, h.unwritten⟩
  · exact h.advance_other hji

theorem Pending.finish {outcome : Except SqlError Outcome} (h : Pending id side view j)
    (hji : j ≠ i) : Pending id side (view.finish i outcome) j where
  running := by
    rw [View.finish_result_of_ne _ _ _ hji]
    exact h.running
  stored := h.stored
  unwritten := h.unwritten

-- A call that returns has nothing pending.
theorem Pending.not_ends {service : Feedback.Service} {call : Call} {writer : Sender}
    {outcome : Except SqlError Outcome} (h : Pending id side view i)
    (hside : call.side? = some writer) (hends : call.Ends service (view.trail i) outcome) : False := by
  obtain ⟨⟨op, result⟩, hmem, hstores⟩ := h.stored
  cases op with
  | MessageInsert m =>
      obtain ⟨status, hstatus⟩ := Call.setStatus_of_ends hside hends hmem
      have hticket : m.ticketId = id := by
        simp only [Op.stores, Bool.and_eq_true, beq_iff_eq] at hstores
        exact hstores.1
      simpa [Op.writesStatus, hticket] using h.unwritten _ hstatus
  | _ => simp [Op.stores] at hstores

-- The call that stores a message has its status still to write.
theorem pending_of_stored {service : Feedback.Service} {call : Call} {writer : Sender}
    {m : NewMessage} (hrunning : view.result i = none) (hside : call.side? = some writer)
    (hlegal : call.Legal service (⟨.MessageInsert m, ()⟩ :: view.trail i)) (hm : m.ticketId = id) :
    Pending id m.sender (view.advance i (.MessageInsert m) () world) i where
  running := by simp [hrunning]
  stored := ⟨⟨.MessageInsert m, ()⟩, by simp, by simp [Op.stores, hm]⟩
  unwritten := by
    rw [View.advance_trail_self, List.forall_mem_cons]
    refine ⟨rfl, ?_⟩
    rintro ⟨op, result⟩ hmem
    cases op with
    | TicketSetStatus other status =>
        exact absurd hmem ((Call.storesAfter_of_legal hside hlegal).unwritten other status)
    | _ => rfl

theorem writesStatus_of_not_touches (hop : op.touches id = false) : op.writesStatus id = false := by
  cases op <;> first | rfl | exact hop

theorem StatusInv.advance_untouched (h : StatusInv id view) (hop : op.touches id = false)
    (hexec : exec op view.world = .ok (result, world)) :
    StatusInv id (view.advance i op result world) := by
  have htables := tables_of_exec hexec
  rcases h with hturn | ⟨side, j, hlast, hpending⟩
  · refine .inl ?_
    rw [View.advance_world, htables]
    exact hturn.write hop
  · refine .inr ⟨side, j, ?_, hpending.advance (writesStatus_of_not_touches hop)⟩
    rw [View.advance_world, htables, Tables.write_of_lastSender hop, hlast]

theorem upkeep_statusInv (service : Feedback.Service) (calls : ι → Call) (id : Bytes)
    (hcalls : ∀ i, (calls i).side?.isSome) :
    Upkeep (fun i => (calls i).Legal service) (fun i => (calls i).Ends service)
      (LastWordWrites id) (StatusInv id) where
  advance view i op result world _ hinv hrunning hlegal hadmits hexec := by
    obtain ⟨side, hside⟩ := Option.isSome_iff_exists.mp (hcalls i)
    cases htouches : op.touches id with
    | false => exact hinv.advance_untouched htouches hexec
    | true =>
        have htables := tables_of_exec hexec
        rcases Call.touches_of_legal hside hlegal htouches with
          ⟨m, rfl, hm⟩ | ⟨status, rfl⟩ | ⟨closedAt, rfl⟩
        · refine .inr ⟨m.sender, i, ?_, pending_of_stored hrunning hside hlegal hm⟩
          rw [View.advance_world, htables]
          exact Tables.lastSender_messageInsert m hm
        · by_cases hopen : ∃ t ∈ view.world.db.ticket? id, t.status ≠ .Closed
          · obtain ⟨last, hlast, hwriter⟩ := hadmits rfl hopen
            rcases hwriter with rfl | ⟨j, hji, hpending⟩
            · refine .inl ?_
              rw [View.advance_world, htables]
              exact Tables.inTurn_ticketSetStatus hlast
            · refine .inr ⟨last, j, ?_, hpending.advance_other hji⟩
              rw [View.advance_world, htables]
              exact hlast
          · refine .inl ?_
            rw [View.advance_world, htables]
            exact Tables.inTurn_ticketSetStatus_of_closed fun t ht =>
              by_contra fun hstatus => hopen ⟨t, ht, hstatus⟩
        · refine .inl ?_
          rw [View.advance_world, htables]
          exact Tables.inTurn_ticketClose closedAt
  ends view i outcome _ hinv _ hends := by
    obtain ⟨side, hside⟩ := Option.isSome_iff_exists.mp (hcalls i)
    rcases hinv with hturn | ⟨last, j, hlast, hpending⟩
    · exact .inl hturn
    · by_cases hji : j = i
      · subst j
        exact (hpending.not_ends hside hends).elim
      · exact .inr ⟨last, j, hlast, hpending.finish hji⟩
  uncounted view attempts hinv := hinv.imp (fun hturn => hturn) fun ⟨last, j, hlast, hpending⟩ =>
    ⟨last, j, hlast, hpending.running, hpending.stored, hpending.unwritten⟩

-- Every run in which a status is written over the other side's word only while
-- that side has still to write its own.
theorem status_inTurn (service : Feedback.Service) (world : World) (calls : ι → Call)
    (hcalls : ∀ i, (calls i).side?.isSome) (id : Bytes) (hstart : world.db.InTurn id)
    (pool : CallPool ι)
    (hrun : Pool.Reaches exec (LastWordWrites id) (startCalls service world calls) pool)
    (hquiet : pool.toView.Quiescent) : pool.world.db.InTurn id := by
  have hsound : (startCalls service world calls).Sound exec (fun i => (calls i).Legal service)
      (fun i => (calls i).Ends service) (StatusInv id) :=
    .start (fun i => Call.legal_start service (calls i)) (fun i => (calls i).follows service)
      (.inl hstart)
  rcases (hsound.reaches (upkeep_statusInv service calls id hcalls).preserves hrun).inv with
    hturn | ⟨side, j, -, hpending⟩
  · exact hturn
  · obtain ⟨taken, hmem, -⟩ := hpending.stored
    have hrunning := hpending.running
    rcases hquiet j with hidle | hdone
    · simp [hidle] at hmem
    · simp [Option.isNone_iff_eq_none.mp hrunning] at hdone

def sampleTicket : Ticket where
  id := utf8 "A3F2K9"
  readTokenHash := (Pow.fips.sha256 (utf8 "read-token")).val
  name := utf8 "Ann"
  locale := utf8 "en"
  status := .AwaitingAdmin
  createdAt := 1700000000
  closedAt := none

-- A ticket the admin has answered.
def sampleWorld : World :=
  let setup : Proc Unit := do
    TicketsRepo.insertNew sampleTicket
    let _ ← MessagesRepo.append sampleTicket.id .Visitor (utf8 "hello") 1700000000 []
    let _ ← MessagesRepo.append sampleTicket.id .Admin (utf8 "hi") 1700000005 []
    TicketsRepo.setStatus sampleTicket.id .AwaitingVisitor
  (setup.run exec [] { World.empty with owner := 7 }).2.2

def sampleReplyInput (challengeId : Bytes) : Feedback.ReplyInput where
  ticketId := sampleTicket.id
  readToken := utf8 "read-token"
  powToken := (sampleService.issuer.issue Pow.fips 1700000000 challengeId).token
  powNonce := []
  body := utf8 "one more thing"
  visitorIp := utf8 "192.0.2.1"

def sampleEnv (dcMsgId : UInt32) : Feedback.Env where
  verifyClock := 1700000010
  consumeClock := 1700000010
  writeClock := 1700000010
  draw := fun _ => 0
  delivery := ⟨12, true, true, dcMsgId⟩

def sampleReply (challengeId : Bytes) (dcMsgId : UInt32) : Call :=
  .SubmitReply (sampleReplyInput challengeId) (sampleEnv dcMsgId)

def sampleAnswer (text : Bytes) : Call :=
  .RouteAdminMsg ⟨12, true, true, 200⟩ 1700000010 7
    { msgId := 50, fromId := 7, text, quotedMsgId := 0, quotedText := [] }

def sampleSubmission (draw : UInt64) (dcMsgId : UInt32) : Call :=
  .SubmitNew
    { powToken := (sampleService.issuer.issue Pow.fips 1700000000 (decimal draw.toNat)).token
      powNonce := []
      name := utf8 "Ann"
      locale := utf8 "en"
      honeypot := []
      message := utf8 "hello"
      fillTimeMs := 5000
      visitorIp := utf8 "192.0.2.1" }
    { sampleEnv dcMsgId with draw := fun _ => draw }

def crossingCalls : Fin 2 → Call
  | 0 => sampleReply (utf8 "first") 100
  | 1 => sampleAnswer (utf8 "[A3F2K9] done")

instance {n : Nat} (view : CallView (Fin n)) (i : Fin n) (op : Op) :
    Decidable (LastWordWrites id view i op) := by
  cases op <;> simp only [LastWordWrites] <;> infer_instance

theorem status_inTurn_sample : ∃ pool, (Pool.Reaches exec (LastWordWrites sampleTicket.id)
      (startCalls sampleService sampleWorld crossingCalls) pool ∧
    List.ofFn pool.result = [some (.ok (.Replied .Ok)), some (.ok .Handled)]) ∧
    pool.world.db.InTurn sampleTicket.id := by
  obtain ⟨pool, hrun, hresult⟩ := Pool.exists_reaches_of_follow exec
    (LastWordWrites sampleTicket.id) [0, 0, 0, 0, 1, 0, 0, 0, 1, 1, 0, 1, 1, 0, 0, 0]
    (startCalls sampleService sampleWorld crossingCalls) (fun pool => List.ofFn pool.result)
    [some (.ok (.Replied .Ok)), some (.ok .Handled)] (by decide +kernel)
  have hresults := hresult
  simp only [List.ofFn_succ, List.ofFn_zero, List.cons.injEq] at hresults
  have hquiet : pool.toView.Quiescent
    | 0 => .inr (congrArg Option.isSome hresults.1)
    | 1 => .inr (congrArg Option.isSome hresults.2.1)
  exact ⟨pool, ⟨hrun, hresult⟩, status_inTurn sampleService sampleWorld crossingCalls
    (by decide) sampleTicket.id (by decide +kernel) pool hrun hquiet⟩

-- The visitor's message is stored before the admin's, its status written after:
-- the admin has the last word and the visitor is locked out.
theorem status_lost : ¬ ∀ pool, Pool.Reaches exec (fun _ _ _ => True)
      (startCalls sampleService sampleWorld crossingCalls) pool → pool.toView.Quiescent →
    pool.world.db.InTurn sampleTicket.id := by
  intro hclaim
  obtain ⟨pool, hrun, hseen⟩ := Pool.exists_reaches_of_follow exec (fun _ _ _ => True)
    [0, 0, 0, 0, 0, 1, 1, 1, 1, 1, 0, 0, 0, 0, 0, 0]
    (startCalls sampleService sampleWorld crossingCalls)
    (fun pool => (List.ofFn pool.result, (pool.world.db.ticket? sampleTicket.id).map fun t => t.status,
      pool.world.db.lastSender sampleTicket.id))
    ([some (.ok (.Replied .Ok)), some (.ok .Handled)], some .AwaitingAdmin, some .Admin)
    (by decide +kernel)
  simp only [Prod.mk.injEq, Option.map_eq_some_iff, List.ofFn_succ, List.ofFn_zero,
    List.cons.injEq] at hseen
  obtain ⟨hresult, ⟨t, ht, hstatus⟩, hlast⟩ := hseen
  have hquiet : pool.toView.Quiescent
    | 0 => .inr (congrArg Option.isSome hresult.1)
    | 1 => .inr (congrArg Option.isSome hresult.2.1)
  have hturn := (hclaim pool hrun hquiet t ht (by simp [hstatus])).mpr hlast
  simp [hstatus] at hturn

end DeltaFeedback.Concurrency
