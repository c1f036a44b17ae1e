import DeltaFeedback.Concurrency.Status

namespace DeltaFeedback.Concurrency

open Text Interleaving Db
open Feedback (sampleService)

variable {ι : Type} [DecidableEq ι]

def closes (id : Bytes) : Op → Bool
  | .TicketClose other _ => other == id
  | _ => false

-- No call stores a message on a ticket that was closed after the call had read it.
def StoredBeforeClose (id : Bytes) : Pool.Condition Op Op.Result World SqlError Outcome ι :=
  fun view i op => match op with
    | .MessageInsert m => m.ticketId = id →
        ∀ event ∈ view.sinceOp i (.TicketGetById id), closes id event.op = false
    | _ => True

-- A ticket found open is open until somebody closes it.
def OpenInv (id : Bytes) (view : CallView ι) : Prop :=
  ∀ i t, ⟨.TicketGetById id, some t⟩ ∈ view.trail i → t.status ≠ .Closed →
    (∀ event ∈ view.sinceOp i (.TicketGetById id), closes id event.op = false) →
    ∃ now, view.world.db.ticket? id = some now ∧ now.status ≠ .Closed

structure ClosedInv (id : Bytes) (t : TicketRow) (messages : List Message) (view : CallView ι) :
    Prop where
  opened : OpenInv id view
  ticket : view.world.db.ticket? id = some t
  messages : view.world.db.messagesByTicket id = messages

variable {service : Feedback.Service} {calls : ι → Call} {id : Bytes} {view : CallView ι} {i : ι}
  {op : Op} {result : op.Result} {world : World} {side : Sender}

-- An open ticket stays open through every step of a conversation but a close.
theorem open_of_exec (hside : (calls i).side? = some side)
    (hlegal : (calls i).Legal service (⟨op, result⟩ :: view.trail i))
    (hexec : exec op view.world = .ok (result, world))
    (hop : closes id op = false)
    (h : ∃ now, view.world.db.ticket? id = some now ∧ now.status ≠ .Closed) :
    ∃ now, world.db.ticket? id = some now ∧ now.status ≠ .Closed := by
  obtain ⟨t, ht, hopen⟩ := h
  obtain ⟨now, hnow, hstep⟩ := Call.ticket_of_exec hside hlegal hexec ht
  refine ⟨now, hnow, ?_⟩
  rcases hstep with rfl | ⟨-, rfl | ⟨closedAt, rfl, -⟩⟩
  · exact hopen
  · cases side <;> simp [Tables.setStatusRow, Sender.statusAfter]
  · simp [closes] at hop

theorem OpenInv.advance (h : OpenInv id view) (hside : (calls i).side? = some side)
    (hlegal : (calls i).Legal service (⟨op, result⟩ :: view.trail i))
    (hexec : exec op view.world = .ok (result, world)) :
    OpenInv id (view.advance i op result world) := by
  intro j t hread hopen hclose
  by_cases hreads : i = j ∧ op = .TicketGetById id
  · obtain ⟨rfl, rfl⟩ := hreads
    rw [View.advance_trail_self] at hread
    rcases List.mem_cons.mp hread with hhead | htail
    · obtain rfl : some t = result := by simpa using hhead
      simp only [exec, Except.ok.injEq, Prod.mk.injEq, Option.map_eq_some_iff] at hexec
      obtain ⟨⟨now, hnow, rfl⟩, rfl⟩ := hexec
      exact ⟨now, hnow, hopen⟩
    · exact absurd htail (Call.read_of_legal hside hlegal)
  · rw [View.advance_sinceOp_of_ne _ _ _ _ _ hreads, List.forall_mem_cons] at hclose
    refine open_of_exec hside hlegal hexec hclose.1 (h j t ?_ hopen hclose.2)
    rcases (view.mem_trail_advance _ _ _ _).mp hread with ⟨hji, hhead⟩ | hearlier
    · exact absurd ⟨hji.symm, (congrArg Sigma.fst hhead).symm⟩ hreads
    · exact hearlier

-- On a closed ticket a step of a conversation finds nothing to change.
theorem ClosedInv.advance {t : TicketRow} {messages : List Message} (h : ClosedInv id t messages view)
    (hclosed : t.status = .Closed) (hside : (calls i).side? = some side)
    (hlegal : (calls i).Legal service (⟨op, result⟩ :: view.trail i))
    (hadmits : StoredBeforeClose id view i op) (hexec : exec op view.world = .ok (result, world)) :
    ClosedInv id t messages (view.advance i op result world) := by
  suffices hkept : world.db.ticket? id = some t ∧ world.db.messagesByTicket id = messages from
    ⟨h.opened.advance hside hlegal hexec, hkept.1, hkept.2⟩
  rw [tables_of_exec hexec]
  cases htouches : op.touches id with
  | false =>
      have hframe := write_of_not_touches htouches view.world.db.toTables
      exact ⟨hframe.1.trans h.ticket, hframe.2.trans h.messages⟩
  | true =>
      rcases Call.touches_of_legal hside hlegal htouches with
        ⟨m, rfl, hm⟩ | ⟨status, rfl⟩ | ⟨closedAt, rfl⟩
      · obtain ⟨read, hread, hopen, -⟩ := (Call.storesAfter_of_legal hside hlegal).read
        rw [hm] at hread
        obtain ⟨now, hnow, hnowOpen⟩ := h.opened i read hread hopen (hadmits hm)
        rw [h.ticket, Option.some.injEq] at hnow
        exact absurd (hnow ▸ hclosed) hnowOpen
      · exact ⟨by simp [Op.write, Tables.ticket?_ticketSetStatus, h.ticket, hclosed], h.messages⟩
      · exact ⟨by simp [Op.write, Tables.ticket?_ticketClose, h.ticket, hclosed], h.messages⟩

theorem upkeep_openInv (service : Feedback.Service) (calls : ι → Call) (id : Bytes)
    (hcalls : ∀ i, (calls i).side?.isSome) :
    Upkeep (fun i => (calls i).Legal service) (fun i => (calls i).Ends service)
      (StoredBeforeClose id) (OpenInv id) where
  advance view i op result world _ hinv _ hlegal _ hexec := by
    obtain ⟨side, hside⟩ := Option.isSome_iff_exists.mp (hcalls i)
    exact hinv.advance hside hlegal hexec
  ends view i outcome _ hinv _ _ := hinv
  uncounted view attempts hinv := hinv

theorem upkeep_closedInv (service : Feedback.Service) (calls : ι → Call) (id : Bytes)
    (hcalls : ∀ i, (calls i).side?.isSome) {t : TicketRow} {messages : List Message}
    (hclosed : t.status = .Closed) :
    Upkeep (fun i => (calls i).Legal service) (fun i => (calls i).Ends service)
      (StoredBeforeClose id) (ClosedInv id t messages) where
  advance view i op result world _ hinv _ hlegal hadmits hexec := by
    obtain ⟨side, hside⟩ := Option.isSome_iff_exists.mp (hcalls i)
    exact hinv.advance hclosed hside hlegal hadmits hexec
  ends view i outcome _ hinv _ _ := ⟨hinv.opened, hinv.ticket, hinv.messages⟩
  uncounted view attempts hinv := ⟨hinv.opened, hinv.ticket, hinv.messages⟩

-- From the moment a ticket is closed, in every run in which no message is stored
-- by a call that read the ticket before the close and stores after it.
theorem closed_immutable (service : Feedback.Service) (world : World) (calls : ι → Call)
    (hcalls : ∀ i, (calls i).side?.isSome) (id : Bytes) (pool later : CallPool ι)
    (hrun : Pool.Reaches exec (StoredBeforeClose id) (startCalls service world calls) pool)
    (hlater : Pool.Reaches exec (StoredBeforeClose id) pool later) (t : TicketRow)
    (ht : pool.world.db.ticket? id = some t) (hclosed : t.status = .Closed) :
    later.world.db.ticket? id = some t ∧
      later.world.db.messagesByTicket id = pool.world.db.messagesByTicket id := by
  have hstart : (startCalls service world calls).Sound exec (fun i => (calls i).Legal service)
      (fun i => (calls i).Ends service) (OpenInv id) :=
    .start (fun i => Call.legal_start service (calls i)) (fun i => (calls i).follows service)
      (fun i t hread => by simp [Pool.start, View.trail] at hread)
  have hpool := hstart.reaches (upkeep_openInv service calls id hcalls).preserves hrun
  have hclosedPool : pool.Sound exec (fun i => (calls i).Legal service)
      (fun i => (calls i).Ends service) (ClosedInv id t (pool.world.db.messagesByTicket id)) :=
    ⟨hpool.lawful, ⟨hpool.inv, ht, rfl⟩, hpool.follows⟩
  have hinv := (hclosedPool.reaches (upkeep_closedInv service calls id hcalls hclosed).preserves hlater).inv
  exact ⟨hinv.ticket, hinv.messages⟩

instance (view : CallView ι) (i : ι) : (op : Op) → Decidable (StoredBeforeClose id view i op)
  | .MessageInsert m => inferInstanceAs (Decidable (m.ticketId = id →
      ∀ event ∈ view.sinceOp i (.TicketGetById id), closes id event.op = false))
  | .TicketInsert .. | .TicketGetById .. | .TicketSetStatus .. | .TicketClose ..
  | .TicketPurgeInactive .. | .MessageSetDcMsgId ..
  | .MessagesByTicket .. | .FindTicketByDcMsgId .. | .LatestDcMsgIdForTicket .. | .ReplayInsert ..
  | .ReplayPurge .. | .StateGet .. | .StateSet .. | .StateDel .. | .LastInsertRowid | .Changes
  | .OwnerLoad | .OwnerStore .. | .DcSend .. => isTrue trivial

def closingCalls : Fin 3 → Call
  | 0 => sampleReply (utf8 "first") 100
  | 1 => sampleAnswer (utf8 "[A3F2K9] /close")
  | 2 => sampleReply (utf8 "second") 101

def seeTicket (pool : CallPool (Fin 3)) : Option TicketStatus × Nat :=
  ((pool.world.db.ticket? sampleTicket.id).map fun t => t.status,
    (pool.world.db.messagesByTicket sampleTicket.id).length)

-- The first reply is stored before the close and finished after it; the second
-- finds the ticket closed.
theorem closed_immutable_sample : ∃ pool later : CallPool (Fin 3), ∃ t,
    (Pool.Reaches exec (StoredBeforeClose sampleTicket.id)
      (startCalls sampleService sampleWorld closingCalls) pool ∧
    Pool.Reaches exec (StoredBeforeClose sampleTicket.id) pool later ∧
    pool.world.db.ticket? sampleTicket.id = some t ∧ t.status = .Closed ∧
    List.ofFn later.result =
      [some (.ok (.Replied .Ok)), some (.ok .Handled), some (.ok (.Replied .Closed))]) ∧
    later.world.db.ticket? sampleTicket.id = some t ∧
      later.world.db.messagesByTicket sampleTicket.id =
        pool.world.db.messagesByTicket sampleTicket.id := by
  obtain ⟨pool, hrun, hseen⟩ := Pool.exists_reaches_of_follow exec
    (StoredBeforeClose sampleTicket.id) [0, 0, 0, 0, 0, 1, 1]
    (startCalls sampleService sampleWorld closingCalls)
    (fun pool => (seeTicket pool, (Pool.follow exec (StoredBeforeClose sampleTicket.id)
      [0, 0, 0, 2, 0, 0, 1, 2, 1, 0] pool).map fun later => List.ofFn later.result))
    ((some .Closed, 3),
      some [some (.ok (.Replied .Ok)), some (.ok .Handled), some (.ok (.Replied .Closed))])
    (by decide +kernel)
  obtain ⟨hticket, hfollow⟩ := Prod.mk.inj hseen
  obtain ⟨t, ht, hclosed⟩ := Option.map_eq_some_iff.mp (Prod.mk.inj hticket).1
  obtain ⟨later, hlater, hresult⟩ := Pool.exists_reaches_of_follow _ _ _ _ _ _ hfollow
  exact ⟨pool, later, t, ⟨hrun, hlater, ht, hclosed, hresult⟩, closed_immutable sampleService
    sampleWorld closingCalls (by decide) sampleTicket.id pool later hrun hlater t ht hclosed⟩

-- The close falls between the reply's read and its INSERT: the closed ticket gets
-- one more message, and the visitor is told that it was sent.
theorem closed_overtaken : ¬ ∀ pool later : CallPool (Fin 3),
    Pool.Reaches exec (fun _ _ _ => True) (startCalls sampleService sampleWorld closingCalls) pool →
    Pool.Reaches exec (fun _ _ _ => True) pool later →
    ∀ t, pool.world.db.ticket? sampleTicket.id = some t → t.status = .Closed →
      later.world.db.ticket? sampleTicket.id = some t ∧
      later.world.db.messagesByTicket sampleTicket.id =
        pool.world.db.messagesByTicket sampleTicket.id := by
  intro hclaim
  obtain ⟨pool, hrun, hseen⟩ := Pool.exists_reaches_of_follow exec (fun _ _ _ => True)
    [0, 0, 0, 0, 1, 1]
    (startCalls sampleService sampleWorld closingCalls)
    (fun pool => (seeTicket pool, (Pool.follow exec (fun _ _ _ => True)
      [0, 1, 1, 0, 0, 0, 0, 0, 0] pool).map seeTicket))
    ((some .Closed, 2), some (some .Closed, 3)) (by decide +kernel)
  obtain ⟨hticket, hfollow⟩ := Prod.mk.inj hseen
  obtain ⟨t, ht, hclosed⟩ := Option.map_eq_some_iff.mp (Prod.mk.inj hticket).1
  obtain ⟨later, hlater, hlaterSeen⟩ := Pool.exists_reaches_of_follow _ _ _ _ _ _ hfollow
  have hsame := (hclaim pool later hrun hlater t ht hclosed).2
  have hlength := (Prod.mk.inj hlaterSeen).2
  rw [hsame, (Prod.mk.inj hticket).2] at hlength
  simp at hlength

end DeltaFeedback.Concurrency
