import DeltaFeedback.Concurrency.Status

namespace DeltaFeedback.Concurrency

open Text Interleaving Db

variable {ι : Type} [DecidableEq ι]

-- What happened since the admin's last message on a ticket.
def sinceWord (id : Bytes) (view : CallView ι) : List (Event Op Op.Result World ι) :=
  view.history.takeWhile fun event => !event.op.stores id .Admin

-- A reply is stored only if every reply stored since the admin's last message
-- had written its status before this one read the ticket; the admin's status is
-- written only over replies that have still to write theirs.
def RepliesInTurn (id : Bytes) : Pool.Condition Op Op.Result World SqlError Outcome ι :=
  fun view i op => match op with
    | .MessageInsert m => m.ticketId = id → m.sender = .Visitor →
        ∀ event ∈ sinceWord id view, event.op.stores id .Visitor = true →
          ∃ other ∈ view.upToOp i (.TicketGetById id), other.actor = event.actor ∧
            other.op.writesStatus id = true
    | .TicketSetStatus other status => other = id → status = .AwaitingVisitor →
        ∀ event ∈ sinceWord id view, event.op.stores id .Visitor = true →
          ∀ taken ∈ view.trail event.actor, taken.1.writesStatus id = false
    | _ => True

structure TurnInv (calls : ι → Call) (id : Bytes) (view : CallView ι) : Prop where
  apart : view.world.db.VisitorsApart id
  sides : ∀ event ∈ view.history, ∀ side, event.op.stores id side = true →
    (calls event.actor).side? = some side
  word : (∃ event ∈ view.history, event.op.stores id .Admin = true) →
    (∀ event ∈ sinceWord id view, event.op.stores id .Visitor = false) →
    view.world.db.lastSender id = some .Admin
  waiting : ∀ t, view.world.db.ticket? id = some t → t.status = .AwaitingVisitor →
    view.world.db.lastSender id = some .Admin ∨
      ∃ event ∈ sinceWord id view, event.op.stores id .Visitor = true ∧
        ∀ taken ∈ view.trail event.actor, taken.1.writesStatus id = false
  read : ∀ i t, ⟨.TicketGetById id, some t⟩ ∈ view.trail i → t.status = .AwaitingVisitor →
    (∀ event ∈ sinceWord id view, event.op.stores id .Visitor = true →
      ∃ other ∈ view.upToOp i (.TicketGetById id), other.actor = event.actor ∧
        other.op.writesStatus id = true) →
    view.world.db.lastSender id = some .Admin

variable {service : Feedback.Service} {calls : ι → Call} {id : Bytes} {side : Sender}
  {view : CallView ι} {i : ι} {op : Op} {result : op.Result} {world : World}

omit [DecidableEq ι] in
theorem sinceWord_advance (hop : op.stores id .Admin = false) :
    sinceWord id (view.advance i op result world) =
      ⟨i, op, result, view.world⟩ :: sinceWord id view := by
  simp [sinceWord, hop]

omit [DecidableEq ι] in
theorem mem_history_of_mem_sinceWord {event : Event Op Op.Result World ι}
    (h : event ∈ sinceWord id view) : event ∈ view.history :=
  (List.takeWhile_prefix _).subset h

theorem stores_of_not_touches (hop : op.touches id = false) (side : Sender) :
    op.stores id side = false := by
  cases op <;> first | rfl | simp_all [Op.touches, Op.stores]

theorem stores_messageInsert {m : NewMessage} (hm : m.ticketId = id) :
    (Op.MessageInsert m).stores id side = true ↔ m.sender = side := by
  simp [Op.stores, hm]

-- A step that stores nothing on the ticket and is no read of it by the reply
-- leaves what was said since the reply's read as it was.
theorem TurnInv.read_advance {j : ι} {t : Ticket} (h : TurnInv calls id view)
    (hop : ∀ side, op.stores id side = false) (hreads : ¬ (i = j ∧ op = .TicketGetById id))
    (hlast : world.db.lastSender id = view.world.db.lastSender id)
    (hread : ⟨.TicketGetById id, some t⟩ ∈ (view.advance i op result world).trail j)
    (hstatus : t.status = .AwaitingVisitor)
    (hturn : ∀ event ∈ sinceWord id (view.advance i op result world),
      event.op.stores id .Visitor = true →
      ∃ other ∈ (view.advance i op result world).upToOp j (.TicketGetById id),
        other.actor = event.actor ∧ other.op.writesStatus id = true) :
    world.db.lastSender id = some .Admin := by
  rw [sinceWord_advance (hop .Admin), View.advance_upToOp_of_ne _ _ _ _ _ hreads,
    List.forall_mem_cons] at hturn
  rw [hlast]
  refine h.read j t ?_ hstatus hturn.2
  rcases (view.mem_trail_advance _ _ _ _).mp hread with ⟨hji, hhead⟩ | hearlier
  · exact absurd ⟨hji.symm, (congrArg Sigma.fst hhead).symm⟩ hreads
  · exact hearlier

theorem TurnInv.word_advance (h : TurnInv calls id view) (hop : ∀ side, op.stores id side = false)
    (hlast : world.db.lastSender id = view.world.db.lastSender id)
    (hadmin : ∃ event ∈ (view.advance i op result world).history, event.op.stores id .Admin = true)
    (hnone : ∀ event ∈ sinceWord id (view.advance i op result world),
      event.op.stores id .Visitor = false) : world.db.lastSender id = some .Admin := by
  rw [sinceWord_advance (hop .Admin), List.forall_mem_cons] at hnone
  rw [hlast]
  refine h.word ?_ hnone.2
  obtain ⟨event, hevent, hstores⟩ := hadmin
  rcases List.mem_cons.mp hevent with rfl | hearlier
  · simp [hop .Admin] at hstores
  · exact ⟨event, hearlier, hstores⟩

theorem TurnInv.sides_advance (h : TurnInv calls id view)
    (hop : ∀ side, op.stores id side = true → (calls i).side? = some side) :
    ∀ event ∈ (view.advance i op result world).history, ∀ side, event.op.stores id side = true →
      (calls event.actor).side? = some side := by
  intro event hevent side hstores
  rcases List.mem_cons.mp hevent with rfl | hearlier
  · exact hop side hstores
  · exact h.sides event hearlier side hstores

theorem TurnInv.waiting_untouched (h : TurnInv calls id view) (hop : op.touches id = false)
    (hexec : exec op view.world = .ok (result, world)) {t : TicketRow}
    (ht : world.db.ticket? id = some t) (hstatus : t.status = .AwaitingVisitor) :
    world.db.lastSender id = some .Admin ∨
      ∃ event ∈ sinceWord id (view.advance i op result world), event.op.stores id .Visitor = true ∧
        ∀ taken ∈ (view.advance i op result world).trail event.actor,
          taken.1.writesStatus id = false := by
  have htables := tables_of_exec hexec
  rw [htables, (write_of_not_touches hop _).1] at ht
  rw [htables, Tables.write_of_lastSender hop]
  rcases h.waiting t ht hstatus with hlast | ⟨event, hevent, hstores, hunwritten⟩
  · exact .inl hlast
  · refine .inr ⟨event, ?_, hstores, ?_⟩
    · rw [sinceWord_advance (stores_of_not_touches hop .Admin)]
      exact List.mem_cons_of_mem _ hevent
    · by_cases hactor : event.actor = i
      · rw [hactor, View.advance_trail_self, List.forall_mem_cons]
        exact ⟨writesStatus_of_not_touches hop, hactor ▸ hunwritten⟩
      · rwa [View.advance_trail_of_ne _ _ _ _ _ hactor]

-- A reply that finds the ticket waiting for the visitor, after every reply
-- since the admin's last message has written its status, comes after the admin.
theorem TurnInv.read_self (h : TurnInv calls id view) {t : Ticket}
    (hexec : exec (.TicketGetById id) view.world = .ok (some t, world))
    (hstatus : t.status = .AwaitingVisitor)
    (hturn : ∀ event ∈ sinceWord id (view.advance i (.TicketGetById id) (some t) world),
      event.op.stores id .Visitor = true →
      ∃ other ∈ (view.advance i (.TicketGetById id) (some t) world).upToOp i (.TicketGetById id),
        other.actor = event.actor ∧ other.op.writesStatus id = true) :
    world.db.lastSender id = some .Admin := by
  simp only [exec, Except.ok.injEq, Prod.mk.injEq, Option.map_eq_some_iff] at hexec
  obtain ⟨⟨now, hnow, rfl⟩, rfl⟩ := hexec
  rcases h.waiting now hnow hstatus with hlast | ⟨event, hevent, hstores, hunwritten⟩
  · exact hlast
  · rw [sinceWord_advance rfl, View.advance_upToOp_self, List.forall_mem_cons] at hturn
    obtain ⟨other, hother, hactor, hwrites⟩ := hturn.2 event hevent hstores
    rcases List.mem_cons.mp hother with rfl | hearlier
    · simp [Op.writesStatus] at hwrites
    · have hmem : ⟨other.op, other.result⟩ ∈ view.trail event.actor :=
        (view.mem_trail _).mpr ⟨other, hearlier, hactor, rfl⟩
      simp [hunwritten _ hmem] at hwrites

theorem TurnInv.advance_untouched (h : TurnInv calls id view) (hside : (calls i).side? = some side)
    (hlegal : (calls i).Legal service (⟨op, result⟩ :: view.trail i)) (hop : op.touches id = false)
    (hexec : exec op view.world = .ok (result, world)) :
    TurnInv calls id (view.advance i op result world) := by
  have htables := tables_of_exec hexec
  have hstores := stores_of_not_touches hop
  have hlast : world.db.lastSender id = view.world.db.lastSender id := by
    rw [htables, Tables.write_of_lastSender hop]
  refine ⟨?_, h.sides_advance fun side hside => by simp [hstores side] at hside,
    h.word_advance hstores hlast, fun t ht hstatus => h.waiting_untouched hop hexec ht hstatus,
    fun j t hread hstatus hturn => ?_⟩
  · rw [View.advance_world, htables]
    exact h.apart.write hop
  · by_cases hreads : i = j ∧ op = .TicketGetById id
    · obtain ⟨rfl, rfl⟩ := hreads
      rw [View.advance_trail_self] at hread
      rcases List.mem_cons.mp hread with hhead | htail
      · obtain rfl : some t = result := by simpa using hhead
        exact h.read_self hexec hstatus hturn
      · exact absurd htail (Call.read_of_legal hside hlegal)
    · exact h.read_advance hstores hreads hlast hread hstatus hturn

-- The admin's message opens a new turn.
theorem TurnInv.advance_admin {m : NewMessage} (h : TurnInv calls id view)
    (hside : (calls i).side? = some .Admin) (hm : m.ticketId = id) (hsender : m.sender = .Admin)
    (hexec : exec (.MessageInsert m) view.world = .ok ((), world)) :
    TurnInv calls id (view.advance i (.MessageInsert m) () world) := by
  have htables := tables_of_exec hexec
  have hlast : world.db.lastSender id = some .Admin := by
    rw [htables, ← hsender]
    exact Tables.lastSender_messageInsert m hm
  refine ⟨?_, h.sides_advance fun side hstores => ?_, fun _ _ => hlast, fun _ _ _ => .inl hlast,
    fun _ _ _ _ _ => hlast⟩
  · rw [View.advance_world, htables]
    exact h.apart.messageInsert hm fun hvisitor => by simp [hsender] at hvisitor
  · rw [hside, ← hsender, (stores_messageInsert hm).mp hstores]

-- A reply that comes in turn.
theorem TurnInv.advance_visitor {m : NewMessage} (h : TurnInv calls id view)
    (hside : (calls i).side? = some .Visitor)
    (hlegal : (calls i).Legal service (⟨.MessageInsert m, ()⟩ :: view.trail i))
    (hm : m.ticketId = id) (hadmits : RepliesInTurn id view i (.MessageInsert m))
    (hexec : exec (.MessageInsert m) view.world = .ok ((), world)) :
    TurnInv calls id (view.advance i (.MessageInsert m) () world) := by
  have htables := tables_of_exec hexec
  have hafter := Call.storesAfter_of_legal hside hlegal
  have hadmin : (Op.MessageInsert m).stores id .Admin = false := by
    simp [Op.stores, hafter.sender]
  have hvisitor : (Op.MessageInsert m).stores id .Visitor = true :=
    (stores_messageInsert hm).mpr hafter.sender
  have hunwritten : ∀ taken ∈ view.trail i, taken.1.writesStatus id = false := by
    rintro ⟨op, result⟩ hmem
    cases op with
    | TicketSetStatus other status => exact absurd hmem (hafter.unwritten other status)
    | _ => rfl
  refine ⟨?_, h.sides_advance fun side hstores => ?_, fun _ hnone => ?_, fun t ht hstatus => ?_,
    fun j t hread hstatus hturn => ?_⟩
  · obtain ⟨t, hread, -, hwaiting⟩ := hafter.read
    rw [hm] at hread
    have hlast := h.read i t hread (hwaiting rfl) (hadmits hm hafter.sender)
    rw [View.advance_world, htables]
    exact h.apart.messageInsert hm fun _ => by simp [hlast]
  · rw [hside, ← hafter.sender, (stores_messageInsert hm).mp hstores]
  · rw [sinceWord_advance hadmin, List.forall_mem_cons] at hnone
    simp [hvisitor] at hnone
  · refine .inr ⟨⟨i, .MessageInsert m, (), view.world⟩, ?_, hvisitor, ?_⟩
    · rw [sinceWord_advance hadmin]
      exact List.mem_cons_self
    · rw [View.advance_trail_self, List.forall_mem_cons]
      exact ⟨rfl, hunwritten⟩
  · rw [sinceWord_advance hadmin, View.advance_upToOp_of_ne _ _ _ _ _ (by simp),
      List.forall_mem_cons] at hturn
    obtain ⟨other, hother, hactor, hwrites⟩ := hturn.1 hvisitor
    have hmem : ⟨other.op, other.result⟩ ∈ view.trail i :=
      (view.mem_trail i).mpr ⟨other, View.mem_history_of_mem_upToOp _ _ hother, hactor, rfl⟩
    simp [hunwritten _ hmem] at hwrites

-- A step that changes the ticket but not its messages.
theorem TurnInv.advance_ticket (h : TurnInv calls id view) (hop : ∀ side, op.stores id side = false)
    (hreads : op ≠ .TicketGetById id)
    (hmessages : world.db.messagesByTicket id = view.world.db.messagesByTicket id)
    (hwaiting : ∀ t, world.db.ticket? id = some t → t.status = .AwaitingVisitor →
      world.db.lastSender id = some .Admin ∨
        ∃ event ∈ sinceWord id view, event.op.stores id .Visitor = true ∧ event.actor ≠ i ∧
          ∀ taken ∈ view.trail event.actor, taken.1.writesStatus id = false) :
    TurnInv calls id (view.advance i op result world) := by
  have hlast : world.db.lastSender id = view.world.db.lastSender id := by
    simp only [Tables.lastSender, hmessages]
  refine ⟨?_, h.sides_advance fun side hside => by simp [hop side] at hside,
    h.word_advance hop hlast, fun t ht hstatus => ?_,
    fun j t hread hstatus hturn => h.read_advance hop (fun h => hreads h.2) hlast hread hstatus hturn⟩
  · unfold Tables.VisitorsApart
    rw [View.advance_world, hmessages]
    exact h.apart
  · rcases hwaiting t ht hstatus with hadmin | ⟨event, hevent, hstores, hactor, hunwritten⟩
    · exact .inl hadmin
    · refine .inr ⟨event, ?_, hstores, ?_⟩
      · rw [sinceWord_advance (hop .Admin)]
        exact List.mem_cons_of_mem _ hevent
      · rwa [View.advance_trail_of_ne _ _ _ _ _ hactor]

theorem TurnInv.advance_status {status : TicketStatus} (h : TurnInv calls id view)
    (hside : (calls i).side? = some side)
    (hlegal : (calls i).Legal service (⟨.TicketSetStatus id status, ()⟩ :: view.trail i))
    (hadmits : RepliesInTurn id view i (.TicketSetStatus id status))
    (hexec : exec (.TicketSetStatus id status) view.world = .ok ((), world)) :
    TurnInv calls id (view.advance i (.TicketSetStatus id status) () world) := by
  have htables := tables_of_exec hexec
  refine h.advance_ticket (fun _ => rfl) (by simp) (by rw [htables]; rfl) fun t ht hstatus => ?_
  rw [htables] at ht
  simp only [Op.write, Tables.ticket?_ticketSetStatus, Option.map_eq_some_iff] at ht
  obtain ⟨old, -, rfl⟩ := ht
  obtain rfl := Call.setStatus_of_legal hside hlegal
  by_cases hold : old.status = .Closed
  · simp [hold] at hstatus
  cases side with
  | Visitor => simp [hold, Tables.setStatusRow, Sender.statusAfter] at hstatus
  | Admin =>
      by_cases hvisitor : ∃ event ∈ sinceWord id view, event.op.stores id .Visitor = true
      · obtain ⟨event, hevent, hstores⟩ := hvisitor
        refine .inr ⟨event, hevent, hstores, fun hactor => ?_, hadmits rfl rfl event hevent hstores⟩
        have hsides := h.sides event (mem_history_of_mem_sinceWord hevent) .Visitor hstores
        rw [hactor, hside] at hsides
        simp at hsides
      · refine .inl ?_
        obtain ⟨m, hmem, hm, hsender⟩ := Call.stored_of_setStatus_legal hside hlegal
        obtain ⟨event, hevent, -, htaken⟩ := (view.mem_trail i).mp hmem
        have hop : event.op = .MessageInsert m := congrArg Sigma.fst htaken
        have hstores : event.op.stores id .Admin = true := by simp [hop, Op.stores, hm, hsender]
        have hlast := h.word ⟨event, hevent, hstores⟩ fun event hevent =>
          Bool.eq_false_iff.mpr fun hstores => hvisitor ⟨event, hevent, hstores⟩
        rw [htables]
        exact hlast

theorem TurnInv.advance_close {closedAt : Int} (h : TurnInv calls id view)
    (hexec : exec (.TicketClose id closedAt) view.world = .ok ((), world)) :
    TurnInv calls id (view.advance i (.TicketClose id closedAt) () world) := by
  have htables := tables_of_exec hexec
  refine h.advance_ticket (fun _ => rfl) (by simp) (by rw [htables]; rfl) fun t ht hstatus => ?_
  rw [htables] at ht
  simp only [Op.write, Tables.ticket?_ticketClose, Option.map_eq_some_iff] at ht
  obtain ⟨old, -, rfl⟩ := ht
  by_cases hold : old.status = .Closed
  · simp [hold] at hstatus
  · simp [hold, Tables.closeRow] at hstatus

theorem TurnInv.start {world : World} (hturn : world.db.InTurn id)
    (hapart : world.db.VisitorsApart id) :
    TurnInv calls id (startCalls service world calls).toView where
  apart := hapart
  sides event hevent := by simp [startCalls, Pool.start] at hevent
  word h := by simp [startCalls, Pool.start] at h
  waiting t ht hstatus := .inl ((hturn t ht (by simp [hstatus])).mp hstatus)
  read i t hread := by simp [startCalls, Pool.start, View.trail] at hread

theorem upkeep_turnInv (service : Feedback.Service) (calls : ι → Call) (id : Bytes)
    (hcalls : ∀ i, (calls i).side?.isSome) :
    Upkeep (fun i => (calls i).Legal service) (fun i => (calls i).Ends service)
      (RepliesInTurn id) (TurnInv calls id) where
  advance view i op result world _ hinv _ hlegal hadmits hexec := by
    obtain ⟨side, hside⟩ := Option.isSome_iff_exists.mp (hcalls i)
    cases htouches : op.touches id with
    | false => exact hinv.advance_untouched hside hlegal htouches hexec
    | true =>
        rcases Call.touches_of_legal hside hlegal htouches with
          ⟨m, rfl, hm⟩ | ⟨status, rfl⟩ | ⟨closedAt, rfl⟩
        · have hsender := (Call.storesAfter_of_legal hside hlegal).sender
          cases side with
          | Visitor => exact hinv.advance_visitor hside hlegal hm hadmits hexec
          | Admin => exact hinv.advance_admin hside hm hsender hexec
        · exact hinv.advance_status hside hlegal hadmits hexec
        · exact hinv.advance_close hexec
  ends view i outcome _ hinv _ _ := ⟨hinv.apart, hinv.sides, hinv.word, hinv.waiting, hinv.read⟩
  uncounted view attempts hinv := ⟨hinv.apart, hinv.sides, hinv.word, hinv.waiting, hinv.read⟩

end DeltaFeedback.Concurrency
