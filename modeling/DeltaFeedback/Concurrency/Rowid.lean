import DeltaFeedback.Calls.Notices
import DeltaFeedback.Concurrency.Status
import DeltaFeedback.Db.Binding

namespace DeltaFeedback.Concurrency

open Text Interleaving Db
open Feedback (sampleService)

variable {ι : Type} [DecidableEq ι]

-- Nobody stores a row between a visitor's message and the question for its
-- rowid. The number of an admin's message is asked for as well, but not used.
def AsksForOwnRow (service : Feedback.Service) (calls : ι → Call) :
    Pool.Condition Op Op.Result World SqlError Outcome ι :=
  fun view i op => op = .LastInsertRowid → ((calls i).message? service).isSome →
    ∀ event ∈ view.since i, event.op.storesRow event.before = false

-- Delta Chat does not give an id out twice.
def FreshSends : Pool.Condition Op Op.Result World SqlError Outcome ι :=
  fun view _ op => ∀ msg ∈ op.sends, ∀ sent ∈ view.world.outbox, sent.id ≠ msg.id

-- An id stands for a ticket when a notification of the ticket was sent under it.
def Notified (world : World) (ticketId : Bytes) (dcMsgId : UInt32) : Prop :=
  ∃ msg ∈ world.outbox, msg.id = dcMsgId ∧ Feedback.Notifies ticketId msg.text

structure RowInv (service : Feedback.Service) (calls : ι → Call) (view : CallView ι) : Prop where
  bound : view.world.db.Bound (Notified view.world)
  stored : ∀ i m rest, (calls i).message? service = some m →
    view.trail i = ⟨.MessageInsert m, ()⟩ :: rest →
    (∀ event ∈ view.since i, event.op.storesRow event.before = false) →
    view.world.db.Owned view.world.lastInsertRowid m.ticketId
  numbered : ∀ i m rowId, (calls i).message? service = some m →
    ⟨.LastInsertRowid, rowId⟩ ∈ view.trail i → view.world.db.Owned rowId m.ticketId
  sent : ∀ i contact text quote dcMsgId, ⟨.DcSend contact text quote dcMsgId, dcMsgId⟩ ∈ view.trail i →
    dcMsgId ≠ 0 → ⟨contact, text, quote, dcMsgId⟩ ∈ view.world.outbox
  outbox : (view.world.outbox.map fun msg => msg.id).Nodup
  made : ∀ t ∈ view.world.db.tickets, ∃ draw, t.id = Feedback.makeTicketId draw

variable {service : Feedback.Service} {calls : ι → Call} {view : CallView ι} {i : ι} {op : Op}
  {result : op.Result} {world : World}

theorem Notified.exec {ticketId : Bytes} {dcMsgId : UInt32} {before : World}
    (h : Notified before ticketId dcMsgId) (hexec : exec op before = .ok (result, world)) :
    Notified world ticketId dcMsgId := by
  obtain ⟨msg, hmem, hid, hnotifies⟩ := h
  refine ⟨msg, ?_, hid, hnotifies⟩
  rw [outbox_of_exec hexec]
  exact List.mem_append_left _ hmem

theorem RowInv.bound_advance (h : RowInv service calls view)
    (hlegal : (calls i).Legal service (⟨op, result⟩ :: view.trail i))
    (hexec : exec op view.world = .ok (result, world)) : world.db.Bound (Notified world) := by
  rw [tables_of_exec hexec]
  refine (h.bound.mono fun _ _ hnotified => Notified.exec hnotified hexec).write ?_
  cases op with
  | MessageInsert m => exact Call.unbound_of_legal hlegal
  | MessageSetDcMsgId rowId dcMsgId =>
      obtain ⟨m, contact, text, quote, hmessage, hid, hnotifies, hsent, hnumber⟩ :=
        Call.notice_of_legal hlegal
      refine ⟨m.ticketId, h.numbered i m rowId hmessage hnumber, Notified.exec ?_ hexec⟩
      exact ⟨_, h.sent i contact text quote dcMsgId hsent hid, rfl, hnotifies⟩
  | _ => trivial

theorem RowInv.stored_advance (h : RowInv service calls view)
    (hlegal : (calls i).Legal service (⟨op, result⟩ :: view.trail i))
    (hexec : exec op view.world = .ok (result, world)) (j : ι) (m : NewMessage) (rest : Trail)
    (hj : (calls j).message? service = some m)
    (htrail : (view.advance i op result world).trail j = ⟨.MessageInsert m, ()⟩ :: rest)
    (hapart : ∀ event ∈ (view.advance i op result world).since j,
      event.op.storesRow event.before = false) :
    world.db.Owned world.lastInsertRowid m.ticketId := by
  by_cases hji : j = i
  · subst j
    rw [View.advance_trail_self] at htrail
    obtain ⟨hhead, rfl⟩ := List.cons.inj htrail
    obtain rfl : op = .MessageInsert m := congrArg Sigma.fst hhead
    rw [tables_of_exec hexec]
    simp only [exec] at hexec
    split at hexec <;> simp only [Except.ok.injEq, Prod.mk.injEq, reduceCtorEq] at hexec
    obtain ⟨-, rfl⟩ := hexec
    exact Tables.owned_messageInsert view.world.db.constraints m
  · rw [View.advance_trail_of_ne _ _ _ _ _ hji] at htrail
    rw [View.advance_since_of_ne _ _ _ _ _ hji, List.forall_mem_cons] at hapart
    rw [tables_of_exec hexec, lastInsertRowid_of_exec hapart.1 hexec]
    exact (h.stored j m rest hj htrail hapart.2).write

theorem RowInv.numbered_advance (h : RowInv service calls view)
    (hlegal : (calls i).Legal service (⟨op, result⟩ :: view.trail i))
    (hadmits : AsksForOwnRow service calls view i op)
    (hexec : exec op view.world = .ok (result, world)) (j : ι) (m : NewMessage) (rowId : Nat)
    (hj : (calls j).message? service = some m)
    (hnumber : ⟨.LastInsertRowid, rowId⟩ ∈ (view.advance i op result world).trail j) :
    world.db.Owned rowId m.ticketId := by
  rw [tables_of_exec hexec]
  refine Tables.Owned.write ?_
  rcases (view.mem_trail_advance _ _ _ _).mp hnumber with ⟨hji, hhead⟩ | hearlier
  · subst j
    obtain rfl : op = .LastInsertRowid := (congrArg Sigma.fst hhead).symm
    obtain rfl : rowId = result := by simpa using hhead
    simp only [exec, Except.ok.injEq, Prod.mk.injEq] at hexec
    obtain ⟨rest, htrail⟩ := Call.number_of_legal hj hlegal
    rw [← hexec.1]
    exact h.stored i m rest hj htrail (hadmits rfl (by simp [hj]))
  · exact h.numbered j m rowId hj hearlier

theorem RowInv.sent_advance (h : RowInv service calls view)
    (hexec : exec op view.world = .ok (result, world)) (j : ι) (contact : UInt32) (text : Bytes)
    (quote dcMsgId : UInt32)
    (hsent : ⟨.DcSend contact text quote dcMsgId, dcMsgId⟩ ∈ (view.advance i op result world).trail j)
    (hid : dcMsgId ≠ 0) : ⟨contact, text, quote, dcMsgId⟩ ∈ world.outbox := by
  rw [outbox_of_exec hexec, List.mem_append]
  rcases (view.mem_trail_advance _ _ _ _).mp hsent with ⟨-, hhead⟩ | hearlier
  · obtain rfl : op = .DcSend contact text quote dcMsgId := (congrArg Sigma.fst hhead).symm
    exact .inr (by simp [Op.sends, hid])
  · exact .inl (h.sent j contact text quote dcMsgId hearlier hid)

theorem RowInv.outbox_advance (h : RowInv service calls view) (hadmits : FreshSends view i op)
    (hexec : exec op view.world = .ok (result, world)) :
    (world.outbox.map fun msg => msg.id).Nodup := by
  rw [outbox_of_exec hexec, List.map_append, List.nodup_append]
  refine ⟨h.outbox, ?_, ?_⟩
  · cases op with
    | DcSend contact text quote id => by_cases hid : id = 0 <;> simp [Op.sends, hid]
    | _ => simp [Op.sends]
  · intro id hmem other hother
    obtain ⟨sent, hsent, rfl⟩ := List.mem_map.mp hmem
    obtain ⟨msg, hmsg, rfl⟩ := List.mem_map.mp hother
    exact hadmits msg hmsg sent hsent

theorem RowInv.made_advance (h : RowInv service calls view)
    (hlegal : (calls i).Legal service (⟨op, result⟩ :: view.trail i))
    (hexec : exec op view.world = .ok (result, world)) :
    ∀ t ∈ world.db.tickets, ∃ draw, t.id = Feedback.makeTicketId draw := by
  intro t ht
  rw [tables_of_exec hexec] at ht
  rcases ticket_of_write ht with ⟨old, hold, hid⟩ | ⟨new, rfl, hid⟩
  · rw [← hid]
    exact h.made old hold
  · rw [← hid]
    exact Call.ticketId_of_legal hlegal

theorem upkeep_rowInv (service : Feedback.Service) (calls : ι → Call) :
    Upkeep (fun i => (calls i).Legal service) (fun i => (calls i).Ends service)
      (fun view i op => AsksForOwnRow service calls view i op ∧ FreshSends view i op)
      (RowInv service calls) where
  advance _ _ _ _ _ _ hinv _ hlegal hadmits hexec :=
    ⟨hinv.bound_advance hlegal hexec, hinv.stored_advance hlegal hexec,
      hinv.numbered_advance hlegal hadmits.1 hexec, hinv.sent_advance hexec,
      hinv.outbox_advance hadmits.2 hexec, hinv.made_advance hlegal hexec⟩
  ends _ _ _ _ hinv _ _ :=
    ⟨hinv.bound, hinv.stored, hinv.numbered, hinv.sent, hinv.outbox, hinv.made⟩
  uncounted _ _ hinv :=
    ⟨hinv.bound, hinv.stored, hinv.numbered, hinv.sent, hinv.outbox, hinv.made⟩

theorem RowInv.start (owner : UInt32) :
    RowInv service calls (startCalls service { World.empty with owner } calls).toView where
  bound row hrow := by simp [startCalls, Pool.start, World.empty, Database.empty] at hrow
  stored i m rest _ htrail := by simp [startCalls, Pool.start, View.trail] at htrail
  numbered i m rowId _ hnumber := by simp [startCalls, Pool.start, View.trail] at hnumber
  sent i contact text quote dcMsgId hsent := by simp [startCalls, Pool.start, View.trail] at hsent
  outbox := by simp [startCalls, Pool.start, World.empty]
  made t ht := by simp [startCalls, Pool.start, World.empty, Database.empty] at ht

theorem findTicket_bound {tables : Tables} {dcMsgId : UInt32} {ticketId : Bytes}
    (h : tables.findTicketByDcMsgId dcMsgId = some ticketId) :
    ∃ row ∈ tables.messages, row.dcMsgId = some dcMsgId ∧ row.ticketId = ticketId := by
  obtain ⟨row, hrow, hticket⟩ := Option.map_eq_some_iff.mp h
  have hbound := List.find?_some hrow
  exact ⟨row, List.mem_of_find?_eq_some hrow, beq_iff_eq.mp hbound, hticket⟩

-- Any calls of any threads, in every run in which each visitor's call asks for
-- the rowid before anybody else stores a row: a bound id was sent for the row's
-- own ticket, and a notification is never taken for another ticket's.
theorem dcMsgId_notifies (service : Feedback.Service) (owner : UInt32) (calls : ι → Call)
    (pool : CallPool ι)
    (hrun : Pool.Reaches exec
      (fun view i op => AsksForOwnRow service calls view i op ∧ FreshSends view i op)
      (startCalls service { World.empty with owner } calls) pool) :
    (∀ row ∈ pool.world.db.messages, ∀ dcMsgId, row.dcMsgId = some dcMsgId →
      Notified pool.world row.ticketId dcMsgId) ∧
    ∀ msg ∈ pool.world.outbox, ∀ draw, Feedback.Notifies (Feedback.makeTicketId draw) msg.text →
      ∀ ticketId, pool.world.db.findTicketByDcMsgId msg.id = some ticketId →
        ticketId = Feedback.makeTicketId draw := by
  have hsound : (startCalls service { World.empty with owner } calls).Sound exec
      (fun i => (calls i).Legal service) (fun i => (calls i).Ends service) (RowInv service calls) :=
    .start (fun i => Call.legal_start service (calls i)) (fun i => (calls i).follows service)
      (.start owner)
  have hinv := (hsound.reaches (upkeep_rowInv service calls).preserves hrun).inv
  refine ⟨hinv.bound, fun msg hmsg draw hnotifies ticketId hfind => ?_⟩
  obtain ⟨row, hrow, hbound, rfl⟩ := findTicket_bound hfind
  obtain ⟨sent, hsent, hid, hrowNotifies⟩ := hinv.bound row hrow msg.id hbound
  have hsame : sent = msg := List.inj_on_of_nodup_map hinv.outbox hsent hmsg hid
  obtain ⟨t, ht, htId⟩ := List.mem_map.mp (pool.world.db.constraints.foreignKey row hrow)
  obtain ⟨rowDraw, hrowDraw⟩ := hinv.made t ht
  rw [← htId, hrowDraw, hsame] at hrowNotifies
  rw [← htId, hrowDraw]
  exact hrowNotifies.ticketId hnotifies

instance (service : Feedback.Service) (calls : ι → Call) (view : CallView ι) (i : ι) (op : Op) :
    Decidable (AsksForOwnRow service calls view i op) :=
  inferInstanceAs (Decidable (op = .LastInsertRowid → ((calls i).message? service).isSome →
    ∀ event ∈ view.since i, event.op.storesRow event.before = false))

instance (view : CallView ι) (i : ι) (op : Op) : Decidable (FreshSends view i op) :=
  inferInstanceAs (Decidable (∀ msg ∈ op.sends, ∀ sent ∈ view.world.outbox, sent.id ≠ msg.id))

def parallelCalls : Fin 2 → Call
  | 0 => sampleSubmission 1 100
  | 1 => sampleSubmission 2 101

def sampleNotice (draw : UInt64) : Bytes :=
  cStr (Feedback.formatAdminNotification (Feedback.makeTicketId draw) (utf8 "192.0.2.1") 1700000010
    (utf8 "en") (utf8 "Ann") (utf8 "hello") false)

-- What is seen of the two schedules below; one evaluation computes each token once.
theorem follow_parallelCalls :
    (Pool.follow exec
        (fun view i op => AsksForOwnRow sampleService parallelCalls view i op ∧ FreshSends view i op)
        [0, 1, 0, 1, 0, 0, 0, 0, 1, 1, 1, 1, 0, 0, 1, 1, 0, 1, 1, 0]
        (startCalls sampleService { World.empty with owner := 7 } parallelCalls)).map
          (fun pool => [100, 101].map pool.world.db.findTicketByDcMsgId) =
      some [some (Feedback.makeTicketId 1), some (Feedback.makeTicketId 2)] ∧
    (Pool.follow exec FreshSends [0, 0, 0, 0, 0, 1, 1, 1, 1, 1, 0, 0, 0, 0]
        (startCalls sampleService { World.empty with owner := 7 } parallelCalls)).map
          (fun pool => (pool.world.db.findTicketByDcMsgId 100, pool.world.outbox)) =
      some (some (Feedback.makeTicketId 2), [⟨7, sampleNotice 1, 0, 100⟩]) := by
  decide +kernel

-- The submissions go on in turns, but for each message and its number.
theorem dcMsgId_notifies_sample : ∃ pool : CallPool (Fin 2),
    (Pool.Reaches exec
        (fun view i op => AsksForOwnRow sampleService parallelCalls view i op ∧ FreshSends view i op)
        (startCalls sampleService { World.empty with owner := 7 } parallelCalls) pool ∧
      [100, 101].map pool.world.db.findTicketByDcMsgId =
        [some (Feedback.makeTicketId 1), some (Feedback.makeTicketId 2)]) ∧
    (∀ row ∈ pool.world.db.messages, ∀ dcMsgId, row.dcMsgId = some dcMsgId →
      Notified pool.world row.ticketId dcMsgId) ∧
    ∀ msg ∈ pool.world.outbox, ∀ draw, Feedback.Notifies (Feedback.makeTicketId draw) msg.text →
      ∀ ticketId, pool.world.db.findTicketByDcMsgId msg.id = some ticketId →
        ticketId = Feedback.makeTicketId draw := by
  obtain ⟨pool, hrun, hseen⟩ := Pool.exists_reaches_of_follow _ _ _ _ _ _ follow_parallelCalls.1
  exact ⟨pool, ⟨hrun, hseen⟩, dcMsgId_notifies sampleService 7 parallelCalls pool hrun⟩

-- The second submission stores its message before the first has asked for its
-- rowid: the first notification is bound to the second ticket.
theorem dcMsgId_misbound : ¬ ∀ pool : CallPool (Fin 2),
    Pool.Reaches exec FreshSends
      (startCalls sampleService { World.empty with owner := 7 } parallelCalls) pool →
    (∀ row ∈ pool.world.db.messages, ∀ dcMsgId, row.dcMsgId = some dcMsgId →
      Notified pool.world row.ticketId dcMsgId) ∧
    ∀ msg ∈ pool.world.outbox, ∀ draw, Feedback.Notifies (Feedback.makeTicketId draw) msg.text →
      ∀ ticketId, pool.world.db.findTicketByDcMsgId msg.id = some ticketId →
        ticketId = Feedback.makeTicketId draw := by
  intro hclaim
  obtain ⟨pool, hrun, hseen⟩ := Pool.exists_reaches_of_follow _ _ _ _ _ _ follow_parallelCalls.2
  obtain ⟨hfind, houtbox⟩ := Prod.mk.inj hseen
  have hsame := (hclaim pool hrun).2 ⟨7, sampleNotice 1, 0, 100⟩ (by simp [houtbox]) 1
    ⟨_, _, _, _, _, _, rfl⟩ _ hfind
  exact absurd hsame (by decide)

end DeltaFeedback.Concurrency
