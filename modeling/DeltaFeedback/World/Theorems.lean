import DeltaFeedback.Db.Queries.Theorems
import DeltaFeedback.World

namespace DeltaFeedback

open Text Db Interleaving

-- The statements with a constraint to break.
def Op.mayFail : Op → Bool
  | .TicketInsert _ => true
  | .MessageInsert _ => true
  | _ => false

theorem exec_ne_error {op : Op} (hop : op.mayFail = false) (world : World)
    (failed : SqlError × World) : exec op world ≠ .error failed := by
  cases op <;> simp [Op.mayFail, exec] at hop ⊢
  · split <;> simp
  · split <;> simp

-- Every step can succeed in some world.
theorem exists_exec (op : Op) : ∃ before result world, exec op before = .ok (result, world) := by
  cases hop : op.mayFail with
  | false =>
      cases hexec : exec op World.empty with
      | ok taken => exact ⟨_, _, _, hexec⟩
      | error failed => exact absurd hexec (exec_ne_error hop _ failed)
  | true =>
      have hempty : ∀ t : Ticket, ∃ world, exec (.TicketInsert t) World.empty = .ok ((), world) ∧
          t.id ∈ world.db.tickets.map fun t => t.id := by
        intro t
        have hfresh : t.id ∉ World.empty.db.tickets.map fun t => t.id := by
          simp [World.empty, Database.empty]
        simp only [exec, dif_neg hfresh]
        exact ⟨_, rfl, by simp [World.stored, Tables.ticketInsert, Tables.newTicketRow]⟩
      cases op with
      | TicketInsert t =>
          obtain ⟨world, hexec, -⟩ := hempty t
          exact ⟨_, _, _, hexec⟩
      | MessageInsert m =>
          obtain ⟨world, -, hmem⟩ := hempty ⟨m.ticketId, [], [], [], .AwaitingAdmin, 0, none⟩
          refine ⟨world, (), ?_⟩
          simp only [exec, dif_pos hmem]
          exact ⟨_, rfl⟩
      | _ => simp [Op.mayFail] at hop

theorem follows_call {α : Type} {legal : Trail → Prop} {done : Trail → Except SqlError α → Prop}
    {op : Op} {next : op.Result → Proc α} {trail : Trail} (hop : op.mayFail = false)
    (h : ∀ before result world, exec op before = .ok (result, world) →
      legal (⟨op, result⟩ :: trail) ∧ Follows exec legal done (next result) (⟨op, result⟩ :: trail)) :
    Follows exec legal done (.call op next) trail :=
  ⟨h, fun before exn world hexec => absurd hexec (exec_ne_error hop before (exn, world))⟩

-- The statements the connection counts changes for.
def Op.isWrite : Op → Bool
  | .TicketInsert _ => true
  | .TicketSetStatus .. => true
  | .TicketClose .. => true
  | .TicketPurgeInactive _ => true
  | .MessageInsert _ => true
  | .MessageSetDcMsgId .. => true
  | .ReplayInsert .. => true
  | .ReplayPurge _ => true
  | .StateSet .. => true
  | .StateDel _ => true
  | _ => false

def Op.onReplay : Op → Bool
  | .ReplayInsert .. => true
  | .ReplayPurge _ => true
  | _ => false

variable {op : Op} {result : op.Result} {exn : SqlError} {world later : World}

-- A statement that throws has been refused, and only the count of rows shows it.
theorem refused_of_exec (h : exec op world = .error (exn, later)) : later = world.refused := by
  cases op with
  | TicketInsert t =>
      simp only [exec] at h
      split at h <;> simp only [Except.error.injEq, Prod.mk.injEq, reduceCtorEq] at h
      exact h.2.symm
  | MessageInsert m =>
      simp only [exec] at h
      split at h <;> simp only [Except.error.injEq, Prod.mk.injEq, reduceCtorEq] at h
      exact h.2.symm
  | _ => exact absurd h (exec_ne_error rfl _ _)

theorem isWrite_of_exec_error (h : exec op world = .error (exn, later)) : op.isWrite = true := by
  cases op with
  | TicketInsert t => rfl
  | MessageInsert m => rfl
  | _ => exact absurd h (exec_ne_error rfl _ _)

section Upkeep

variable {Out ι : Type} [DecidableEq ι] (legal : ι → Trail → Prop)
variable (done : ι → Trail → Except SqlError Out → Prop)
variable (admits : Pool.Condition Op Op.Result World SqlError Out ι)
variable (inv : View Op Op.Result World SqlError Out ι → Prop)

-- An invariant that has nothing to do with the count of rows: to it, a statement
-- that fails is only an end of its program.
structure Upkeep : Prop where
  advance : ∀ view i op result world, view.Lawful legal done → inv view →
    view.result i = none → legal i (⟨op, result⟩ :: view.trail i) → admits view i op →
    exec op view.world = .ok (result, world) → inv (view.advance i op result world)
  ends : ∀ view i outcome, view.Lawful legal done → inv view → view.result i = none →
    done i (view.trail i) outcome → inv (view.finish i outcome)
  uncounted : ∀ view attempts, inv view → inv { view with world := view.world.refused, attempts }

variable {legal done admits inv}

theorem Upkeep.preserves (h : Upkeep legal done admits inv) :
    Preserves exec legal done admits inv where
  advance := h.advance
  finish view i value hlawful hinv hresult hdone := h.ends view i (.ok value) hlawful hinv hresult hdone
  fail view i op exn world hlawful hinv hresult hdone _ hexec := by
    obtain rfl := refused_of_exec hexec
    exact h.uncounted (view.finish i (.error exn)) _ (h.ends view i _ hlawful hinv hresult hdone)

end Upkeep

-- A step that writes nothing leaves the connection and its tables alone.
theorem exec_of_not_write (hop : op.isWrite = false) (h : exec op world = .ok (result, later)) :
    later.db = world.db ∧ later.changes = world.changes ∧
      later.lastInsertRowid = world.lastInsertRowid := by
  cases op <;> simp [Op.isWrite, exec] at hop h <;> obtain ⟨-, rfl⟩ := h <;> try exact ⟨rfl, rfl, rfl⟩
  unfold World.send
  split <;> exact ⟨rfl, rfl, rfl⟩

-- The INSERTs that store a row when they are executed.
def Op.storesRow (world : World) : Op → Bool
  | .TicketInsert _ => true
  | .MessageInsert _ => true
  | .ReplayInsert challengeId _ => !world.db.consumed challengeId
  | .StateSet key _ => !world.db.hasState key
  | _ => false

theorem lastInsertRowid_of_exec (hop : op.storesRow world = false)
    (h : exec op world = .ok (result, later)) : later.lastInsertRowid = world.lastInsertRowid := by
  cases op with
  | TicketInsert t => simp [Op.storesRow] at hop
  | MessageInsert m => simp [Op.storesRow] at hop
  | ReplayInsert challengeId expiresAt =>
      have hconsumed : world.db.consumed challengeId := by simpa [Op.storesRow] using hop
      simp only [exec, dif_pos hconsumed, Except.ok.injEq, Prod.mk.injEq] at h
      obtain ⟨-, rfl⟩ := h
      rfl
  | StateSet key value =>
      have hkey : world.db.hasState key = true := by simpa [Op.storesRow] using hop
      simp only [exec, hkey, ite_true, Except.ok.injEq, Prod.mk.injEq] at h
      obtain ⟨-, rfl⟩ := h
      rfl
  | DcSend contact text quote id =>
      simp only [exec, Except.ok.injEq, Prod.mk.injEq] at h
      obtain ⟨-, rfl⟩ := h
      unfold World.send
      split <;> rfl
  | _ =>
      simp only [exec, Except.ok.injEq, Prod.mk.injEq] at h
      obtain ⟨-, rfl⟩ := h
      rfl

-- The message a step hands to Delta Chat, where it is taken.
def Op.sends : Op → List DcMsg
  | .DcSend contact text quote id => if id = 0 then [] else [⟨contact, text, quote, id⟩]
  | _ => []

-- Whom a step leaves as the owner.
def Op.ownerAfter (owner : UInt32) : Op → UInt32
  | .OwnerStore contact => contact
  | _ => owner

-- What a step that succeeds makes of the tables.
def Op.write : Op → Tables → Tables
  | .TicketInsert t, tables => tables.ticketInsert t
  | .TicketSetStatus id status, tables => tables.ticketSetStatus id status
  | .TicketClose id closedAt, tables => tables.ticketClose id closedAt
  | .TicketPurgeInactive cutoff, tables => tables.ticketPurgeInactive cutoff
  | .MessageInsert m, tables => tables.messageInsert m
  | .MessageSetDcMsgId rowId dcMsgId, tables => tables.messageSetDcMsgId rowId dcMsgId
  | .ReplayInsert challengeId expiresAt, tables =>
      if tables.consumed challengeId then tables else tables.replayInsert challengeId expiresAt
  | .ReplayPurge now, tables => tables.replayPurge now
  | .StateSet key value, tables => tables.stateSet key value
  | .StateDel key, tables => tables.stateDel key
  | _, tables => tables

-- All a step does, but for what the connection remembers of it.
structure Effect (op : Op) (world later : World) : Prop where
  tables : later.db.toTables = op.write world.db.toTables
  owner : later.owner = op.ownerAfter world.owner
  outbox : later.outbox = world.outbox ++ op.sends

theorem effect_of_exec (h : exec op world = .ok (result, later)) : Effect op world later := by
  cases op with
  | TicketInsert t =>
      simp only [exec] at h
      split at h <;> simp only [Except.ok.injEq, Prod.mk.injEq, reduceCtorEq] at h
      obtain ⟨-, rfl⟩ := h
      exact ⟨rfl, rfl, by simp [Op.sends, World.stored]⟩
  | MessageInsert m =>
      simp only [exec] at h
      split at h <;> simp only [Except.ok.injEq, Prod.mk.injEq, reduceCtorEq] at h
      obtain ⟨-, rfl⟩ := h
      exact ⟨rfl, rfl, by simp [Op.sends, World.stored]⟩
  | ReplayInsert challengeId expiresAt =>
      simp only [exec] at h
      split at h <;> simp only [Except.ok.injEq, Prod.mk.injEq] at h <;> obtain ⟨-, rfl⟩ := h
      next hconsumed => exact ⟨by simp only [Op.write, if_pos hconsumed], rfl, by simp [Op.sends]⟩
      next hconsumed =>
        exact ⟨by simp only [Op.write, if_neg hconsumed, World.stored], rfl,
          by simp [Op.sends, World.stored]⟩
  | StateSet key value =>
      simp only [exec] at h
      split at h <;> simp only [Except.ok.injEq, Prod.mk.injEq] at h <;> obtain ⟨-, rfl⟩ := h <;>
        exact ⟨rfl, rfl, by simp [Op.sends, World.stored, World.wrote]⟩
  | DcSend contact text quote id =>
      simp only [exec, Except.ok.injEq, Prod.mk.injEq] at h
      obtain ⟨-, rfl⟩ := h
      unfold World.send
      split
      next hid => exact ⟨rfl, rfl, by simp [Op.sends, show id = 0 from hid]⟩
      next hid => exact ⟨rfl, rfl, by simp [Op.sends, show id ≠ 0 from hid]⟩
  | _ =>
      simp only [exec, Except.ok.injEq, Prod.mk.injEq] at h
      obtain ⟨-, rfl⟩ := h
      exact ⟨rfl, rfl, by simp [Op.sends, World.wrote]⟩

theorem tables_of_exec (h : exec op world = .ok (result, later)) :
    later.db.toTables = op.write world.db.toTables :=
  (effect_of_exec h).tables

theorem outbox_of_exec (h : exec op world = .ok (result, later)) :
    later.outbox = world.outbox ++ op.sends :=
  (effect_of_exec h).outbox

theorem exec_messageInsert_error {m : NewMessage} {failed : SqlError × World}
    (h : exec (.MessageInsert m) world = .error failed) :
    world.db.ticket? m.ticketId = none := by
  simp only [exec] at h
  split at h
  · simp at h
  next hticket => exact (world.db.ticket?_eq_none_iff _).mpr hticket

theorem exec_messageInsert_known {m : NewMessage} {t : TicketRow}
    (ht : world.db.ticket? m.ticketId = some t) :
    ∃ later, exec (.MessageInsert m) world = .ok ((), later) := by
  cases hexec : exec (.MessageInsert m) world with
  | ok taken => exact ⟨taken.2, rfl⟩
  | error failed => simp [exec_messageInsert_error hexec] at ht

theorem ticketGetById_of_exec {id : Bytes} {found : Option Ticket}
    (h : exec (.TicketGetById id) world = .ok (found, later)) :
    later = world ∧ found = (world.db.ticket? id).map fun t => t.toTicket := by
  simp only [exec, Except.ok.injEq, Prod.mk.injEq] at h
  exact ⟨h.2.symm, h.1.symm⟩

theorem exec_ticketInsert_unused {t : Ticket} (ht : world.db.ticket? t.id = none) :
    ∃ later, exec (.TicketInsert t) world = .ok ((), later) := by
  have hunused := (world.db.ticket?_eq_none_iff t.id).mp ht
  simp only [exec, dif_neg hunused]
  exact ⟨_, rfl⟩

theorem exec_replayInsert_fresh {challengeId : Bytes} (expiresAt : Int)
    (h : ¬ world.db.consumed challengeId) :
    ∃ later, exec (.ReplayInsert challengeId expiresAt) world = .ok ((), later) ∧
      exec .Changes later = .ok ((1 : Nat), later) ∧
      later.db.toTables = world.db.replayInsert challengeId expiresAt ∧
      later.owner = world.owner ∧ later.outbox = world.outbox := by
  simp only [exec, dif_neg h]
  exact ⟨_, rfl, rfl, rfl, rfl, rfl⟩

theorem rowid_of_messageInsert {m : NewMessage} {result : Unit}
    (h : exec (.MessageInsert m) world = .ok (result, later)) :
    later.lastInsertRowid = world.db.messageSeq + 1 := by
  simp only [exec] at h
  split at h <;> simp only [Except.ok.injEq, Prod.mk.injEq, reduceCtorEq] at h
  obtain ⟨-, rfl⟩ := h
  rfl

-- The statements that can change a ticket or its list of messages.
def Op.touches (id : Bytes) : Op → Bool
  | .TicketInsert t => t.id == id
  | .TicketSetStatus other _ => other == id
  | .TicketClose other _ => other == id
  | .TicketPurgeInactive _ => true
  | .MessageInsert m => m.ticketId == id
  | _ => false

def Op.stores (id : Bytes) (side : Sender) : Op → Bool
  | .MessageInsert m => m.ticketId == id && m.sender == side
  | _ => false

def Op.writesStatus (id : Bytes) : Op → Bool
  | .TicketSetStatus other _ => other == id
  | _ => false

theorem write_of_not_touches {op : Op} {id : Bytes} (hop : op.touches id = false)
    (tables : Tables) : (op.write tables).ticket? id = tables.ticket? id ∧
      (op.write tables).messagesByTicket id = tables.messagesByTicket id := by
  cases op <;> simp only [Op.touches, beq_eq_false_iff_ne, Bool.true_eq_false] at hop <;>
    simp only [Op.write, and_self]
  case TicketInsert t =>
      exact ⟨by simp [Tables.ticket?_ticketInsert, hop], rfl⟩
  case TicketSetStatus other status =>
      refine ⟨?_, rfl⟩
      rw [Tables.ticket?_ticketSetStatus]
      simp [hop.symm]
  case TicketClose other closedAt =>
      refine ⟨?_, rfl⟩
      rw [Tables.ticket?_ticketClose]
      simp [hop.symm]
  case MessageInsert m =>
      exact ⟨rfl, by simp [Tables.messagesByTicket_messageInsert, hop]⟩
  case MessageSetDcMsgId rowId dcMsgId =>
      exact ⟨rfl, tables.messagesByTicket_messageSetDcMsgId id rowId dcMsgId⟩
  case ReplayInsert challengeId expiresAt => split <;> exact ⟨rfl, rfl⟩
  case ReplayPurge now => exact ⟨rfl, rfl⟩
  case StateSet key value => exact ⟨rfl, rfl⟩
  case StateDel key => exact ⟨rfl, rfl⟩

-- Tickets come from a TicketInsert only and keep their ids.
theorem ticket_of_write {op : Op} {tables : Tables} {t : TicketRow}
    (h : t ∈ (op.write tables).tickets) :
    (∃ old ∈ tables.tickets, old.id = t.id) ∨ ∃ new, op = .TicketInsert new ∧ new.id = t.id := by
  have hupdate (p : TicketRow → Bool) (f : TicketRow → TicketRow) (hid : ∀ t, (f t).id = t.id)
      (hmem : t ∈ (tables.updateTickets p f).tickets) : ∃ old ∈ tables.tickets, old.id = t.id := by
    obtain ⟨old, hold, rfl⟩ := List.mem_map.mp hmem
    refine ⟨old, hold, ?_⟩
    split
    · rw [hid]
    · rfl
  cases op with
  | TicketInsert new =>
      rcases List.mem_append.mp h with hold | hnew
      · exact .inl ⟨t, hold, rfl⟩
      · exact .inr ⟨new, rfl, by rw [List.mem_singleton.mp hnew]; rfl⟩
  | TicketSetStatus id status => exact .inl (hupdate _ (Tables.setStatusRow status) (fun _ => rfl) h)
  | TicketClose id closedAt => exact .inl (hupdate _ (Tables.closeRow closedAt) (fun _ => rfl) h)
  | TicketPurgeInactive cutoff => exact .inl ⟨t, (List.mem_filter.mp h).1, rfl⟩
  | ReplayInsert challengeId expiresAt =>
      simp only [Op.write] at h
      split at h <;> exact .inl ⟨t, h, rfl⟩
  | _ => exact .inl ⟨t, h, rfl⟩

theorem replay_of_exec (hop : op.onReplay = false) (h : exec op world = .ok (result, later)) :
    later.db.replay = world.db.replay := by
  rw [tables_of_exec h]
  cases op <;> first | rfl | simp [Op.onReplay] at hop

theorem exec_replayInsert {challengeId : Bytes} {expiresAt : Int} {result : Unit}
    (h : exec (.ReplayInsert challengeId expiresAt) world = .ok (result, later)) :
    later.changes = (if world.db.consumed challengeId then 0 else 1) ∧
      ∀ other, later.db.consumed other ↔ world.db.consumed other ∨ other = challengeId := by
  simp only [exec] at h
  split at h
  next hconsumed =>
    simp only [Except.ok.injEq, Prod.mk.injEq] at h
    obtain ⟨-, rfl⟩ := h
    refine ⟨by rw [if_pos hconsumed], fun other => ⟨.inl, ?_⟩⟩
    rintro (hother | rfl)
    · exact hother
    · exact hconsumed
  next hconsumed =>
    simp only [Except.ok.injEq, Prod.mk.injEq] at h
    obtain ⟨-, rfl⟩ := h
    refine ⟨by rw [if_neg hconsumed]; rfl, fun other => ?_⟩
    simp [World.stored, Tables.consumed, Tables.replayInsert]

end DeltaFeedback
