import DeltaFeedback.World.Theorems

namespace DeltaFeedback.Db

open Text

-- A ticket's row without its name, its status and its close.
def TicketRow.concealed (t : TicketRow) : TicketRow :=
  { t with name := [], status := .AwaitingAdmin, closedAt := none }

-- What the tables hold about one ticket.
structure Secret where
  ticket : TicketRow
  messages : List MessageRow
deriving DecidableEq

namespace Tables

variable (tables : Tables) (id : Bytes)

-- What the tables hold besides a ticket's name, status, close and messages.
def conceal : Tables :=
  { tables.updateTickets (fun t => t.id == id) TicketRow.concealed with
    messages := tables.messages.filter fun m => m.ticketId != id }

structure Holds (secret : Secret) : Prop where
  ticket : tables.ticket? id = some secret.ticket
  messages : tables.messagesOf id = secret.messages

variable {tables id} {other : Bytes} {secret : Secret} {op : Op}

theorem ids_updateTickets (p : TicketRow → Bool) (f : TicketRow → TicketRow)
    (hid : ∀ t, (f t).id = t.id) :
    ((tables.updateTickets p f).tickets.map fun t => t.id) = tables.tickets.map fun t => t.id := by
  simp only [updateTickets, List.map_map]
  refine List.map_congr_left fun t _ => ?_
  simp only [Function.comp]
  split
  · exact hid t
  · rfl

theorem ids_conceal : ((tables.conceal id).tickets.map fun t => t.id) =
    tables.tickets.map fun t => t.id :=
  ids_updateTickets _ _ fun _ => rfl

theorem rowids_conceal : ((tables.conceal id).tickets.map fun t => t.rowid) =
    tables.tickets.map fun t => t.rowid := by
  simp only [conceal, updateTickets, List.map_map]
  refine List.map_congr_left fun t _ => ?_
  simp only [Function.comp]
  split <;> rfl

theorem ticket?_conceal : (tables.conceal id).ticket? other =
    (tables.ticket? other).map fun t => if t.id == id then t.concealed else t :=
  ticket?_updateTickets tables other (fun t => t.id == id) TicketRow.concealed fun _ => rfl

theorem ticket?_conceal_of_ne (h : other ≠ id) :
    (tables.conceal id).ticket? other = tables.ticket? other := by
  rw [ticket?_conceal]
  cases hticket : tables.ticket? other with
  | none => rfl
  | some t => simp [id_of_ticket? hticket, h]

theorem messagesOf_conceal (h : other ≠ id) :
    (tables.conceal id).messagesOf other = tables.messagesOf other := by
  simp only [conceal, messagesOf, List.filter_filter]
  refine List.filter_congr fun m _ => ?_
  by_cases hm : m.ticketId = other <;> simp [hm, h]

theorem conceal_ticketInsert {t : Ticket} (h : t.id ≠ id) :
    (tables.ticketInsert t).conceal id = (tables.conceal id).ticketInsert t := by
  have hrow : (tables.conceal id).newTicketRow t = tables.newTicketRow t := by
    simp only [newTicketRow, rowids_conceal]
  simp only [ticketInsert, hrow]
  simp [conceal, updateTickets, newTicketRow, h]

theorem conceal_ticketSetStatus {status : TicketStatus} (h : other ≠ id) :
    (tables.ticketSetStatus other status).conceal id =
      (tables.conceal id).ticketSetStatus other status := by
  simp only [conceal, ticketSetStatus, updateTickets, List.map_map]
  congr 1
  refine List.map_congr_left fun t _ => ?_
  by_cases hid : t.id = id
  · simp [openTicket, TicketRow.concealed, hid, h.symm]
  · by_cases hopen : openTicket other t = true <;> simp [hid, hopen, setStatusRow]

theorem conceal_messageInsert {m : NewMessage} (h : m.ticketId ≠ id) :
    (tables.messageInsert m).conceal id = (tables.conceal id).messageInsert m := by
  simp [conceal, messageInsert, updateTickets, newMessageRow, h]

theorem conceal_messageSetDcMsgId (rowId : Nat) (dcMsgId : UInt32) :
    (tables.messageSetDcMsgId rowId dcMsgId).conceal id =
      (tables.conceal id).messageSetDcMsgId rowId dcMsgId := by
  simp only [conceal, messageSetDcMsgId, updateTickets, List.filter_map]
  congr 2
  refine List.filter_congr fun m _ => ?_
  simp only [Function.comp]
  split <;> rfl

-- The statements that leave what is concealed of a ticket alone, and depend on
-- none of it.
def Spares (id : Bytes) (secret : Secret) : Op → Prop
  | .TicketClose .. => False
  | .TicketPurgeInactive _ => False
  | .MessageSetDcMsgId rowId _ => ∀ m ∈ secret.messages, m.id ≠ rowId
  | op => op.touches id = false

theorem conceal_write (h : Spares id secret op) :
    (op.write tables).conceal id = op.write (tables.conceal id) := by
  cases op with
  | TicketInsert t => exact conceal_ticketInsert (by simpa [Spares, Op.touches] using h)
  | TicketSetStatus other status =>
      exact conceal_ticketSetStatus (by simpa [Spares, Op.touches] using h)
  | TicketClose other closedAt => exact h.elim
  | TicketPurgeInactive cutoff => exact h.elim
  | MessageInsert m => exact conceal_messageInsert (by simpa [Spares, Op.touches] using h)
  | MessageSetDcMsgId rowId dcMsgId => exact conceal_messageSetDcMsgId rowId dcMsgId
  | ReplayInsert challengeId expiresAt =>
      have hconsumed : (tables.conceal id).consumed challengeId ↔ tables.consumed challengeId := .rfl
      simp only [Op.write, hconsumed]
      split <;> rfl
  | StateSet key value =>
      have hstate : (tables.conceal id).hasState key = tables.hasState key := rfl
      simp only [Op.write, stateSet, hstate]
      rfl
  | _ => rfl

theorem messagesOf_messageSetDcMsgId {rowId : Nat} (dcMsgId : UInt32)
    (h : ∀ m ∈ tables.messagesOf id, m.id ≠ rowId) :
    (tables.messageSetDcMsgId rowId dcMsgId).messagesOf id = tables.messagesOf id := by
  have hfilter : (tables.messageSetDcMsgId rowId dcMsgId).messagesOf id =
      (tables.messagesOf id).map fun m =>
        if m.id == rowId then { m with dcMsgId := some dcMsgId } else m := by
    simp only [messagesOf, messageSetDcMsgId, List.filter_map]
    congr 1
    refine List.filter_congr fun m _ => ?_
    simp only [Function.comp]
    split <;> rfl
  rw [hfilter]
  exact (List.map_congr_left fun m hm => by simp [h m hm]).trans (List.map_id _)

theorem Holds.write (h : tables.Holds id secret) (hop : Spares id secret op) :
    (op.write tables).Holds id secret where
  ticket := by
    rw [← h.ticket]
    cases op with
    | TicketClose other closedAt => exact hop.elim
    | TicketPurgeInactive cutoff => exact hop.elim
    | MessageSetDcMsgId rowId dcMsgId => rfl
    | _ => exact (write_of_not_touches hop tables).1
  messages := by
    rw [← h.messages]
    cases op with
    | TicketClose other closedAt => exact hop.elim
    | TicketPurgeInactive cutoff => exact hop.elim
    | MessageInsert m =>
        have hm : m.ticketId ≠ id := by simpa [Spares, Op.touches] using hop
        simp [Op.write, messageInsert, messagesOf, newMessageRow, hm]
    | MessageSetDcMsgId rowId dcMsgId =>
        exact messagesOf_messageSetDcMsgId dcMsgId (h.messages ▸ hop)
    | ReplayInsert challengeId expiresAt =>
        simp only [Op.write]
        split <;> rfl
    | _ => rfl

end Tables

end DeltaFeedback.Db
