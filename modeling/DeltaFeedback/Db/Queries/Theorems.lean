import DeltaFeedback.Db.Queries

namespace DeltaFeedback.Db.Tables

open Text

variable (tables : Tables) (id : Bytes)

theorem id_of_ticket? {tables : Tables} {id : Bytes} {t : TicketRow}
    (h : tables.ticket? id = some t) : t.id = id := by
  have hid := List.find?_some h
  exact beq_iff_eq.mp hid

theorem ticket?_eq_none_iff : tables.ticket? id = none ↔
    id ∉ tables.tickets.map fun t => t.id := by
  simp [ticket?, List.find?_eq_none]

theorem ticket?_ticketInsert (t : Ticket) : (tables.ticketInsert t).ticket? id =
    (tables.ticket? id).or (if t.id = id then some (tables.newTicketRow t) else none) := by
  simp only [ticket?, ticketInsert, List.find?_append]
  congr 1
  by_cases h : t.id = id <;> simp [newTicketRow, h]

theorem ticket?_updateTickets (p : TicketRow → Bool) (f : TicketRow → TicketRow)
    (hid : ∀ t, (f t).id = t.id) : (tables.updateTickets p f).ticket? id =
      (tables.ticket? id).map fun t => if p t then f t else t := by
  simp only [ticket?, updateTickets, List.find?_map]
  congr 2
  funext t
  simp only [Function.comp]
  split
  · rw [hid]
  · rfl

-- A status can only be written over one that is not closed.
theorem ticket?_ticketSetStatus (other : Bytes) (status : TicketStatus) :
    (tables.ticketSetStatus other status).ticket? id = (tables.ticket? id).map fun t =>
      if id = other ∧ t.status ≠ .Closed then setStatusRow status t else t := by
  have hid : ∀ t, (setStatusRow status t).id = t.id := fun _ => rfl
  rw [ticketSetStatus, ticket?_updateTickets _ _ _ _ hid]
  cases h : tables.ticket? id with
  | none => rfl
  | some t => simp [openTicket, id_of_ticket? h]

theorem ticket?_ticketClose (other : Bytes) (closedAt : Int) :
    (tables.ticketClose other closedAt).ticket? id = (tables.ticket? id).map fun t =>
      if id = other ∧ t.status ≠ .Closed then closeRow closedAt t else t := by
  have hid : ∀ t, (closeRow closedAt t).id = t.id := fun _ => rfl
  rw [ticketClose, ticket?_updateTickets _ _ _ _ hid]
  cases h : tables.ticket? id with
  | none => rfl
  | some t => simp [openTicket, id_of_ticket? h]

theorem messagesByTicket_messageInsert (m : NewMessage) :
    (tables.messageInsert m).messagesByTicket id = tables.messagesByTicket id ++
      if m.ticketId = id then [(tables.newMessageRow m).message] else [] := by
  simp only [messagesByTicket, messagesOf, messageInsert, List.filter_append, List.map_append]
  congr 1
  by_cases h : m.ticketId = id <;> simp [newMessageRow, h]

theorem messagesByTicket_messageSetDcMsgId (rowId : Nat) (dcMsgId : UInt32) :
    (tables.messageSetDcMsgId rowId dcMsgId).messagesByTicket id = tables.messagesByTicket id := by
  simp only [messagesByTicket, messagesOf, messageSetDcMsgId, List.filter_map, List.map_map]
  have hticket : ((fun m : MessageRow => m.ticketId == id) ∘ fun m =>
      if m.id == rowId then { m with dcMsgId := some dcMsgId } else m) =
      fun m => m.ticketId == id := by
    funext m
    simp only [Function.comp]
    split <;> rfl
  rw [hticket]
  refine List.map_congr_left fun m _ => ?_
  simp only [Function.comp]
  split <;> rfl

theorem stateGet_stateSet (key value : Bytes) :
    (tables.stateSet key value).stateGet key = some value := by
  unfold stateSet stateGet
  cases hkey : tables.hasState key with
  | true =>
      have hsame : ((fun s : StateRow => s.key == key) ∘ fun s =>
          if s.key == key then { s with value := value } else s) = fun s => s.key == key := by
        funext s
        simp only [Function.comp]
        split <;> rfl
      obtain ⟨s, hs⟩ : ∃ s, tables.state.find? (fun s => s.key == key) = some s := by
        rw [← Option.isSome_iff_exists, List.find?_isSome]
        exact List.any_eq_true.mp hkey
      have hfound := List.find?_some hs
      simp only [ite_true, List.find?_map, hsame, hs, Option.map_some, hfound]
  | false =>
      have hnone : tables.state.find? (fun s => s.key == key) = none := by
        simpa [hasState, List.find?_eq_none] using hkey
      simp [List.find?_append, hnone]

end DeltaFeedback.Db.Tables
