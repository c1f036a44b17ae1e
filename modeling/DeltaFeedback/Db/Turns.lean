import DeltaFeedback.World.Theorems
import Mathlib.Data.List.Chain

namespace DeltaFeedback.Db

open Text

-- The status a stored message of either side leads to.
def Sender.statusAfter : Sender → TicketStatus
  | .Visitor => .AwaitingAdmin
  | .Admin => .AwaitingVisitor

namespace Tables

variable (tables : Tables) (id : Bytes)

def lastSender : Option Sender := (tables.messagesByTicket id).getLast?.map fun m => m.sender

-- An open ticket waits for the side that did not have the last word.
def InTurn : Prop :=
  ∀ t, tables.ticket? id = some t → t.status ≠ .Closed →
    (t.status = .AwaitingVisitor ↔ tables.lastSender id = some .Admin)

instance : Decidable (tables.InTurn id) :=
  inferInstanceAs (Decidable (∀ t ∈ tables.ticket? id, t.status ≠ .Closed →
    (t.status = .AwaitingVisitor ↔ tables.lastSender id = some .Admin)))

-- No two messages of the visitor stand next to each other.
def VisitorsApart : Prop :=
  ((tables.messagesByTicket id).map fun m => m.sender).IsChain fun first second =>
    ¬ (first = .Visitor ∧ second = .Visitor)

instance : Decidable (tables.VisitorsApart id) :=
  inferInstanceAs (Decidable (List.IsChain _ _))

variable {tables id}

theorem lastSender_messageInsert (m : NewMessage) (h : m.ticketId = id) :
    (tables.messageInsert m).lastSender id = some m.sender := by
  simp [lastSender, messagesByTicket_messageInsert, h, newMessageRow, MessageRow.message]

theorem write_of_lastSender {op : Op} (hop : op.touches id = false) :
    (op.write tables).lastSender id = tables.lastSender id := by
  simp only [lastSender, (write_of_not_touches hop tables).2]

theorem InTurn.write {op : Op} (h : tables.InTurn id) (hop : op.touches id = false) :
    (op.write tables).InTurn id := by
  intro t ht hopen
  rw [(write_of_not_touches hop tables).1] at ht
  rw [write_of_lastSender hop]
  exact h t ht hopen

theorem inTurn_ticketClose (closedAt : Int) : (tables.ticketClose id closedAt).InTurn id := by
  intro t ht hopen
  rw [ticket?_ticketClose, Option.map_eq_some_iff] at ht
  obtain ⟨old, -, rfl⟩ := ht
  by_cases hold : old.status = .Closed
  · simp [hold] at hopen
  · simp [hold, closeRow] at hopen

-- The status that fits the last message puts the ticket in turn.
theorem inTurn_ticketSetStatus {side : Sender} (hlast : tables.lastSender id = some side) :
    (tables.ticketSetStatus id side.statusAfter).InTurn id := by
  intro t ht hopen
  rw [ticket?_ticketSetStatus, Option.map_eq_some_iff] at ht
  obtain ⟨old, -, rfl⟩ := ht
  have hlast' : (tables.ticketSetStatus id side.statusAfter).lastSender id = some side := hlast
  rw [hlast']
  by_cases hold : old.status = .Closed
  · simp [hold] at hopen
  · cases side <;> simp [hold, setStatusRow, Sender.statusAfter]

theorem inTurn_ticketSetStatus_of_closed {status : TicketStatus}
    (h : ∀ t, tables.ticket? id = some t → t.status = .Closed) :
    (tables.ticketSetStatus id status).InTurn id := by
  intro t ht hopen
  rw [ticket?_ticketSetStatus, Option.map_eq_some_iff] at ht
  obtain ⟨old, hold, rfl⟩ := ht
  simp [h old hold] at hopen

theorem VisitorsApart.messageInsert {m : NewMessage} (h : tables.VisitorsApart id)
    (hm : m.ticketId = id) (hlast : m.sender = .Visitor → tables.lastSender id ≠ some .Visitor) :
    (tables.messageInsert m).VisitorsApart id := by
  unfold VisitorsApart
  rw [messagesByTicket_messageInsert, if_pos hm, List.map_append, List.isChain_append]
  refine ⟨h, List.IsChain.singleton _, fun first hfirst second hsecond => ?_⟩
  rintro ⟨rfl, rfl⟩
  have hsender : m.sender = .Visitor := by simpa [newMessageRow, MessageRow.message] using hsecond
  refine hlast hsender ?_
  simpa [lastSender] using hfirst

theorem VisitorsApart.write {op : Op} (h : tables.VisitorsApart id)
    (hop : op.touches id = false) : (op.write tables).VisitorsApart id := by
  unfold VisitorsApart
  rw [(write_of_not_touches hop tables).2]
  exact h

end Tables

end DeltaFeedback.Db
