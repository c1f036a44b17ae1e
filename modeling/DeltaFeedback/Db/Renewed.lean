import DeltaFeedback.Dc.Reset
import DeltaFeedback.World.Theorems

namespace DeltaFeedback.Db

open Text Interleaving

-- A message whose row came `k` ids later.
def MessageRow.raise (k : Nat) (m : MessageRow) : MessageRow := { m with id := m.id + k }

def Message.raise (k : Nat) (m : Message) : Message := { m with id := m.id + k }

namespace Tables

-- The same tables, but for the ids of the messages and what else the state holds.
structure Renewed (k : Nat) (first second : Tables) : Prop where
  tickets : first.tickets = second.tickets
  messages : first.messages = second.messages.map (·.raise k)
  messageSeq : first.messageSeq = second.messageSeq + k
  replay : first.replay = second.replay
  owner : first.stateGet Dc.kOwnerKey = second.stateGet Dc.kOwnerKey

namespace Renewed

variable {k : Nat} {first second : Tables} {id : Bytes}

theorem ticket?_eq (h : Renewed k first second) (id : Bytes) : first.ticket? id = second.ticket? id := by
  rw [ticket?, ticket?, h.tickets]

theorem messagesOf_eq (h : Renewed k first second) (id : Bytes) :
    first.messagesOf id = (second.messagesOf id).map (·.raise k) := by
  rw [messagesOf, messagesOf, h.messages, List.filter_map]
  rfl

theorem messagesByTicket_eq (h : Renewed k first second) (id : Bytes) :
    first.messagesByTicket id = (second.messagesByTicket id).map (·.raise k) := by
  rw [messagesByTicket, messagesByTicket, h.messagesOf_eq, List.map_map, List.map_map]
  rfl

theorem latestDcMsgIdForTicket_eq (h : Renewed k first second) (id : Bytes) :
    first.latestDcMsgIdForTicket id = second.latestDcMsgIdForTicket id := by
  rw [latestDcMsgIdForTicket, latestDcMsgIdForTicket, h.messagesOf_eq, List.filterMap_map]
  rfl

theorem findTicketByDcMsgId_eq (h : Renewed k first second) (dcMsgId : UInt32) :
    first.findTicketByDcMsgId dcMsgId = second.findTicketByDcMsgId dcMsgId := by
  rw [findTicketByDcMsgId, findTicketByDcMsgId, h.messages, List.find?_map, Option.map_map]
  rfl

theorem inactiveBefore_eq (h : Renewed k first second) (cutoff : Int) (t : TicketRow) :
    first.inactiveBefore cutoff t = second.inactiveBefore cutoff t := by
  rw [inactiveBefore, inactiveBefore, latestMessageAt, latestMessageAt, h.messagesOf_eq, List.map_map]
  rfl

-- The steps whose result does not tell such tables apart, and that touch no
-- state but the owner's.
def tellsNothing : Op → Bool
  | .MessageSetDcMsgId .. => false
  | .MessagesByTicket _ => false
  | .LastInsertRowid => false
  | .Changes => false
  | .StateGet key => key == Dc.kOwnerKey
  | .StateSet key _ => key == Dc.kOwnerKey
  | .StateDel _ => false
  | _ => true

theorem setDcMsgId (h : Renewed k first second) (rowId : Nat) (dcMsgId : UInt32) :
    Renewed k (first.messageSetDcMsgId (rowId + k) dcMsgId)
      (second.messageSetDcMsgId rowId dcMsgId) := by
  refine { h with messages := ?_ }
  simp only [messageSetDcMsgId, h.messages, List.map_map]
  refine List.map_congr_left fun m _ => ?_
  simp only [Function.comp, MessageRow.raise, beq_iff_eq, Nat.add_right_cancel_iff]
  split <;> rfl

theorem write (h : Renewed k first second) {op : Op} (hop : tellsNothing op = true) :
    Renewed k (op.write first) (op.write second) := by
  cases op with
  | TicketInsert t =>
      exact { h with tickets := by simp [Op.write, ticketInsert, newTicketRow, h.tickets] }
  | TicketSetStatus id status =>
      exact { h with
        tickets := by simp [Op.write, ticketSetStatus, updateTickets, h.tickets] }
  | TicketClose id closedAt =>
      exact { h with tickets := by simp [Op.write, ticketClose, updateTickets, h.tickets] }
  | TicketPurgeInactive cutoff =>
      have hkept : (first.tickets.filter fun t => !first.inactiveBefore cutoff t) =
          second.tickets.filter fun t => !second.inactiveBefore cutoff t := by
        rw [h.tickets]
        exact List.filter_congr fun t _ => by rw [h.inactiveBefore_eq]
      refine { h with tickets := hkept, messages := ?_ }
      simp only [Op.write, ticketPurgeInactive, hkept, h.messages, List.filter_map]
      rfl
  | MessageInsert m =>
      refine { h with messages := ?_, messageSeq := ?_ }
      · simp [Op.write, messageInsert, newMessageRow, h.messages, h.messageSeq,
          MessageRow.raise]
        omega
      · simp [Op.write, messageInsert, h.messageSeq]
        omega
  | ReplayInsert challengeId expiresAt =>
      have hconsumed : first.consumed challengeId = second.consumed challengeId := by
        rw [consumed, consumed, h.replay]
      simp only [Op.write, hconsumed]
      split_ifs
      · exact h
      · exact { h with replay := by simp [replayInsert, h.replay] }
  | ReplayPurge now =>
      exact { h with replay := by simp [Op.write, replayPurge, h.replay] }
  | StateSet key value =>
      obtain rfl : key = Dc.kOwnerKey := by simpa [tellsNothing] using hop
      refine { h with owner := ?_ }
      simp only [Op.write]
      rw [stateGet_stateSet, stateGet_stateSet]
  | MessageSetDcMsgId rowId dcMsgId => cases hop
  | StateDel key => cases hop
  | _ => exact h

end Renewed

end Tables

end DeltaFeedback.Db
