import DeltaFeedback.Db.Queries.Purge
import DeltaFeedback.World.Theorems

namespace DeltaFeedback.Db.Tables

open Text

variable {tables : Tables} {id : Bytes}

theorem latest_of_messagesOf {later : Tables} (h : later.messagesOf id = tables.messagesOf id) :
    later.latestDcMsgIdForTicket id = tables.latestDcMsgIdForTicket id := by
  rw [latestDcMsgIdForTicket, latestDcMsgIdForTicket, h]

theorem latest_of_absent (h : Constraints tables) (ht : tables.ticket? id = none) :
    tables.latestDcMsgIdForTicket id = none := by
  rw [latestDcMsgIdForTicket, messagesOf_of_absent h ht]
  rfl

-- A row that is not bound yet is passed over.
theorem latest_messageInsert {m : NewMessage} (hm : m.dcMsgId = none) :
    (tables.messageInsert m).latestDcMsgIdForTicket id = tables.latestDcMsgIdForTicket id := by
  have hrow : ([tables.newMessageRow m].filter fun m => m.ticketId == id).filterMap
      (fun m => m.dcMsgId) = [] := by
    by_cases hid : m.ticketId = id <;> simp [newMessageRow, hid, hm]
  rw [latestDcMsgIdForTicket, messagesOf, messageInsert, List.filter_append, List.filterMap_append,
    hrow, List.append_nil]
  rfl

-- The row that was stored last is the one with its id, and the latest of its ticket.
theorem latest_messageSetDcMsgId (h : Constraints tables) {front : List MessageRow}
    {row : MessageRow} (hmessages : tables.messages = front ++ [row]) (dcMsgId : UInt32) :
    (tables.messageSetDcMsgId row.id dcMsgId).latestDcMsgIdForTicket id =
      if row.ticketId = id then some dcMsgId else tables.latestDcMsgIdForTicket id := by
  have hfront : (front.map fun m => if m.id == row.id then { m with dcMsgId := some dcMsgId }
      else m) = front := by
    have hids := h.messageIds
    rw [hmessages, List.map_append, List.pairwise_append] at hids
    conv_rhs => rw [← List.map_id front]
    refine List.map_congr_left fun m hm => if_neg ?_
    have hlt : m.id < row.id := hids.2.2 m.id (List.mem_map.mpr ⟨m, hm, rfl⟩) row.id (by simp)
    rw [beq_iff_eq]
    omega
  have hset : (tables.messageSetDcMsgId row.id dcMsgId).messages =
      front ++ [{ row with dcMsgId := some dcMsgId }] := by
    rw [messageSetDcMsgId, hmessages, List.map_append, hfront]
    simp
  unfold latestDcMsgIdForTicket messagesOf
  rw [hset, hmessages]
  by_cases hid : row.ticketId = id
  · simp [List.filter_append, hid]
  · simp [List.filter_append, hid]

end DeltaFeedback.Db.Tables

namespace DeltaFeedback.Db

open Text

-- The operations that bind no message to a notification.
def Quiet : Op → Prop
  | .MessageInsert m => m.dcMsgId = none
  | .MessageSetDcMsgId .. => False
  | _ => True

theorem Tables.latest_of_write {op : Op} {tables : Tables} {t : TicketRow} (hop : Quiet op)
    (ht : t ∈ (op.write tables).tickets) :
    (op.write tables).latestDcMsgIdForTicket t.id = tables.latestDcMsgIdForTicket t.id := by
  cases op with
  | MessageInsert m => exact latest_messageInsert hop
  | MessageSetDcMsgId rowId dcMsgId => exact hop.elim
  | TicketPurgeInactive cutoff => exact latest_of_messagesOf (messagesOf_ticketPurgeInactive ht)
  | ReplayInsert challengeId expiresAt =>
      rw [Op.write]
      split <;> rfl
  | _ => rfl

end DeltaFeedback.Db
