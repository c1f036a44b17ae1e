import DeltaFeedback.Db.Tables

namespace DeltaFeedback.Db.Tables

open Text

-- The row of kTicketInsert: the status is a literal of the statement.
def newTicketRow (tables : Tables) (t : Ticket) : TicketRow :=
  { t with
    status := .AwaitingAdmin
    closedAt := none
    rowid := nextRowid (tables.tickets.map fun t => t.rowid) }

def ticketInsert (tables : Tables) (t : Ticket) : Tables :=
  { tables with tickets := tables.tickets ++ [tables.newTicketRow t] }

-- `WHERE id = ?1 AND status != 'closed'`
def openTicket (id : Bytes) (t : TicketRow) : Bool := t.id == id && t.status != .Closed

def setStatusRow (status : TicketStatus) (t : TicketRow) : TicketRow := { t with status := status }

def closeRow (closedAt : Int) (t : TicketRow) : TicketRow :=
  { t with status := .Closed, closedAt := some closedAt }

def updateTickets (tables : Tables) (p : TicketRow → Bool) (f : TicketRow → TicketRow) : Tables :=
  { tables with tickets := tables.tickets.map fun t => if p t then f t else t }

def ticketSetStatus (tables : Tables) (id : Bytes) (status : TicketStatus) : Tables :=
  tables.updateTickets (openTicket id) (setStatusRow status)

def ticketClose (tables : Tables) (id : Bytes) (closedAt : Int) : Tables :=
  tables.updateTickets (openTicket id) (closeRow closedAt)

-- `IFNULL((SELECT MAX(created_at) FROM messages WHERE ticket_id = tickets.id), tickets.created_at)`
def latestMessageAt (tables : Tables) (t : TicketRow) : Int :=
  match (tables.messagesOf t.id).map fun m => m.createdAt with
  | [] => t.createdAt
  | first :: rest => rest.foldl max first

def inactiveBefore (tables : Tables) (cutoff : Int) (t : TicketRow) : Bool :=
  max (tables.latestMessageAt t) (t.closedAt.getD 0) < cutoff

-- The deleted tickets take their messages with them (ON DELETE CASCADE).
def ticketPurgeInactive (tables : Tables) (cutoff : Int) : Tables :=
  let kept := tables.tickets.filter fun t => !tables.inactiveBefore cutoff t
  { tables with
    tickets := kept
    messages := tables.messages.filter fun m => kept.any fun t => t.id == m.ticketId }

def newMessageRow (tables : Tables) (m : NewMessage) : MessageRow :=
  { m with id := tables.messageSeq + 1 }

def messageInsert (tables : Tables) (m : NewMessage) : Tables :=
  { tables with
    messages := tables.messages ++ [tables.newMessageRow m]
    messageSeq := tables.messageSeq + 1 }

def messageSetDcMsgId (tables : Tables) (rowId : Nat) (dcMsgId : UInt32) : Tables :=
  { tables with messages := tables.messages.map fun m =>
      if m.id == rowId then { m with dcMsgId := some dcMsgId } else m }

-- Rows are kept in the order of their ids, which is what ORDER BY id asks for.
def messagesByTicket (tables : Tables) (id : Bytes) : List Message :=
  (tables.messagesOf id).map fun m => m.message

-- The index on dc_msg_id lists equal values by row id: LIMIT 1 is the lowest.
def findTicketByDcMsgId (tables : Tables) (dcMsgId : UInt32) : Option Bytes :=
  (tables.messages.find? fun m => m.dcMsgId == some dcMsgId).map fun m => m.ticketId

def latestDcMsgIdForTicket (tables : Tables) (id : Bytes) : Option UInt32 :=
  ((tables.messagesOf id).filterMap fun m => m.dcMsgId).getLast?

def replayInsert (tables : Tables) (challengeId : Bytes) (expiresAt : Int) : Tables :=
  { tables with replay := tables.replay ++
      [⟨nextRowid (tables.replay.map fun r => r.rowid), challengeId, expiresAt⟩] }

def replayPurge (tables : Tables) (now : Int) : Tables :=
  { tables with replay := tables.replay.filter fun r => !(r.expiresAt < now) }

def stateGet (tables : Tables) (key : Bytes) : Option Bytes :=
  (tables.state.find? fun s => s.key == key).map fun s => s.value

def hasState (tables : Tables) (key : Bytes) : Bool := tables.state.any fun s => s.key == key

-- `ON CONFLICT(key) DO UPDATE`
def stateSet (tables : Tables) (key value : Bytes) : Tables :=
  { tables with state :=
      if tables.hasState key then
        tables.state.map fun s => if s.key == key then { s with value := value } else s
      else tables.state ++ [⟨nextRowid (tables.state.map fun s => s.rowid), key, value⟩] }

def stateDel (tables : Tables) (key : Bytes) : Tables :=
  { tables with state := tables.state.filter fun s => s.key != key }

end DeltaFeedback.Db.Tables
