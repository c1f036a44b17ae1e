import DeltaFeedback.World

namespace DeltaFeedback.Db

open Text Interleaving

namespace TicketsRepo

def insertNew (t : Ticket) : Proc Unit := perform (.TicketInsert t)

def get (id : Bytes) : Proc (Option Ticket) := perform (.TicketGetById id)

def setStatus (id : Bytes) (status : TicketStatus) : Proc Unit :=
  perform (.TicketSetStatus id status)

def close (id : Bytes) (closedAt : Int) : Proc Unit := perform (.TicketClose id closedAt)

def purgeInactiveOlderThan (cutoff : Int) : Proc Nat := do
  perform (.TicketPurgeInactive cutoff)
  perform .Changes

end TicketsRepo

namespace MessagesRepo

-- The address is only kept for visitors; an empty one is stored as NULL.
def newMessage (ticketId : Bytes) (sender : Sender) (body : Bytes) (createdAt : Int)
    (visitorIp : Bytes) (dcMsgId : Option UInt32) : NewMessage :=
  { ticketId, sender, body, createdAt
    visitorIp := if sender = .Visitor ∧ visitorIp ≠ [] then some visitorIp else none
    dcMsgId }

def append (ticketId : Bytes) (sender : Sender) (body : Bytes) (createdAt : Int)
    (visitorIp : Bytes) : Proc Nat := do
  perform (.MessageInsert (newMessage ticketId sender body createdAt visitorIp none))
  perform .LastInsertRowid

def setDcMsgId (rowId : Nat) (dcMsgId : UInt32) : Proc Unit :=
  perform (.MessageSetDcMsgId rowId dcMsgId)

def list (ticketId : Bytes) : Proc (List Message) := perform (.MessagesByTicket ticketId)

def findTicketByDcMsgId (dcMsgId : UInt32) : Proc (Option Bytes) :=
  perform (.FindTicketByDcMsgId dcMsgId)

def latestDcMsgIdForTicket (ticketId : Bytes) : Proc (Option UInt32) :=
  perform (.LatestDcMsgIdForTicket ticketId)

end MessagesRepo

namespace ReplayStore

def tryConsume (challengeId : Bytes) (expiresAt : Int) : Proc Bool := do
  perform (.ReplayInsert challengeId expiresAt)
  let changes : Nat ← perform .Changes
  return changes == 1

def purgeExpired (now : Int) : Proc Nat := do
  perform (.ReplayPurge now)
  perform .Changes

end ReplayStore

namespace StateRepo

def get (key : Bytes) : Proc (Option Bytes) := perform (.StateGet key)

def set (key value : Bytes) : Proc Unit := perform (.StateSet key value)

end StateRepo

end DeltaFeedback.Db
