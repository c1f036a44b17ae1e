import DeltaFeedback.Db.Queries.Constraints
import DeltaFeedback.Interleaving.Discipline

namespace DeltaFeedback

open Text Db Interleaving

-- A message Delta Chat took for sending; `quote` is 0 where nothing is quoted.
structure DcMsg where
  contact : UInt32
  text : Bytes
  quote : UInt32
  id : UInt32
deriving DecidableEq

-- What the threads of the program share: the connection with the two values it
-- keeps about its last statements, the owner, and Delta Chat's outgoing messages.
structure World where
  db : Database
  lastInsertRowid : Nat
  changes : Nat
  owner : UInt32
  outbox : List DcMsg
deriving DecidableEq

def World.empty : World where
  db := Database.empty
  lastInsertRowid := 0
  changes := 0
  owner := 0
  outbox := []

-- The atomic steps: a statement with its bound values, a separate question to
-- the connection, an access to the owner, a message handed to Delta Chat (which
-- gives it an id, 0 where the send failed).
inductive Op
  | TicketInsert (t : Ticket)
  | TicketGetById (id : Bytes)
  | TicketSetStatus (id : Bytes) (status : TicketStatus)
  | TicketClose (id : Bytes) (closedAt : Int)
  | TicketPurgeInactive (cutoff : Int)
  | MessageInsert (m : NewMessage)
  | MessageSetDcMsgId (rowId : Nat) (dcMsgId : UInt32)
  | MessagesByTicket (id : Bytes)
  | FindTicketByDcMsgId (dcMsgId : UInt32)
  | LatestDcMsgIdForTicket (id : Bytes)
  | ReplayInsert (challengeId : Bytes) (expiresAt : Int)
  | ReplayPurge (now : Int)
  | StateGet (key : Bytes)
  | StateSet (key value : Bytes)
  | StateDel (key : Bytes)
  | LastInsertRowid
  | Changes
  | OwnerLoad
  | OwnerStore (contact : UInt32)
  | DcSend (contact : UInt32) (text : Bytes) (quote id : UInt32)
deriving DecidableEq

@[reducible] def Op.Result : Op → Type
  | .TicketGetById _ => Option Ticket
  | .MessagesByTicket _ => List Message
  | .FindTicketByDcMsgId _ => Option Bytes
  | .LatestDcMsgIdForTicket _ => Option UInt32
  | .StateGet _ => Option Bytes
  | .LastInsertRowid => Nat
  | .Changes => Nat
  | .OwnerLoad => UInt32
  | .DcSend .. => UInt32
  | _ => Unit

-- Statement::step throws on the constraint a statement would break.
inductive SqlError
  | PrimaryKey
  | ForeignKey
deriving DecidableEq

abbrev Proc := Prog Op Op.Result

abbrev Trail := List (Taken Op Op.Result)

abbrev perform (op : Op) : Proc op.Result := Prog.perform op

namespace World

variable (world : World)

-- An UPDATE or DELETE that touched so many rows.
def wrote (tables : Tables) (h : Constraints tables) (rows : Nat) : World :=
  { world with db := ⟨tables, h⟩, changes := rows }

-- An INSERT that stored one row.
def stored (tables : Tables) (h : Constraints tables) (rowid : Nat) : World :=
  { world with db := ⟨tables, h⟩, lastInsertRowid := rowid, changes := 1 }

-- An INSERT that a constraint has refused counts no rows.
def refused : World := { world with changes := 0 }

def send (msg : DcMsg) : World :=
  if msg.id = 0 then world else { world with outbox := world.outbox ++ [msg] }

end World

-- What a step does when it is executed, and the world it leaves where it throws.
-- Rows deleted by a cascade are not counted as changes.
def exec : (op : Op) → World → Except (SqlError × World) (op.Result × World)
  | .TicketInsert t, world =>
      if h : t.id ∈ world.db.tickets.map fun t => t.id then .error (.PrimaryKey, world.refused)
      else .ok ((), world.stored _ (world.db.constraints.ticketInsert t h)
        (world.db.newTicketRow t).rowid)
  | .TicketGetById id, world => .ok ((world.db.ticket? id).map fun t => t.toTicket, world)
  | .TicketSetStatus id status, world =>
      .ok ((), world.wrote (world.db.ticketSetStatus id status)
        (world.db.constraints.updateTickets _ _ fun _ => rfl)
        (world.db.tickets.countP (Tables.openTicket id)))
  | .TicketClose id closedAt, world =>
      .ok ((), world.wrote (world.db.ticketClose id closedAt)
        (world.db.constraints.updateTickets _ _ fun _ => rfl)
        (world.db.tickets.countP (Tables.openTicket id)))
  | .TicketPurgeInactive cutoff, world =>
      .ok ((), world.wrote _ (world.db.constraints.ticketPurgeInactive cutoff)
        (world.db.tickets.countP (world.db.inactiveBefore cutoff)))
  | .MessageInsert m, world =>
      if h : m.ticketId ∈ world.db.tickets.map fun t => t.id then
        .ok ((), world.stored _ (world.db.constraints.messageInsert m h) (world.db.newMessageRow m).id)
      else .error (.ForeignKey, world.refused)
  | .MessageSetDcMsgId rowId dcMsgId, world =>
      .ok ((), world.wrote _ (world.db.constraints.messageSetDcMsgId rowId dcMsgId)
        (world.db.messages.countP fun m => m.id == rowId))
  | .MessagesByTicket id, world => .ok (world.db.messagesByTicket id, world)
  | .FindTicketByDcMsgId dcMsgId, world => .ok (world.db.findTicketByDcMsgId dcMsgId, world)
  | .LatestDcMsgIdForTicket id, world => .ok (world.db.latestDcMsgIdForTicket id, world)
  | .ReplayInsert challengeId expiresAt, world =>
      if h : world.db.consumed challengeId then .ok ((), { world with changes := 0 })
      else .ok ((), world.stored _ (world.db.constraints.replayInsert challengeId expiresAt h)
        (Db.nextRowid (world.db.replay.map fun r => r.rowid)))
  | .ReplayPurge now, world =>
      .ok ((), world.wrote _ (world.db.constraints.replayPurge now)
        (world.db.replay.countP fun r => r.expiresAt < now))
  | .StateGet key, world => .ok (world.db.stateGet key, world)
  | .StateSet key value, world =>
      if world.db.hasState key then
        .ok ((), world.wrote _ (world.db.constraints.stateSet key value) 1)
      else .ok ((), world.stored _ (world.db.constraints.stateSet key value)
        (Db.nextRowid (world.db.state.map fun s => s.rowid)))
  | .StateDel key, world =>
      .ok ((), world.wrote _ (world.db.constraints.stateDel key)
        (world.db.state.countP fun s => s.key == key))
  | .LastInsertRowid, world => .ok (world.lastInsertRowid, world)
  | .Changes, world => .ok (world.changes, world)
  | .OwnerLoad, world => .ok (world.owner, world)
  | .OwnerStore contact, world => .ok ((), { world with owner := contact })
  | .DcSend contact text quote id, world => .ok (id, world.send ⟨contact, text, quote, id⟩)

end DeltaFeedback
