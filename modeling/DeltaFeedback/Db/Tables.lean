import DeltaFeedback.Text.Bytes
import Mathlib.Data.List.Nodup
import Mathlib.Data.List.Pairwise

namespace DeltaFeedback.Db

open Text

inductive Sender
  | Visitor
  | Admin
deriving DecidableEq

inductive TicketStatus
  | AwaitingAdmin
  | AwaitingVisitor
  | Closed
deriving DecidableEq

structure Ticket where
  id : Bytes
  readTokenHash : Bytes
  name : Bytes
  locale : Bytes
  status : TicketStatus
  createdAt : Int
  closedAt : Option Int
deriving DecidableEq

structure TicketRow extends Ticket where
  rowid : Nat
deriving DecidableEq

-- What kMessageInsert is given.
structure NewMessage where
  ticketId : Bytes
  sender : Sender
  body : Bytes
  createdAt : Int
  visitorIp : Option Bytes
  dcMsgId : Option UInt32
deriving DecidableEq

structure MessageRow extends NewMessage where
  id : Nat
deriving DecidableEq

-- The columns of a message that kMessagesByTicket reads.
structure Message where
  id : Nat
  ticketId : Bytes
  sender : Sender
  body : Bytes
  createdAt : Int
deriving DecidableEq

def MessageRow.message (m : MessageRow) : Message :=
  ⟨m.id, m.ticketId, m.sender, m.body, m.createdAt⟩

structure ReplayRow where
  rowid : Nat
  challengeId : Bytes
  expiresAt : Int
deriving DecidableEq

structure StateRow where
  rowid : Nat
  key : Bytes
  value : Bytes
deriving DecidableEq

-- The tables of kSchema. `messageSeq` is the entry AUTOINCREMENT keeps for
-- messages in sqlite_sequence: the largest id ever given out.
structure Tables where
  tickets : List TicketRow
  messages : List MessageRow
  messageSeq : Nat
  replay : List ReplayRow
  state : List StateRow
deriving DecidableEq

-- What the schema itself guarantees: the primary keys, the foreign key of
-- messages, and that AUTOINCREMENT ids grow and are never given out twice.
structure Constraints (tables : Tables) : Prop where
  ticketIds : (tables.tickets.map fun t => t.id).Nodup
  messageIds : (tables.messages.map fun m => m.id).Pairwise (· < ·)
  messageIdsLe : ∀ m ∈ tables.messages, m.id ≤ tables.messageSeq
  foreignKey : ∀ m ∈ tables.messages, m.ticketId ∈ tables.tickets.map fun t => t.id
  challengeIds : (tables.replay.map fun r => r.challengeId).Nodup
  stateKeys : (tables.state.map fun s => s.key).Nodup

structure Database extends Tables where
  constraints : Constraints toTables
deriving DecidableEq

def Database.empty : Database where
  tickets := []
  messages := []
  messageSeq := 0
  replay := []
  state := []
  constraints := ⟨by simp, by simp, by simp, by simp, by simp, by simp⟩

def Tables.ticket? (tables : Tables) (id : Bytes) : Option TicketRow :=
  tables.tickets.find? fun t => t.id == id

def Tables.messagesOf (tables : Tables) (id : Bytes) : List MessageRow :=
  tables.messages.filter fun m => m.ticketId == id

def Tables.consumed (tables : Tables) (challengeId : Bytes) : Prop :=
  challengeId ∈ tables.replay.map fun r => r.challengeId

instance (tables : Tables) (challengeId : Bytes) : Decidable (tables.consumed challengeId) :=
  inferInstanceAs (Decidable (_ ∈ _))

-- The rowid SQLite picks for a table without AUTOINCREMENT: one past the largest.
def nextRowid (rowids : List Nat) : Nat := rowids.foldl max 0 + 1

end DeltaFeedback.Db
