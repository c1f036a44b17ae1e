import DeltaFeedback.Dc.Bot

namespace DeltaFeedback

open Text Interleaving Db

namespace Db.Tables

variable (tables : Tables)

-- `DELETE FROM tickets;`, and their messages with them (ON DELETE CASCADE)
def ticketsDelete : Tables := { tables with tickets := [], messages := [] }

-- `DELETE FROM pow_replay;`
def replayDelete : Tables := { tables with replay := [] }

-- Bot::reset_owner_in_db. AUTOINCREMENT goes on counting where it was.
def resetOwnerInDb : Tables := ((tables.stateDel Dc.kOwnerKey).ticketsDelete).replayDelete

variable {tables}

theorem constraints_resetOwnerInDb (h : Constraints tables) : Constraints tables.resetOwnerInDb where
  ticketIds := by simp [resetOwnerInDb, replayDelete, ticketsDelete]
  messageIds := by simp [resetOwnerInDb, replayDelete, ticketsDelete]
  messageIdsLe := by simp [resetOwnerInDb, replayDelete, ticketsDelete]
  foreignKey := by simp [resetOwnerInDb, replayDelete, ticketsDelete]
  challengeIds := by simp [resetOwnerInDb, replayDelete]
  stateKeys := (h.stateDel Dc.kOwnerKey).stateKeys

theorem stateGet_resetOwnerInDb : tables.resetOwnerInDb.stateGet Dc.kOwnerKey = none := by
  simp [resetOwnerInDb, replayDelete, ticketsDelete, stateDel, stateGet, List.find?_filter]

end Db.Tables

-- `deltafeedback --reset-admin`, with no other process on the database.
def cmdResetAdmin (world : World) : World :=
  { world with db := ⟨_, Db.Tables.constraints_resetOwnerInDb world.db.constraints⟩ }

end DeltaFeedback
