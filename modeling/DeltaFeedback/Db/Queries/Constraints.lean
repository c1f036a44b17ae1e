import DeltaFeedback.Db.Queries

namespace DeltaFeedback.Db.Constraints

open Text

variable {tables : Tables}

theorem ticketInsert (h : Constraints tables) (t : Ticket)
    (hnew : t.id ∉ tables.tickets.map fun t => t.id) : Constraints (tables.ticketInsert t) where
  ticketIds := by
    simp only [Tables.ticketInsert, List.map_append, List.map_cons, List.map_nil]
    refine List.nodup_append.mpr ⟨h.ticketIds, List.nodup_singleton _, ?_⟩
    rintro id hid _ hnewId rfl
    exact hnew (List.mem_singleton.mp hnewId ▸ hid)
  messageIds := h.messageIds
  messageIdsLe := h.messageIdsLe
  foreignKey m hm := by
    simp only [Tables.ticketInsert, List.map_append]
    exact List.mem_append_left _ (h.foreignKey m hm)
  challengeIds := h.challengeIds
  stateKeys := h.stateKeys

theorem updateTickets (h : Constraints tables) (p : TicketRow → Bool) (f : TicketRow → TicketRow)
    (hid : ∀ t, (f t).id = t.id) : Constraints (tables.updateTickets p f) := by
  have hids : ((tables.tickets.map fun t => if p t then f t else t).map fun t => t.id) =
      tables.tickets.map fun t => t.id := by
    rw [List.map_map]
    refine List.map_congr_left fun t _ => ?_
    simp only [Function.comp]
    split
    · exact hid t
    · rfl
  exact
    { ticketIds := by simp only [Tables.updateTickets, hids]; exact h.ticketIds
      messageIds := h.messageIds
      messageIdsLe := h.messageIdsLe
      foreignKey := fun m hm => by simp only [Tables.updateTickets, hids]; exact h.foreignKey m hm
      challengeIds := h.challengeIds
      stateKeys := h.stateKeys }

theorem ticketPurgeInactive (h : Constraints tables) (cutoff : Int) :
    Constraints (tables.ticketPurgeInactive cutoff) where
  ticketIds := h.ticketIds.sublist ((List.filter_sublist).map _)
  messageIds := h.messageIds.sublist ((List.filter_sublist).map _)
  messageIdsLe m hm := h.messageIdsLe m (List.mem_of_mem_filter hm)
  foreignKey m hm := by
    obtain ⟨t, ht, hid⟩ := List.any_eq_true.mp (List.mem_filter.mp hm).2
    exact List.mem_map.mpr ⟨t, ht, beq_iff_eq.mp hid⟩
  challengeIds := h.challengeIds
  stateKeys := h.stateKeys

theorem messageInsert (h : Constraints tables) (m : NewMessage)
    (hticket : m.ticketId ∈ tables.tickets.map fun t => t.id) :
    Constraints (tables.messageInsert m) where
  ticketIds := h.ticketIds
  messageIds := by
    simp only [Tables.messageInsert, List.map_append, List.map_cons, List.map_nil]
    refine List.pairwise_append.mpr ⟨h.messageIds, List.pairwise_singleton _ _, ?_⟩
    intro id hid _ hnewId
    obtain ⟨other, hother, rfl⟩ := List.mem_map.mp hid
    rw [List.mem_singleton.mp hnewId]
    exact Nat.lt_succ_of_le (h.messageIdsLe other hother)
  messageIdsLe other hother := by
    simp only [Tables.messageInsert, List.mem_append, List.mem_singleton] at hother ⊢
    rcases hother with hother | rfl
    · exact Nat.le_succ_of_le (h.messageIdsLe other hother)
    · exact le_rfl
  foreignKey other hother := by
    simp only [Tables.messageInsert, List.mem_append, List.mem_singleton] at hother ⊢
    rcases hother with hother | rfl
    · exact h.foreignKey other hother
    · exact hticket
  challengeIds := h.challengeIds
  stateKeys := h.stateKeys

theorem messageSetDcMsgId (h : Constraints tables) (rowId : Nat) (dcMsgId : UInt32) :
    Constraints (tables.messageSetDcMsgId rowId dcMsgId) where
  ticketIds := h.ticketIds
  messageIds := by
    have hids : ((tables.messageSetDcMsgId rowId dcMsgId).messages.map fun m => m.id) =
        tables.messages.map fun m => m.id := by
      simp only [Tables.messageSetDcMsgId, List.map_map]
      refine List.map_congr_left fun m _ => ?_
      simp only [Function.comp]
      split <;> rfl
    rw [hids]
    exact h.messageIds
  messageIdsLe m hm := by
    obtain ⟨other, hother, rfl⟩ := List.mem_map.mp hm
    split <;> exact h.messageIdsLe other hother
  foreignKey m hm := by
    obtain ⟨other, hother, rfl⟩ := List.mem_map.mp hm
    split <;> exact h.foreignKey other hother
  challengeIds := h.challengeIds
  stateKeys := h.stateKeys

theorem replayInsert (h : Constraints tables) (challengeId : Bytes) (expiresAt : Int)
    (hnew : ¬ tables.consumed challengeId) :
    Constraints (tables.replayInsert challengeId expiresAt) where
  ticketIds := h.ticketIds
  messageIds := h.messageIds
  messageIdsLe := h.messageIdsLe
  foreignKey := h.foreignKey
  challengeIds := by
    simp only [Tables.replayInsert, List.map_append, List.map_cons, List.map_nil]
    refine List.nodup_append.mpr ⟨h.challengeIds, List.nodup_singleton _, ?_⟩
    rintro id hid _ hnewId rfl
    exact hnew (List.mem_singleton.mp hnewId ▸ hid)
  stateKeys := h.stateKeys

theorem replayPurge (h : Constraints tables) (now : Int) : Constraints (tables.replayPurge now) where
  ticketIds := h.ticketIds
  messageIds := h.messageIds
  messageIdsLe := h.messageIdsLe
  foreignKey := h.foreignKey
  challengeIds := h.challengeIds.sublist ((List.filter_sublist).map _)
  stateKeys := h.stateKeys

theorem stateSet (h : Constraints tables) (key value : Bytes) :
    Constraints (tables.stateSet key value) where
  ticketIds := h.ticketIds
  messageIds := h.messageIds
  messageIdsLe := h.messageIdsLe
  foreignKey := h.foreignKey
  challengeIds := h.challengeIds
  stateKeys := by
    simp only [Tables.stateSet]
    split_ifs with hkey
    · rw [List.map_map, List.map_congr_left (g := fun s => s.key)]
      · exact h.stateKeys
      · intro s _
        simp only [Function.comp]
        split <;> rfl
    · simp only [List.map_append, List.map_cons, List.map_nil]
      refine List.nodup_append.mpr ⟨h.stateKeys, List.nodup_singleton _, ?_⟩
      rintro k hk _ hnewKey rfl
      obtain ⟨s, hs, hsk⟩ := List.mem_map.mp hk
      refine hkey (List.any_eq_true.mpr ⟨s, hs, ?_⟩)
      rw [hsk, List.mem_singleton.mp hnewKey]
      exact beq_self_eq_true key

theorem stateDel (h : Constraints tables) (key : Bytes) : Constraints (tables.stateDel key) where
  ticketIds := h.ticketIds
  messageIds := h.messageIds
  messageIdsLe := h.messageIdsLe
  foreignKey := h.foreignKey
  challengeIds := h.challengeIds
  stateKeys := h.stateKeys.sublist ((List.filter_sublist).map _)

end DeltaFeedback.Db.Constraints
