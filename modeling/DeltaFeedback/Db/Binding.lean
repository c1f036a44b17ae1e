import DeltaFeedback.World.Theorems

namespace DeltaFeedback.Db.Tables

open Text

variable (tables : Tables)

-- A message id that was given out, for a message of this ticket if it still exists.
def Owned (rowId : Nat) (ticketId : Bytes) : Prop :=
  rowId ≤ tables.messageSeq ∧ ∀ row ∈ tables.messages, row.id = rowId → row.ticketId = ticketId

-- What the ids bound to messages stand for.
def Bound (notified : Bytes → UInt32 → Prop) : Prop :=
  ∀ row ∈ tables.messages, ∀ dcMsgId, row.dcMsgId = some dcMsgId → notified row.ticketId dcMsgId

variable {tables} {rowId : Nat} {ticketId : Bytes} {notified : Bytes → UInt32 → Prop}

theorem owned_messageInsert (h : Constraints tables) (m : NewMessage) :
    (tables.messageInsert m).Owned (tables.newMessageRow m).id m.ticketId := by
  refine ⟨le_rfl, fun row hrow hid => ?_⟩
  rcases List.mem_append.mp hrow with hold | hnew
  · have hle := h.messageIdsLe row hold
    simp only [newMessageRow] at hid
    omega
  · rw [List.mem_singleton.mp hnew]
    rfl

theorem mem_messageSetDcMsgId {dcMsgId : UInt32} {row : MessageRow}
    (h : row ∈ (tables.messageSetDcMsgId rowId dcMsgId).messages) :
    ∃ old ∈ tables.messages, row.id = old.id ∧ row.ticketId = old.ticketId ∧
      (row.dcMsgId = old.dcMsgId ∨ old.id = rowId ∧ row.dcMsgId = some dcMsgId) := by
  obtain ⟨old, hold, rfl⟩ := List.mem_map.mp h
  refine ⟨old, hold, ?_⟩
  by_cases hid : old.id = rowId <;> simp [hid]

-- No statement moves a message to another ticket or gives an id out again.
theorem Owned.write {op : Op} (h : tables.Owned rowId ticketId) :
    (op.write tables).Owned rowId ticketId := by
  cases op with
  | MessageInsert m =>
      refine ⟨h.1.trans (Nat.le_succ _), fun row hrow hid => ?_⟩
      rcases List.mem_append.mp hrow with hold | hnew
      · exact h.2 row hold hid
      · have hle := h.1
        rw [List.mem_singleton.mp hnew] at hid
        simp only [newMessageRow] at hid
        omega
  | MessageSetDcMsgId other dcMsgId =>
      refine ⟨h.1, fun row hrow hid => ?_⟩
      obtain ⟨old, hold, hrowId, hticket, -⟩ := mem_messageSetDcMsgId hrow
      rw [hticket]
      exact h.2 old hold (hrowId ▸ hid)
  | TicketPurgeInactive cutoff =>
      exact ⟨h.1, fun row hrow => h.2 row (List.mem_filter.mp hrow).1⟩
  | ReplayInsert challengeId expiresAt =>
      simp only [Op.write]
      split <;> exact h
  | _ => exact h

theorem Bound.mono {weaker : Bytes → UInt32 → Prop} (h : tables.Bound notified)
    (hmono : ∀ ticketId dcMsgId, notified ticketId dcMsgId → weaker ticketId dcMsgId) :
    tables.Bound weaker :=
  fun row hrow dcMsgId hbound => hmono _ _ (h row hrow dcMsgId hbound)

-- A new message is unbound; an id is bound to a message of the ticket it stands for.
def Binds (notified : Bytes → UInt32 → Prop) (tables : Tables) : Op → Prop
  | .MessageInsert m => m.dcMsgId = none
  | .MessageSetDcMsgId rowId dcMsgId =>
      ∃ ticketId, tables.Owned rowId ticketId ∧ notified ticketId dcMsgId
  | _ => True

theorem Bound.write {op : Op} (h : tables.Bound notified) (hop : Binds notified tables op) :
    (op.write tables).Bound notified := by
  cases op with
  | MessageInsert m =>
      intro row hrow dcMsgId hbound
      rcases List.mem_append.mp hrow with hold | hnew
      · exact h row hold dcMsgId hbound
      · have hnone : m.dcMsgId = none := hop
        rw [List.mem_singleton.mp hnew] at hbound
        simp [newMessageRow, hnone] at hbound
  | MessageSetDcMsgId rowId dcMsgId =>
      obtain ⟨ticketId, howned, hnotified⟩ := hop
      intro row hrow bound hbound
      obtain ⟨old, hold, -, hticket, hsame | ⟨hid, hset⟩⟩ := mem_messageSetDcMsgId hrow
      · rw [hticket]
        exact h old hold bound (hsame ▸ hbound)
      · rw [hset, Option.some.injEq] at hbound
        rw [hticket, howned.2 old hold hid, ← hbound]
        exact hnotified
  | TicketPurgeInactive cutoff => exact fun row hrow => h row (List.mem_filter.mp hrow).1
  | ReplayInsert challengeId expiresAt =>
      simp only [Op.write]
      split <;> exact h
  | _ => exact h

end DeltaFeedback.Db.Tables
