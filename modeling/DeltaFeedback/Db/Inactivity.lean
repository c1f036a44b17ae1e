import DeltaFeedback.Db.Queries.Purge
import DeltaFeedback.World.Theorems

namespace DeltaFeedback.Db.Tables

open Text

-- The latest event of a ticket: its creation, a message or its close.
def latestEvent (tables : Tables) (t : TicketRow) : Int :=
  ((tables.messagesOf t.id).map (fun m => m.createdAt) ++ t.closedAt.toList).foldl max t.createdAt

-- A ticket whose messages, if it has any, reach back to its creation or beyond.
structure Dated (tables : Tables) (id : Bytes) : Prop where
  created : ∀ t, tables.ticket? id = some t → 0 ≤ t.createdAt
  covered : ∀ t, tables.ticket? id = some t → tables.messagesByTicket id ≠ [] →
    ∃ m ∈ tables.messagesByTicket id, t.createdAt ≤ m.createdAt
  messages : ∀ m ∈ tables.messagesByTicket id, 0 ≤ m.createdAt

variable {tables : Tables} {id : Bytes} {cutoff : Int} {t : TicketRow}

theorem foldl_max_lt_iff {first : Int} {rest : List Int} :
    rest.foldl max first < cutoff ↔ first < cutoff ∧ ∀ x ∈ rest, x < cutoff := by
  induction rest generalizing first with
  | nil => simp
  | cons x rest ih =>
      rw [List.foldl_cons, ih, Int.max_lt, List.forall_mem_cons, and_assoc]

theorem map_createdAt (tables : Tables) (id : Bytes) :
    (tables.messagesByTicket id).map (fun m => m.createdAt) =
      (tables.messagesOf id).map fun m => m.createdAt := by
  rw [messagesByTicket, List.map_map]
  rfl

-- The statement leaves the creation out where there are messages, and takes an
-- open ticket to have been closed at 0.
theorem inactiveBefore_iff (cutoff : Int) (h : tables.Dated t.id)
    (ht : tables.ticket? t.id = some t) :
    tables.inactiveBefore cutoff t = true ↔ tables.latestEvent t < cutoff := by
  have hcreated := h.created t ht
  have hmessages : ∀ at_ ∈ (tables.messagesOf t.id).map fun m => m.createdAt, 0 ≤ at_ := by
    rw [← map_createdAt]
    exact List.forall_mem_map.mpr h.messages
  have hcovered : ∀ first rest, (tables.messagesOf t.id).map (fun m => m.createdAt) = first :: rest →
      ∃ at_ ∈ first :: rest, t.createdAt ≤ at_ := by
    intro first rest htimes
    rw [← map_createdAt] at htimes
    obtain ⟨m, hm, hle⟩ := h.covered t ht (by rintro hnil; simp [hnil] at htimes)
    exact ⟨m.createdAt, htimes ▸ List.mem_map_of_mem hm, hle⟩
  rw [inactiveBefore, decide_eq_true_iff, Int.max_lt, latestEvent, foldl_max_lt_iff,
    List.forall_mem_append, latestMessageAt]
  generalize (tables.messagesOf t.id).map (fun m => m.createdAt) = times at *
  have hclosed : (0 < cutoff → (t.closedAt.getD 0 < cutoff ↔ ∀ at_ ∈ t.closedAt.toList, at_ < cutoff)) := by
    intro hpos
    cases t.closedAt <;> simp [hpos]
  cases times with
  | nil =>
      dsimp only
      constructor
      · rintro ⟨hlatest, hlast⟩
        exact ⟨hlatest, by simp, (hclosed (by omega)).mp hlast⟩
      · rintro ⟨hlatest, -, hlast⟩
        exact ⟨hlatest, (hclosed (by omega)).mpr hlast⟩
  | cons first rest =>
      obtain ⟨at_, hat, hle⟩ := hcovered first rest rfl
      rw [foldl_max_lt_iff]
      constructor
      · rintro ⟨hlatest, hlast⟩
        have hall : ∀ at_ ∈ first :: rest, at_ < cutoff := List.forall_mem_cons.mpr hlatest
        have hat := hall at_ hat
        exact ⟨by omega, hall, (hclosed (by omega)).mp hlast⟩
      · rintro ⟨hfirst, hall, hlast⟩
        exact ⟨List.forall_mem_cons.mp hall, (hclosed (by omega)).mpr hlast⟩

-- The tickets whose latest event is older go, with their messages; the others
-- stay as they are.
structure PurgesExactly (tables later : Tables) (cutoff : Int) : Prop where
  tickets : later.tickets = tables.tickets.filter fun t => cutoff ≤ tables.latestEvent t
  messages : later.messages = tables.messages.filter fun m =>
    tables.tickets.any fun t => cutoff ≤ tables.latestEvent t && t.id == m.ticketId

theorem purgesExactly (h : ∀ id, tables.Dated id) (hconstraints : Constraints tables)
    (cutoff : Int) : tables.PurgesExactly (tables.ticketPurgeInactive cutoff) cutoff := by
  have hkept : tables.tickets.filter (fun t => !tables.inactiveBefore cutoff t) =
      tables.tickets.filter fun t => cutoff ≤ tables.latestEvent t := by
    refine List.filter_congr fun t ht => ?_
    have hiff := inactiveBefore_iff cutoff (h t.id) (ticket?_of_mem hconstraints ht)
    rw [Bool.eq_iff_iff, Bool.not_eq_true', decide_eq_true_iff, ← Int.not_lt, ← hiff,
      Bool.not_eq_true]
  refine ⟨hkept, ?_⟩
  simp only [ticketPurgeInactive, hkept, List.any_filter]

-- What a statement must bring for the tickets to stay dated.
def DatedOp (tables : Tables) : Op → Prop
  | .TicketInsert t => 0 ≤ t.createdAt ∧ tables.ticket? t.id = none
  | .MessageInsert m => 0 ≤ m.createdAt ∧ ∀ t, tables.ticket? m.ticketId = some t →
      tables.messagesByTicket m.ticketId = [] → t.createdAt ≤ m.createdAt
  | _ => True

theorem Dated.of_ticket {later : Tables} {f : TicketRow → TicketRow} (h : tables.Dated id)
    (hticket : later.ticket? id = (tables.ticket? id).map f)
    (hmessages : later.messagesByTicket id = tables.messagesByTicket id)
    (hf : ∀ t, (f t).createdAt = t.createdAt) : later.Dated id := by
  refine ⟨fun t ht => ?_, fun t ht hne => ?_, hmessages ▸ h.messages⟩
  · rw [hticket] at ht
    obtain ⟨old, hold, rfl⟩ := Option.map_eq_some_iff.mp ht
    rw [hf]
    exact h.created old hold
  · rw [hticket] at ht
    obtain ⟨old, hold, rfl⟩ := Option.map_eq_some_iff.mp ht
    rw [hmessages] at hne ⊢
    rw [hf]
    exact h.covered old hold hne

theorem dated_of_absent (hconstraints : Constraints tables) (ht : tables.ticket? id = none) :
    tables.Dated id := by
  have hmessages := messagesByTicket_of_absent hconstraints ht
  exact ⟨by simp [ht], by simp [ht], by simp [hmessages]⟩

theorem Dated.write {op : Op} (h : tables.Dated id) (hconstraints : Constraints tables)
    (hop : tables.DatedOp op) : (op.write tables).Dated id := by
  cases htouches : op.touches id with
  | false =>
      obtain ⟨hticket, hmessages⟩ := write_of_not_touches htouches tables
      exact h.of_ticket (f := fun t => t) (by simpa using hticket) hmessages fun _ => rfl
  | true =>
      cases op with
      | TicketInsert t =>
          obtain rfl := beq_iff_eq.mp htouches
          have hmessages : ((Op.TicketInsert t).write tables).messagesByTicket t.id = [] := by
            change tables.messagesByTicket t.id = []
            exact messagesByTicket_of_absent hconstraints hop.2
          refine ⟨fun row hrow => ?_, by simp [hmessages], by simp [hmessages]⟩
          rw [Op.write, ticket?_ticketInsert, hop.2, if_pos rfl] at hrow
          obtain rfl := Option.some.inj hrow
          exact hop.1
      | TicketSetStatus other status =>
          refine h.of_ticket (ticket?_ticketSetStatus tables id other status) rfl fun t => ?_
          split_ifs <;> rfl
      | TicketClose other closedAt =>
          refine h.of_ticket (ticket?_ticketClose tables id other closedAt) rfl fun t => ?_
          split_ifs <;> rfl
      | TicketPurgeInactive cutoff =>
          rw [Op.write]
          cases hgone : tables.gone cutoff id with
          | true =>
              exact dated_of_absent (hconstraints.ticketPurgeInactive cutoff)
                (absent_of_gone hconstraints hgone)
          | false =>
              obtain ⟨hticket, hmessages⟩ := kept_of_not_gone hconstraints hgone
              exact h.of_ticket (f := fun t => t) (by simpa using hticket) hmessages fun _ => rfl
      | MessageInsert m =>
          obtain rfl := beq_iff_eq.mp htouches
          have hmessages := messagesByTicket_messageInsert tables m.ticketId m
          rw [if_pos rfl] at hmessages
          refine ⟨h.created, fun t ht _ => ?_, ?_⟩
          · rw [Op.write, hmessages]
            by_cases hnone : tables.messagesByTicket m.ticketId = []
            · exact ⟨_, List.mem_append_right _ List.mem_cons_self, hop.2 t ht hnone⟩
            · obtain ⟨earlier, hmem, hle⟩ := h.covered t ht hnone
              exact ⟨earlier, List.mem_append_left _ hmem, hle⟩
          · rw [Op.write, hmessages, List.forall_mem_append]
            exact ⟨h.messages, by simpa [newMessageRow, MessageRow.message] using hop.1⟩
      | _ => simp [Op.touches] at htouches

end DeltaFeedback.Db.Tables
