import DeltaFeedback.Db.Queries.Constraints
import DeltaFeedback.Db.Queries.Theorems

namespace DeltaFeedback.Db.Tables

open Text

variable {tables : Tables} {id : Bytes}

theorem messagesOf_of_absent (h : Constraints tables) (ht : tables.ticket? id = none) :
    tables.messagesOf id = [] := by
  have habsent := (tables.ticket?_eq_none_iff id).mp ht
  refine List.filter_eq_nil_iff.mpr fun m hm hid => habsent ?_
  rw [← beq_iff_eq.mp hid]
  exact h.foreignKey m hm

theorem messagesByTicket_of_absent (h : Constraints tables) (ht : tables.ticket? id = none) :
    tables.messagesByTicket id = [] := by
  rw [messagesByTicket, messagesOf_of_absent h ht, List.map_nil]

theorem ticket?_of_mem {t : TicketRow} (h : Constraints tables) (ht : t ∈ tables.tickets) :
    tables.ticket? t.id = some t := by
  cases hfound : tables.ticket? t.id with
  | none =>
      exact absurd (List.mem_map.mpr ⟨t, ht, rfl⟩) ((tables.ticket?_eq_none_iff t.id).mp hfound)
  | some found =>
      have hmem := List.mem_of_find?_eq_some hfound
      rw [List.inj_on_of_nodup_map h.ticketIds hmem ht (id_of_ticket? hfound)]

-- What the purge of inactive tickets keeps, it keeps whole.
theorem ticket?_ticketPurgeInactive (id : Bytes) (h : Constraints tables) (cutoff : Int) :
    (tables.ticketPurgeInactive cutoff).ticket? id =
      (tables.ticket? id).filter fun t => !tables.inactiveBefore cutoff t := by
  have hpurged := h.ticketPurgeInactive cutoff
  cases hkept : (tables.ticketPurgeInactive cutoff).ticket? id with
  | some t =>
      obtain ⟨hmem, hactive⟩ := List.mem_filter.mp (List.mem_of_find?_eq_some hkept)
      have hid : t.id = id := id_of_ticket? hkept
      rw [← hid, ticket?_of_mem h hmem]
      simp only [Option.filter_some, hactive, ite_true]
  | none =>
      cases hold : tables.ticket? id with
      | none => rfl
      | some t =>
          by_cases hactive : (!tables.inactiveBefore cutoff t) = true
          · have hmem : t ∈ (tables.ticketPurgeInactive cutoff).tickets :=
              List.mem_filter.mpr ⟨List.mem_of_find?_eq_some hold, hactive⟩
            have hsome := ticket?_of_mem hpurged hmem
            rw [id_of_ticket? hold, hkept] at hsome
            simp at hsome
          · simp only [Option.filter_some, hactive, Bool.false_eq_true, ite_false]

theorem messagesOf_ticketPurgeInactive {t : TicketRow} {cutoff : Int}
    (ht : t ∈ (tables.ticketPurgeInactive cutoff).tickets) :
    (tables.ticketPurgeInactive cutoff).messagesOf t.id = tables.messagesOf t.id := by
  simp only [messagesOf, ticketPurgeInactive, List.filter_filter]
  refine List.filter_congr fun m _ => ?_
  by_cases hm : m.ticketId = t.id
  · rw [beq_iff_eq.mpr hm, Bool.true_and]
    exact List.any_eq_true.mpr ⟨t, ht, by simp [hm]⟩
  · simp [hm]

theorem messagesByTicket_ticketPurgeInactive {t : TicketRow} {cutoff : Int}
    (ht : (tables.ticketPurgeInactive cutoff).ticket? id = some t) :
    (tables.ticketPurgeInactive cutoff).messagesByTicket id = tables.messagesByTicket id := by
  have hsame := messagesOf_ticketPurgeInactive (List.mem_of_find?_eq_some ht)
  rw [id_of_ticket? ht] at hsame
  rw [messagesByTicket, messagesByTicket, hsame]

def gone (tables : Tables) (cutoff : Int) (id : Bytes) : Bool :=
  (tables.ticket? id).any fun t => tables.inactiveBefore cutoff t

theorem absent_of_gone {cutoff : Int} (h : Constraints tables)
    (hgone : tables.gone cutoff id = true) :
    (tables.ticketPurgeInactive cutoff).ticket? id = none := by
  rw [ticket?_ticketPurgeInactive id h]
  cases hold : tables.ticket? id with
  | none => rfl
  | some t =>
      have hinactive : tables.inactiveBefore cutoff t = true := by simpa [gone, hold] using hgone
      simp [Option.filter_some, hinactive]

theorem kept_of_not_gone {cutoff : Int} (h : Constraints tables)
    (hkept : tables.gone cutoff id = false) :
    (tables.ticketPurgeInactive cutoff).ticket? id = tables.ticket? id ∧
      (tables.ticketPurgeInactive cutoff).messagesByTicket id = tables.messagesByTicket id := by
  have hpurged := ticket?_ticketPurgeInactive id h cutoff
  cases hold : tables.ticket? id with
  | none =>
      rw [hold] at hpurged
      rw [messagesByTicket_of_absent h hold,
        messagesByTicket_of_absent (h.ticketPurgeInactive cutoff) hpurged]
      exact ⟨hpurged, rfl⟩
  | some t =>
      have hactive : tables.inactiveBefore cutoff t = false := by simpa [gone, hold] using hkept
      have hsome : (tables.ticketPurgeInactive cutoff).ticket? id = some t := by
        rw [hpurged, hold]
        simp [Option.filter_some, hactive]
      exact ⟨hsome, messagesByTicket_ticketPurgeInactive hsome⟩

end DeltaFeedback.Db.Tables
