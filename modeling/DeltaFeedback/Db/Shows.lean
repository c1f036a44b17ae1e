import DeltaFeedback.Conversation
import DeltaFeedback.Db.Queries.Purge

namespace DeltaFeedback.Db

open Text

-- The row and the messages of a ticket that holds this conversation.
def Displays (row : Option TicketRow) (messages : List Message) : Option Conversation → Prop
  | none => row = none
  | some c => ∃ t, row = some t ∧ t.status = c.status ∧ t.closedAt = c.closedAt ∧
      messages.map (fun m => (m.sender, m.body)) = c.words

namespace Tables

variable (tables later : Tables)

def Shows (conversations : Conversations) : Prop :=
  ∀ id, Displays (tables.ticket? id) (tables.messagesByTicket id) (conversations id)

-- Two tables with the same tickets and messages.
def Alike : Prop :=
  ∀ id, later.ticket? id = tables.ticket? id ∧ later.messagesByTicket id = tables.messagesByTicket id

variable {tables later} {conversations : Conversations} {id : Bytes}

theorem Shows.alike (h : tables.Shows conversations) (hsame : tables.Alike later) :
    later.Shows conversations := by
  intro id
  rw [(hsame id).1, (hsame id).2]
  exact h id

theorem Shows.ticket? {c : Conversation} (h : tables.Shows conversations)
    (hc : conversations id = some c) :
    ∃ t, tables.ticket? id = some t ∧ t.status = c.status ∧ t.closedAt = c.closedAt ∧
      (tables.messagesByTicket id).map (fun m => (m.sender, m.body)) = c.words := by
  have hid := h id
  rw [hc] at hid
  exact hid

theorem Shows.exists_conversation {t : TicketRow} (h : tables.Shows conversations)
    (ht : tables.ticket? id = some t) : ∃ c, conversations id = some c ∧ t.status = c.status ∧
      t.closedAt = c.closedAt ∧
      (tables.messagesByTicket id).map (fun m => (m.sender, m.body)) = c.words := by
  have hid := h id
  cases hc : conversations id with
  | none =>
      rw [hc, ht] at hid
      simp [Displays] at hid
  | some c =>
      rw [hc, ht] at hid
      obtain ⟨_, ⟨⟩, hstatus, hclosed, hwords⟩ := hid
      exact ⟨c, rfl, hstatus, hclosed, hwords⟩

theorem Shows.absent (h : tables.Shows conversations) (ht : tables.ticket? id = none) :
    conversations id = none := by
  cases hc : conversations id with
  | none => rfl
  | some c =>
      obtain ⟨t, hsome, -⟩ := h.ticket? hc
      simp [ht] at hsome

theorem status_open {c : Conversation} (h : c.closedAt = none) :
    c.status = c.lastSpeaker.statusAfter := by
  simp [Conversation.status, h]

theorem status_ne_closed_iff {c : Conversation} : c.status ≠ .Closed ↔ c.closedAt = none := by
  cases h : c.closedAt with
  | none => cases hside : c.lastSpeaker <;> simp [Conversation.status, h, hside, Sender.statusAfter]
  | some closedAt => simp [Conversation.status, h]

theorem Shows.opened {t : Ticket} {m : NewMessage} (h : tables.Shows conversations)
    (hconstraints : Constraints tables) (ht : tables.ticket? t.id = none)
    (hm : m.ticketId = t.id) (hsender : m.sender = .Visitor) :
    ((tables.ticketInsert t).messageInsert m).Shows
      ((Happening.Opened t.id m.body).apply conversations) := by
  intro id
  have hmessages : ((tables.ticketInsert t).messageInsert m).messagesByTicket id =
      tables.messagesByTicket id ++
        if m.ticketId = id then [(tables.newMessageRow m).message] else [] :=
    messagesByTicket_messageInsert (tables.ticketInsert t) id m
  have hticket : ((tables.ticketInsert t).messageInsert m).ticket? id =
      (tables.ticket? id).or (if t.id = id then some (tables.newTicketRow t) else none) :=
    ticket?_ticketInsert tables id t
  rw [hmessages, hticket]
  by_cases hid : id = t.id
  · subst hid
    rw [Happening.apply, Function.update_self, ht, messagesByTicket_of_absent hconstraints ht,
      if_pos rfl, if_pos hm]
    exact ⟨_, rfl, rfl, rfl, by
      simp [newMessageRow, MessageRow.message, Conversation.words, hsender]⟩
  · rw [Happening.apply, Function.update_of_ne hid, if_neg (Ne.symm hid),
      if_neg (hm ▸ Ne.symm hid), List.append_nil, Option.or_none]
    exact h id

theorem Shows.said {m : NewMessage} {c : Conversation} (h : tables.Shows conversations)
    (hm : m.ticketId = id) (hc : conversations id = some c) (hopen : c.closedAt = none) :
    ((tables.messageInsert m).ticketSetStatus id m.sender.statusAfter).Shows
      ((Happening.Said id m.sender m.body).apply conversations) := by
  intro other
  have hmessages : ((tables.messageInsert m).ticketSetStatus id m.sender.statusAfter).messagesByTicket
      other = tables.messagesByTicket other ++
        if m.ticketId = other then [(tables.newMessageRow m).message] else [] :=
    messagesByTicket_messageInsert tables other m
  have hticket : ((tables.messageInsert m).ticketSetStatus id m.sender.statusAfter).ticket? other =
      (tables.ticket? other).map fun t => if other = id ∧ t.status ≠ .Closed then
        setStatusRow m.sender.statusAfter t else t :=
    ticket?_ticketSetStatus (tables.messageInsert m) other id m.sender.statusAfter
  rw [hmessages, hticket]
  by_cases hid : other = id
  · subst hid
    obtain ⟨t, ht, hstatus, hclosed, hwords⟩ := h.ticket? hc
    have htOpen : t.status ≠ .Closed := by
      rw [hstatus]
      exact status_ne_closed_iff.mpr hopen
    rw [Happening.apply, Function.update_self, hc, ht, Option.map_some, Option.map_some,
      if_pos ⟨rfl, htOpen⟩, if_pos hm]
    refine ⟨_, rfl, ?_, hclosed, ?_⟩
    · rw [status_open (c := c.say m.sender m.body) hopen, Conversation.lastSpeaker_say]
      rfl
    · rw [List.map_append, hwords]
      rfl
  · rw [Happening.apply, Function.update_of_ne hid, if_neg (hm ▸ Ne.symm hid), List.append_nil]
    have hsame : (fun t : TicketRow => if other = id ∧ t.status ≠ .Closed then
        setStatusRow m.sender.statusAfter t else t) = fun t => t := by
      funext t
      rw [if_neg fun hand => hid hand.1]
    rw [hsame, Option.map_id']
    exact h other

theorem Shows.closed {closedAt : Int} {c : Conversation} (h : tables.Shows conversations)
    (hc : conversations id = some c) (hopen : c.closedAt = none) :
    (tables.ticketClose id closedAt).Shows ((Happening.Closed id closedAt).apply conversations) := by
  intro other
  have hmessages : (tables.ticketClose id closedAt).messagesByTicket other =
    tables.messagesByTicket other := rfl
  rw [hmessages, ticket?_ticketClose]
  by_cases hid : other = id
  · subst hid
    obtain ⟨t, ht, hstatus, -, hwords⟩ := h.ticket? hc
    have htOpen : t.status ≠ .Closed := by
      rw [hstatus]
      exact status_ne_closed_iff.mpr hopen
    rw [Happening.apply, Function.update_self, hc, ht, Option.map_some, Option.map_some,
      if_pos ⟨rfl, htOpen⟩]
    exact ⟨_, rfl, rfl, rfl, hwords⟩
  · rw [Happening.apply, Function.update_of_ne hid]
    have hsame : (fun t : TicketRow => if other = id ∧ t.status ≠ .Closed then closeRow closedAt t
        else t) = fun t => t := by
      funext t
      rw [if_neg fun hand => hid hand.1]
    rw [hsame, Option.map_id']
    exact h other

theorem Shows.purged (h : tables.Shows conversations) (hconstraints : Constraints tables)
    (cutoff : Int) : (tables.ticketPurgeInactive cutoff).Shows
      ((Happening.Purged (tables.gone cutoff)).apply conversations) := by
  intro id
  have hpurged := ticket?_ticketPurgeInactive id hconstraints cutoff
  cases hold : tables.ticket? id with
  | none =>
      rw [hold] at hpurged
      have hnone : conversations id = none := h.absent hold
      simp only [Happening.apply, hnone, ite_self]
      exact hpurged
  | some t =>
      rw [hold] at hpurged
      cases hgone : tables.gone cutoff id with
      | true =>
          simp only [Happening.apply, hgone, ite_true]
          exact absent_of_gone hconstraints hgone
      | false =>
          obtain ⟨hticket, hmessages⟩ := kept_of_not_gone hconstraints hgone
          simp only [Happening.apply, hgone, Bool.false_eq_true, ite_false]
          rw [hticket, hmessages]
          exact h id

end Tables

end DeltaFeedback.Db
