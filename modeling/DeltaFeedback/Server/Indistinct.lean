import DeltaFeedback.Db.Conceal
import DeltaFeedback.Interleaving.Twins
import DeltaFeedback.Feedback.Service

namespace DeltaFeedback.Server

open Text Interleaving Db

-- Two worlds that differ in what they hold about one ticket only. What the
-- connection remembers of its last statements may differ too.
structure Indistinct (id : Bytes) (left right : Secret) (first second : World) : Prop where
  tables : first.db.conceal id = second.db.conceal id
  owner : first.owner = second.owner
  outbox : first.outbox = second.outbox
  left : first.db.Holds id left
  right : second.db.Holds id right

-- The steps whose result depends on the ticket, or on the connection.
def asks (id : Bytes) : Op → Bool
  | .TicketGetById other => other == id
  | .MessagesByTicket other => other == id
  | .LatestDcMsgIdForTicket other => other == id
  | .FindTicketByDcMsgId _ => true
  | .LastInsertRowid => true
  | .Changes => true
  | _ => false

variable {id other : Bytes} {left right : Secret} {first second : World} {op : Op}

namespace Indistinct

theorem ticket?_eq (h : Indistinct id left right first second) (hother : other ≠ id) :
    first.db.ticket? other = second.db.ticket? other := by
  rw [← Tables.ticket?_conceal_of_ne hother, h.tables, Tables.ticket?_conceal_of_ne hother]

theorem messagesOf_eq (h : Indistinct id left right first second) (hother : other ≠ id) :
    first.db.messagesOf other = second.db.messagesOf other := by
  rw [← Tables.messagesOf_conceal hother, h.tables, Tables.messagesOf_conceal hother]

theorem ids_eq (h : Indistinct id left right first second) :
    (first.db.tickets.map fun t => t.id) = second.db.tickets.map fun t => t.id := by
  rw [← Tables.ids_conceal, h.tables, Tables.ids_conceal]

theorem consumed_iff (h : Indistinct id left right first second) (challengeId : Bytes) :
    first.db.consumed challengeId ↔ second.db.consumed challengeId := by
  have hconsumed := congrArg (fun tables => tables.consumed challengeId) h.tables
  exact iff_of_eq hconsumed

-- Nobody can tell the secrets apart by what else their tickets show.
theorem hash_eq (h : Indistinct id left right first second) :
    left.ticket.readTokenHash = right.ticket.readTokenHash := by
  have hticket := congrArg (fun tables => tables.ticket? id) h.tables
  simp only [Tables.ticket?_conceal, h.left.ticket, h.right.ticket, Option.map_some,
    Option.some.injEq, Tables.id_of_ticket? h.left.ticket, Tables.id_of_ticket? h.right.ticket,
    beq_self_eq_true, ite_true] at hticket
  have hhash := congrArg (fun t : TicketRow => t.readTokenHash) hticket
  exact hhash

theorem step {result reply : op.Result} {later last : World}
    (h : Indistinct id left right first second) (hleft : Tables.Spares id left op)
    (hright : Tables.Spares id right op) (hfirst : exec op first = .ok (result, later))
    (hsecond : exec op second = .ok (reply, last)) : Indistinct id left right later last where
  tables := by
    rw [tables_of_exec hfirst, tables_of_exec hsecond, Tables.conceal_write hleft,
      Tables.conceal_write hright, h.tables]
  owner := by rw [(effect_of_exec hfirst).owner, (effect_of_exec hsecond).owner, h.owner]
  outbox := by rw [outbox_of_exec hfirst, outbox_of_exec hsecond, h.outbox]
  left := tables_of_exec hfirst ▸ h.left.write hleft
  right := tables_of_exec hsecond ▸ h.right.write hright

theorem refused (h : Indistinct id left right first second) :
    Indistinct id left right first.refused second.refused :=
  ⟨h.tables, h.owner, h.outbox, h.left, h.right⟩

theorem messageSeq_eq (h : Indistinct id left right first second) :
    first.db.messageSeq = second.db.messageSeq := by
  have hseq := congrArg Tables.messageSeq h.tables
  exact hseq

-- The next message's row is none of the ticket's.
theorem row_ne (h : Indistinct id left right first second) :
    ∀ m ∈ left.messages ++ right.messages, m.id ≠ first.db.messageSeq + 1 := by
  intro m hm
  rcases List.mem_append.mp hm with hm | hm
  · rw [← h.left.messages] at hm
    have hle := first.db.constraints.messageIdsLe m (List.mem_of_mem_filter hm)
    omega
  · rw [← h.right.messages] at hm
    have hle := second.db.constraints.messageIdsLe m (List.mem_of_mem_filter hm)
    have hseq := h.messageSeq_eq
    omega

-- A step that spares the ticket and does not ask about it.
theorem alike_exec (op : Op) (h : Indistinct id left right first second) (hleft : Tables.Spares id left op)
    (hright : Tables.Spares id right op) (hasks : asks id op = false) :
    AlikeSteps (Indistinct id left right)
      (fun taken done => taken.1 = done.1 ∧ Indistinct id left right taken.2 done.2)
      (exec op first) (exec op second) := by
  have hstep (result reply : op.Result) (later last : World) (hsame : result = reply)
      (hfirst : exec op first = .ok (result, later)) (hsecond : exec op second = .ok (reply, last)) :
      AlikeSteps (Indistinct id left right)
        (fun taken done => taken.1 = done.1 ∧ Indistinct id left right taken.2 done.2)
        (exec op first) (exec op second) := by
    rw [hfirst, hsecond]
    exact ⟨hsame, h.step hleft hright hfirst hsecond⟩
  cases op with
  | TicketInsert t =>
      by_cases hticket : t.id ∈ first.db.tickets.map fun t => t.id
      · simp only [exec, dif_pos hticket, dif_pos (h.ids_eq ▸ hticket)]
        exact ⟨rfl, h.refused⟩
      · exact hstep () () _ _ rfl (by simp only [exec, dif_neg hticket]; rfl)
          (by simp only [exec, dif_neg (h.ids_eq ▸ hticket)]; rfl)
  | MessageInsert m =>
      by_cases hticket : m.ticketId ∈ first.db.tickets.map fun t => t.id
      · exact hstep () () _ _ rfl (by simp only [exec, dif_pos hticket]; rfl)
          (by simp only [exec, dif_pos (h.ids_eq ▸ hticket)]; rfl)
      · simp only [exec, dif_neg hticket, dif_neg (h.ids_eq ▸ hticket)]
        exact ⟨rfl, h.refused⟩
  | TicketGetById other =>
      exact hstep _ _ _ _ (by rw [h.ticket?_eq (beq_eq_false_iff_ne.mp hasks)]) rfl rfl
  | MessagesByTicket other =>
      have hmessages := h.messagesOf_eq (beq_eq_false_iff_ne.mp hasks)
      exact hstep _ _ _ _ (by simp only [Tables.messagesByTicket, hmessages]) rfl rfl
  | LatestDcMsgIdForTicket other =>
      have hmessages := h.messagesOf_eq (beq_eq_false_iff_ne.mp hasks)
      exact hstep _ _ _ _ (by simp only [Tables.latestDcMsgIdForTicket, hmessages]) rfl rfl
  | ReplayInsert challengeId expiresAt =>
      by_cases hconsumed : first.db.consumed challengeId
      · exact hstep () () _ _ rfl (by simp only [exec, dif_pos hconsumed]; rfl)
          (by simp only [exec, dif_pos ((h.consumed_iff _).mp hconsumed)]; rfl)
      · exact hstep () () _ _ rfl (by simp only [exec, dif_neg hconsumed]; rfl)
          (by simp only [exec, dif_neg (mt (h.consumed_iff _).mpr hconsumed)]; rfl)
  | OwnerLoad => exact hstep _ _ _ _ h.owner rfl rfl
  | TicketClose other closedAt => exact hleft.elim
  | TicketPurgeInactive cutoff => exact hleft.elim
  | StateGet key =>
      have hstate := congrArg (fun tables => tables.stateGet key) h.tables
      exact hstep _ _ _ _ hstate rfl rfl
  | StateSet key value =>
      cases hfirst : exec (.StateSet key value) first with
      | error exn => exact absurd hfirst (exec_ne_error rfl _ _)
      | ok taken =>
          cases hsecond : exec (.StateSet key value) second with
          | error exn => exact absurd hsecond (exec_ne_error rfl _ _)
          | ok done => exact ⟨rfl, h.step hleft hright hfirst hsecond⟩
  | FindTicketByDcMsgId dcMsgId => cases hasks
  | LastInsertRowid => cases hasks
  | Changes => cases hasks
  | _ => exact hstep _ _ _ _ rfl rfl rfl

end Indistinct

section Twins

abbrev Blind (id : Bytes) (left right : Secret) {α β : Type} (rel : α → β → Prop) (prog : Proc α)
    (same : Proc β) : Prop :=
  Twins exec (Indistinct id left right) rel prog same

theorem blind_perform (op : Op) (hleft : Tables.Spares id left op) (hright : Tables.Spares id right op)
    (hasks : asks id op = false) : Blind id left right (· = ·) (perform op) (perform op) :=
  twins_call _ (fun _ _ h => h.alike_exec op hleft hright hasks) fun _ _ h => twins_ret h

theorem blind_tryConsume (challengeId : Bytes) (expiresAt : Int) :
    Blind id left right (· = ·) (ReplayStore.tryConsume challengeId expiresAt)
      (ReplayStore.tryConsume challengeId expiresAt) := by
  refine twins_pair (· = ·) (fun first second h => ?_) fun _ _ hcount =>
    twins_ret (congrArg (fun n : Nat => n == 1) hcount)
  refine (h.alike_exec (.ReplayInsert challengeId expiresAt) rfl rfl rfl).mono
    fun taken done hfirst hsecond hstep => ?_
  refine ⟨_, _, rfl, rfl, ?_, hstep.2⟩
  change taken.2.changes = done.2.changes
  rw [(exec_replayInsert hfirst).1, (exec_replayInsert hsecond).1]
  simp only [h.consumed_iff]

-- The row is none of the ticket's.
theorem blind_append (hother : other ≠ id) (sender : Sender) (body : Bytes) (createdAt : Int)
    (visitorIp : Bytes) : Blind id left right
      (fun rowId row => rowId = row ∧ ∀ m ∈ left.messages ++ right.messages, m.id ≠ rowId)
      (MessagesRepo.append other sender body createdAt visitorIp)
      (MessagesRepo.append other sender body createdAt visitorIp) := by
  refine twins_pair (fun rowId row : Nat => rowId = row ∧
      ∀ m ∈ left.messages ++ right.messages, m.id ≠ rowId) (fun first second h => ?_)
    fun _ _ hrow => twins_ret hrow
  let m := MessagesRepo.newMessage other sender body createdAt visitorIp none
  have hspares (secret : Secret) : Tables.Spares id secret (.MessageInsert m) := by
    simpa [m, Tables.Spares, Op.touches, MessagesRepo.newMessage] using hother
  refine (h.alike_exec (.MessageInsert m) (hspares left) (hspares right) rfl).mono
    fun taken done hfirst hsecond hstep => ?_
  refine ⟨_, _, rfl, rfl, ?_, hstep.2⟩
  change taken.2.lastInsertRowid = done.2.lastInsertRowid ∧
    ∀ m ∈ left.messages ++ right.messages, m.id ≠ taken.2.lastInsertRowid
  rw [rowid_of_messageInsert hfirst, rowid_of_messageInsert hsecond]
  exact ⟨congrArg (· + 1) h.messageSeq_eq, h.row_ne⟩

theorem blind_setDcMsgId {rowId : Nat} {dcMsgId : UInt32}
    (h : ∀ m ∈ left.messages ++ right.messages, m.id ≠ rowId) : Blind id left right (· = ·)
      (MessagesRepo.setDcMsgId rowId dcMsgId) (MessagesRepo.setDcMsgId rowId dcMsgId) :=
  blind_perform (.MessageSetDcMsgId rowId dcMsgId)
    (fun m hm => h m (List.mem_append_left _ hm)) (fun m hm => h m (List.mem_append_right _ hm)) rfl

-- A ticket with an id that is taken is refused; else it is another ticket.
theorem blind_insertNew (t : Ticket) : Blind id left right (fun _ _ => t.id ≠ id)
    (TicketsRepo.insertNew t) (TicketsRepo.insertNew t) := by
  refine twins_call (fun _ _ => t.id ≠ id) (fun first second h => ?_) fun _ _ h => twins_ret h
  by_cases ht : t.id = id
  · have hfirst : t.id ∈ first.db.tickets.map fun t => t.id := by
      by_contra hnone
      rw [← Tables.ticket?_eq_none_iff, ht, h.left.ticket] at hnone
      simp at hnone
    simp only [exec, dif_pos hfirst, dif_pos (h.ids_eq ▸ hfirst)]
    exact ⟨rfl, h.refused⟩
  · have hspares (secret : Secret) : Tables.Spares id secret (.TicketInsert t) := by
      simpa [Tables.Spares, Op.touches] using ht
    exact (h.alike_exec _ (hspares left) (hspares right) rfl).mono fun _ _ _ _ hsame => ⟨ht, hsame.2⟩

theorem blind_ownerContactId :
    Blind id left right (· = ·) Dc.ownerContactId Dc.ownerContactId :=
  (blind_perform (.OwnerLoad) rfl rfl rfl).bind_eq fun _ => twins_ret rfl

theorem blind_sendToOwner (dc : Dc.Delivery) (text : Bytes) (quoteMsgId : UInt32) :
    Blind id left right (· = ·) (Dc.sendToOwner dc text quoteMsgId)
      (Dc.sendToOwner dc text quoteMsgId) := by
  refine (blind_perform (.OwnerLoad) rfl rfl rfl).bind_eq fun owner => ?_
  have hsent (quote : UInt32) : Blind id left right (· = ·) _ _ :=
    blind_perform (.DcSend owner (cStr text) quote dc.id) rfl rfl rfl
  refine twins_ite (fun _ => twins_ret rfl) fun _ => ?_
  refine twins_ite (fun _ => twins_ret rfl) fun _ => ?_
  refine twins_ite (fun _ => (hsent 0).bind_eq fun _ => twins_ret rfl) fun _ => ?_
  refine twins_ite (fun _ => twins_ret rfl) fun _ => ?_
  exact (hsent (dc.quote quoteMsgId)).bind_eq fun _ => twins_ret rfl

variable (service : Feedback.Service)

theorem blind_submitNew (input : Feedback.SubmitInput) (env : Feedback.Env) :
    Blind id left right (· = ·) (service.submitNew input env) (service.submitNew input env) := by
  unfold Feedback.Service.submitNew
  dsimp only
  cases Feedback.submitPowError (service.verify input.powToken input.powNonce env).1 with
  | some error => exact twins_ret rfl
  | none =>
      refine (blind_tryConsume _ _).bind_eq fun fresh => ?_
      refine twins_ite (fun _ => twins_ret rfl) fun _ => ?_
      refine twins_ite (fun _ => twins_ret rfl) fun _ => ?_
      refine blind_ownerContactId.bind_eq fun owner => ?_
      refine twins_ite (fun _ => twins_ret rfl) fun _ => ?_
      refine (blind_insertNew _).bind fun _ _ ht => ?_
      refine (blind_append ht _ _ _ _).bind fun rowId _ hrow => ?_
      obtain ⟨rfl, hrow⟩ := hrow
      refine (blind_sendToOwner _ _ _).bind_eq fun sent => ?_
      cases sent with
      | none => exact twins_ret rfl
      | some dcMsgId => exact (blind_setDcMsgId hrow).bind_eq fun _ => twins_ret rfl

-- Asked for itself, the ticket is found on both sides: with one hash.
theorem blind_get_self : Blind id left right
    (fun t u => t = some left.ticket.toTicket ∧ u = some right.ticket.toTicket ∧
      left.ticket.readTokenHash = right.ticket.readTokenHash)
    (TicketsRepo.get id) (TicketsRepo.get id) := by
  refine twins_call _ (fun first second h => ?_) fun _ _ hfound => twins_ret hfound
  exact ⟨⟨congrArg (Option.map _) h.left.ticket, congrArg (Option.map _) h.right.ticket, h.hash_eq⟩, h⟩

theorem blind_get (hother : other ≠ id) :
    Blind id left right (· = ·) (TicketsRepo.get other) (TicketsRepo.get other) :=
  blind_perform (.TicketGetById other) rfl rfl (beq_eq_false_iff_ne.mpr hother)

theorem xorDiff_of_ne {a b : Bytes} (hlength : a.length = b.length) (h : a ≠ b) :
    xorDiff 0 a b ≠ 0 :=
  fun hzero => h ((xorDiff_eq_zero 0 a b hlength).mp hzero).2

theorem blind_submitReply_self (input : Feedback.ReplyInput) (env : Feedback.Env)
    (hid : input.ticketId = id)
    (htoken : (service.crypto.sha256 input.readToken).val ≠ left.ticket.readTokenHash) :
    Blind id left right (· = ·) (service.submitReply input env) (service.submitReply input env) := by
  have hrefused (t : Ticket) (ht : t.readTokenHash = left.ticket.readTokenHash)
      (rest : Proc Feedback.ReplyError) :
      (if (service.crypto.sha256 input.readToken).val.length ≠ t.readTokenHash.length then
        (return .BadToken : Proc Feedback.ReplyError)
      else if xorDiff 0 (service.crypto.sha256 input.readToken).val t.readTokenHash ≠ 0 then
        return .BadToken
      else rest) = .ret .BadToken := by
    split_ifs with hlength hdiff
    · rfl
    · rfl
    · exact absurd hdiff (not_not.mpr (xorDiff_of_ne (not_not.mp hlength) (ht ▸ htoken)))
  unfold Feedback.Service.submitReply
  rw [hid]
  refine blind_get_self.bind fun found same hfound => ?_
  obtain ⟨rfl, rfl, hhash⟩ := hfound
  dsimp only
  rw [hrefused _ rfl, hrefused _ hhash.symm]
  exact twins_ret rfl

theorem blind_submitReply_other (input : Feedback.ReplyInput) (env : Feedback.Env)
    (hother : input.ticketId ≠ id) :
    Blind id left right (· = ·) (service.submitReply input env) (service.submitReply input env) := by
  unfold Feedback.Service.submitReply
  refine (blind_get hother).bind_eq fun found => ?_
  cases found with
  | none => exact twins_ret rfl
  | some t =>
      dsimp only
      refine twins_ite (fun _ => twins_ret rfl) fun _ => ?_
      refine twins_ite (fun _ => twins_ret rfl) fun _ => ?_
      refine twins_ite (fun _ => twins_ret rfl) fun _ => ?_
      refine twins_ite (fun _ => twins_ret rfl) fun _ => ?_
      cases Feedback.replyPowError (service.verify input.powToken input.powNonce env).1 with
      | some error => exact twins_ret rfl
      | none =>
          refine (blind_tryConsume _ _).bind_eq fun fresh => ?_
          refine twins_ite (fun _ => twins_ret rfl) fun _ => ?_
          refine twins_ite (fun _ => twins_ret rfl) fun _ => ?_
          refine (blind_perform (.LatestDcMsgIdForTicket input.ticketId) rfl rfl
            (beq_eq_false_iff_ne.mpr hother)).bind_eq fun quoteId => ?_
          refine (blind_append hother _ _ _ _).bind fun rowId _ hrow => ?_
          obtain ⟨rfl, hrow⟩ := hrow
          have hspares (secret : Secret) : Tables.Spares id secret
              (.TicketSetStatus input.ticketId .AwaitingAdmin) := by
            simpa [Tables.Spares, Op.touches] using hother
          refine (blind_perform _ (hspares left) (hspares right) rfl).bind_eq fun _ => ?_
          refine (blind_sendToOwner _ _ _).bind_eq fun sent => ?_
          cases sent with
          | none => exact twins_ret rfl
          | some dcMsgId => exact (blind_setDcMsgId hrow).bind_eq fun _ => twins_ret rfl

end Twins

end DeltaFeedback.Server
