import DeltaFeedback.Calls
import DeltaFeedback.Db.Turns

namespace DeltaFeedback

open Text Interleaving Db

namespace Call

variable {service : Feedback.Service} {call : Call} {side : Sender} {trail : Trail}

-- Whose word a call adds to an existing ticket.
def side? : Call → Option Sender
  | .SubmitReply .. => some .Visitor
  | .RouteAdminMsg .. => some .Admin
  | _ => none

-- What a call of a conversation does to a ticket, and after what.
structure StoresAfter (side : Sender) (m : NewMessage) (trail : Trail) : Prop where
  sender : m.sender = side
  read : ∃ t : Ticket, ⟨.TicketGetById m.ticketId, some t⟩ ∈ trail ∧ t.status ≠ .Closed ∧
    (side = .Visitor → t.status = .AwaitingVisitor)
  first : ∀ other, ⟨.MessageInsert other, ()⟩ ∉ trail
  unwritten : ∀ id status, ⟨.TicketSetStatus id status, ()⟩ ∉ trail

theorem lookupTrail_ops {msg : Dc.IncomingMsg} {quoted : Option Bytes} {taken : Taken Op Op.Result}
    (h : Dc.LookupTrail msg [] quoted trail) (htaken : taken ∈ trail) :
    ∃ id, taken.1 = .FindTicketByDcMsgId id := by
  cases h with
  | Unquoted => simp at htaken
  | Quoted quoted _ =>
      rw [List.mem_singleton.mp htaken]
      exact ⟨_, rfl⟩

theorem notMem_lookupTrail {msg : Dc.IncomingMsg} {quoted : Option Bytes} {op : Op}
    {result : op.Result} (h : Dc.LookupTrail msg [] quoted trail)
    (hop : ∀ id, op ≠ .FindTicketByDcMsgId id) : ⟨op, result⟩ ∉ trail := by
  intro hmem
  obtain ⟨id, hid⟩ := lookupTrail_ops h hmem
  exact hop id hid

theorem storesAfter_of_legal {m : NewMessage} (hside : call.side? = some side)
    (h : call.Legal service (⟨.MessageInsert m, ()⟩ :: trail)) : StoresAfter side m trail := by
  cases call with
  | SubmitReply input env =>
      obtain rfl : Sender.Visitor = side := Option.some.inj hside
      cases h with
      | Stored t quoteId hreply =>
          exact ⟨rfl, ⟨t, by simp [Feedback.Service.replyMessage, MessagesRepo.newMessage],
            by simp [hreply.status], fun _ => hreply.status⟩, by simp, by simp⟩
  | RouteAdminMsg dc now owner msg =>
      obtain rfl : Sender.Admin = side := Option.some.inj hside
      cases h with
      | LookedUp quoted _ hlookup => cases hlookup
      | Stored quoted t trail hlookup hanswer =>
          exact ⟨rfl, ⟨t, by simp [Dc.adminMessage, MessagesRepo.newMessage], hanswer.status, by simp⟩,
            by simp [notMem_lookupTrail hlookup], by simp [notMem_lookupTrail hlookup]⟩
  | _ => simp [side?] at hside

-- The steps of a conversation that can change a ticket.
theorem touches_of_legal {op : Op} {result : op.Result} {id : Bytes}
    (hside : call.side? = some side) (h : call.Legal service (⟨op, result⟩ :: trail))
    (htouches : op.touches id = true) :
    (∃ m, op = .MessageInsert m ∧ m.ticketId = id) ∨ (∃ status, op = .TicketSetStatus id status) ∨
      ∃ closedAt, op = .TicketClose id closedAt := by
  cases op <;> simp only [Op.touches, beq_iff_eq, Bool.false_eq_true] at htouches
  case MessageInsert m => exact .inl ⟨m, rfl, htouches⟩
  case TicketSetStatus other status => exact .inr (.inl ⟨status, by rw [htouches]⟩)
  case TicketClose other closedAt => exact .inr (.inr ⟨closedAt, by rw [htouches]⟩)
  case TicketInsert t =>
      cases call with
      | SubmitReply input env => cases h
      | RouteAdminMsg dc now owner msg =>
          cases h with
          | LookedUp quoted _ hlookup => cases hlookup
      | _ => simp [side?] at hside
  case TicketPurgeInactive cutoff =>
      cases call with
      | SubmitReply input env => cases h
      | RouteAdminMsg dc now owner msg =>
          cases h with
          | LookedUp quoted _ hlookup => cases hlookup
      | _ => simp [side?] at hside

-- A ticket is read once, before anything is done to it.
theorem read_of_legal {id other : Bytes} {found read : Option Ticket} (hside : call.side? = some side)
    (h : call.Legal service (⟨.TicketGetById id, found⟩ :: trail)) :
    ⟨.TicketGetById other, read⟩ ∉ trail := by
  cases call with
  | SubmitReply input env =>
      cases h with
      | Read => simp
  | RouteAdminMsg dc now owner msg =>
      cases h with
      | LookedUp quoted _ hlookup => cases hlookup
      | Read quoted _ trail hlookup => exact notMem_lookupTrail hlookup (by simp)
  | _ => simp [side?] at hside

-- The status is written after the message.
theorem stored_of_setStatus_legal {id : Bytes} {status : TicketStatus}
    (hside : call.side? = some side) (h : call.Legal service (⟨.TicketSetStatus id status, ()⟩ :: trail)) :
    ∃ m, ⟨.MessageInsert m, ()⟩ ∈ trail ∧ m.ticketId = id ∧ m.sender = side := by
  cases call with
  | SubmitReply input env =>
      obtain rfl : Sender.Visitor = side := Option.some.inj hside
      cases h with
      | Updated => exact ⟨Feedback.Service.replyMessage input env, by simp, rfl, rfl⟩
  | RouteAdminMsg dc now owner msg =>
      obtain rfl : Sender.Admin = side := Option.some.inj hside
      cases h with
      | LookedUp quoted _ hlookup => cases hlookup
      | Updated quoted t rowId trail =>
          exact ⟨Dc.adminMessage now (Dc.adminRoute msg quoted), by simp, rfl, rfl⟩
  | _ => simp [side?] at hside

-- A conversation never writes the status closed by itself.
theorem setStatus_of_legal {id : Bytes} {status : TicketStatus} (hside : call.side? = some side)
    (h : call.Legal service (⟨.TicketSetStatus id status, ()⟩ :: trail)) :
    status = side.statusAfter := by
  cases call with
  | SubmitReply input env =>
      obtain rfl : Sender.Visitor = side := Option.some.inj hside
      cases h with
      | Updated => rfl
  | RouteAdminMsg dc now owner msg =>
      obtain rfl : Sender.Admin = side := Option.some.inj hside
      cases h with
      | LookedUp quoted _ hlookup => cases hlookup
      | Updated => rfl
  | _ => simp [side?] at hside

-- What a step of a conversation makes of a ticket: a closed one stays as it is.
theorem ticket_of_exec {op : Op} {result : op.Result} {world later : World} {id : Bytes}
    {t : TicketRow} (hside : call.side? = some side)
    (hlegal : call.Legal service (⟨op, result⟩ :: trail))
    (hexec : exec op world = .ok (result, later)) (ht : world.db.ticket? id = some t) :
    ∃ now, later.db.ticket? id = some now ∧ (now = t ∨ t.status ≠ .Closed ∧
      (now = Tables.setStatusRow side.statusAfter t ∨
        ∃ closedAt, op = .TicketClose id closedAt ∧ now = Tables.closeRow closedAt t)) := by
  rw [tables_of_exec hexec]
  cases htouches : op.touches id with
  | false => exact ⟨t, by rw [(write_of_not_touches htouches _).1, ht], .inl rfl⟩
  | true =>
      rcases touches_of_legal hside hlegal htouches with
        ⟨m, rfl, hm⟩ | ⟨status, rfl⟩ | ⟨closedAt, rfl⟩
      · exact ⟨t, ht, .inl rfl⟩
      · obtain rfl := setStatus_of_legal hside hlegal
        rw [Op.write, Tables.ticket?_ticketSetStatus, ht]
        by_cases hclosed : t.status = .Closed
        · exact ⟨t, by simp [hclosed], .inl rfl⟩
        · exact ⟨_, by simp [hclosed], .inr ⟨hclosed, .inl rfl⟩⟩
      · rw [Op.write, Tables.ticket?_ticketClose, ht]
        by_cases hclosed : t.status = .Closed
        · exact ⟨t, by simp [hclosed], .inl rfl⟩
        · exact ⟨_, by simp [hclosed], .inr ⟨hclosed, .inr ⟨closedAt, rfl, rfl⟩⟩⟩

theorem mem_sendTrail {dc : Dc.Delivery} {contact : UInt32} {text : Bytes} {told : Trail}
    {m : NewMessage} (htold : Dc.SendTrail dc contact text trail told)
    (hm : ⟨.MessageInsert m, ()⟩ ∈ told) : ⟨.MessageInsert m, ()⟩ ∈ trail := by
  cases htold with
  | Unsent => exact hm
  | Sent quote => simpa using hm

-- A call that has stored its message has written the status by the time it returns.
theorem setStatus_of_ends {outcome : Except SqlError Outcome} {m : NewMessage}
    (hside : call.side? = some side) (h : call.Ends service trail outcome)
    (hm : ⟨.MessageInsert m, ()⟩ ∈ trail) :
    ∃ status, ⟨.TicketSetStatus m.ticketId status, ()⟩ ∈ trail := by
  cases h with
  | SubmitReply input env trail outcome hend =>
      cases hend <;> simp at hm ⊢ <;> subst hm <;> rfl
  | RouteAdminMsg dc now owner msg trail outcome hend =>
      cases hend with
      | NoTicketId quoted trail told hlookup hkind htold =>
          exact absurd (mem_sendTrail htold hm) (notMem_lookupTrail hlookup (by simp))
      | NotFound quoted trail told hlookup htold =>
          exact absurd (mem_sendTrail htold hm) (by simp [notMem_lookupTrail hlookup])
      | AlreadyClosed quoted t trail told hlookup hstatus htold =>
          exact absurd (mem_sendTrail htold hm) (by simp [notMem_lookupTrail hlookup])
      | Closed quoted t trail told hlookup hkind hstatus htold =>
          exact absurd (mem_sendTrail htold hm) (by simp [notMem_lookupTrail hlookup])
      | EmptyReply quoted t trail told hlookup hkind hstatus hbody htold =>
          exact absurd (mem_sendTrail htold hm) (by simp [notMem_lookupTrail hlookup])
      | Gone quoted t trail exn hlookup hanswer =>
          exact absurd hm (by simp [notMem_lookupTrail hlookup])
      | Stored quoted t rowId trail hlookup hanswer =>
          have hmessage : m = Dc.adminMessage now (Dc.adminRoute msg quoted) := by
            simpa [notMem_lookupTrail hlookup] using hm
          subst hmessage
          exact ⟨.AwaitingVisitor, List.mem_cons_self⟩
  | _ => simp [side?] at hside

end Call

end DeltaFeedback
