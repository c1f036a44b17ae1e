import DeltaFeedback.Calls

namespace DeltaFeedback.Call

open Text Interleaving Db

variable (service : Feedback.Service)

-- The message a visitor's call stores.
def message? : Call → Option NewMessage
  | .SubmitNew input env => some (service.firstMessage input env)
  | .SubmitReply input env => some (Feedback.Service.replyMessage input env)
  | _ => none

variable {service} {call : Call} {trail : Trail}

-- The purges and the bot open no ticket and bind no message.
theorem byBot_of_legal {op : Op} {result : op.Result} (hmessage : call.message? service = none)
    (h : call.Legal service (⟨op, result⟩ :: trail)) :
    Dc.ByBot op ∨ op = .Changes ∨ (∃ cutoff, op = .TicketPurgeInactive cutoff) ∨
      ∃ now, op = .ReplayPurge now := by
  cases call with
  | IncomingMsg dc now msg =>
      exact .inl (Dc.byBot_incomingTrail dc now msg h _ List.mem_cons_self)
  | RouteAdminMsg dc now owner msg =>
      exact .inl (Dc.byBot_routeTrail dc now owner msg h (by simp) _ List.mem_cons_self)
  | PurgeInactive cutoff =>
      cases h with
      | Deleted => exact .inr (.inr (.inl ⟨cutoff, rfl⟩))
      | Counted => exact .inr (.inl rfl)
  | PurgeExpired now =>
      cases h with
      | Deleted => exact .inr (.inr (.inr ⟨now, rfl⟩))
      | Counted => exact .inr (.inl rfl)
  | _ => simp [message?] at hmessage

theorem message_of_legal {m stored : NewMessage} (hmessage : call.message? service = some m)
    (h : call.Legal service (⟨.MessageInsert stored, ()⟩ :: trail)) : stored = m := by
  cases call with
  | SubmitNew input env =>
      cases h with
      | Stored => exact Option.some.inj hmessage
  | SubmitReply input env =>
      cases h with
      | Stored => exact Option.some.inj hmessage
  | _ => simp [message?] at hmessage

theorem number_of_legal {m : NewMessage} {rowId : Nat} (hmessage : call.message? service = some m)
    (h : call.Legal service (⟨.LastInsertRowid, rowId⟩ :: trail)) :
    ∃ rest, trail = ⟨.MessageInsert m, ()⟩ :: rest := by
  cases call with
  | SubmitNew input env =>
      obtain rfl : service.firstMessage input env = m := Option.some.inj hmessage
      cases h with
      | Numbered => exact ⟨_, rfl⟩
  | SubmitReply input env =>
      obtain rfl : Feedback.Service.replyMessage input env = m := Option.some.inj hmessage
      cases h with
      | Numbered => exact ⟨_, rfl⟩
  | _ => simp [message?] at hmessage

-- A bound id is that of the notification the call has sent before, bound to the
-- row whose number it has asked for.
theorem notice_of_legal {rowId : Nat} {dcMsgId : UInt32}
    (h : call.Legal service (⟨.MessageSetDcMsgId rowId dcMsgId, ()⟩ :: trail)) :
    ∃ m contact text quote, call.message? service = some m ∧ dcMsgId ≠ 0 ∧
      Feedback.Notifies m.ticketId text ∧
      ⟨.DcSend contact text quote dcMsgId, dcMsgId⟩ ∈ trail ∧ ⟨.LastInsertRowid, rowId⟩ ∈ trail := by
  cases hmessage : call.message? service with
  | none =>
      rcases byBot_of_legal hmessage h with hbot | hother | ⟨_, hother⟩ | ⟨_, hother⟩
      · exact hbot.elim
      all_goals cases hother
  | some m =>
      cases call with
      | SubmitNew input env =>
          obtain rfl : service.firstMessage input env = m := Option.some.inj hmessage
          cases h with
          | Bound owner _ contact quote hmay hid =>
              exact ⟨service.firstMessage input env, contact, _, quote, rfl, hid,
                service.notifies_submitNote input env, by simp, by simp⟩
      | SubmitReply input env =>
          obtain rfl : Feedback.Service.replyMessage input env = m := Option.some.inj hmessage
          cases h with
          | Bound t quoteId _ owner quote hmay hid =>
              exact ⟨Feedback.Service.replyMessage input env, owner, _, quote, rfl, hid,
                Feedback.Service.notifies_replyNote input env t, by simp, by simp⟩
      | _ => simp [message?] at hmessage

-- Every ticket is opened under an id of the program's making.
theorem ticketId_of_legal {t : Ticket}
    (h : call.Legal service (⟨.TicketInsert t, ()⟩ :: trail)) :
    ∃ draw, t.id = Feedback.makeTicketId draw := by
  obtain ⟨input, env, owner, -, rfl, -⟩ := submission_of_legal h
  exact ⟨env.draw 0, rfl⟩

theorem unbound_of_legal {m : NewMessage} (h : call.Legal service (⟨.MessageInsert m, ()⟩ :: trail)) :
    m.dcMsgId = none := by
  cases hmessage : call.message? service with
  | none =>
      rcases byBot_of_legal hmessage h with hbot | hother | ⟨_, hother⟩ | ⟨_, hother⟩
      · exact hbot.2
      all_goals cases hother
  | some stored =>
      obtain rfl := message_of_legal hmessage h
      cases call with
      | SubmitNew input env => exact Option.some.inj hmessage ▸ rfl
      | SubmitReply input env => exact Option.some.inj hmessage ▸ rfl
      | _ => simp [message?] at hmessage

end DeltaFeedback.Call
