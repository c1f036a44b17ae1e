import DeltaFeedback.Polling
import DeltaFeedback.Web.Page.Theorems
import DeltaFeedback.World.Theorems

namespace DeltaFeedback

open Text Interleaving Db
open Web (TicketData)

-- Messages are only appended, and in the order in which they are listed.
theorem messagesByTicket_grows {op : Op} (hop : op.appends) (tables : Tables) (id : Bytes) :
    tables.messagesByTicket id <+: (op.write tables).messagesByTicket id := by
  cases op with
  | TicketPurgeInactive cutoff => simp [Op.appends] at hop
  | MessageInsert m => exact ⟨_, (tables.messagesByTicket_messageInsert id m).symm⟩
  | MessageSetDcMsgId rowId dcMsgId =>
      have hsame := tables.messagesByTicket_messageSetDcMsgId id rowId dcMsgId
      exact ⟨[], by rw [List.append_nil]; exact hsame.symm⟩
  | ReplayInsert challengeId expiresAt =>
      rw [Op.write]
      split <;> exact List.prefix_rfl
  | _ => exact List.prefix_rfl

theorem Grows.messages {world later : World} (h : Grows world later) (id : Bytes) :
    ticketMessages world id <+: ticketMessages later id := by
  induction h with
  | refl => exact List.prefix_rfl
  | tail _ hstep ih =>
      obtain ⟨op, result, hop, hexec⟩ := hstep
      refine ih.trans (List.IsPrefix.map Server.ticketMessage ?_)
      rw [tables_of_exec hexec]
      exact messagesByTicket_grows hop _ id

theorem messages_of_ticketData {world : World} {id : Bytes} {data : TicketData}
    (h : ticketData world id = some data) : data.messages = ticketMessages world id := by
  obtain ⟨t, -, rfl⟩ := Option.map_eq_some_iff.mp h
  rfl

-- Of all that a ticket's list has been, the count of messages tells which.
theorem eq_of_count {messages : List Server.TicketMessage} {first second : TicketData}
    (hfirst : first.messages <+: messages) (hsecond : second.messages <+: messages)
    (hsame : (first.messages.length, first.status) = (second.messages.length, second.status)) :
    first = second := by
  obtain ⟨hlength, hstatus⟩ := Prod.mk.inj hsame
  have hshorter := List.prefix_of_prefix_length_le hfirst hsecond hlength.le
  exact TicketData.ext hstatus (hshorter.eq_of_length hlength)

namespace Server

variable (service : Feedback.Service)

-- All the handler can answer; it reads only.
theorem eval_getTicket (req : Request) (id : Bytes) (world : World) :
    (getTicket service req id).eval exec world = (.ok (.ok (
      if (bearer req).isEmpty then .error 401 "missing_auth"
      else match world.db.ticket? id with
        | none => .error 404 "not_found"
        | some t =>
            if xorDiff (if (service.crypto.sha256 (bearer req)).val.length ≠ t.readTokenHash.length
                then 1 else 0) (service.crypto.sha256 (bearer req)).val t.readTokenHash ≠ 0 then
              .error 403 "bad_token"
            else if unchanged req (world.db.messagesByTicket id) t.status.toString then .text 304 []
            else .json 200 (.Ticket t.status.toString (ticketMessages world id)))), world) := by
  have hread : exec (.TicketGetById id) world =
      .ok ((world.db.ticket? id).map fun t => t.toTicket, world) := rfl
  have hlist : exec (.MessagesByTicket id) world = .ok (world.db.messagesByTicket id, world) := rfl
  change Prog.eval _ (ite _ _ _) _ = _
  by_cases hbearer : (bearer req).isEmpty
  · rw [if_pos hbearer, if_pos hbearer]
    rfl
  rw [if_neg hbearer, if_neg hbearer]
  refine Prog.eval_call hread ?_
  cases ht : world.db.ticket? id with
  | none => rfl
  | some t =>
      change Prog.eval _ (ite _ _ _) _ = _
      dsimp only
      by_cases hdiff : xorDiff (if (service.crypto.sha256 (bearer req)).val.length ≠
          t.readTokenHash.length then 1 else 0) (service.crypto.sha256 (bearer req)).val
          t.readTokenHash ≠ 0
      · rw [if_pos hdiff, if_pos hdiff]
        rfl
      rw [if_neg hdiff, if_neg hdiff]
      refine Prog.eval_call hlist ?_
      change Prog.eval _ (ite _ _ _) _ = _
      by_cases hunchanged : unchanged req (world.db.messagesByTicket id) t.status.toString
      · rw [if_pos hunchanged, if_pos hunchanged]
        rfl
      · rw [if_neg hunchanged, if_neg hunchanged]
        rfl

end Server

namespace Polling

section Answers

variable {Json : Type} {crow : Server.Crow Json} {service : Feedback.Service} {poll : Web.Poll}
  {limited : Bool} {world : World}

theorem had_of_unchanged {msgs : List Message} {status : Bytes}
    (h : Server.unchanged poll.request msgs status = true) :
    poll.had = some (msgs.length, status) := by
  simp only [Server.unchanged, Web.Poll.haveCount_request, Web.Poll.haveStatus_request] at h
  cases hhad : poll.had with
  | none => simp [hhad] at h
  | some had =>
      obtain ⟨count, status'⟩ := had
      simp only [hhad, Option.map_some, Option.getD_some, Bool.and_eq_true, beq_iff_eq,
        stoul_decimal_eq] at h
      obtain ⟨-, hcount, hstatus⟩ := h
      split at hcount
      · rw [Option.some.inj hcount, hstatus]
      · cases hcount

-- A poll is told an error, or of the ticket.
theorem answer_cases (crow : Server.Crow Json) (service : Feedback.Service) (poll : Web.Poll)
    (limited : Bool) (world : World) :
    (∃ code text, code ≠ 304 ∧
      answer crow service poll limited world = .text code text) ∨
    ∃ t, world.db.ticket? poll.ticket.id = some t ∧
      answer crow service poll limited world =
        if Server.unchanged poll.request (world.db.messagesByTicket poll.ticket.id)
            t.status.toString then .text 304 []
        else .json 200 (.Ticket t.status.toString (ticketMessages world poll.ticket.id)) := by
  cases limited with
  | true => exact .inl ⟨429, _, by decide, rfl⟩
  | false =>
      have heval := Server.eval_getTicket service poll.request poll.ticket.id world
      rw [answer, heval]
      simp only [Bool.false_eq_true, ite_false, Server.respond]
      by_cases htoken : (Server.bearer poll.request).isEmpty
      · rw [if_pos htoken]
        exact .inl ⟨401, _, by decide, rfl⟩
      rw [if_neg htoken]
      cases ht : world.db.ticket? poll.ticket.id with
      | none => exact .inl ⟨404, _, by decide, rfl⟩
      | some t =>
          dsimp only
          by_cases hdiff : xorDiff (if (service.crypto.sha256 (Server.bearer poll.request)).val.length ≠
              t.readTokenHash.length then 1 else 0)
              (service.crypto.sha256 (Server.bearer poll.request)).val t.readTokenHash ≠ 0
          · rw [if_pos hdiff]
            exact .inl ⟨403, _, by decide, rfl⟩
          · rw [if_neg hdiff]
            exact .inr ⟨t, rfl, rfl⟩

-- A 304 says that the ticket is as the poll has it.
theorem had_of_304 (h : (answer crow service poll limited world).code = 304) :
    ∃ data, ticketData world poll.ticket.id = some data ∧
      poll.had = some (data.messages.length, data.status) := by
  rcases answer_cases crow service poll limited world with
    ⟨code, text, hcode, heq⟩ | ⟨t, ht, heq⟩
  · rw [heq] at h
    exact absurd h hcode
  · rw [heq] at h
    split at h
    next hunchanged =>
      refine ⟨⟨t.status.toString, ticketMessages world poll.ticket.id⟩, ?_, ?_⟩
      · rw [ticketData, ht]
        rfl
      · rw [had_of_unchanged hunchanged, ticketMessages, List.length_map]
    · simp [Server.Response.json] at h

theorem data_of_json {data : TicketData}
    (h : Web.json (answer crow service poll limited world).body = some data) :
    ticketData world poll.ticket.id = some data := by
  rcases answer_cases crow service poll limited world with
    ⟨code, text, hcode, heq⟩ | ⟨t, ht, heq⟩
  · rw [heq] at h
    cases h
  · rw [heq] at h
    split at h
    · cases h
    · rw [ticketData, ht]
      exact h

-- The answer is how the server answers polls, past the rate limit or not.
theorem serve_poll (crow : Server.Crow Json) (service : Feedback.Service) (poll : Web.Poll)
    (steadyClock : Int) (env : Feedback.Env) (state : Server.State) :
    (Server.serve crow service ⟨.GetTicket poll.ticket.id, poll.request, steadyClock, env⟩
      state).1 = answer crow service poll
        (!(state.rlPoll.allow steadyClock (Server.visitorIp poll.request)).1) state.world ∧
    (Server.serve crow service ⟨.GetTicket poll.ticket.id, poll.request, steadyClock, env⟩
      state).2.world = state.world := by
  simp only [Server.serve, Server.State.allow]
  cases hallow : (state.rlPoll.allow steadyClock (Server.visitorIp poll.request)).1 with
  | false => exact ⟨rfl, rfl⟩
  | true =>
      have heval := Server.eval_getTicket service poll.request poll.ticket.id state.world
      have hrun : _ = (Server.getTicket service poll.request poll.ticket.id).eval exec state.world :=
        Prog.run_eq_eval _ [] state.world
      exact ⟨congrArg (Server.respond crow) (congrArg Prod.fst hrun),
        (congrArg Prod.snd hrun).trans (congrArg Prod.snd heval)⟩

end Answers

end Polling

end DeltaFeedback
