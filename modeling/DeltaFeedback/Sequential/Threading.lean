import DeltaFeedback.Calls.Notices
import DeltaFeedback.Db.Queries.Latest
import DeltaFeedback.Sequential.Retry

namespace DeltaFeedback.Sequential

open Text Interleaving Db
open Feedback (ReplyInput ReplyError Env sampleService)

-- What has happened to the tickets' notifications: a ticket was opened, or
-- Delta Chat took a notification for it.
inductive Notice
  | Opened (ticketId : Bytes)
  | Notified (ticketId : Bytes) (dcMsgId : UInt32)
deriving DecidableEq

-- The notification of a ticket that was taken last. A ticket that is opened
-- under an id that was in use before has none.
def latest (id : Bytes) (history : List Notice) : Option UInt32 :=
  history.foldl (fun found notice =>
    match notice with
    | .Opened ticketId => if ticketId = id then none else found
    | .Notified ticketId dcMsgId => if ticketId = id then some dcMsgId else found) none

def opened : Op → List Notice
  | .TicketInsert t => [.Opened t.id]
  | _ => []

section Notices

variable (service : Feedback.Service) (call : Call)

-- The messages a visitor's call sends are the notifications of its ticket; what
-- the bot sends answers the admin.
def notice : Taken Op Op.Result → List Notice
  | ⟨.DcSend _ _ _ id, _⟩ =>
      if id = 0 then [] else (call.message? service).toList.map fun m => .Notified m.ticketId id
  | ⟨op, _⟩ => opened op

def notices : Trail → List Notice
  | [] => []
  | taken :: trail => notices trail ++ notice service call taken

end Notices

-- A run of whole calls, and the notices of it.
structure Thread where
  world : World
  history : List Notice

namespace Thread

variable (service : Feedback.Service)

def after (thread : Thread) (call : Call) : Thread where
  world := (call.run service thread.world).2.2
  history := thread.history ++ notices service call (call.run service thread.world).2.1

def Runs : Thread → Thread → Prop :=
  Relation.ReflTransGen fun thread later => ∃ call, later = thread.after service call

def start (owner : UInt32) : Thread := ⟨{ World.empty with owner }, []⟩

end Thread

-- The database still finds the latest notification of every ticket.
def Threaded (tables : Tables) (history : List Notice) : Prop :=
  ∀ t ∈ tables.tickets, tables.latestDcMsgIdForTicket t.id = latest t.id history

section Steps

variable {service : Feedback.Service} {call : Call} {first last : World} {history : List Notice}
  {trail upper lower : Trail} {id : Bytes}

theorem latest_append (history more : List Notice) :
    latest id (history ++ more) = more.foldl (fun found notice =>
      match notice with
      | .Opened ticketId => if ticketId = id then none else found
      | .Notified ticketId dcMsgId => if ticketId = id then some dcMsgId else found)
        (latest id history) := by
  rw [latest, List.foldl_append]
  rfl

theorem latest_opened (history : List Notice) (ticketId : Bytes) :
    latest id (history ++ [.Opened ticketId]) =
      if ticketId = id then none else latest id history :=
  latest_append history _

theorem latest_notified (history : List Notice) (ticketId : Bytes) (dcMsgId : UInt32) :
    latest id (history ++ [.Notified ticketId dcMsgId]) =
      if ticketId = id then some dcMsgId else latest id history :=
  latest_append history _

theorem Threaded.exec {op : Op} {result : op.Result} (h : Threaded first.db.toTables history)
    (hop : Quiet op) (hexec : exec op first = .ok (result, last)) :
    Threaded last.db.toTables (history ++ opened op) := by
  have htables := tables_of_exec hexec
  intro t ht
  rw [htables] at ht
  have hlatest := Tables.latest_of_write hop ht
  rw [htables, hlatest]
  rcases ticket_of_write ht with ⟨old, hold, hid⟩ | ⟨new, rfl, hid⟩
  · have hsame : latest t.id (history ++ opened op) = latest t.id history := by
      cases op with
      | TicketInsert new =>
          have hother : new.id ≠ t.id := by
            intro heq
            have hmem : new.id ∈ first.db.tickets.map fun t => t.id :=
              List.mem_map.mpr ⟨old, hold, hid.trans heq.symm⟩
            simp [DeltaFeedback.exec, hmem] at hexec
          rw [opened, latest_opened, if_neg hother]
      | _ => exact congrArg (latest t.id) (List.append_nil history)
    rw [hsame, ← hid, h old hold]
  · have habsent : first.db.ticket? t.id = none := by
      rw [Tables.ticket?_eq_none_iff]
      intro hmem
      rw [← hid] at hmem
      simp [DeltaFeedback.exec, hmem] at hexec
    rw [Tables.latest_of_absent first.db.constraints habsent, opened, latest_opened, if_pos hid]

-- A step that binds nothing and sends no notification.
structure Silent (service : Feedback.Service) (call : Call) (taken : Taken Op Op.Result) : Prop where
  quiet : Quiet taken.1
  notice : notice service call taken = opened taken.1

theorem Threaded.leads (h : Threaded first.db.toTables history)
    (hleads : Leads DeltaFeedback.exec first trail last)
    (hsilent : ∀ taken ∈ trail, Silent service call taken) :
    Threaded last.db.toTables (history ++ notices service call trail) := by
  induction hleads with
  | refl => simpa [notices] using h
  | step hbefore hexec ih =>
      obtain ⟨htaken, hrest⟩ := List.forall_mem_cons.mp hsilent
      rw [notices, htaken.notice, ← List.append_assoc]
      exact (ih hrest).exec htaken.quiet hexec

-- The row a call has just stored, by the number it was told.
theorem stored_of_leads {m : NewMessage} {rowId : Nat}
    (h : Leads DeltaFeedback.exec first
      (⟨.LastInsertRowid, rowId⟩ :: ⟨.MessageInsert m, ()⟩ :: lower) last) :
    ∃ front row, last.db.messages = front ++ [row] ∧ row.id = rowId ∧
      row.ticketId = m.ticketId := by
  obtain ⟨stored, h, hnumber⟩ := h.of_cons
  obtain ⟨before, h, hinsert⟩ := h.of_cons
  have hrow := rowid_of_messageInsert hinsert
  have htables := tables_of_exec hinsert
  simp only [DeltaFeedback.exec, Except.ok.injEq, Prod.mk.injEq] at hnumber
  obtain ⟨hid, rfl⟩ := hnumber
  refine ⟨before.db.messages, before.db.newMessageRow m, ?_, ?_, rfl⟩
  · rw [htables]
    rfl
  · rw [← hid, hrow]
    rfl

-- The id of a notification that was taken is bound to the message it was for.
theorem Threaded.bound {m : NewMessage} {contact quote dcMsgId : UInt32} {text : Bytes}
    {rowId : Nat} (upper : Trail) (hmessage : call.message? service = some m) (hid : dcMsgId ≠ 0)
    (h : Threaded first.db.toTables history)
    (hleads : Leads DeltaFeedback.exec first (⟨.MessageSetDcMsgId rowId dcMsgId, ()⟩ ::
      ⟨.DcSend contact text quote dcMsgId, dcMsgId⟩ :: (upper ++
        ⟨.LastInsertRowid, rowId⟩ :: ⟨.MessageInsert m, ()⟩ :: lower)) last)
    (hupper : ∀ taken ∈ upper, ∀ tables, (taken.1.write tables).messages = tables.messages)
    (hsilent : ∀ taken ∈ upper ++ ⟨.LastInsertRowid, rowId⟩ :: ⟨.MessageInsert m, ()⟩ :: lower,
      Silent service call taken) :
    Threaded last.db.toTables (history ++ notices service call
      (⟨.MessageSetDcMsgId rowId dcMsgId, ()⟩ ::
        ⟨.DcSend contact text quote dcMsgId, dcMsgId⟩ :: (upper ++
          ⟨.LastInsertRowid, rowId⟩ :: ⟨.MessageInsert m, ()⟩ :: lower))) := by
  obtain ⟨sent, hsent, hbind⟩ := hleads.of_cons
  obtain ⟨asked, hasked, hsend⟩ := hsent.of_cons
  have hthreaded := h.leads hasked hsilent
  obtain ⟨stored, hstored, hafter⟩ := hasked.of_append
  obtain ⟨front, row, hmessages, hrow, hticket⟩ := stored_of_leads hstored
  have hkept : asked.db.messages = stored.db.messages := by
    refine hafter.invariant (fun world => world.db.messages = stored.db.messages) rfl
      fun taken htaken before world hbefore hexec => ?_
    rw [tables_of_exec hexec, hupper taken htaken, hbefore]
  have hsentTables : sent.db.toTables = asked.db.toTables := tables_of_exec hsend
  have hlastTables : last.db.toTables = asked.db.messageSetDcMsgId row.id dcMsgId := by
    rw [tables_of_exec hbind, hsentTables, hrow]
    rfl
  have hnotices : notices service call (⟨.MessageSetDcMsgId rowId dcMsgId, ()⟩ ::
      ⟨.DcSend contact text quote dcMsgId, dcMsgId⟩ :: (upper ++
        ⟨.LastInsertRowid, rowId⟩ :: ⟨.MessageInsert m, ()⟩ :: lower)) =
      notices service call (upper ++ ⟨.LastInsertRowid, rowId⟩ :: ⟨.MessageInsert m, ()⟩ :: lower) ++
        [.Notified m.ticketId dcMsgId] := by
    rw [notices, notices]
    simp [notice, opened, hid, hmessage]
  intro t ht
  rw [hlastTables] at ht
  rw [hlastTables, hnotices, ← List.append_assoc, latest_notified,
    Tables.latest_messageSetDcMsgId asked.db.constraints (hkept.trans hmessages), hticket,
    hthreaded t ht]

theorem silent_iff {taken : Taken Op Op.Result} : Silent service call taken ↔
    Quiet taken.1 ∧ notice service call taken = opened taken.1 :=
  ⟨fun h => ⟨h.quiet, h.notice⟩, fun h => ⟨h.1, h.2⟩⟩

-- Nothing the bot does binds or notifies.
theorem silent_of_byBot (hmessage : call.message? service = none)
    (hbot : ∀ taken ∈ trail, Dc.ByBot taken.1) : ∀ taken ∈ trail, Silent service call taken := by
  rintro ⟨op, result⟩ htaken
  have hop := hbot _ htaken
  rw [silent_iff]
  cases op with
  | MessageInsert m => exact ⟨hop.2, rfl⟩
  | MessageSetDcMsgId rowId dcMsgId => exact hop.elim
  | DcSend contact text quote id => exact ⟨trivial, by simp [notice, opened, hmessage]⟩
  | _ => exact ⟨trivial, rfl⟩

theorem silent_submitNumbered (input : Feedback.SubmitInput) (env : Env) (owner : UInt32)
    (rowId : Nat) : ∀ taken ∈ service.submitNumbered input env owner rowId,
      Silent service call taken := by
  have hunbound : (service.firstMessage input env).dcMsgId = none := rfl
  simp [silent_iff, Quiet, notice, opened, hunbound]

theorem silent_replyUpdated (input : ReplyInput) (env : Env) (t : Ticket)
    (quoteId : Option UInt32) (rowId : Nat) :
    ∀ taken ∈ service.replyUpdated input env t quoteId rowId, Silent service call taken := by
  have hunbound : (Feedback.Service.replyMessage input env).dcMsgId = none := rfl
  simp [silent_iff, Quiet, notice, opened, hunbound]

-- A submission notifies when it answers Ok, and only then.
theorem Threaded.submitNew {input : Feedback.SubmitInput} {env : Env}
    {outcome : Except SqlError Feedback.SubmitResult} (h : Threaded first.db.toTables history)
    (hleads : Leads DeltaFeedback.exec first trail last)
    (hend : service.SubmitEnd input env trail outcome) : Threaded last.db.toTables
      (history ++ notices service (.SubmitNew input env) trail) := by
  have hnumbered (owner : UInt32) (rowId : Nat) :
      ∀ taken ∈ service.submitNumbered input env owner rowId,
        Silent service (.SubmitNew input env) taken :=
    silent_submitNumbered input env owner rowId
  cases hend with
  | Unsent owner rowId contact hmay =>
      exact h.leads hleads (List.forall_mem_cons.mpr ⟨⟨trivial, rfl⟩, hnumbered owner rowId⟩)
  | Refused owner rowId contact quote hmay hid =>
      refine h.leads hleads (List.forall_mem_cons.mpr ⟨⟨trivial, ?_⟩,
        List.forall_mem_cons.mpr ⟨⟨trivial, rfl⟩, hnumbered owner rowId⟩⟩)
      exact if_pos hid
  | Ok owner rowId contact quote hmay hid =>
      refine h.bound (m := service.firstMessage input env) [⟨.OwnerLoad, contact⟩] rfl hid hleads ?_
        (List.forall_mem_cons.mpr ⟨⟨trivial, rfl⟩, hnumbered owner rowId⟩)
      intro taken htaken tables
      rw [List.mem_singleton.mp htaken]
      rfl
  | _ => exact h.leads hleads (by simp [silent_iff, Quiet, notice, opened])

theorem Threaded.submitReply {input : ReplyInput} {env : Env}
    {outcome : Except SqlError ReplyError} (h : Threaded first.db.toTables history)
    (hleads : Leads DeltaFeedback.exec first trail last)
    (hend : service.ReplyEnd input env trail outcome) : Threaded last.db.toTables
      (history ++ notices service (.SubmitReply input env) trail) := by
  have hupdated (t : Ticket) (quoteId : Option UInt32) (rowId : Nat) :
      ∀ taken ∈ service.replyUpdated input env t quoteId rowId,
        Silent service (.SubmitReply input env) taken :=
    silent_replyUpdated input env t quoteId rowId
  cases hend with
  | Unsent t quoteId rowId owner hmay =>
      exact h.leads hleads (List.forall_mem_cons.mpr ⟨⟨trivial, rfl⟩, hupdated t quoteId rowId⟩)
  | Refused t quoteId rowId owner quote hmay hid =>
      refine h.leads hleads (List.forall_mem_cons.mpr ⟨⟨trivial, ?_⟩,
        List.forall_mem_cons.mpr ⟨⟨trivial, rfl⟩, hupdated t quoteId rowId⟩⟩)
      exact if_pos hid
  | Ok t quoteId rowId owner quote hmay hid =>
      refine h.bound (m := Feedback.Service.replyMessage input env)
        [⟨.OwnerLoad, owner⟩, ⟨.TicketSetStatus input.ticketId .AwaitingAdmin, ()⟩] rfl hid
        hleads ?_ (List.forall_mem_cons.mpr ⟨⟨trivial, rfl⟩, hupdated t quoteId rowId⟩)
      intro taken htaken tables
      rcases List.mem_cons.mp htaken with rfl | htaken
      · rfl
      · rw [List.mem_singleton.mp htaken]
        rfl
  | _ => exact h.leads hleads (by simp [silent_iff, Quiet, notice, opened])

-- What one call preserves, whichever it is and however its sends end.
theorem Threaded.after {world : World} (service : Feedback.Service) (call : Call)
    (h : Threaded world.db.toTables history) :
    Threaded (call.run service world).2.2.db.toTables
      (history ++ notices service call (call.run service world).2.1) := by
  obtain ⟨reached, halone, hdb, -⟩ := call.run_alone service world
  rw [hdb]
  generalize (call.run service world).1 = outcome at halone
  generalize (call.run service world).2.1 = trail at halone ⊢
  have hleads := halone.leads
  cases halone.done with
  | SubmitNew input env trail result hend => exact h.submitNew hleads hend
  | SubmitReply input env trail result hend => exact h.submitReply hleads hend
  | IncomingMsg dc now msg trail result hend =>
      exact h.leads hleads (silent_of_byBot rfl (Dc.byBot_incomingTrail dc now msg halone.legal))
  | RouteAdminMsg dc now owner msg trail result hend =>
      exact h.leads hleads
        (silent_of_byBot rfl (Dc.byBot_routeTrail dc now owner msg halone.legal (by simp)))
  | PurgeInactive cutoff rows => exact h.leads hleads (by simp [silent_iff, Quiet, notice, opened])
  | PurgeExpired now rows => exact h.leads hleads (by simp [silent_iff, Quiet, notice, opened])

theorem Threaded.runs {thread later : Thread} (h : Threaded thread.world.db.toTables thread.history)
    (hrun : Thread.Runs service thread later) :
    Threaded later.world.db.toTables later.history := by
  induction hrun with
  | refl => exact h
  | tail _ hstep ih =>
      obtain ⟨call, rfl⟩ := hstep
      exact ih.after service call

theorem threaded_start (owner : UInt32) :
    Threaded (Thread.start owner).world.db.toTables (Thread.start owner).history :=
  fun _ ht => absurd ht List.not_mem_nil

theorem mem_of_latest {dcMsgId : UInt32} (h : latest id history = some dcMsgId) :
    .Notified id dcMsgId ∈ history := by
  induction history using List.reverseRecOn with
  | nil => simp [latest] at h
  | append_singleton history notice ih =>
      cases notice with
      | Opened ticketId =>
          rw [latest_opened] at h
          split at h
          · cases h
          · exact List.mem_append_left _ (ih h)
      | Notified ticketId other =>
          rw [latest_notified] at h
          split at h
          next hid =>
            obtain rfl := Option.some.inj h
            simp [hid]
          · exact List.mem_append_left _ (ih h)

-- Delta Chat took the notification, so it has an id.
theorem ne_zero_of_notices {dcMsgId : UInt32}
    (h : .Notified id dcMsgId ∈ notices service call trail) : dcMsgId ≠ 0 := by
  induction trail with
  | nil => exact absurd h List.not_mem_nil
  | cons taken trail ih =>
      rcases List.mem_append.mp h with hbefore | htaken
      · exact ih hbefore
      · obtain ⟨op, result⟩ := taken
        cases op with
        | DcSend contact text quote sentId =>
            rw [notice] at htaken
            split at htaken
            · exact absurd htaken List.not_mem_nil
            next hid =>
              obtain ⟨m, -, hnotice⟩ := List.mem_map.mp htaken
              obtain ⟨-, rfl⟩ := Notice.Notified.inj hnotice
              exact hid
        | _ => simp [notice, opened] at htaken

theorem Thread.ne_zero {thread : Thread} {owner dcMsgId : UInt32}
    (hrun : Thread.Runs service (Thread.start owner) thread)
    (h : .Notified id dcMsgId ∈ thread.history) : dcMsgId ≠ 0 := by
  induction hrun with
  | refl => exact absurd h List.not_mem_nil
  | tail _ hstep ih =>
      obtain ⟨call, rfl⟩ := hstep
      rcases List.mem_append.mp h with hbefore | hnotices
      · exact ih hbefore
      · exact ne_zero_of_notices hnotices

-- A reply that does not answer Ok has sent nothing.
theorem outbox_of_not_ok {input : ReplyInput} {env : Env} {outcome : Except SqlError ReplyError}
    (hleads : Leads DeltaFeedback.exec first trail last)
    (hend : service.ReplyEnd input env trail outcome) (hnot : outcome ≠ .ok .Ok) :
    last.outbox = first.outbox := by
  have hsilent : ∀ taken ∈ trail, taken.1.sends = [] := by
    cases hend with
    | Ok => exact absurd rfl hnot
    | Refused t quoteId rowId owner quote hmay hid => simp [Op.sends, hid]
    | _ => simp [Op.sends]
  refine hleads.invariant (fun world => world.outbox = first.outbox) rfl
    fun taken htaken before world hbefore hexec => ?_
  rw [outbox_of_exec hexec, hbefore, hsilent taken htaken, List.append_nil]

end Steps

-- What the notification of a reply is an answer to: the reply asks for the
-- latest one of its ticket, and Delta Chat quotes that, if it still has it.
structure Continues (service : Feedback.Service) (thread : Thread) (input : ReplyInput)
    (env : Env) : Prop where
  nothing : (latest input.ticketId thread.history).getD 0 = 0 ↔
    latest input.ticketId thread.history = none
  asked : ∀ t, Accepted service input env thread.world t → ∃ written rowId,
    written.owner = thread.world.owner ∧ written.outbox = thread.world.outbox ∧
    (service.submitReply input env).eval exec thread.world = (do
      let some dcMsgId ← Dc.sendToOwner env.delivery
        (Feedback.Service.replyNote input env t.toTicket)
        ((latest input.ticketId thread.history).getD 0) | return ReplyError.SendFailed
      MessagesRepo.setDcMsgId rowId dcMsgId
      return .Ok : Proc ReplyError).eval exec written
  quoted : ∃ sent,
    ((Call.SubmitReply input env).run service thread.world).2.2.outbox =
      thread.world.outbox ++ sent ∧
    ∀ msg ∈ sent, msg.quote = env.delivery.quote ((latest input.ticketId thread.history).getD 0)

section Reply

variable {service : Feedback.Service} {thread : Thread} {input : ReplyInput} {env : Env}

theorem quoteOf_eq {t : TicketRow} (h : Threaded thread.world.db.toTables thread.history)
    (haccepted : Accepted service input env thread.world t) :
    quoteOf input thread.world = (latest input.ticketId thread.history).getD 0 := by
  have hlatest := h t (List.mem_of_find?_eq_some haccepted.ticket)
  rw [Tables.id_of_ticket? haccepted.ticket] at hlatest
  rw [quoteOf, hlatest]

theorem quoted_of_accepted {t : TicketRow} (h : Threaded thread.world.db.toTables thread.history)
    (haccepted : Accepted service input env thread.world t) : ∃ sent,
      ((service.submitReply input env).eval exec thread.world).2.outbox =
        thread.world.outbox ++ sent ∧
      ∀ msg ∈ sent,
        msg.quote = env.delivery.quote ((latest input.ticketId thread.history).getD 0) := by
  obtain ⟨written, rowId, -, houtbox, -, heval⟩ := eval_accepted haccepted
  rw [heval, quoteOf_eq h haccepted, Prog.eval_bind, Dc.eval_sendToOwner, ← houtbox]
  split_ifs with htakes
  · refine ⟨[⟨written.owner, cStr (Feedback.Service.replyNote input env t.toTicket),
      env.delivery.quote ((latest input.ticketId thread.history).getD 0), env.delivery.id⟩], ?_,
      by simp⟩
    change (written.send _).outbox = _
    rw [World.send, if_neg htakes.id]
  · exact ⟨[], (List.append_nil _).symm, by simp⟩

theorem quoted_of_refused (h : ∀ t, ¬ Accepted service input env thread.world t) :
    ((Call.SubmitReply input env).run service thread.world).2.2.outbox =
      thread.world.outbox := by
  obtain ⟨houtcome, -⟩ := run_submitReply service input env thread.world
  obtain ⟨reached, halone, -, houtbox⟩ := Call.run_alone service (.SubmitReply input env) thread.world
  have hrefused := (eval_refused h rfl).error
  rw [houtcome] at halone
  rw [houtbox]
  generalize ((service.submitReply input env).eval exec thread.world).1 = answer at halone hrefused
  generalize ((Call.SubmitReply input env).run service thread.world).2.1 = trail at halone
  generalize hended : answer.map Outcome.Replied = outcome at halone
  have hdone := halone.done
  cases hdone with
  | SubmitReply _ _ _ result hend =>
      refine outbox_of_not_ok halone.leads hend fun hok => hrefused ?_
      subst hok
      cases answer <;> simp_all [Except.map]

end Reply

-- Every notification of a reply quotes the latest one of its ticket that Delta
-- Chat took, and nothing if there is none.
theorem Thread.quotes_latest (service : Feedback.Service) (owner : UInt32) (thread : Thread)
    (hrun : Thread.Runs service (Thread.start owner) thread) (input : ReplyInput) (env : Env) :
    Continues service thread input env := by
  have hthreaded := (threaded_start owner).runs hrun
  refine ⟨?_, fun t haccepted => ?_, ?_⟩
  · cases hlatest : latest input.ticketId thread.history with
    | none => simp
    | some dcMsgId => simpa using Thread.ne_zero hrun (mem_of_latest hlatest)
  · obtain ⟨written, rowId, howner, houtbox, -, heval⟩ := eval_accepted haccepted
    exact ⟨written, rowId, howner, houtbox, quoteOf_eq hthreaded haccepted ▸ heval⟩
  · by_cases haccepted : ∃ t, Accepted service input env thread.world t
    · obtain ⟨t, haccepted⟩ := haccepted
      rw [(run_submitReply service input env thread.world).2]
      exact quoted_of_accepted hthreaded haccepted
    · refine ⟨[], ?_, by simp⟩
      rw [List.append_nil]
      exact quoted_of_refused fun t h => haccepted ⟨t, h⟩

-- A ticket that was opened and answered: its notification is 100.
def Thread.answered : Thread :=
  [Chronicle.submission, Chronicle.answer (utf8 "hi")].foldl
    (fun thread call => thread.after sampleService call) (Thread.start 7)

-- The visitor's reply quotes it.
theorem Thread.quotes_latest_followUp :
    latest (utf8 "000000") Thread.answered.history = some 100 ∧
    (((Call.SubmitReply (followUp (utf8 "second")) (followUpEnv 102)).run sampleService
      Thread.answered.world).2.2.outbox.map fun msg => (msg.id, msg.quote)) =
        [(100, 0), (102, 100)] ∧
    Continues sampleService Thread.answered (followUp (utf8 "second")) (followUpEnv 102) := by
  have hseen : (latest (utf8 "000000") Thread.answered.history,
      ((Call.SubmitReply (followUp (utf8 "second")) (followUpEnv 102)).run sampleService
        Thread.answered.world).2.2.outbox.map fun msg => (msg.id, msg.quote)) =
      (some 100, [(100, 0), (102, 100)]) := by decide +kernel
  obtain ⟨hlatest, houtbox⟩ := Prod.mk.inj hseen
  exact ⟨hlatest, houtbox, Thread.quotes_latest sampleService 7 Thread.answered
    ((Relation.ReflTransGen.refl.tail ⟨Chronicle.submission, rfl⟩).tail
      ⟨Chronicle.answer (utf8 "hi"), rfl⟩) _ _⟩

end DeltaFeedback.Sequential
