import DeltaFeedback.Db.Renewed
import DeltaFeedback.Interleaving.Twins
import DeltaFeedback.System

namespace DeltaFeedback.System

open Text Interleaving Db

-- Two worlds that nobody who asks can tell apart: the first has counted `k`
-- messages more, and Delta Chat was handed `sent` before.
structure Renewed (k : Nat) (sent : List DcMsg) (first second : World) : Prop where
  tables : Tables.Renewed k first.db.toTables second.db.toTables
  owner : first.owner = second.owner
  outbox : first.outbox = sent ++ second.outbox

abbrev Renews (k : Nat) (sent : List DcMsg) {α β : Type} (rel : α → β → Prop) (prog : Proc α)
    (same : Proc β) : Prop :=
  Twins exec (Renewed k sent) rel prog same

variable {k : Nat} {sent : List DcMsg} {first second : World}

namespace Renewed

theorem ids_eq (h : Renewed k sent first second) :
    (first.db.tickets.map fun t => t.id) = second.db.tickets.map fun t => t.id := by
  rw [h.tables.tickets]

theorem consumed_iff (h : Renewed k sent first second) (challengeId : Bytes) :
    first.db.consumed challengeId ↔ second.db.consumed challengeId := by
  rw [Tables.consumed, Tables.consumed, h.tables.replay]

theorem step {op : Op} {result reply : op.Result} {later last : World}
    (h : Renewed k sent first second) (hop : Tables.Renewed.tellsNothing op = true)
    (hfirst : exec op first = .ok (result, later)) (hsecond : exec op second = .ok (reply, last)) :
    Renewed k sent later last where
  tables := by
    rw [tables_of_exec hfirst, tables_of_exec hsecond]
    exact h.tables.write hop
  owner := by rw [(effect_of_exec hfirst).owner, (effect_of_exec hsecond).owner, h.owner]
  outbox := by rw [outbox_of_exec hfirst, outbox_of_exec hsecond, h.outbox, List.append_assoc]

theorem refused (h : Renewed k sent first second) : Renewed k sent first.refused second.refused :=
  ⟨h.tables, h.owner, h.outbox⟩

theorem alike_exec (op : Op) (h : Renewed k sent first second)
    (hop : Tables.Renewed.tellsNothing op = true) :
    AlikeSteps (Renewed k sent) (fun taken done => taken.1 = done.1 ∧ Renewed k sent taken.2 done.2)
      (exec op first) (exec op second) := by
  have hstep (result reply : op.Result) (later last : World) (hsame : result = reply)
      (hfirst : exec op first = .ok (result, later)) (hsecond : exec op second = .ok (reply, last)) :
      AlikeSteps (Renewed k sent)
        (fun taken done => taken.1 = done.1 ∧ Renewed k sent taken.2 done.2)
        (exec op first) (exec op second) := by
    rw [hfirst, hsecond]
    exact ⟨hsame, h.step hop hfirst hsecond⟩
  cases op with
  | TicketInsert t =>
      by_cases hticket : t.id ∈ first.db.tickets.map fun t => t.id
      · simp only [exec, dif_pos hticket, dif_pos (h.ids_eq ▸ hticket)]
        exact ⟨rfl, h.refused⟩
      · exact hstep () () _ _ rfl (by simp only [exec, dif_neg hticket]; rfl)
          (by simp only [exec, dif_neg (h.ids_eq ▸ hticket)]; rfl)
  | MessageInsert m =>
      by_cases hticket : m.ticketId ∈ first.db.tickets.map fun t => t.id
      · exact hstep () () _ _ rfl (by simp only [exec, dif_pos hticket]; rfl)
          (by simp only [exec, dif_pos (h.ids_eq ▸ hticket)]; rfl)
      · simp only [exec, dif_neg hticket, dif_neg (h.ids_eq ▸ hticket)]
        exact ⟨rfl, h.refused⟩
  | TicketGetById id => exact hstep _ _ _ _ (by rw [h.tables.ticket?_eq]) rfl rfl
  | FindTicketByDcMsgId dcMsgId => exact hstep _ _ _ _ (h.tables.findTicketByDcMsgId_eq _) rfl rfl
  | LatestDcMsgIdForTicket id =>
      exact hstep _ _ _ _ (h.tables.latestDcMsgIdForTicket_eq _) rfl rfl
  | ReplayInsert challengeId expiresAt =>
      by_cases hconsumed : first.db.consumed challengeId
      · exact hstep () () _ _ rfl (by simp only [exec, dif_pos hconsumed]; rfl)
          (by simp only [exec, dif_pos ((h.consumed_iff _).mp hconsumed)]; rfl)
      · exact hstep () () _ _ rfl (by simp only [exec, dif_neg hconsumed]; rfl)
          (by simp only [exec, dif_neg (mt (h.consumed_iff _).mpr hconsumed)]; rfl)
  | OwnerLoad => exact hstep _ _ _ _ h.owner rfl rfl
  | StateGet key =>
      obtain rfl : key = Dc.kOwnerKey := by simpa [Tables.Renewed.tellsNothing] using hop
      exact hstep _ _ _ _ h.tables.owner rfl rfl
  | StateSet key value =>
      cases hfirst : exec (.StateSet key value) first with
      | error exn => exact absurd hfirst (exec_ne_error rfl _ _)
      | ok taken =>
          cases hsecond : exec (.StateSet key value) second with
          | error exn => exact absurd hsecond (exec_ne_error rfl _ _)
          | ok done => exact ⟨rfl, h.step hop hfirst hsecond⟩
  | MessageSetDcMsgId rowId dcMsgId => cases hop
  | MessagesByTicket id => cases hop
  | LastInsertRowid => cases hop
  | Changes => cases hop
  | StateDel key => cases hop
  | _ => exact hstep _ _ _ _ rfl rfl rfl

end Renewed

section Calls

theorem renews_perform (op : Op) (hop : Tables.Renewed.tellsNothing op = true) :
    Renews k sent (· = ·) (perform op) (perform op) :=
  twins_call _ (fun _ _ h => h.alike_exec op hop) fun _ _ h => twins_ret h

theorem renews_tryConsume (challengeId : Bytes) (expiresAt : Int) :
    Renews k sent (· = ·) (ReplayStore.tryConsume challengeId expiresAt)
      (ReplayStore.tryConsume challengeId expiresAt) := by
  refine twins_pair (· = ·) (fun first second h => ?_) fun _ _ hcount =>
    twins_ret (congrArg (fun n : Nat => n == 1) hcount)
  refine (h.alike_exec (.ReplayInsert challengeId expiresAt) rfl).mono
    fun taken done hfirst hsecond hstep => ?_
  refine ⟨_, _, rfl, rfl, ?_, hstep.2⟩
  change taken.2.changes = done.2.changes
  rw [(exec_replayInsert hfirst).1, (exec_replayInsert hsecond).1]
  simp only [h.consumed_iff]

-- The same message, in a row that came later.
theorem renews_append (id : Bytes) (sender : Sender) (body : Bytes) (createdAt : Int)
    (visitorIp : Bytes) : Renews k sent (fun rowId row => rowId = row + k)
      (MessagesRepo.append id sender body createdAt visitorIp)
      (MessagesRepo.append id sender body createdAt visitorIp) := by
  refine twins_pair (fun rowId row : Nat => rowId = row + k) (fun first second h => ?_)
    fun _ _ hrow => twins_ret hrow
  refine (h.alike_exec (.MessageInsert _) rfl).mono fun taken done hfirst hsecond hstep => ?_
  refine ⟨_, _, rfl, rfl, ?_, hstep.2⟩
  change taken.2.lastInsertRowid = done.2.lastInsertRowid + k
  rw [rowid_of_messageInsert hfirst, rowid_of_messageInsert hsecond, h.tables.messageSeq]
  omega

-- The row is not the same, the message is.
theorem renews_setDcMsgId (rowId : Nat) (dcMsgId : UInt32) : Renews k sent (· = ·)
    (MessagesRepo.setDcMsgId (rowId + k) dcMsgId) (MessagesRepo.setDcMsgId rowId dcMsgId) := by
  refine twins_call (fun _ _ => True) (fun first second h => ?_) fun _ _ _ => twins_ret rfl
  exact ⟨trivial, h.tables.setDcMsgId rowId dcMsgId, h.owner, h.outbox⟩

theorem renews_list (id : Bytes) : Renews k sent (fun msgs others => msgs = others.map (·.raise k))
    (MessagesRepo.list id) (MessagesRepo.list id) := by
  refine twins_call (fun (msgs others : List Message) => msgs = others.map (·.raise k))
    (fun first second h => ?_) fun _ _ h => twins_ret h
  exact ⟨h.tables.messagesByTicket_eq id, h⟩

theorem renews_changes {α : Type} {next : Nat → Proc α} {rel : α → α → Prop}
    (hnext : ∀ rows others, Renews k sent rel (next rows) (next others)) :
    Renews k sent rel (.call .Changes next) (.call .Changes next) :=
  twins_call (fun _ _ => True) (fun _ _ h => ⟨trivial, h⟩) fun rows others _ => hnext rows others

theorem renews_ownerContactId : Renews k sent (· = ·) Dc.ownerContactId Dc.ownerContactId :=
  (renews_perform .OwnerLoad rfl).bind_eq fun _ => twins_ret rfl

theorem renews_sendTo (dc : Dc.Delivery) (contactId : UInt32) (text : Bytes) (quoteMsgId : UInt32) :
    Renews k sent (· = ·) (Dc.sendTo dc contactId text quoteMsgId)
      (Dc.sendTo dc contactId text quoteMsgId) := by
  refine twins_ite (fun _ => twins_ret rfl) fun _ => ?_
  refine twins_ite (fun _ => twins_ret rfl) fun _ => ?_
  refine twins_ite (fun _ => (renews_perform (.DcSend ..) rfl).bind_eq fun _ => twins_ret rfl)
    fun _ => ?_
  refine twins_ite (fun _ => twins_ret rfl) fun _ => ?_
  exact (renews_perform (.DcSend ..) rfl).bind_eq fun _ => twins_ret rfl

theorem renews_sendToOwner (dc : Dc.Delivery) (text : Bytes) (quoteMsgId : UInt32) :
    Renews k sent (· = ·) (Dc.sendToOwner dc text quoteMsgId)
      (Dc.sendToOwner dc text quoteMsgId) := by
  refine (renews_perform .OwnerLoad rfl).bind_eq fun owner => ?_
  refine twins_ite (fun _ => twins_ret rfl) fun _ => ?_
  refine twins_ite (fun _ => twins_ret rfl) fun _ => ?_
  refine twins_ite (fun _ => (renews_perform (.DcSend ..) rfl).bind_eq fun _ => twins_ret rfl)
    fun _ => ?_
  refine twins_ite (fun _ => twins_ret rfl) fun _ => ?_
  exact (renews_perform (.DcSend ..) rfl).bind_eq fun _ => twins_ret rfl

theorem renews_routeAdminMsg (dc : Dc.Delivery) (now : Int) (owner : UInt32)
    (msg : Dc.IncomingMsg) : Renews k sent (· = ·) (Dc.routeAdminMsg dc now owner msg)
      (Dc.routeAdminMsg dc now owner msg) := by
  have hlookup : Renews k sent (· = ·) (Dc.lookup msg.quotedMsgId) (Dc.lookup msg.quotedMsgId) :=
    twins_ite (fun _ => twins_ret rfl) fun _ => renews_perform (.FindTicketByDcMsgId _) rfl
  have hsent (contactId : UInt32) (text : Bytes) (quoteMsgId : UInt32) :
      Renews k sent (· = ·) (Dc.sendTo dc contactId text quoteMsgId >>= fun _ => pure ())
        (Dc.sendTo dc contactId text quoteMsgId >>= fun _ => pure ()) :=
    (renews_sendTo dc contactId text quoteMsgId).bind_eq fun _ => twins_ret rfl
  unfold Dc.routeAdminMsg
  refine hlookup.bind_eq fun quoted => ?_
  dsimp only
  refine twins_ite (fun _ => hsent _ _ _) fun _ => ?_
  refine (renews_perform (.TicketGetById _) rfl).bind_eq fun found => ?_
  cases found with
  | none => exact renews_sendTo dc _ _ _
  | some t =>
      refine twins_ite (fun _ => hsent _ _ _) fun _ => ?_
      refine twins_ite (fun _ => ?_) fun _ => ?_
      · exact (renews_perform (.TicketClose ..) rfl).bind_eq fun _ => hsent _ _ _
      refine twins_ite (fun _ => hsent _ _ _) fun _ => ?_
      refine (renews_append _ _ _ _ _).bind fun rowId row _ => ?_
      exact renews_perform (.TicketSetStatus ..) rfl

theorem renews_incomingMsg (dc : Dc.Delivery) (now : Int) (msg : Dc.IncomingMsg) :
    Renews k sent (· = ·) (Dc.incomingMsg dc now msg) (Dc.incomingMsg dc now msg) := by
  refine (renews_perform .OwnerLoad rfl).bind_eq fun owner => ?_
  refine twins_ite (fun _ => ?_) fun _ => ?_
  · refine (renews_perform (.OwnerStore _) rfl).bind_eq fun _ => ?_
    refine (renews_perform (.StateSet ..) (beq_self_eq_true _)).bind_eq fun _ => ?_
    exact renews_sendTo dc _ _ _
  · exact twins_ite (fun _ => renews_routeAdminMsg dc now _ msg) fun _ => twins_ret rfl

theorem renews_purgeThread (retentionDays : Int32) (now : Int) : Renews k sent (· = ·)
    (Concurrency.purgeThread retentionDays now) (Concurrency.purgeThread retentionDays now) := by
  refine (renews_perform (.TicketPurgeInactive _) rfl).bind_eq fun _ => ?_
  refine renews_changes fun _ _ => ?_
  refine (renews_perform (.ReplayPurge _) rfl).bind_eq fun _ => ?_
  exact renews_changes fun _ _ => twins_ret rfl

theorem renews_bot : Renews k sent (· = ·) Dc.bot Dc.bot := by
  refine (renews_perform (.StateGet Dc.kOwnerKey) (by decide +kernel)).bind_eq fun stored => ?_
  cases stored with
  | none => exact twins_ret rfl
  | some stored =>
      refine twins_ite (fun _ => twins_ret rfl) fun _ => ?_
      cases stoul stored with
      | none => exact twins_ret rfl
      | some contact => exact renews_perform (.OwnerStore _) rfl

variable (service : Feedback.Service)

theorem renews_submitNew (input : Feedback.SubmitInput) (env : Feedback.Env) :
    Renews k sent (· = ·) (service.submitNew input env) (service.submitNew input env) := by
  unfold Feedback.Service.submitNew
  dsimp only
  cases Feedback.submitPowError (service.verify input.powToken input.powNonce env).1 with
  | some error => exact twins_ret rfl
  | none =>
      refine (renews_tryConsume _ _).bind_eq fun fresh => ?_
      refine twins_ite (fun _ => twins_ret rfl) fun _ => ?_
      refine twins_ite (fun _ => twins_ret rfl) fun _ => ?_
      refine renews_ownerContactId.bind_eq fun owner => ?_
      refine twins_ite (fun _ => twins_ret rfl) fun _ => ?_
      refine (renews_perform (.TicketInsert _) rfl).bind_eq fun _ => ?_
      refine (renews_append _ _ _ _ _).bind fun rowId row hrow => ?_
      subst hrow
      refine (renews_sendToOwner _ _ _).bind_eq fun sent => ?_
      cases sent with
      | none => exact twins_ret rfl
      | some dcMsgId => exact (renews_setDcMsgId row dcMsgId).bind fun _ _ _ => twins_ret rfl

theorem renews_submitReply (input : Feedback.ReplyInput) (env : Feedback.Env) :
    Renews k sent (· = ·) (service.submitReply input env) (service.submitReply input env) := by
  unfold Feedback.Service.submitReply
  refine (renews_perform (.TicketGetById _) rfl).bind_eq fun found => ?_
  cases found with
  | none => exact twins_ret rfl
  | some t =>
      dsimp only
      refine twins_ite (fun _ => twins_ret rfl) fun _ => ?_
      refine twins_ite (fun _ => twins_ret rfl) fun _ => ?_
      refine twins_ite (fun _ => twins_ret rfl) fun _ => ?_
      refine twins_ite (fun _ => twins_ret rfl) fun _ => ?_
      cases Feedback.replyPowError (service.verify input.powToken input.powNonce env).1 with
      | some error => exact twins_ret rfl
      | none =>
          refine (renews_tryConsume _ _).bind_eq fun fresh => ?_
          refine twins_ite (fun _ => twins_ret rfl) fun _ => ?_
          refine twins_ite (fun _ => twins_ret rfl) fun _ => ?_
          refine (renews_perform (.LatestDcMsgIdForTicket _) rfl).bind_eq fun quoteId => ?_
          refine (renews_append _ _ _ _ _).bind fun rowId row hrow => ?_
          subst hrow
          refine (renews_perform (.TicketSetStatus ..) rfl).bind_eq fun _ => ?_
          refine (renews_sendToOwner _ _ _).bind_eq fun sent => ?_
          cases sent with
          | none => exact twins_ret rfl
          | some dcMsgId => exact (renews_setDcMsgId row dcMsgId).bind fun _ _ _ => twins_ret rfl

variable {Json : Type} (crow : Server.Crow Json)

-- The client is shown neither ids nor rows.
theorem renews_getTicket (req : Server.Request) (id : Bytes) : Renews k sent (· = ·)
    (Server.getTicket service req id) (Server.getTicket service req id) := by
  unfold Server.getTicket
  refine twins_ite (fun _ => twins_ret rfl) fun _ => ?_
  refine (renews_perform (.TicketGetById id) rfl).bind_eq fun found => ?_
  cases found with
  | none => exact twins_ret rfl
  | some t =>
      refine twins_ite (fun _ => twins_ret rfl) fun _ => ?_
      refine (renews_list id).bind fun msgs others hmsgs => ?_
      subst hmsgs
      have hsame : Server.unchanged req (others.map (·.raise k)) t.status.toString =
          Server.unchanged req others t.status.toString := by
        rw [Server.unchanged, Server.unchanged, List.length_map]
      dsimp only
      rw [hsame, List.map_map]
      exact twins_ite (fun _ => twins_ret rfl) fun _ => twins_ret rfl

theorem renews_handler (call : Server.ApiCall) : Renews k sent (· = ·)
    (Server.handler crow service call) (Server.handler crow service call) := by
  obtain ⟨route, req, steadyClock, env⟩ := call
  cases route with
  | Captcha => exact twins_ret rfl
  | PostFeedback =>
      change Renews k sent (· = ·) (Server.postFeedback crow service req env) _
      unfold Server.handler Server.postFeedback
      cases crow.load req.body with
      | none => exact twins_ret rfl
      | some body =>
          dsimp only
          cases Server.submitInput crow req body with
          | error what => exact twins_ret rfl
          | ok input => exact (renews_submitNew service input env).bind_eq fun _ => twins_ret rfl
  | GetTicket id => exact renews_getTicket service req id
  | PostTicket id =>
      change Renews k sent (· = ·) (Server.postTicket crow service req id env) _
      unfold Server.handler Server.postTicket
      refine twins_ite (fun _ => twins_ret rfl) fun _ => ?_
      cases crow.load req.body with
      | none => exact twins_ret rfl
      | some body =>
          dsimp only
          cases Server.replyInput crow req id (Server.bearer req) body with
          | error what => exact twins_ret rfl
          | ok input => exact (renews_submitReply service input env).bind_eq fun _ => twins_ret rfl

end Calls

-- What happens to a program that does one thing after the other.
inductive Occurrence
  | Work (job : Job)
  | Restart

section Occurrences

variable {Json : Type} (crow : Server.Crow Json) (service : Feedback.Service)

-- Requests pass their rate limit first, and a new process has new limits.
def happen : Occurrence → Server.State → Option Server.Response × Server.State
  | .Work (.Request call), state =>
      let (response, next) := Server.serve crow service call state
      (some response, next)
  | .Work job, state => (none, { state with world := ((job.prog crow service).eval exec state.world).2 })
  | .Restart, state => (none, .start (boot state.world))

def happenAll : List Occurrence → Server.State → List (Option Server.Response) × Server.State
  | [], state => ([], state)
  | occurrence :: rest, state =>
      let (response, next) := happen crow service occurrence state
      let (responses, last) := happenAll rest next
      (response :: responses, last)

-- The same limits, over worlds that nobody can tell apart.
structure RenewedState (k : Nat) (sent : List DcMsg) (first second : Server.State) : Prop where
  world : Renewed k sent first.world second.world
  rlCaptcha : first.rlCaptcha = second.rlCaptcha
  rlSubmit : first.rlSubmit = second.rlSubmit
  rlPoll : first.rlPoll = second.rlPoll

variable {state other : Server.State}

theorem Renewed.reopen (h : Renewed k sent first second) :
    Renewed k sent (reopen first) (reopen second) :=
  ⟨h.tables, rfl, h.outbox⟩

theorem Renewed.eval {α : Type} {prog : Proc α} (h : Renewed k sent first second)
    (hprog : Renews k sent (· = ·) prog prog) :
    Renewed k sent (prog.eval exec first).2 (prog.eval exec second).2 := by
  rw [← Prog.run_eq_eval prog [], ← Prog.run_eq_eval prog []]
  exact (hprog _ _ _ _ h).2

theorem Renewed.boot (h : Renewed k sent first second) :
    Renewed k sent (boot first) (boot second) :=
  h.reopen.eval renews_bot

theorem renewed_reset (world : World) :
    Renewed world.db.messageSeq world.outbox (cmdResetAdmin world)
      { World.empty with owner := world.owner } where
  tables :=
    { tickets := rfl
      messages := rfl
      messageSeq := (Nat.zero_add _).symm
      replay := rfl
      owner := Tables.stateGet_resetOwnerInDb }
  owner := rfl
  outbox := (List.append_nil _).symm

theorem RenewedState.allow (h : RenewedState k sent state other) (route : Server.Route) (now : Int)
    (key : Bytes) : (state.allow route now key).1 = (other.allow route now key).1 ∧
      RenewedState k sent (state.allow route now key).2 (other.allow route now key).2 := by
  cases route with
  | Captcha =>
      simp only [Server.State.allow, h.rlCaptcha, true_and]
      exact { h with rlCaptcha := rfl }
  | PostFeedback =>
      simp only [Server.State.allow, h.rlSubmit, true_and]
      exact { h with rlSubmit := rfl }
  | GetTicket id =>
      simp only [Server.State.allow, h.rlPoll, true_and]
      exact { h with rlPoll := rfl }
  | PostTicket id =>
      simp only [Server.State.allow, h.rlSubmit, true_and]
      exact { h with rlSubmit := rfl }

theorem RenewedState.serve (h : RenewedState k sent state other) (call : Server.ApiCall) :
    (Server.serve crow service call state).1 = (Server.serve crow service call other).1 ∧
      RenewedState k sent (Server.serve crow service call state).2
        (Server.serve crow service call other).2 := by
  obtain ⟨hallowed, hlimited⟩ := h.allow call.route call.steadyClock (Server.visitorIp call.req)
  unfold Server.serve
  generalize state.allow call.route call.steadyClock (Server.visitorIp call.req) = first at *
  generalize other.allow call.route call.steadyClock (Server.visitorIp call.req) = second at *
  obtain ⟨allowed, first⟩ := first
  obtain ⟨_, second⟩ := second
  obtain rfl : allowed = _ := hallowed
  cases allowed with
  | false => exact ⟨rfl, hlimited⟩
  | true =>
      obtain ⟨hends, hworlds⟩ := renews_handler service crow call _ _ [] [] hlimited.world
      exact ⟨congrArg (Server.respond crow) hends.eq, { hlimited with world := hworlds }⟩

theorem renews_job (job : Job) : Renews k sent (· = ·) (job.prog crow service) (job.prog crow service) := by
  cases job with
  | Request call => exact (renews_handler service crow call).bind_eq fun _ => twins_ret rfl
  | Incoming dc now msg => exact (renews_incomingMsg dc now msg).bind_eq fun _ => twins_ret rfl
  | Purge retentionDays now =>
      exact (renews_purgeThread retentionDays now).bind_eq fun _ => twins_ret rfl

theorem RenewedState.happen (h : RenewedState k sent state other) (occurrence : Occurrence) :
    (happen crow service occurrence state).1 = (happen crow service occurrence other).1 ∧
      RenewedState k sent (happen crow service occurrence state).2
        (happen crow service occurrence other).2 := by
  cases occurrence with
  | Restart => exact ⟨rfl, h.world.boot, rfl, rfl, rfl⟩
  | Work job =>
      have hjob : RenewedState k sent
          { state with world := ((job.prog crow service).eval exec state.world).2 }
          { other with world := ((job.prog crow service).eval exec other.world).2 } :=
        { h with world := h.world.eval (renews_job crow service job) }
      cases job with
      | Request call =>
          obtain ⟨hresponse, hnext⟩ := h.serve crow service call
          exact ⟨congrArg some hresponse, hnext⟩
      | Incoming dc now msg => exact ⟨rfl, hjob⟩
      | Purge retentionDays now => exact ⟨rfl, hjob⟩

theorem RenewedState.happenAll (h : RenewedState k sent state other)
    (occurrences : List Occurrence) :
    (happenAll crow service occurrences state).1 = (happenAll crow service occurrences other).1 ∧
      RenewedState k sent (happenAll crow service occurrences state).2
        (happenAll crow service occurrences other).2 := by
  induction occurrences generalizing state other with
  | nil => exact ⟨rfl, h⟩
  | cons occurrence rest ih =>
      obtain ⟨hresponse, hnext⟩ := h.happen crow service occurrence
      obtain ⟨hresponses, hlast⟩ := ih hnext
      exact ⟨congrArg₂ List.cons hresponse hresponses, hlast⟩

-- A reset leaves no trace in what the program does from its next start on: it
-- answers as one that was never used, hands Delta Chat the same messages, and
-- stores the same, but for the numbers of the messages and state of other keys.
theorem reset_forgets (world : World) (occurrences : List Occurrence) :
    (happenAll crow service occurrences (.start (boot (cmdResetAdmin world)))).1 =
        (happenAll crow service occurrences (.start (boot .empty))).1 ∧
      Renewed world.db.messageSeq world.outbox
        (happenAll crow service occurrences (.start (boot (cmdResetAdmin world)))).2.world
        (happenAll crow service occurrences (.start (boot .empty))).2.world := by
  have hstart : RenewedState world.db.messageSeq world.outbox
      (.start (boot (cmdResetAdmin world))) (.start (boot .empty)) :=
    ⟨(renewed_reset world).boot, rfl, rfl, rfl⟩
  obtain ⟨hresponses, hlast⟩ := hstart.happenAll crow service occurrences
  exact ⟨hresponses, hlast.world⟩

end Occurrences

end DeltaFeedback.System
