import DeltaFeedback.Sequential.Submission
import DeltaFeedback.Server.Confidentiality

namespace DeltaFeedback.Server

open Text Interleaving Db
open DeltaFeedback.Sequential
open Feedback (sampleService)

-- The server with all the responses it has sent.
structure Site where
  state : State
  responses : List Response

-- A request that is served, or another of the program's calls.
inductive Action
  | Serve (call : ApiCall)
  | Run (call : Call)

namespace Site

variable {Json : Type} (crow : Crow Json) (service : Feedback.Service)

def start (owner : UInt32) : Site := ⟨.start { World.empty with owner }, []⟩

def after (site : Site) : Action → Site
  | .Serve call =>
      let (response, state) := serve crow service call site.state
      ⟨state, site.responses ++ [response]⟩
  | .Run call =>
      { site with state.world := (call.run service site.state.world).2.2 }

-- The submission a step makes, if it makes one.
def submission? (site : Site) : Action → Option (Feedback.SubmitInput × Feedback.Env)
  | .Serve call =>
      match call.route with
      | .PostFeedback =>
          if (site.state.allow .PostFeedback call.steadyClock (visitorIp call.req)).1 then
            (crow.load call.req.body).bind fun body =>
              (submitInput crow call.req body).toOption.map fun input => (input, call.env)
          else none
      | _ => none
  | .Run (.SubmitNew input env) => some (input, env)
  | .Run _ => none

-- Where a submission opens a ticket, Delta Chat takes its notification.
def Delivers (site : Site) (action : Action) : Prop :=
  ∀ input env, site.submission? crow action = some (input, env) →
    Admitted service input env site.state.world →
    env.delivery.Takes site.state.world.owner 0

def Runs (admits : Site → Action → Prop) : Site → Site → Prop :=
  Relation.ReflTransGen fun site later =>
    ∃ action, admits site action ∧ later = site.after crow service action

-- The visitor has been sent a 200 with the ticket's id and read token.
def Answered (site : Site) (t : TicketRow) : Prop :=
  ∃ headers code readToken, ⟨200, headers, .Submitted code t.id readToken⟩ ∈ site.responses ∧
    (service.crypto.sha256 readToken).val = t.readTokenHash

-- The owner has been sent a notification with the ticket's id.
def Told (world : World) (ticketId : Bytes) : Prop :=
  ∃ msg ∈ world.outbox, msg.contact = world.owner ∧ msg.contact ≠ 0 ∧
    Feedback.Notifies ticketId msg.text

def ToldAll (world : World) : Prop := ∀ t ∈ world.db.tickets, Told world t.id

variable {crow service} {site : Site} {world last : World}

theorem Told.steady {id : Bytes} (h : Told world id) (hsteady : Steady world last) : Told last id := by
  obtain ⟨msg, hmsg, hcontact, hne, hnotifies⟩ := h
  exact ⟨msg, hsteady.outbox.subset hmsg, hcontact.trans hsteady.owner.symm, hne, hnotifies⟩

theorem ToldAll.steady (h : ToldAll world) (hsteady : Steady world last) : ToldAll last := by
  intro t ht
  obtain ⟨old, hold, hid⟩ := hsteady.tickets t ht
  exact hid ▸ (h old hold).steady hsteady

-- Nobody has been told of anything while there is no owner.
theorem ToldAll.ownerless (h : ToldAll world) (howner : world.owner = 0) : world.db.tickets = [] := by
  refine List.eq_nil_iff_forall_not_mem.mpr fun t ht => ?_
  obtain ⟨msg, -, hcontact, hne, -⟩ := h t ht
  exact hne (hcontact.trans howner)

theorem ToldAll.submitNew {input : Feedback.SubmitInput} {env : Feedback.Env} (h : ToldAll world)
    (htakes : Admitted service input env world → env.delivery.Takes world.owner 0) :
    ToldAll ((service.submitNew input env).eval exec world).2 := by
  by_cases hadmitted : Admitted service input env world
  case neg => exact h.steady (eval_unadmitted hadmitted rfl)
  obtain ⟨stored, rowId, howner, houtbox, htickets, heval⟩ := eval_admitted hadmitted
  have htakes := htakes hadmitted
  rw [heval, Prog.eval_bind, Dc.eval_sendToOwner, howner, if_pos htakes]
  have hbind (result : Feedback.SubmitResult) :
      NoNewTicketOrOwner (do MessagesRepo.setDcMsgId rowId env.delivery.id; return result) :=
    ⟨rfl, fun _ => trivial⟩
  refine ToldAll.steady ?_ (.eval (hbind _) _)
  rw [World.send, if_neg htakes.id]
  intro t ht
  rcases htickets t ht with hold | hnew
  · obtain ⟨msg, hmsg, hcontact, hne, hnotifies⟩ := h t hold
    refine ⟨msg, ?_, hcontact.trans howner.symm, hne, hnotifies⟩
    rw [houtbox]
    exact List.mem_append_left _ hmsg
  · exact ⟨_, List.mem_append_right _ List.mem_cons_self, howner.symm, htakes.owner,
      hnew ▸ service.notifies_submitNote input env⟩

theorem toldAll_incomingMsg (dc : Dc.Delivery) (now : Int) (msg : Dc.IncomingMsg)
    (h : ToldAll world) : ToldAll ((Dc.incomingMsg dc now msg).eval exec world).2 := by
  by_cases howner : world.owner = 0
  · obtain ⟨registered, hset, heval⟩ := eval_first dc now msg howner
    rw [heval]
    refine ToldAll.steady ?_ (.eval (noNewTicketOrOwner_sendTo ..) registered)
    intro t ht
    rw [tables_of_exec hset] at ht
    exact absurd ht (by simp [Op.write, Tables.stateSet, h.ownerless howner])
  · by_cases hfrom : msg.fromId = world.owner
    · rw [eval_owner dc now msg howner hfrom]
      exact h.steady (.eval (noNewTicketOrOwner_routeAdminMsg ..) world)
    · rw [eval_stranger dc now msg howner hfrom]
      exact h

theorem run_world (call : Call) (world : World) :
    (call.run service world).2.2 = ((call.prog service).eval exec world).2 :=
  congrArg Prod.snd (Prog.run_eq_eval (call.prog service) [] world)

theorem ToldAll.call (h : ToldAll world) (call : Call)
    (htakes : ∀ input env, call = .SubmitNew input env → Admitted service input env world →
      env.delivery.Takes world.owner 0) : ToldAll (call.run service world).2.2 := by
  rw [run_world]
  cases call with
  | SubmitNew input env =>
      rw [Call.prog, Prog.eval_map]
      exact h.submitNew (htakes input env rfl)
  | SubmitReply input env =>
      exact h.steady (.eval ((noNewTicketOrOwner_submitReply service input env).map _) world)
  | IncomingMsg dc now msg =>
      rw [Call.prog, Prog.eval_map]
      exact toldAll_incomingMsg dc now msg h
  | RouteAdminMsg dc now owner msg =>
      exact h.steady (.eval ((noNewTicketOrOwner_routeAdminMsg dc now owner msg).map _) world)
  | PurgeInactive cutoff =>
      exact h.steady (.eval ((noNewTicketOrOwner_purgeInactiveOlderThan cutoff).map _) world)
  | PurgeExpired now => exact h.steady (.eval ((noNewTicketOrOwner_purgeExpired now).map _) world)

-- The handlers that make no submission.
theorem noNewTicketOrOwner_getTicket (req : Request) (id : Bytes) :
    NoNewTicketOrOwner (getTicket service req id) := by
  refine Prog.only_ite (fun _ => trivial) fun _ => ⟨rfl, fun found => ?_⟩
  cases found with
  | none => trivial
  | some t =>
      refine Prog.only_ite (fun _ => trivial) fun _ => ⟨rfl, fun msgs => ?_⟩
      exact Prog.only_ite (fun _ => trivial) fun _ => trivial

theorem noNewTicketOrOwner_postTicket (req : Request) (id : Bytes) (env : Feedback.Env) :
    NoNewTicketOrOwner (postTicket crow service req id env) := by
  refine Prog.only_ite (fun _ => trivial) fun _ => ?_
  cases crow.load req.body with
  | none => trivial
  | some body =>
      dsimp only
      cases replyInput crow req id (bearer req) body with
      | error what => trivial
      | ok input => exact (noNewTicketOrOwner_submitReply service input env).bind fun _ => trivial

theorem allow_world (state : State) (route : Route) (now : Int) (key : Bytes) :
    (state.allow route now key).2.world = state.world := by
  cases route <;> rfl

theorem serve_world (call : ApiCall) (state : State) :
    (serve crow service call state).2.world =
      if (state.allow call.route call.steadyClock (visitorIp call.req)).1 then
        ((handler crow service call).eval exec state.world).2
      else state.world := by
  have hworld := allow_world state call.route call.steadyClock (visitorIp call.req)
  unfold serve
  generalize state.allow call.route call.steadyClock (visitorIp call.req) = limited at *
  obtain ⟨allowed, limited⟩ := limited
  have hlimited : limited.world = state.world := hworld
  rw [← hlimited]
  cases allowed with
  | false => rfl
  | true => exact congrArg Prod.snd (Prog.run_eq_eval (handler crow service call) [] _)

theorem ToldAll.postFeedback {req : Request} {env : Feedback.Env} (h : ToldAll world)
    (htakes : ∀ body input, crow.load req.body = some body →
      submitInput crow req body = .ok input → Admitted service input env world →
      env.delivery.Takes world.owner 0) :
    ToldAll ((postFeedback crow service req env).eval exec world).2 := by
  unfold Server.postFeedback
  cases hload : crow.load req.body with
  | none => exact h
  | some body =>
      dsimp only
      cases hinput : submitInput crow req body with
      | error what => exact h
      | ok input =>
          dsimp only
          rw [bind_pure_comp, Prog.eval_map]
          exact h.submitNew (htakes body input hload hinput)

theorem ToldAll.serve (h : ToldAll site.state.world) (call : ApiCall)
    (hdelivers : site.Delivers crow service (.Serve call)) :
    ToldAll (serve crow service call site.state).2.world := by
  rw [serve_world]
  split_ifs with hallowed
  case neg => exact h
  obtain ⟨route, req, steadyClock, env⟩ := call
  cases route with
  | Captcha => exact h
  | PostFeedback =>
      refine h.postFeedback fun body input hload hinput hadmitted => ?_
      refine hdelivers input env ?_ hadmitted
      simp only [submission?, hallowed, ite_true, hload, Option.bind_some, hinput, Except.toOption,
        Option.map_some]
  | GetTicket id => exact h.steady (.eval (noNewTicketOrOwner_getTicket req id) _)
  | PostTicket id => exact h.steady (.eval (noNewTicketOrOwner_postTicket req id env) _)

theorem ToldAll.after (h : ToldAll site.state.world) (action : Action)
    (hdelivers : site.Delivers crow service action) :
    ToldAll (site.after crow service action).state.world := by
  cases action with
  | Serve call => exact h.serve call hdelivers
  | Run call =>
      refine h.call call ?_
      rintro input env rfl hadmitted
      exact hdelivers input env rfl hadmitted

-- Every run in which Delta Chat takes the notification of each ticket that is
-- opened: nobody's ticket is lost.
theorem tickets_reached (crow : Crow Json) (service : Feedback.Service) (owner : UInt32)
    (site : Site) (hrun : Runs crow service (Delivers crow service) (start owner) site) :
    ∀ t ∈ site.state.world.db.tickets,
      site.Answered service t ∨ Told site.state.world t.id := by
  suffices htold : ToldAll site.state.world from fun t ht => .inr (htold t ht)
  induction hrun with
  | refl => exact fun t ht => by simp [start, State.start, World.empty, Database.empty] at ht
  | tail _ hstep ih =>
      obtain ⟨action, hdelivers, rfl⟩ := hstep
      exact ih.after action hdelivers

theorem env_of_submission {call : ApiCall} {input : Feedback.SubmitInput} {env : Feedback.Env}
    (h : site.submission? crow (.Serve call) = some (input, env)) : env = call.env := by
  simp only [submission?] at h
  split at h
  · split_ifs at h
    obtain ⟨body, -, hinput⟩ := Option.bind_eq_some_iff.mp h
    obtain ⟨_, -, hpair⟩ := Option.map_eq_some_iff.mp hinput
    exact (Prod.mk.inj hpair).2.symm
  · simp at h

def sampleFeedback (dcMsgId : UInt32) : Action :=
  .Serve { sampleCall .PostFeedback with
    env := { (sampleCall .PostFeedback).env with delivery := ⟨12, true, true, dcMsgId⟩ } }

def posted (dcMsgId : UInt32) : Site :=
  (start 7).after sampleCrow sampleService (sampleFeedback dcMsgId)

theorem tickets_reached_sample : (posted 100).state.world.db.tickets.length = 1 ∧
    ∀ t ∈ (posted 100).state.world.db.tickets,
      (posted 100).Answered sampleService t ∨ Told (posted 100).state.world t.id := by
  refine ⟨by decide +kernel, tickets_reached sampleCrow sampleService 7 (posted 100)
    (.single ⟨sampleFeedback 100, fun input env hsubmits hadmitted => ?_, rfl⟩)⟩
  have henv := env_of_submission hsubmits
  rw [henv]
  exact ⟨hadmitted.owner, by decide, .inl rfl, by decide⟩

-- Delta Chat refuses the notification: the ticket is kept, the visitor is told
-- that the sending has failed, and nobody knows the ticket's id.
theorem ticket_orphaned : ¬ ∀ site, Runs sampleCrow sampleService (fun _ _ => True) (start 7) site →
    ∀ t ∈ site.state.world.db.tickets,
      site.Answered sampleService t ∨ Told site.state.world t.id := by
  intro hclaim
  have hseen : ((posted 0).responses.map (fun r => r.code), (posted 0).state.world.outbox,
      (posted 0).state.world.db.tickets.length) = ([502], [], 1) := by decide +kernel
  simp only [Prod.mk.injEq] at hseen
  obtain ⟨hresponses, houtbox, hlength⟩ := hseen
  have hticket : (posted 0).state.world.db.tickets ≠ [] := by
    rintro hnil
    simp [hnil] at hlength
  obtain ⟨t, ht⟩ := List.exists_mem_of_ne_nil _ hticket
  rcases hclaim (posted 0) (.single ⟨sampleFeedback 0, trivial, rfl⟩) t ht with
    ⟨headers, code, readToken, hsent, -⟩ | ⟨msg, hmsg, -⟩
  · have hcode : (200 : Nat) ∈ (posted 0).responses.map fun r => r.code :=
      List.mem_map.mpr ⟨_, hsent, rfl⟩
    rw [hresponses] at hcode
    simp at hcode
  · rw [houtbox] at hmsg
    simp at hmsg

end Site

end DeltaFeedback.Server
