import DeltaFeedback.Calls.Steady
import DeltaFeedback.System

namespace DeltaFeedback.System

open Text Interleaving Db

-- The operations that concern neither the owner nor a chat.
def quiet : Op → Bool
  | .OwnerStore _ => false
  | .StateSet .. => false
  | .StateDel _ => false
  | .DcSend .. => false
  | _ => true

abbrev claimed (contact : UInt32) : Trail :=
  [⟨.OwnerStore contact, ()⟩, ⟨.OwnerLoad, (0 : UInt32)⟩]

abbrev registered (contact : UInt32) : Trail :=
  ⟨.StateSet Dc.kOwnerKey (decimal contact.toNat), ()⟩ :: claimed contact

-- The trails of a job, as far as the owner goes: a contact that finds no owner
-- is stored, saved and welcomed; everything else is sent to the owner found.
inductive OwnerTrail (job : Job) : Trail → Prop
  | Start : OwnerTrail job []
  | Quiet (op : Op) (result : op.Result) (trail : Trail) (h : quiet op = true) :
      OwnerTrail job (⟨op, result⟩ :: trail)
  | Claimed (contact : UInt32) (h : job.fromId? = some contact) : OwnerTrail job (claimed contact)
  | Registered (contact : UInt32) (h : job.fromId? = some contact) :
      OwnerTrail job (registered contact)
  | Welcomed (contact quote id : UInt32) (h : job.fromId? = some contact) (hcontact : contact ≠ 0) :
      OwnerTrail job (⟨.DcSend contact (cStr Dc.kWelcome) quote id, id⟩ :: registered contact)
  | Told (contact : UInt32) (text : Bytes) (quote id : UInt32) (trail : Trail)
      (hcontact : contact ≠ 0) (htext : text ≠ Dc.kWelcome)
      (hload : ⟨.OwnerLoad, contact⟩ ∈ trail) :
      OwnerTrail job (⟨.DcSend contact text quote id, id⟩ :: trail)

def appoints : Op → Bool
  | .OwnerStore _ => true
  | .StateSet .. => true
  | _ => false

-- Only the bot appoints and saves anybody.
theorem OwnerTrail.byBot {job : Job} {op : Op} {result : op.Result} {trail : Trail}
    (h : OwnerTrail job (⟨op, result⟩ :: trail)) (hop : appoints op = true) :
    job.fromId?.isSome := by
  cases h with
  | Quiet _ _ _ hquiet => cases op <;> simp [quiet, appoints] at hquiet hop
  | Claimed contact h => simp [h]
  | Registered contact h => simp [h]
  | Welcomed => simp [appoints] at hop
  | Told => simp [appoints] at hop

-- A program that keeps to these trails, whatever was done before it.
abbrev Rightful (job : Job) {α : Type} (prog : Proc α) (trail : Trail) : Prop :=
  Within exec (OwnerTrail job) prog trail

section Texts

theorem cStr_ne_kWelcome {first : Bytes} (rest : Bytes) (hfirst : ∀ c ∈ first, c ≠ 0)
    (h : ¬ first <+: Dc.kWelcome) : cStr (first ++ rest) ≠ Dc.kWelcome := by
  intro heq
  rw [cStr_append rest hfirst] at heq
  exact h (heq ▸ List.prefix_append first (cStr rest))

theorem note_ne_kWelcome (ticketId visitorIp : Bytes) (whenUnix : Int) (locale name body : Bytes)
    (isReply : Bool) : cStr (Feedback.formatAdminNotification ticketId visitorIp whenUnix locale name
      body isReply) ≠ Dc.kWelcome := by
  simp only [Feedback.formatAdminNotification, List.append_assoc]
  exact cStr_ne_kWelcome _ (by decide +kernel) (by decide +kernel)

-- The texts of route_admin_msg that name a ticket.
theorem ticketText_ne_kWelcome (rest : Bytes) :
    cStr (utf8 "Тикет [" ++ rest) ≠ Dc.kWelcome :=
  cStr_ne_kWelcome rest (by decide +kernel) (by decide +kernel)

end Texts

section Rightful

variable {Json : Type} {job : Job} {α : Type} {prog : Proc α} {trail : Trail}

theorem rightful_of_quiet (h : prog.Only fun op => quiet op = true) : Rightful job prog trail :=
  .of_only (fun op result trail hop => .Quiet op result trail hop) h

theorem rightful_call {op : Op} {next : op.Result → Proc α} (hop : quiet op = true)
    (h : ∀ result, Rightful job (next result) (⟨op, result⟩ :: trail)) :
    Rightful job (.call op next) trail :=
  .call fun _ result _ _ => ⟨.Quiet op result trail hop, h result⟩

-- What is sent to the owner that was found.
theorem rightful_dcSend {contact quote id : UInt32} {text : Bytes} {next : UInt32 → Proc α}
    (hcontact : contact ≠ 0) (htext : text ≠ Dc.kWelcome) (hload : ⟨.OwnerLoad, contact⟩ ∈ trail)
    (h : Rightful job (next id) (⟨.DcSend contact text quote id, id⟩ :: trail)) :
    Rightful job (.call (.DcSend contact text quote id) next) trail := by
  refine Within.call fun _ result _ hexec => ?_
  obtain rfl := (Dc.exec_dcSend hexec).symm
  exact ⟨.Told contact text quote _ trail hcontact htext hload, h⟩

theorem rightful_sendToOwner (dc : Dc.Delivery) {text : Bytes} (quoteMsgId : UInt32)
    (htext : cStr text ≠ Dc.kWelcome) : Rightful job (Dc.sendToOwner dc text quoteMsgId) trail := by
  refine rightful_call rfl fun owner => ?_
  refine follows_ite (fun _ => trivial) fun howner => ?_
  have hload : ⟨.OwnerLoad, owner⟩ ∈ ⟨.OwnerLoad, owner⟩ :: trail := List.mem_cons_self
  refine follows_ite (fun _ => trivial) fun _ => ?_
  refine follows_ite (fun _ => rightful_dcSend howner htext hload trivial) fun _ => ?_
  exact follows_ite (fun _ => trivial) fun _ => rightful_dcSend howner htext hload trivial

theorem rightful_sendTo (dc : Dc.Delivery) {contact : UInt32} {text : Bytes} (quoteMsgId : UInt32)
    (htext : cStr text ≠ Dc.kWelcome) (hload : ⟨.OwnerLoad, contact⟩ ∈ trail) :
    Rightful job (Dc.sendTo dc contact text quoteMsgId) trail := by
  refine follows_ite (fun _ => trivial) fun hcontact => ?_
  refine follows_ite (fun _ => trivial) fun _ => ?_
  refine follows_ite (fun _ => rightful_dcSend hcontact htext hload trivial) fun _ => ?_
  exact follows_ite (fun _ => trivial) fun _ => rightful_dcSend hcontact htext hload trivial

-- What the admin is told about a message, once it is known what it quotes.
theorem rightful_routeTicket (dc : Dc.Delivery) (now : Int) {owner : UInt32} (msgId : UInt32)
    (route : Dc.AdminRoute) (hload : ⟨.OwnerLoad, owner⟩ ∈ trail) :
    Rightful job (if route.kind = .NoTicketId then Dc.sendTo dc owner Dc.kNoTicketId 0
      else do
        let some t ← TicketsRepo.get route.ticketId |
          Dc.sendTo dc owner (Dc.notFoundText route.ticketId) 0
        if t.status = .Closed then Dc.sendTo dc owner (Dc.alreadyClosedText route.ticketId) 0
        else if route.kind = .Close then do
          TicketsRepo.close route.ticketId now
          Dc.sendTo dc owner (Dc.closedText route.ticketId) msgId
        else if route.body.isEmpty then Dc.sendTo dc owner Dc.kEmptyReply 0
        else do
          let _ ← MessagesRepo.append route.ticketId .Admin route.body now []
          TicketsRepo.setStatus route.ticketId .AwaitingVisitor) trail := by
  have htext (rest : Bytes) : cStr (utf8 "Тикет [" ++ route.ticketId ++ rest) ≠ Dc.kWelcome := by
    rw [List.append_assoc]
    exact ticketText_ne_kWelcome _
  refine follows_ite (fun _ => rightful_sendTo dc 0 (by decide +kernel) hload) fun _ => ?_
  refine rightful_call rfl fun found => ?_
  have hread : ⟨.OwnerLoad, owner⟩ ∈ ⟨.TicketGetById route.ticketId, found⟩ :: trail :=
    List.mem_cons_of_mem _ hload
  cases found with
  | none => exact rightful_sendTo dc 0 (htext _) hread
  | some t =>
      refine follows_ite (fun _ => rightful_sendTo dc 0 (htext _) hread) fun _ => ?_
      refine follows_ite (fun _ => rightful_call rfl fun _ => ?_) fun _ => ?_
      · exact rightful_sendTo dc msgId (htext _) (List.mem_cons_of_mem _ hread)
      refine follows_ite (fun _ => rightful_sendTo dc 0 (by decide +kernel) hread) fun _ => ?_
      exact rightful_of_quiet ⟨rfl, fun _ => ⟨rfl, fun _ => ⟨rfl, fun _ => trivial⟩⟩⟩

theorem rightful_routeAdminMsg (dc : Dc.Delivery) (now : Int) {owner : UInt32}
    (msg : Dc.IncomingMsg) (hload : ⟨.OwnerLoad, owner⟩ ∈ trail) :
    Rightful job (Dc.routeAdminMsg dc now owner msg) trail := by
  simp only [Dc.routeAdminMsg, Dc.lookup, bind_pure_unit]
  split_ifs with hquoted
  · exact rightful_routeTicket dc now msg.msgId _ hload
  · exact rightful_call rfl fun quoted =>
      rightful_routeTicket dc now msg.msgId _ (List.mem_cons_of_mem _ hload)

theorem rightful_welcome (dc : Dc.Delivery) {contact : UInt32} (h : job.fromId? = some contact) :
    Rightful job (Dc.sendTo dc contact Dc.kWelcome 0) (registered contact) := by
  refine follows_ite (fun _ => trivial) fun hcontact => ?_
  refine follows_ite (fun _ => trivial) fun _ => ?_
  rw [if_pos rfl]
  refine Within.call fun _ result _ hexec => ?_
  obtain rfl := (Dc.exec_dcSend hexec).symm
  exact ⟨.Welcomed contact 0 _ h hcontact, trivial⟩

-- An owner is found, or the contact becomes it.
theorem rightful_incomingMsg (dc : Dc.Delivery) (now : Int) (msg : Dc.IncomingMsg) :
    Rightful (.Incoming dc now msg) (Dc.incomingMsg dc now msg) [] := by
  refine rightful_call rfl fun owner => ?_
  by_cases howner : owner = 0
  · subst howner
    refine Within.call fun _ _ _ _ => ⟨.Claimed msg.fromId rfl, ?_⟩
    refine Within.call fun _ _ _ _ => ⟨.Registered msg.fromId rfl, ?_⟩
    exact rightful_welcome dc rfl
  change Rightful _ (ite _ _ _) _
  rw [if_neg howner]
  refine follows_ite (fun _ => ?_) fun _ => trivial
  exact rightful_routeAdminMsg dc now msg List.mem_cons_self

variable (crow : Server.Crow Json) (service : Feedback.Service)

theorem rightful_submitNew (input : Feedback.SubmitInput) (env : Feedback.Env) :
    Rightful job (service.submitNew input env) trail := by
  unfold Feedback.Service.submitNew
  dsimp only
  split
  · trivial
  refine rightful_call rfl fun _ => rightful_call rfl fun changes => ?_
  refine follows_ite (fun _ => trivial) fun _ => ?_
  refine follows_ite (fun _ => trivial) fun _ => ?_
  refine (show Rightful job Dc.ownerContactId _ from
    rightful_of_quiet ⟨rfl, fun _ => trivial⟩).andThen fun owner trail => ?_
  refine follows_ite (fun _ => trivial) fun _ => ?_
  refine rightful_call rfl fun _ => rightful_call rfl fun _ => rightful_call rfl fun rowId => ?_
  refine (rightful_sendToOwner env.delivery 0 (note_ne_kWelcome _ _ _ _ _ _ _)).andThen
    fun sent trail => ?_
  cases sent with
  | none => trivial
  | some dcMsgId => exact rightful_of_quiet ⟨rfl, fun _ => trivial⟩

theorem rightful_submitReply (input : Feedback.ReplyInput) (env : Feedback.Env) :
    Rightful job (service.submitReply input env) trail := by
  refine rightful_call rfl fun found => ?_
  cases found with
  | none => trivial
  | some t =>
      refine follows_ite (fun _ => trivial) fun _ => ?_
      refine follows_ite (fun _ => trivial) fun _ => ?_
      refine follows_ite (fun _ => trivial) fun _ => ?_
      refine follows_ite (fun _ => trivial) fun _ => ?_
      dsimp only
      split
      · trivial
      refine rightful_call rfl fun _ => rightful_call rfl fun changes => ?_
      refine follows_ite (fun _ => trivial) fun _ => ?_
      refine follows_ite (fun _ => trivial) fun _ => ?_
      refine rightful_call rfl fun quoteId => ?_
      refine rightful_call rfl fun _ => rightful_call rfl fun rowId => rightful_call rfl fun _ => ?_
      refine (rightful_sendToOwner env.delivery _ (note_ne_kWelcome _ _ _ _ _ _ _)).andThen
        fun sent trail => ?_
      cases sent with
      | none => trivial
      | some dcMsgId => exact rightful_of_quiet ⟨rfl, fun _ => trivial⟩

theorem quiet_getTicket (req : Server.Request) (id : Bytes) :
    (Server.getTicket service req id).Only fun op => quiet op = true := by
  refine Prog.only_ite (fun _ => trivial) fun _ => ⟨rfl, fun found => ?_⟩
  cases found with
  | none => trivial
  | some t =>
      refine Prog.only_ite (fun _ => trivial) fun _ => ⟨rfl, fun msgs => ?_⟩
      exact Prog.only_ite (fun _ => trivial) fun _ => trivial

theorem rightful_postFeedback (req : Server.Request) (env : Feedback.Env) :
    Rightful job (Server.postFeedback crow service req env) trail := by
  unfold Server.postFeedback
  cases crow.load req.body with
  | none => trivial
  | some body =>
      dsimp only
      cases Server.submitInput crow req body with
      | error what => trivial
      | ok input => exact (rightful_submitNew service input env).andThen fun _ _ => trivial

theorem rightful_postTicket (req : Server.Request) (id : Bytes) (env : Feedback.Env) :
    Rightful job (Server.postTicket crow service req id env) trail := by
  refine follows_ite (fun _ => trivial) fun _ => ?_
  cases crow.load req.body with
  | none => trivial
  | some body =>
      dsimp only
      cases Server.replyInput crow req id (Server.bearer req) body with
      | error what => trivial
      | ok input => exact (rightful_submitReply service input env).andThen fun _ _ => trivial

theorem rightful_handler (call : Server.ApiCall) :
    Rightful job (Server.handler crow service call) trail := by
  unfold Server.handler
  cases call.route with
  | Captcha => trivial
  | PostFeedback => exact rightful_postFeedback crow service call.req call.env
  | GetTicket id => exact rightful_of_quiet (quiet_getTicket service call.req id)
  | PostTicket id => exact rightful_postTicket crow service call.req id call.env

theorem rightful_prog (job : Job) : Rightful job (job.prog crow service) [] := by
  cases job with
  | Request call => exact (rightful_handler crow service call).map
  | Incoming dc now msg => exact (rightful_incomingMsg dc now msg).map
  | Purge retentionDays now =>
      exact Follows.map (rightful_of_quiet ⟨rfl, fun _ => ⟨rfl, fun _ => ⟨rfl, fun _ => ⟨rfl,
        fun _ => trivial⟩⟩⟩⟩)

end Rightful

end DeltaFeedback.System
