import DeltaFeedback.Dc.Bot.Trails
import DeltaFeedback.Feedback.Service.Trails
import DeltaFeedback.Interleaving.Alone

namespace DeltaFeedback

open Text Interleaving Db

-- The calls the threads of the program make: the Crow workers' two, the bot's
-- (whole, or from route_admin_msg on) and the purge thread's two.
inductive Call
  | SubmitNew (input : Feedback.SubmitInput) (env : Feedback.Env)
  | SubmitReply (input : Feedback.ReplyInput) (env : Feedback.Env)
  | IncomingMsg (dc : Dc.Delivery) (now : Int) (msg : Dc.IncomingMsg)
  | RouteAdminMsg (dc : Dc.Delivery) (now : Int) (owner : UInt32) (msg : Dc.IncomingMsg)
  | PurgeInactive (cutoff : Int)
  | PurgeExpired (now : Int)

inductive Outcome
  | Submitted (result : Feedback.SubmitResult)
  | Replied (error : Feedback.ReplyError)
  | Handled
  | Purged (rows : Nat)
deriving DecidableEq

namespace Call

variable (service : Feedback.Service)

def prog : Call → Proc Outcome
  | .SubmitNew input env => .Submitted <$> service.submitNew input env
  | .SubmitReply input env => .Replied <$> service.submitReply input env
  | .IncomingMsg dc now msg => (fun _ => .Handled) <$> Dc.incomingMsg dc now msg
  | .RouteAdminMsg dc now owner msg => (fun _ => .Handled) <$> Dc.routeAdminMsg dc now owner msg
  | .PurgeInactive cutoff => .Purged <$> TicketsRepo.purgeInactiveOlderThan cutoff
  | .PurgeExpired now => .Purged <$> ReplayStore.purgeExpired now

inductive PurgeTrail (op : Op) : Trail → Prop
  | Start : PurgeTrail op []
  | Deleted (result : op.Result) : PurgeTrail op [⟨op, result⟩]
  | Counted (result : op.Result) (rows : Nat) : PurgeTrail op [⟨.Changes, rows⟩, ⟨op, result⟩]

-- The trails of a call.
def Legal : Call → Trail → Prop
  | .SubmitNew input env => service.SubmitTrail input env
  | .SubmitReply input env => service.ReplyTrail input env
  | .IncomingMsg dc now msg => Dc.IncomingTrail dc now msg
  | .RouteAdminMsg dc now owner msg => Dc.RouteTrail dc now owner msg []
  | .PurgeInactive cutoff => PurgeTrail (.TicketPurgeInactive cutoff)
  | .PurgeExpired now => PurgeTrail (.ReplayPurge now)

-- The ends of a call.
inductive Ends : Call → Trail → Except SqlError Outcome → Prop
  | SubmitNew (input : Feedback.SubmitInput) (env : Feedback.Env) (trail : Trail)
      (outcome : Except SqlError Feedback.SubmitResult)
      (h : service.SubmitEnd input env trail outcome) :
      Ends (.SubmitNew input env) trail (outcome.map .Submitted)
  | SubmitReply (input : Feedback.ReplyInput) (env : Feedback.Env) (trail : Trail)
      (outcome : Except SqlError Feedback.ReplyError)
      (h : service.ReplyEnd input env trail outcome) :
      Ends (.SubmitReply input env) trail (outcome.map .Replied)
  | IncomingMsg (dc : Dc.Delivery) (now : Int) (msg : Dc.IncomingMsg) (trail : Trail)
      (outcome : Except SqlError Unit) (h : Dc.IncomingEnd dc now msg trail outcome) :
      Ends (.IncomingMsg dc now msg) trail (outcome.map fun _ => .Handled)
  | RouteAdminMsg (dc : Dc.Delivery) (now : Int) (owner : UInt32) (msg : Dc.IncomingMsg)
      (trail : Trail) (outcome : Except SqlError Unit)
      (h : Dc.RouteEnd dc now owner msg [] trail outcome) :
      Ends (.RouteAdminMsg dc now owner msg) trail (outcome.map fun _ => .Handled)
  | PurgeInactive (cutoff : Int) (rows : Nat) :
      Ends (.PurgeInactive cutoff) [⟨.Changes, rows⟩, ⟨.TicketPurgeInactive cutoff, ()⟩]
        (.ok (.Purged rows))
  | PurgeExpired (now : Int) (rows : Nat) :
      Ends (.PurgeExpired now) [⟨.Changes, rows⟩, ⟨.ReplayPurge now, ()⟩] (.ok (.Purged rows))

theorem legal_start (call : Call) : call.Legal service [] := by
  cases call with
  | SubmitNew input env => exact .Start
  | SubmitReply input env => exact .Start
  | IncomingMsg dc now msg => exact .Start
  | RouteAdminMsg dc now owner msg => exact .Start
  | PurgeInactive cutoff => exact .Start
  | PurgeExpired now => exact .Start

theorem follows (call : Call) :
    Follows exec (call.Legal service) (call.Ends service) (call.prog service) [] := by
  cases call with
  | SubmitNew input env =>
      exact ((service.follows_submitNew input env).mono (fun _ h => h)
        fun trail outcome h => .SubmitNew input env trail outcome h).map
  | SubmitReply input env =>
      exact ((service.follows_submitReply input env).mono (fun _ h => h)
        fun trail outcome h => .SubmitReply input env trail outcome h).map
  | IncomingMsg dc now msg =>
      exact ((Dc.follows_incomingMsg dc now msg).mono (fun _ h => h)
        fun trail outcome h => .IncomingMsg dc now msg trail outcome h).map
  | RouteAdminMsg dc now owner msg =>
      exact ((Dc.follows_routeAdminMsg dc now owner msg []).mono (fun _ h => h)
        fun trail outcome h => .RouteAdminMsg dc now owner msg trail outcome h).map
  | PurgeInactive cutoff =>
      refine follows_call rfl fun _ result _ _ => ⟨.Deleted result, ?_⟩
      exact follows_call rfl fun _ rows _ _ => ⟨.Counted result rows, .PurgeInactive cutoff rows⟩
  | PurgeExpired now =>
      refine follows_call rfl fun _ result _ _ => ⟨.Deleted result, ?_⟩
      exact follows_call rfl fun _ rows _ _ => ⟨.Counted result rows, .PurgeExpired now rows⟩

-- Tickets are opened by submissions only, each its own.
variable {service} in
theorem submission_of_legal {call : Call} {t : Ticket} {trail : Trail}
    (h : call.Legal service (⟨.TicketInsert t, ()⟩ :: trail)) :
    ∃ input env owner, call = .SubmitNew input env ∧ t = service.newTicket input env ∧
      trail = service.submitAsked input env owner := by
  cases call with
  | SubmitNew input env =>
      cases h with
      | Opened owner => exact ⟨input, env, owner, rfl, rfl, rfl⟩
  | SubmitReply input env => cases h
  | IncomingMsg dc now msg => exact (Dc.byBot_incomingTrail dc now msg h _ List.mem_cons_self).elim
  | RouteAdminMsg dc now owner msg =>
      exact (Dc.byBot_routeTrail dc now owner msg h (by simp) _ List.mem_cons_self).elim
  | PurgeInactive cutoff => cases h
  | PurgeExpired now => cases h

-- A call with the world to itself.
def run (call : Call) (world : World) : Except SqlError Outcome × Trail × World :=
  (call.prog service).run exec [] world

-- What its trail has come to is what a call leaves, but for the count of rows
-- that a refused statement sets.
theorem run_alone (call : Call) (world : World) : ∃ reached,
    Alone exec (call.Legal service) (call.Ends service) world (call.run service world).1
      (call.run service world).2.1 reached (call.run service world).2.2 ∧
    (call.run service world).2.2.db = reached.db ∧
      (call.run service world).2.2.outbox = reached.outbox := by
  obtain ⟨reached, halone⟩ := Prog.run_follows (call.follows service) (call.legal_start service)
    (.refl : Leads exec world [] world)
  refine ⟨reached, halone, halone.carries (fun world => world.db = reached.db ∧
    world.outbox = reached.outbox) ⟨rfl, rfl⟩ fun op exn world hexec => ?_⟩
  rw [refused_of_exec hexec]
  exact ⟨rfl, rfl⟩

end Call

end DeltaFeedback
