import DeltaFeedback.Server.Confidentiality
import DeltaFeedback.System

namespace DeltaFeedback.System

open Text Interleaving Db

variable {Json : Type} (crow : Server.Crow Json) (service : Feedback.Service)

-- The call of the service that a request's body and token come to.
inductive Makes (call : Server.ApiCall) : Call → Prop
  | SubmitNew (body : Json) (input : Feedback.SubmitInput) (hroute : call.route = .PostFeedback)
      (hload : crow.load call.req.body = some body)
      (hinput : Server.submitInput crow call.req body = .ok input) :
      Makes call (.SubmitNew input call.env)
  | SubmitReply (id : Bytes) (body : Json) (input : Feedback.ReplyInput)
      (hroute : call.route = .PostTicket id) (hload : crow.load call.req.body = some body)
      (hinput : Server.replyInput crow call.req id (Server.bearer call.req) body = .ok input) :
      Makes call (.SubmitReply input call.env)

theorem within_of_follows {α : Type} {prog : Proc α} {legal weaker : Trail → Prop}
    {done : Trail → Except SqlError α → Prop} (h : Follows exec legal done prog [])
    (hlegal : ∀ trail, legal trail → weaker trail) : Within exec weaker prog [] :=
  h.mono hlegal fun _ _ _ => trivial

-- A request keeps to a discipline that the call it comes to keeps to.
theorem within_handler {legal : Trail → Prop} (call : Server.ApiCall)
    (hcall : ∀ made, Makes crow call made → ∀ trail, made.Legal service trail → legal trail)
    (hpoll : ∀ id, call.route = .GetTicket id →
      Within exec legal (Server.getTicket service call.req id) []) :
    Within exec legal (Server.handler crow service call) [] := by
  unfold Server.handler
  cases hroute : call.route with
  | Captcha => trivial
  | GetTicket id => exact hpoll id hroute
  | PostFeedback =>
      unfold Server.postFeedback
      cases hload : crow.load call.req.body with
      | none => trivial
      | some body =>
          dsimp only
          cases hinput : Server.submitInput crow call.req body with
          | error what => trivial
          | ok input =>
              have hmade := Makes.SubmitNew body input hroute hload hinput
              exact (within_of_follows (service.follows_submitNew input call.env)
                (hcall _ hmade)).andThen fun _ _ => trivial
  | PostTicket id =>
      refine follows_ite (fun _ => trivial) fun _ => ?_
      cases hload : crow.load call.req.body with
      | none => trivial
      | some body =>
          dsimp only
          cases hinput : Server.replyInput crow call.req id (Server.bearer call.req) body with
          | error what => trivial
          | ok input =>
              have hmade := Makes.SubmitReply id body input hroute hload hinput
              exact (within_of_follows (service.follows_submitReply input call.env)
                (hcall _ hmade)).andThen fun _ _ => trivial

-- And so do the bot's message and the purge thread's round.
theorem within_incomingMsg {legal : Trail → Prop} (dc : Dc.Delivery) (now : Int)
    (msg : Dc.IncomingMsg) (h : ∀ trail, Dc.IncomingTrail dc now msg trail → legal trail) :
    Within exec legal (Dc.incomingMsg dc now msg) [] :=
  within_of_follows (Dc.follows_incomingMsg dc now msg) h

def purges : Op → Prop
  | .TicketPurgeInactive _ => True
  | .ReplayPurge _ => True
  | .Changes => True
  | _ => False

theorem within_purgeThread {legal : Trail → Prop} (retentionDays : Int32) (now : Int)
    (h : ∀ trail : Trail, (∀ taken ∈ trail, purges taken.1) → legal trail) :
    Within exec legal (Concurrency.purgeThread retentionDays now) [] := by
  have honly : (Concurrency.purgeThread retentionDays now).Only purges :=
    ⟨trivial, fun _ => ⟨trivial, fun _ => ⟨trivial, fun _ => ⟨trivial, fun _ => trivial⟩⟩⟩⟩
  exact within_of_follows (follows_of_only honly (List.forall_mem_nil _)) h

theorem visitorIp_of_submitInput {req : Server.Request} {body : Json} {input : Feedback.SubmitInput}
    (h : Server.submitInput crow req body = .ok input) :
    input.visitorIp = Server.visitorIp req := by
  simp only [Server.submitInput, bind, Except.bind, pure, Except.pure] at h
  repeat' split at h
  all_goals first
    | cases h
      rfl
    | cases h

theorem visitorIp_of_replyInput {req : Server.Request} {id token : Bytes} {body : Json}
    {input : Feedback.ReplyInput} (h : Server.replyInput crow req id token body = .ok input) :
    input.visitorIp = Server.visitorIp req := by
  simp only [Server.replyInput, bind, Except.bind, pure, Except.pure] at h
  repeat' split at h
  all_goals first
    | cases h
      rfl
    | cases h

end DeltaFeedback.System
