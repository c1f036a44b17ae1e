import DeltaFeedback.Feedback.Service.Trails
import DeltaFeedback.Interleaving.Alone
import DeltaFeedback.Polling.Answers
import DeltaFeedback.Pow.Challenge.Theorems
import DeltaFeedback.Server.Confidentiality

namespace DeltaFeedback

open Text Interleaving Db

namespace Feedback.Service

variable {service : Feedback.Service} {input : ReplyInput} {env : Env} {trail : Trail}
  {outcome : Except SqlError ReplyError}

theorem replyPowError_ne (result : Pow.VerifyResult) : replyPowError result ≠ some .BadToken := by
  cases result <;> decide

-- A reply is told of a bad token right after the ticket is read.
theorem ReplyEnd.badToken (h : service.ReplyEnd input env trail outcome)
    (houtcome : outcome = .ok .BadToken) :
    ∃ t, trail = replyRead input (some t) ∧
      (service.crypto.sha256 input.readToken).val ≠ t.readTokenHash := by
  cases h with
  | BadToken t h => exact ⟨t, rfl, h⟩
  | Pow t error _ hpow =>
      obtain rfl := Except.ok.inj houtcome
      exact absurd hpow (replyPowError_ne _)
  | _ => cases houtcome

theorem eval_badToken_iff (service : Feedback.Service) (input : ReplyInput) (env : Env)
    {world : World} {t : TicketRow} (ht : world.db.ticket? input.ticketId = some t) :
    ((service.submitReply input env).eval exec world).1 = .ok .BadToken ↔
      (service.crypto.sha256 input.readToken).val ≠ t.readTokenHash := by
  have hread : exec (.TicketGetById input.ticketId) world = .ok (some t.toTicket, world) := by
    simp only [exec, ht, Option.map_some]
  constructor
  · intro houtcome
    have hstart : Leads exec world [] world := .refl
    obtain ⟨_, halone⟩ := Prog.run_follows (service.follows_submitReply input env) .Start hstart
    rw [← Prog.run_eq_eval _ []] at houtcome
    obtain ⟨found, htrail, hne⟩ := halone.done.badToken houtcome
    have hleads := halone.leads
    rw [htrail] at hleads
    obtain ⟨before, hbefore, hexec⟩ := hleads.of_cons
    rw [hbefore.of_nil, hread] at hexec
    obtain ⟨hfound, -⟩ := Prod.mk.inj (Except.ok.inj hexec)
    rw [← Option.some.inj hfound] at hne
    exact hne
  · intro hne
    have hrefused := mt (service.readToken_check input.readToken t.readTokenHash).mp hne
    have heval : (service.submitReply input env).eval exec world = (.ok .BadToken, world) := by
      refine Prog.eval_call hread ?_
      change Prog.eval _ (ite _ _ _) _ = _
      by_cases hlength : (service.crypto.sha256 input.readToken).val.length = t.readTokenHash.length
      · rw [if_neg (not_not.mpr hlength), if_pos fun hdiff => hrefused ⟨hlength, hdiff⟩]
        rfl
      · rw [if_pos hlength]
        rfl
    rw [heval]

end Feedback.Service

namespace Server

variable (service : Feedback.Service)

theorem eval_getTicket_badToken_iff (req : Request) {id : Bytes} {world : World} {t : TicketRow}
    (ht : world.db.ticket? id = some t) :
    ((getTicket service req id).eval exec world).1 = .ok (.ok (.error 403 "bad_token")) ↔
      bearer req ≠ [] ∧ (service.crypto.sha256 (bearer req)).val ≠ t.readTokenHash := by
  have hcode {r : Response} (h : (Except.ok (.ok r) : Except SqlError (Except Bytes Response)) =
      .ok (.ok (.error 403 "bad_token"))) : r.code = 403 :=
    congrArg Response.code (Except.ok.inj (Except.ok.inj h))
  rw [eval_getTicket, ht]
  dsimp only
  by_cases hbearer : (bearer req).isEmpty
  · rw [if_pos hbearer]
    refine ⟨fun h => ?_, fun h => absurd (List.isEmpty_iff.mp hbearer) h.1⟩
    exact absurd (hcode h) (by decide : (401 : Nat) ≠ 403)
  rw [if_neg hbearer]
  by_cases hsame : (service.crypto.sha256 (bearer req)).val = t.readTokenHash
  · rw [if_neg (mt (xorDiff_lengths_iff _ _).mp (not_not.mpr hsame))]
    refine ⟨fun h => ?_, fun h => absurd hsame h.2⟩
    have h403 := hcode h
    split_ifs at h403
    · exact absurd h403 (by decide : (304 : Nat) ≠ 403)
    · exact absurd h403 (by decide : (200 : Nat) ≠ 403)
  · rw [if_pos ((xorDiff_lengths_iff _ _).mpr hsame)]
    exact ⟨fun _ => ⟨by simpa using hbearer, hsame⟩, fun _ => rfl⟩

-- The two checks of a read token against the hash of a ticket. Both handlers
-- have turned a request without a token away before.
structure Compares (world : World) (id hash : Bytes) : Prop where
  reply : ∀ input env, input.ticketId = id →
    (((service.submitReply input env).eval exec world).1 ≠ .ok .BadToken ↔
      (service.crypto.sha256 input.readToken).val = hash)
  read : ∀ req, bearer req ≠ [] →
    (((getTicket service req id).eval exec world).1 ≠ .ok (.ok (.error 403 "bad_token")) ↔
      (service.crypto.sha256 (bearer req)).val = hash)
  alike : ∀ req input env, bearer req ≠ [] → input.ticketId = id → input.readToken = bearer req →
    (((service.submitReply input env).eval exec world).1 ≠ .ok .BadToken ↔
      ((getTicket service req id).eval exec world).1 ≠ .ok (.ok (.error 403 "bad_token")))

-- Every comparison of a secret is equality, and so a token lets a visitor reply
-- if and only if it lets them read.
theorem comparisons_agree (a b : Bytes) {world : World} {id : Bytes} {t : TicketRow}
    (ht : world.db.ticket? id = some t) :
    (Pow.ctEq a b = true ↔ a = b) ∧ Compares service world id t.readTokenHash := by
  have hreply (input : Feedback.ReplyInput) (env : Feedback.Env) (hid : input.ticketId = id) :
      ((service.submitReply input env).eval exec world).1 ≠ .ok .BadToken ↔
        (service.crypto.sha256 input.readToken).val = t.readTokenHash := by
    rw [ne_eq, Feedback.Service.eval_badToken_iff service input env (hid ▸ ht), not_not]
  have hread (req : Request) (hbearer : bearer req ≠ []) :
      ((getTicket service req id).eval exec world).1 ≠ .ok (.ok (.error 403 "bad_token")) ↔
        (service.crypto.sha256 (bearer req)).val = t.readTokenHash := by
    rw [ne_eq, eval_getTicket_badToken_iff service req ht, and_iff_right hbearer, not_not]
  refine ⟨Pow.ctEq_iff a b, hreply, hread, fun req input env hbearer hid htoken => ?_⟩
  rw [hreply input env hid, hread req hbearer, htoken]

theorem comparisons_agree_open : ∃ t, openWorld.db.ticket? (utf8 "A3F2K9") = some t ∧
    (Pow.ctEq (utf8 "guessed") (utf8 "read-token") = true ↔ utf8 "guessed" = utf8 "read-token") ∧
    Compares Feedback.sampleService openWorld (utf8 "A3F2K9") t.readTokenHash := by
  obtain ⟨t, ht⟩ : ∃ t, openWorld.db.ticket? (utf8 "A3F2K9") = some t :=
    Option.isSome_iff_exists.mp (by decide +kernel)
  exact ⟨t, ht, comparisons_agree Feedback.sampleService (utf8 "guessed") (utf8 "read-token") ht⟩

end Server

end DeltaFeedback
