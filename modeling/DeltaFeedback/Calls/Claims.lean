import DeltaFeedback.Calls.Notices
import DeltaFeedback.Pow.Challenge.Theorems

namespace DeltaFeedback.Call

open Text Interleaving Db

-- The proof of work a call presents, and what it reads meanwhile.
def presents : Call → Option (Bytes × Bytes × Feedback.Env)
  | .SubmitNew input env => some (input.powToken, input.powNonce, env)
  | .SubmitReply input env => some (input.powToken, input.powNonce, env)
  | _ => none

def countsOne : Taken Op Op.Result → Bool
  | ⟨.Changes, n⟩ => n == (1 : Nat)
  | _ => false

def claim? : Taken Op Op.Result → Option Bytes
  | ⟨.ReplayInsert challengeId _, _⟩ => some challengeId
  | _ => none

-- The challenges try_consume has given to the call with this trail.
def accepted (trail : Trail) : List Bytes :=
  if trail.any countsOne then trail.filterMap claim? else []

variable {first last : World} {upper lower trail : Trail} {challengeId : Bytes} {expiresAt : Int}

theorem claim?_of_not_onReplay {taken : Taken Op Op.Result} (h : taken.1.onReplay = false) :
    claim? taken = none := by
  obtain ⟨op, result⟩ := taken
  cases op with
  | ReplayInsert => simp [Op.onReplay] at h
  | _ => rfl

theorem filterMap_claim? (h : ∀ taken ∈ trail, taken.1.onReplay = false) :
    trail.filterMap claim? = [] := by
  rw [List.filterMap_eq_nil_iff]
  exact fun taken htaken => claim?_of_not_onReplay (h taken htaken)

theorem replay_of_leads (h : Leads exec first trail last)
    (htrail : ∀ taken ∈ trail, taken.1.onReplay = false) : last.db.replay = first.db.replay :=
  h.invariant (fun world => world.db.replay = first.db.replay) rfl
    fun taken htaken _ _ hbefore hexec => (replay_of_exec (htrail taken htaken) hexec).trans hbefore

-- An INSERT OR IGNORE and the count of its changes, with nobody in between.
theorem claim_of_leads {n : Nat} (h : Leads exec first
      (upper ++ ⟨.Changes, n⟩ :: ⟨.ReplayInsert challengeId expiresAt, ()⟩ :: lower) last)
    (hupper : ∀ taken ∈ upper, taken.1.onReplay = false)
    (hlower : ∀ taken ∈ lower, taken.1.onReplay = false) :
    (first.db.consumed challengeId ∧ n = 0 ∧ last.db.replay = first.db.replay) ∨
      ¬ first.db.consumed challengeId ∧ n = 1 ∧ ∃ rowid,
        last.db.replay = first.db.replay ++ [⟨rowid, challengeId, expiresAt⟩] := by
  obtain ⟨counted, h, hcounted⟩ := h.of_append
  obtain ⟨inserted, h, hcount⟩ := h.of_cons
  obtain ⟨before, hbefore, hinsert⟩ := h.of_cons
  have hreplay := replay_of_leads hbefore hlower
  have hsame : last.db.replay = inserted.db.replay := by
    rw [replay_of_leads hcounted hupper, replay_of_exec rfl hcount]
  have hconsumed : before.db.consumed challengeId ↔ first.db.consumed challengeId := by
    simp only [Tables.consumed, hreplay]
  simp only [exec, Except.ok.injEq, Prod.mk.injEq] at hcount
  obtain ⟨rfl, rfl⟩ := hcount
  have hchanges := (exec_replayInsert hinsert).1
  have htables := tables_of_exec hinsert
  simp only [Op.write] at htables
  by_cases hid : before.db.consumed challengeId
  · refine .inl ⟨hconsumed.mp hid, by rw [hchanges, if_pos hid], ?_⟩
    rw [hsame, htables, if_pos hid, hreplay]
  · refine .inr ⟨fun hfirst => hid (hconsumed.mpr hfirst), by rw [hchanges, if_neg hid], ?_⟩
    rw [hsame, htables, if_neg hid, ← hreplay]
    exact ⟨_, rfl⟩

-- What a call does to pow_replay and what it is given. A submission with a good
-- proof of work is only turned away when its challenge is taken.
inductive Claims (service : Feedback.Service) (call : Call) (first last : World) (trail : Trail) : Prop
  | Nothing (haccepted : accepted trail = []) (hreplay : last.db.replay = first.db.replay)
      (htaken : ∀ input env, call = .SubmitNew input env →
        (service.submitVerdict input env).1 = .Ok →
        first.db.consumed (service.submitVerdict input env).2)
  | Given (token nonce challengeId : Bytes) (env : Feedback.Env) (rowid : Nat)
      (hpresents : call.presents = some (token, nonce, env))
      (hverify : service.verify token nonce env = (.Ok, challengeId))
      (hfresh : ¬ first.db.consumed challengeId) (haccepted : accepted trail = [challengeId])
      (hreplay : last.db.replay = first.db.replay ++
        [⟨rowid, challengeId, env.consumeClock + Feedback.kReplayTtl⟩])
  | Purged (now : Int) (hcall : call = .PurgeExpired now) (haccepted : accepted trail = [])
      (hreplay : last.db.replay = first.db.replay.filter fun r => !(r.expiresAt < now))

variable {service : Feedback.Service} {call : Call}

theorem claims_of_idle (h : Leads exec first trail last)
    (htrail : ∀ taken ∈ trail, taken.1.onReplay = false)
    (hcall : ∀ input env, call = .SubmitNew input env →
      (service.submitVerdict input env).1 ≠ .Ok) : Claims service call first last trail := by
  refine .Nothing ?_ (replay_of_leads h htrail)
    fun input env hinput hok => absurd hok (hcall input env hinput)
  rw [accepted, filterMap_claim? htrail, ite_self]

theorem claims_of_attempt (upper lower : Trail) {token nonce : Bytes} {env : Feedback.Env} {n : Nat}
    (hpresents : call.presents = some (token, nonce, env))
    (hok : (service.verify token nonce env).1 = .Ok)
    (h : Leads exec first (upper ++ ⟨.Changes, n⟩ :: ⟨.ReplayInsert (service.verify token nonce env).2
      (env.consumeClock + Feedback.kReplayTtl), ()⟩ :: lower) last)
    (hupper : ∀ taken ∈ upper, taken.1.onReplay = false ∧ countsOne taken = false)
    (hlower : ∀ taken ∈ lower, taken.1.onReplay = false ∧ countsOne taken = false) :
    Claims service call first last (upper ++ ⟨.Changes, n⟩ :: ⟨.ReplayInsert
      (service.verify token nonce env).2 (env.consumeClock + Feedback.kReplayTtl), ()⟩ :: lower) := by
  have hverify : service.verify token nonce env = (.Ok, (service.verify token nonce env).2) := by
    rw [← hok]
  have hclaims : (upper ++ ⟨.Changes, n⟩ :: ⟨.ReplayInsert (service.verify token nonce env).2
      (env.consumeClock + Feedback.kReplayTtl), ()⟩ :: lower).filterMap claim? =
      [(service.verify token nonce env).2] := by
    rw [List.filterMap_append, filterMap_claim? fun taken h => (hupper taken h).1]
    exact congrArg (List.cons _) (filterMap_claim? fun taken h => (hlower taken h).1)
  have hcounts : (upper ++ ⟨.Changes, n⟩ :: ⟨.ReplayInsert (service.verify token nonce env).2
      (env.consumeClock + Feedback.kReplayTtl), ()⟩ :: lower).any countsOne = (n == 1) := by
    have hnone (trail : Trail) (h : ∀ taken ∈ trail, taken.1.onReplay = false ∧
        countsOne taken = false) : trail.any countsOne = false :=
      List.any_eq_false.mpr fun taken htaken => by simp [(h taken htaken).2]
    simp [List.any_append, hnone upper hupper, hnone lower hlower, countsOne]
  rcases claim_of_leads h (fun taken htaken => (hupper taken htaken).1)
    (fun taken htaken => (hlower taken htaken).1) with
    ⟨hconsumed, rfl, hreplay⟩ | ⟨hfresh, rfl, rowid, hreplay⟩
  · refine .Nothing (by simp [accepted, hcounts]) hreplay fun input env' hinput _ => ?_
    subst hinput
    obtain ⟨rfl, rfl, rfl⟩ : input.powToken = token ∧ input.powNonce = nonce ∧ env' = env := by
      simpa [presents] using hpresents
    exact hconsumed
  · exact .Given token nonce _ env rowid hpresents hverify hfresh
      (by rw [accepted, hcounts, hclaims]; rfl) hreplay

theorem submitPowError_eq_none {result : Pow.VerifyResult}
    (h : Feedback.submitPowError result = none) : result = .Ok := by
  cases result <;> simp [Feedback.submitPowError] at h ⊢

theorem replyPowError_eq_none {result : Pow.VerifyResult}
    (h : Feedback.replyPowError result = none) : result = .Ok := by
  cases result <;> simp [Feedback.replyPowError] at h ⊢

theorem claims_of_submitEnd {input : Feedback.SubmitInput} {env : Feedback.Env}
    {outcome : Except SqlError Feedback.SubmitResult} (h : service.SubmitEnd input env trail outcome)
    (hleads : Leads exec first trail last) :
    Claims service (.SubmitNew input env) first last trail := by
  cases h with
  | Pow error herror =>
      refine claims_of_idle hleads (by simp) fun input' env' hinput hok => ?_
      obtain ⟨rfl, rfl⟩ := Call.SubmitNew.inj hinput
      simp [hok, Feedback.submitPowError] at herror
  | Replayed n hmay _ =>
      exact claims_of_attempt [] [] rfl (submitPowError_eq_none hmay) hleads (by simp) (by simp)
  | BadReport hmay _ =>
      exact claims_of_attempt [] [] rfl (submitPowError_eq_none hmay) hleads (by simp) (by simp)
  | NoOwner hmay =>
      exact claims_of_attempt [_] [] rfl (submitPowError_eq_none hmay) hleads
        (by simp [Op.onReplay, countsOne]) (by simp)
  | Taken owner exn hmay =>
      exact claims_of_attempt [_] [] rfl (submitPowError_eq_none hmay) hleads
        (by simp [Op.onReplay, countsOne]) (by simp)
  | Gone owner exn hmay =>
      exact claims_of_attempt [_, _] [] rfl (submitPowError_eq_none hmay) hleads
        (by simp [Op.onReplay, countsOne]) (by simp)
  | Unsent owner rowId contact hmay =>
      exact claims_of_attempt [_, _, _, _, _] [] rfl (submitPowError_eq_none hmay) hleads
        (by simp [Op.onReplay, countsOne]) (by simp)
  | Refused owner rowId contact quote hmay _ =>
      exact claims_of_attempt [_, _, _, _, _, _] [] rfl (submitPowError_eq_none hmay) hleads
        (by simp [Op.onReplay, countsOne]) (by simp)
  | Ok owner rowId contact quote hmay _ =>
      exact claims_of_attempt [_, _, _, _, _, _, _] [] rfl (submitPowError_eq_none hmay) hleads
        (by simp [Op.onReplay, countsOne]) (by simp)

theorem claims_of_replyEnd {input : Feedback.ReplyInput} {env : Feedback.Env}
    {outcome : Except SqlError Feedback.ReplyError} (h : service.ReplyEnd input env trail outcome)
    (hleads : Leads exec first trail last) :
    Claims service (.SubmitReply input env) first last trail := by
  cases h with
  | NotFound => exact claims_of_idle hleads (by simp [Op.onReplay]) (by simp)
  | BadToken t _ => exact claims_of_idle hleads (by simp [Op.onReplay]) (by simp)
  | Closed t _ => exact claims_of_idle hleads (by simp [Op.onReplay]) (by simp)
  | NotAwaitingVisitor t _ => exact claims_of_idle hleads (by simp [Op.onReplay]) (by simp)
  | Pow t error _ _ => exact claims_of_idle hleads (by simp [Op.onReplay]) (by simp)
  | Replayed t n hmay _ =>
      exact claims_of_attempt [] [_] rfl (replyPowError_eq_none hmay.pow) hleads (by simp)
        (by simp [Op.onReplay, countsOne])
  | BadField t hmay _ =>
      exact claims_of_attempt [] [_] rfl (replyPowError_eq_none hmay.pow) hleads (by simp)
        (by simp [Op.onReplay, countsOne])
  | Gone t quoteId exn hmay =>
      exact claims_of_attempt [_] [_] rfl (replyPowError_eq_none hmay.pow) hleads
        (by simp [Op.onReplay, countsOne]) (by simp [Op.onReplay, countsOne])
  | Unsent t quoteId rowId owner hmay =>
      exact claims_of_attempt [_, _, _, _, _] [_] rfl (replyPowError_eq_none hmay.pow) hleads
        (by simp [Op.onReplay, countsOne]) (by simp [Op.onReplay, countsOne])
  | Refused t quoteId rowId owner quote hmay _ =>
      exact claims_of_attempt [_, _, _, _, _, _] [_] rfl (replyPowError_eq_none hmay.pow) hleads
        (by simp [Op.onReplay, countsOne]) (by simp [Op.onReplay, countsOne])
  | Ok t quoteId rowId owner quote hmay _ =>
      exact claims_of_attempt [_, _, _, _, _, _, _] [_] rfl (replyPowError_eq_none hmay.pow) hleads
        (by simp [Op.onReplay, countsOne]) (by simp [Op.onReplay, countsOne])

theorem onReplay_of_byBot {op : Op} (h : Dc.ByBot op) : op.onReplay = false := by
  cases op <;> first | rfl | exact h.elim

-- Only the table counts.
theorem Claims.of_db {reached : World} (h : Claims service call first reached trail)
    (hdb : last.db = reached.db) : Claims service call first last trail := by
  cases h with
  | Nothing haccepted hreplay htaken => exact .Nothing haccepted (by rw [hdb, hreplay]) htaken
  | Given token nonce challengeId env rowid hpresents hverify hfresh haccepted hreplay =>
      exact .Given token nonce challengeId env rowid hpresents hverify hfresh haccepted
        (by rw [hdb, hreplay])
  | Purged now hcall haccepted hreplay => exact .Purged now hcall haccepted (by rw [hdb, hreplay])

variable (service) in
theorem run_claims (call : Call) (world : World) :
    Claims service call world (call.run service world).2.2 (call.run service world).2.1 := by
  obtain ⟨reached, ⟨-, -, hleads, hlegal, hends⟩, hdb, -⟩ := call.run_alone service world
  refine Claims.of_db ?_ hdb
  clear hdb
  generalize (call.run service world).1 = outcome at hends
  generalize (call.run service world).2.1 = trail at hleads hlegal hends ⊢
  cases hends with
  | SubmitNew input env _ outcome hend => exact claims_of_submitEnd hend hleads
  | SubmitReply input env _ outcome hend => exact claims_of_replyEnd hend hleads
  | IncomingMsg dc now msg _ outcome hend =>
      exact claims_of_idle hleads (fun taken htaken =>
        onReplay_of_byBot (Dc.byBot_incomingTrail dc now msg hlegal taken htaken)) (by simp)
  | RouteAdminMsg dc now owner msg _ outcome hend =>
      exact claims_of_idle hleads (fun taken htaken =>
        onReplay_of_byBot (Dc.byBot_routeTrail dc now owner msg hlegal (by simp) taken htaken)) (by simp)
  | PurgeInactive cutoff rows => exact claims_of_idle hleads (by simp [Op.onReplay]) (by simp)
  | PurgeExpired now rows =>
      obtain ⟨between, hdelete, hcount⟩ := hleads.of_cons
      obtain ⟨before, hbefore, hpurge⟩ := hdelete.of_cons
      obtain rfl := hbefore.of_nil
      refine .Purged now rfl ?_ ?_
      · rw [accepted]
        exact ite_self []
      · rw [replay_of_exec rfl hcount, tables_of_exec hpurge]
        rfl

end DeltaFeedback.Call
