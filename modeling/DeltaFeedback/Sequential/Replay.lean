import DeltaFeedback.Calls.Claims

namespace DeltaFeedback.Sequential

open Text Interleaving Db
open Feedback (sampleService)

-- A run with one step at a time: the clock, what the steps share, and what has
-- been issued and accepted so far.
structure Site where
  clock : Int
  world : World
  issued : List Pow.Challenge
  accepted : List Bytes

inductive Act
  | Issue (challengeId : Bytes)
  | Call (call : Call)

variable (service : Feedback.Service)

def Act.apply (now : Int) (site : Site) : Act → Site
  | .Issue challengeId => { site with
      clock := now
      issued := site.issued ++ [service.issuer.issue service.crypto now challengeId] }
  | .Call call => { site with
      clock := now
      world := (call.run service site.world).2.2
      accepted := site.accepted ++ Call.accepted (call.run service site.world).2.1 }

-- Random ids do not repeat, the clocks of a step agree, and nobody signs
-- challenges but the issuer.
def Act.Admitted (now : Int) (site : Site) : Act → Prop
  | .Issue challengeId => ∀ c ∈ site.issued, c.id ≠ challengeId
  | .Call call =>
      (∀ expired, call = .PurgeExpired expired → expired = now) ∧
      ∀ token nonce env, call.presents = some (token, nonce, env) →
        env.verifyClock = now ∧ env.consumeClock = now ∧
        (service.issuer.signatureChecks service.crypto token = true →
          ∃ c ∈ site.issued, Pow.ChallengeIssuer.payloadText token =
            Pow.ChallengeIssuer.payloadText c.token)

inductive Reached : Site → Prop
  | Start (clock : Int) (world : World) (hreplay : world.db.replay = []) :
      Reached ⟨clock, world, [], []⟩
  | Step (site : Site) (now : Int) (act : Act) (h : Reached site) (hclock : site.clock ≤ now)
      (hact : act.Admitted service now site) : Reached (act.apply service now site)

-- An accepted challenge is either in pow_replay until it expires, or has expired.
structure ReplaySafe (site : Site) : Prop where
  once : site.accepted.Nodup
  known : ∀ id ∈ site.accepted, ∃ c ∈ site.issued, c.id = id
  made : ∀ c ∈ site.issued, ∃ issuedAt id, c = service.issuer.issue service.crypto issuedAt id ∧
    issuedAt ≤ site.clock
  guarded : ∀ id ∈ site.accepted,
    (∃ row ∈ site.world.db.replay, row.challengeId = id ∧
      ∀ c ∈ site.issued, c.id = id → c.expiresUnix ≤ row.expiresAt) ∨
    ∀ c ∈ site.issued, c.id = id → c.expiresUnix < site.clock

variable {service} {site : Site} {now : Int}

theorem ReplaySafe.issue {challengeId : Bytes} (h : ReplaySafe service site)
    (hclock : site.clock ≤ now) (hfresh : ∀ c ∈ site.issued, c.id ≠ challengeId) :
    ReplaySafe service (Act.apply service now site (.Issue challengeId)) where
  once := h.once
  known id hid := by
    obtain ⟨c, hc, hcid⟩ := h.known id hid
    exact ⟨c, List.mem_append_left _ hc, hcid⟩
  made c hc := by
    rcases List.mem_append.mp hc with hold | hnew
    · obtain ⟨issuedAt, id, hmade, hle⟩ := h.made c hold
      exact ⟨issuedAt, id, hmade, hle.trans hclock⟩
    · exact ⟨now, challengeId, List.mem_singleton.mp hnew, le_rfl⟩
  guarded id hid := by
    obtain ⟨known, hknown, hknownId⟩ := h.known id hid
    -- the new challenge has an id that nobody was given before
    have hother : ∀ c, c ∈ site.issued ++ [service.issuer.issue service.crypto now challengeId] →
        c.id = id → c ∈ site.issued := by
      intro c hc hcid
      rcases List.mem_append.mp hc with hold | hnew
      · exact hold
      · have hnewId : c.id = challengeId := by rw [List.mem_singleton.mp hnew]; rfl
        exact absurd (hknownId.trans (hcid.symm.trans hnewId)) (hfresh known hknown)
    rcases h.guarded id hid with ⟨row, hrow, hrowId, hexpires⟩ | hexpired
    · exact .inl ⟨row, hrow, hrowId, fun c hc hcid => hexpires c (hother c hc hcid) hcid⟩
    · exact .inr fun c hc hcid => (hexpired c (hother c hc hcid) hcid).trans_le hclock

-- The purge only takes records of challenges that have expired.
theorem ReplaySafe.purge {world : World} (h : ReplaySafe service site) (hclock : site.clock ≤ now)
    (hreplay : world.db.replay = site.world.db.replay.filter fun r => !(r.expiresAt < now)) :
    ReplaySafe service { site with clock := now, world } where
  once := h.once
  known := h.known
  made c hc := by
    obtain ⟨issuedAt, id, hmade, hle⟩ := h.made c hc
    exact ⟨issuedAt, id, hmade, hle.trans hclock⟩
  guarded id hid := by
    rcases h.guarded id hid with ⟨row, hrow, hrowId, hexpires⟩ | hexpired
    · by_cases hpurged : row.expiresAt < now
      · exact .inr fun c hc hcid => (hexpires c hc hcid).trans_lt hpurged
      · refine .inl ⟨row, ?_, hrowId, hexpires⟩
        rw [hreplay]
        exact List.mem_filter.mpr ⟨hrow, by simpa using hpurged⟩
    · exact .inr fun c hc hcid => (hexpired c hc hcid).trans_le hclock

theorem ReplaySafe.idle {world : World} (h : ReplaySafe service site) (hclock : site.clock ≤ now)
    (hreplay : world.db.replay = site.world.db.replay) :
    ReplaySafe service { site with clock := now, world } where
  once := h.once
  known := h.known
  made c hc := by
    obtain ⟨issuedAt, id, hmade, hle⟩ := h.made c hc
    exact ⟨issuedAt, id, hmade, hle.trans hclock⟩
  guarded id hid := by
    rw [hreplay]
    rcases h.guarded id hid with hrow | hexpired
    · exact .inl hrow
    · exact .inr fun c hc hcid => (hexpired c hc hcid).trans_le hclock

theorem verify_ok_of_service {token nonce challengeId : Bytes} {env : Feedback.Env}
    (h : service.verify token nonce env = (.Ok, challengeId)) :
    service.issuer.verify service.crypto token nonce env.verifyClock = (.Ok, some challengeId) := by
  obtain ⟨hok, hid⟩ := Prod.mk.inj h
  have hverify : service.issuer.verify service.crypto token nonce env.verifyClock =
    (.Ok, (service.issuer.verify service.crypto token nonce env.verifyClock).2) := by rw [← hok]
  obtain ⟨_, _, _, _, _, _, id, _, _, _, _, _, _, _, hsome⟩ :=
    Pow.ChallengeIssuer.verify_ok service.crypto service.issuer hverify
  rw [hsome] at hid hverify
  rw [hverify, ← hid]
  rfl

-- A challenge is accepted before it expires, and leaves a record that outlives it.
theorem ReplaySafe.accept {world : World} {token nonce challengeId : Bytes} {env : Feedback.Env}
    {rowid : Nat} (httl : service.issuer.ttl ≤ Feedback.kReplayTtl) (h : ReplaySafe service site)
    (hclock : site.clock ≤ now)
    (hverify : service.verify token nonce env = (.Ok, challengeId)) (hnow : env.verifyClock = now)
    (hunforged : service.issuer.signatureChecks service.crypto token = true →
      ∃ c ∈ site.issued, Pow.ChallengeIssuer.payloadText token =
        Pow.ChallengeIssuer.payloadText c.token)
    (hfresh : ¬ site.world.db.consumed challengeId)
    (hreplay : world.db.replay =
      site.world.db.replay ++ [⟨rowid, challengeId, now + Feedback.kReplayTtl⟩]) :
    ReplaySafe service
      { site with clock := now, world, accepted := site.accepted ++ [challengeId] } := by
  have hok := verify_ok_of_service hverify
  obtain ⟨_, _, _, _, _, _, _, _, _, _, _, hsig, _⟩ :=
    Pow.ChallengeIssuer.verify_ok service.crypto service.issuer hok
  obtain ⟨c, hc, hpayload⟩ := hunforged hsig
  obtain ⟨issuedAt, id, rfl, -⟩ := h.made c hc
  obtain ⟨hid, hexpires, -⟩ :=
    Pow.ChallengeIssuer.verify_ok_of_payload service.crypto service.issuer hok hpayload
  obtain rfl : challengeId = id := Option.some.inj hid
  have hmade : ∀ c ∈ site.issued, ∃ issuedAt id,
      c = service.issuer.issue service.crypto issuedAt id ∧ issuedAt ≤ now := by
    intro c hc
    obtain ⟨issuedAt, id, hmade, hle⟩ := h.made c hc
    exact ⟨issuedAt, id, hmade, hle.trans hclock⟩
  have hnew : challengeId ∉ site.accepted := by
    intro hold
    rcases h.guarded challengeId hold with ⟨row, hrow, hrowId, -⟩ | hexpired
    · exact hfresh (List.mem_map.mpr ⟨row, hrow, hrowId⟩)
    · have hlate : issuedAt + service.issuer.ttl < site.clock := hexpired _ hc rfl
      omega
  refine ⟨?_, fun id hid => ?_, hmade, fun id hid => ?_⟩
  · exact List.nodup_append.mpr ⟨h.once, List.nodup_singleton _, fun id hid other hother => by
      rw [List.mem_singleton.mp hother]
      exact fun hsame => hnew (hsame ▸ hid)⟩
  · rcases List.mem_append.mp hid with hold | hlast
    · exact h.known id hold
    · exact ⟨_, hc, (List.mem_singleton.mp hlast).symm⟩
  · rw [hreplay]
    rcases List.mem_append.mp hid with hold | hlast
    · rcases h.guarded id hold with ⟨row, hrow, hrest⟩ | hexpired
      · exact .inl ⟨row, List.mem_append_left _ hrow, hrest⟩
      · exact .inr fun c hc hcid => (hexpired c hc hcid).trans_le hclock
    · refine .inl ⟨_, List.mem_append_right _ List.mem_cons_self,
        (List.mem_singleton.mp hlast).symm, fun c hc _ => ?_⟩
      obtain ⟨issuedAt, id, rfl, hle⟩ := hmade c hc
      change issuedAt + service.issuer.ttl ≤ now + Feedback.kReplayTtl
      omega

theorem ReplaySafe.apply {act : Act} (httl : service.issuer.ttl ≤ Feedback.kReplayTtl)
    (h : ReplaySafe service site) (hclock : site.clock ≤ now) (hact : act.Admitted service now site) :
    ReplaySafe service (act.apply service now site) := by
  cases act with
  | Issue challengeId => exact h.issue hclock hact
  | Call call =>
      obtain ⟨hpurge, hpresented⟩ := hact
      have hclaims := Call.run_claims service call site.world
      simp only [Act.apply]
      generalize call.run service site.world = run at hclaims
      obtain ⟨outcome, trail, world⟩ := run
      cases hclaims with
      | Nothing haccepted hreplay _ =>
          simp only [haccepted, List.append_nil]
          exact h.idle hclock hreplay
      | Given token nonce challengeId env rowid hpresents hverify hfresh haccepted hreplay =>
          obtain ⟨hverifyClock, hconsumeClock, hunforged⟩ := hpresented token nonce env hpresents
          simp only [haccepted]
          rw [hconsumeClock] at hreplay
          exact h.accept httl hclock hverify hverifyClock hunforged hfresh hreplay
      | Purged expired hcall haccepted hreplay =>
          obtain rfl := hpurge expired hcall
          simp only [haccepted, List.append_nil]
          exact h.purge hclock hreplay

theorem Reached.replaySafe (httl : service.issuer.ttl ≤ Feedback.kReplayTtl)
    (h : Reached service site) : ReplaySafe service site := by
  induction h with
  | Start clock world hreplay => exact ⟨by simp, by simp, by simp, by simp⟩
  | Step site now act _ hclock hact ih => exact ih.apply httl hclock hact

-- A submission with a good proof of work takes a challenge that is free.
theorem accepted_submission (site : Site) (now : Int) {input : Feedback.SubmitInput}
    {env : Feedback.Env} {challengeId : Bytes}
    (hverify : service.submitVerdict input env = (.Ok, challengeId))
    (hfresh : ¬ site.world.db.consumed challengeId) :
    (Act.apply service now site (.Call (.SubmitNew input env))).accepted =
        site.accepted ++ [challengeId] ∧
      ∃ rowid, (Act.apply service now site (.Call (.SubmitNew input env))).world.db.replay =
        site.world.db.replay ++ [⟨rowid, challengeId, env.consumeClock + Feedback.kReplayTtl⟩] := by
  have hclaims := Call.run_claims service (.SubmitNew input env) site.world
  simp only [Act.apply]
  cases hclaims with
  | Nothing _ _ htaken =>
      have hconsumed := htaken input env rfl (by rw [hverify])
      rw [hverify] at hconsumed
      exact absurd hconsumed hfresh
  | Given token nonce given env' rowid hpresents hok _ haccepted hreplay =>
      obtain ⟨rfl, rfl, rfl⟩ : input.powToken = token ∧ input.powNonce = nonce ∧ env = env' := by
        simpa [Call.presents] using hpresents
      obtain rfl : given = challengeId := (Prod.mk.inj (hok.symm.trans hverify)).2
      exact ⟨by rw [haccepted], rowid, hreplay⟩
  | Purged expired hcall => simp at hcall

variable (service) in
theorem apply_purge (site : Site) (now : Int) :
    (Act.apply service now site (.Call (.PurgeExpired now))).accepted = site.accepted ∧
      (Act.apply service now site (.Call (.PurgeExpired now))).world.db.replay =
        site.world.db.replay.filter fun r => !(r.expiresAt < now) := by
  refine ⟨?_, rfl⟩
  have hnone : Call.accepted (Call.run service (.PurgeExpired now) site.world).2.1 = [] :=
    ite_self []
  simp only [Act.apply, hnone, List.append_nil]

variable (service) in
-- A challenge that is still good when its record is purged is accepted again.
theorem exists_accepted_twice (httl : Feedback.kReplayTtl < service.issuer.ttl) (clock : Int)
    (challengeId nonce : Bytes) (hexpires : 0 ≤ clock + service.issuer.ttl)
    (hrange : clock + service.issuer.ttl < 2 ^ 63)
    (hwork : service.issuer.difficultyBits.toNat ≤ Pow.leadingZeroBits (service.crypto.sha256
      ((service.issuer.issue service.crypto clock challengeId).token ++ [58] ++ nonce)).val) :
    ∃ site, Reached service site ∧ ¬ site.accepted.Nodup := by
  let challenge := service.issuer.issue service.crypto clock challengeId
  let input : Feedback.SubmitInput := ⟨challenge.token, nonce, [], [], [], [], 0, []⟩
  let env (now : Int) : Feedback.Env := ⟨now, now, now, fun _ => 0, ⟨0, false, false, 0⟩⟩
  have hverify (now : Int) (hnow : now ≤ clock + service.issuer.ttl) :
      service.submitVerdict input (env now) = (.Ok, challengeId) := by
    have hverify := Pow.ChallengeIssuer.verify_issue service.crypto service.issuer clock now
      challengeId nonce hexpires
    rw [Pow.i64_of_lt _ hexpires hrange, if_neg (not_lt.mpr hnow),
      if_neg (not_lt.mpr hwork)] at hverify
    exact congrArg (fun pv : Pow.VerifyResult × Option Bytes => (pv.1, pv.2.getD [])) hverify
  have hreplayTtl : Feedback.kReplayTtl = 3600 := rfl
  -- the record is a second too old at `late`, the challenge is not
  let late := clock + Feedback.kReplayTtl + 1
  have hlate : late ≤ clock + service.issuer.ttl := by omega
  have hadmits (now : Int) (site : Site) (hissued : site.issued = [challenge]) :
      Act.Admitted service now site (.Call (.SubmitNew input (env now))) := by
    refine ⟨by simp, fun token nonce env' hpresents => ?_⟩
    obtain ⟨rfl, rfl, rfl⟩ : input.powToken = token ∧ input.powNonce = nonce ∧ env now = env' := by
      simpa [Call.presents] using hpresents
    exact ⟨rfl, rfl, fun _ => ⟨challenge, by simp [hissued], rfl⟩⟩
  let issued := Act.apply service clock ⟨clock, World.empty, [], []⟩ (.Issue challengeId)
  let first := Act.apply service clock issued (.Call (.SubmitNew input (env clock)))
  let purged := Act.apply service late first (.Call (.PurgeExpired late))
  have hissued : Reached service issued :=
    .Step _ clock _ (.Start clock World.empty rfl) le_rfl (by simp [Act.Admitted])
  have hfirst : Reached service first := .Step _ clock _ hissued le_rfl (hadmits clock issued rfl)
  have hpurged : Reached service purged :=
    .Step _ late _ hfirst (by change clock ≤ late; omega) ⟨by simp, by simp [Call.presents]⟩
  have hsecond := hpurged.Step _ late (.Call (.SubmitNew input (env late))) le_rfl
    (hadmits late purged rfl)
  obtain ⟨hfirstAccepted, rowid, hfirstReplay⟩ := accepted_submission issued clock
    (hverify clock (by omega))
    (by simp [issued, Act.apply, Tables.consumed, World.empty, Database.empty])
  obtain ⟨hpurgedAccepted, hpurgedReplay⟩ := apply_purge service first late
  have hgone : purged.world.db.replay = [] := by
    rw [hpurgedReplay, hfirstReplay]
    have hold : clock + Feedback.kReplayTtl < late := by omega
    simp [issued, Act.apply, World.empty, Database.empty, env, hold]
  obtain ⟨hsecondAccepted, -⟩ := accepted_submission purged late (hverify late hlate)
    (by simp [Tables.consumed, hgone])
  refine ⟨_, hsecond, ?_⟩
  rw [hsecondAccepted, hpurgedAccepted, hfirstAccepted]
  simp [issued, Act.apply]

-- No challenge is ever accepted twice exactly when none outlives the hour its
-- record is kept. `hsolvable`: some challenge can be solved at all.
theorem accepted_once_iff (service : Feedback.Service)
    (hsolvable : ∃ clock challengeId nonce, 0 ≤ clock + service.issuer.ttl ∧
      clock + service.issuer.ttl < 2 ^ 63 ∧
      service.issuer.difficultyBits.toNat ≤ Pow.leadingZeroBits (service.crypto.sha256
        ((service.issuer.issue service.crypto clock challengeId).token ++ [58] ++ nonce)).val) :
    (∀ site, Reached service site → site.accepted.Nodup) ↔ service.issuer.ttl ≤ 3600 := by
  constructor
  · intro honce
    by_contra httl
    obtain ⟨clock, challengeId, nonce, hexpires, hrange, hwork⟩ := hsolvable
    obtain ⟨site, hsite, htwice⟩ :=
      exists_accepted_twice service (not_le.mp httl) clock challengeId nonce hexpires hrange hwork
    exact htwice (honce site hsite)
  · exact fun httl site hsite => (hsite.replaySafe httl).once

def hourService : Feedback.Service :=
  { sampleService with issuer := { sampleService.issuer with ttl := 3600 } }

theorem accepted_once_iff_hour :
    (∀ site, Reached hourService site → site.accepted.Nodup) ↔ hourService.issuer.ttl ≤ 3600 :=
  accepted_once_iff hourService ⟨0, [], [], by decide, by decide, Nat.zero_le _⟩

def longService : Feedback.Service :=
  { sampleService with issuer := { sampleService.issuer with ttl := 3601 } }

-- One second more is one too many.
theorem accepted_twice : ¬ ∀ site, Reached longService site → site.accepted.Nodup := by
  intro hclaim
  obtain ⟨site, hsite, htwice⟩ := exists_accepted_twice longService (by decide) 1700000000 [] []
    (by decide) (by decide) (Nat.zero_le _)
  exact htwice (hclaim site hsite)

end DeltaFeedback.Sequential
