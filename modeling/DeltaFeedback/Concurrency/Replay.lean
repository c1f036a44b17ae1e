import DeltaFeedback.Db.Repos
import DeltaFeedback.World.Theorems

namespace DeltaFeedback.Concurrency

open Text Interleaving Db

variable {ι : Type}

-- A thread that claims a challenge, or any other thread that leaves pow_replay alone.
inductive Worker
  | TryConsume (challengeId : Bytes) (expiresAt : Int)
  | Other (prog : Proc Bool) (h : prog.Only fun op => op.onReplay = false)

namespace Worker

def prog : Worker → Proc Bool
  | .TryConsume challengeId expiresAt => ReplayStore.tryConsume challengeId expiresAt
  | .Other prog _ => prog

def challenge? : Worker → Option Bytes
  | .TryConsume challengeId _ => some challengeId
  | .Other .. => none

inductive ConsumeTrail (challengeId : Bytes) (expiresAt : Int) : Trail → Prop
  | Start : ConsumeTrail challengeId expiresAt []
  | Inserted : ConsumeTrail challengeId expiresAt [⟨.ReplayInsert challengeId expiresAt, ()⟩]
  | Counted (n : Nat) : ConsumeTrail challengeId expiresAt
      [⟨.Changes, n⟩, ⟨.ReplayInsert challengeId expiresAt, ()⟩]

def Legal : Worker → Trail → Prop
  | .TryConsume challengeId expiresAt => ConsumeTrail challengeId expiresAt
  | .Other .. => fun trail => ∀ taken ∈ trail, taken.1.onReplay = false

def Ends : Worker → Trail → Except SqlError Bool → Prop
  | .TryConsume challengeId expiresAt => fun trail outcome => ∃ n : Nat,
      trail = [⟨.Changes, n⟩, ⟨.ReplayInsert challengeId expiresAt, ()⟩] ∧ outcome = .ok (n == 1)
  | .Other .. => fun _ _ => True

theorem follows (worker : Worker) : Follows exec worker.Legal worker.Ends worker.prog [] := by
  cases worker with
  | TryConsume challengeId expiresAt =>
      refine follows_call rfl fun _ _ _ _ => ⟨.Inserted, ?_⟩
      exact follows_call rfl fun _ n _ _ => ⟨.Counted n, n, rfl, rfl⟩
  | Other prog h => exact follows_of_only h (by simp)

end Worker

abbrev ReplayView (ι : Type) := View Op Op.Result World SqlError Bool ι

def claimant (challengeId : Bytes) (event : Event Op Op.Result World ι) : Option ι :=
  match event.op with
  | .ReplayInsert id _ => if id = challengeId then some event.actor else none
  | _ => none

-- The thread whose INSERT OR IGNORE for a challenge ran first.
def firstInsert (challengeId : Bytes) : List (Event Op Op.Result World ι) → Option ι
  | [] => none
  | event :: earlier => (firstInsert challengeId earlier).or (claimant challengeId event)

variable [DecidableEq ι]

-- Nobody writes between a claim's INSERT and its sqlite3_changes, and no write of
-- another fails there: either sets the count.
def CountsOwnInsert (workers : ι → Worker) : Pool.Condition Op Op.Result World SqlError Bool ι :=
  fun view i op => op = .Changes → (workers i).challenge?.isSome →
    ∀ attempt ∈ view.attemptsSince i, attempt.op.isWrite = false

-- A challenge used before is given to nobody, and any other that somebody has
-- claimed is given to exactly one of its claims, once all of them have finished.
def GivenOnce (start : World) (workers : ι → Worker) (view : ReplayView ι) : Prop :=
  ∀ challengeId,
    (start.db.consumed challengeId →
      ∀ i, (workers i).challenge? = some challengeId → view.result i ≠ some (.ok true)) ∧
    (¬ start.db.consumed challengeId → (∃ i, (workers i).challenge? = some challengeId) →
      (∀ i, (workers i).challenge? = some challengeId → (view.result i).isSome) →
      ∃! i, (workers i).challenge? = some challengeId ∧ view.result i = some (.ok true))

def Won (start : World) (view : ReplayView ι) (challengeId : Bytes) (i : ι) : Prop :=
  ¬ start.db.consumed challengeId ∧ firstInsert challengeId view.history = some i

structure ReplayInv (start : World) (workers : ι → Worker) (view : ReplayView ι) : Prop where
  consumed : ∀ challengeId, view.world.db.consumed challengeId ↔
    start.db.consumed challengeId ∨ (firstInsert challengeId view.history).isSome
  inserted : ∀ i challengeId expiresAt, workers i = .TryConsume challengeId expiresAt →
    view.trail i = [⟨.ReplayInsert challengeId expiresAt, ()⟩] →
    (∀ attempt ∈ view.attemptsSince i, attempt.op.isWrite = false) →
    (view.world.changes = 1 ↔ Won start view challengeId i)
  counted : ∀ i challengeId expiresAt (n : Nat), workers i = .TryConsume challengeId expiresAt →
    view.trail i = [⟨.Changes, n⟩, ⟨.ReplayInsert challengeId expiresAt, ()⟩] →
    (n = 1 ↔ Won start view challengeId i)

omit [DecidableEq ι] in
theorem firstInsert_cons {op : Op} (hop : op.onReplay = false) (challengeId : Bytes) (i : ι)
    (result : op.Result) (before : World) (history : List (Event Op Op.Result World ι)) :
    firstInsert challengeId (⟨i, op, result, before⟩ :: history) =
      firstInsert challengeId history := by
  cases op with
  | ReplayInsert id expiresAt => simp [Op.onReplay] at hop
  | _ => simp [firstInsert, claimant]

theorem mem_trail_of_firstInsert {view : ReplayView ι} {challengeId : Bytes} {i : ι}
    (h : firstInsert challengeId view.history = some i) :
    ∃ expiresAt, ⟨.ReplayInsert challengeId expiresAt, ()⟩ ∈ view.trail i := by
  suffices hevent : ∀ history : List (Event Op Op.Result World ι),
      firstInsert challengeId history = some i → ∃ event ∈ history, event.actor = i ∧
        ∃ expiresAt, event.op = .ReplayInsert challengeId expiresAt by
    obtain ⟨⟨actor, op, result, before⟩, hmem, hactor, expiresAt, hop⟩ := hevent _ h
    obtain rfl : op = .ReplayInsert challengeId expiresAt := hop
    exact ⟨expiresAt, (view.mem_trail i).mpr ⟨_, hmem, hactor, rfl⟩⟩
  intro history
  induction history with
  | nil => simp [firstInsert]
  | cons event earlier ih =>
      intro hfirst
      simp only [firstInsert, Option.or_eq_some_iff] at hfirst
      rcases hfirst with hearlier | ⟨-, hclaimant⟩
      · obtain ⟨other, hmem, hother⟩ := ih hearlier
        exact ⟨other, List.mem_cons_of_mem _ hmem, hother⟩
      · unfold claimant at hclaimant
        split at hclaimant
        next id expiresAt hop =>
          split_ifs at hclaimant with hid
          obtain rfl := hid
          exact ⟨event, List.mem_cons_self, Option.some.inj hclaimant, expiresAt, hop⟩
        · simp at hclaimant

theorem firstInsert_isSome {view : ReplayView ι} {challengeId : Bytes} {expiresAt : Int} {i : ι}
    (h : ⟨.ReplayInsert challengeId expiresAt, ()⟩ ∈ view.trail i) :
    (firstInsert challengeId view.history).isSome := by
  obtain ⟨event, hevent, -, htaken⟩ := (view.mem_trail i).mp h
  have hop : event.op = .ReplayInsert challengeId expiresAt := congrArg Sigma.fst htaken
  generalize view.history = history at hevent ⊢
  induction history with
  | nil => simp at hevent
  | cons other earlier ih =>
      rw [firstInsert, Option.isSome_or, Bool.or_eq_true]
      rcases List.mem_cons.mp hevent with rfl | hearlier
      · right
        simp [claimant, hop]
      · exact .inl (ih hearlier)

-- A step that is no claim's INSERT decides nothing.
omit [DecidableEq ι] in
theorem won_advance_iff {start : World} {view : ReplayView ι} {i : ι} {op : Op}
    {result : op.Result} {world : World} (hop : op.onReplay = false) (challengeId : Bytes) (j : ι) :
    Won start (view.advance i op result world) challengeId j ↔ Won start view challengeId j := by
  simp only [Won, View.advance_history, firstInsert_cons hop]

variable {start : World} {workers : ι → Worker} {view : ReplayView ι}

theorem ReplayInv.advance_other (h : ReplayInv start workers view) {i : ι} {op : Op}
    {result : op.Result} {world : World} (hop : op.onReplay = false)
    (hexec : exec op view.world = .ok (result, world))
    (hcounted : ∀ challengeId expiresAt (n : Nat), workers i = .TryConsume challengeId expiresAt →
      ⟨op, result⟩ :: view.trail i =
        [⟨.Changes, n⟩, ⟨.ReplayInsert challengeId expiresAt, ()⟩] →
      (n = 1 ↔ Won start view challengeId i)) :
    ReplayInv start workers (view.advance i op result world) where
  consumed challengeId := by
    have hconsumed : world.db.consumed challengeId ↔ view.world.db.consumed challengeId := by
      simp only [Tables.consumed, replay_of_exec hop hexec]
    rw [View.advance_world, hconsumed, h.consumed]
    simp only [View.advance_history, firstInsert_cons hop]
  inserted j challengeId expiresAt hj htrail hsince := by
    rw [won_advance_iff hop]
    by_cases hji : j = i
    · subst j
      rw [View.advance_trail_self] at htrail
      obtain rfl : op = .ReplayInsert challengeId expiresAt :=
        congrArg Sigma.fst (List.cons.inj htrail).1
      simp [Op.onReplay] at hop
    · rw [View.advance_trail_of_ne _ _ _ _ _ hji] at htrail
      rw [View.advance_attemptsSince_of_ne _ _ _ _ _ hji, List.forall_mem_cons] at hsince
      rw [View.advance_world, (exec_of_not_write hsince.1 hexec).2.1]
      exact h.inserted j challengeId expiresAt hj htrail hsince.2
  counted j challengeId expiresAt n hj htrail := by
    rw [won_advance_iff hop]
    by_cases hji : j = i
    · subst j
      rw [View.advance_trail_self] at htrail
      exact hcounted challengeId expiresAt n hj htrail
    · rw [View.advance_trail_of_ne _ _ _ _ _ hji] at htrail
      exact h.counted j challengeId expiresAt n hj htrail

-- The INSERT of a claim is the first for its challenge exactly when it stores the row.
theorem ReplayInv.advance_insert (h : ReplayInv start workers view) {i : ι} {challengeId : Bytes}
    {expiresAt : Int} {world : World} (hi : workers i = .TryConsume challengeId expiresAt)
    (htrail : view.trail i = [])
    (hexec : exec (.ReplayInsert challengeId expiresAt) view.world = .ok ((), world)) :
    ReplayInv start workers
      (view.advance i (.ReplayInsert challengeId expiresAt) () world) := by
  obtain ⟨hchanges, hconsumed⟩ := exec_replayInsert hexec
  have hfirst : ∀ id, firstInsert id
      (view.advance i (.ReplayInsert challengeId expiresAt) () world).history =
        (firstInsert id view.history).or (if challengeId = id then some i else none) :=
    fun id => rfl
  have hself : firstInsert challengeId view.history ≠ some i := by
    intro hsome
    obtain ⟨_, hmem⟩ := mem_trail_of_firstInsert hsome
    simp [htrail] at hmem
  have hwon : ∀ id j, j ≠ i →
      (Won start (view.advance i (.ReplayInsert challengeId expiresAt) () world) id j ↔
        Won start view id j) := by
    intro id j hji
    simp only [Won, hfirst, Option.or_eq_some_iff]
    refine and_congr_right fun _ => ⟨?_, .inl⟩
    rintro (hsome | ⟨-, hsome⟩)
    · exact hsome
    · split_ifs at hsome
      exact absurd (Option.some.inj hsome).symm hji
  refine ⟨fun id => ?_, fun j id at' hj hjtrail hsince => ?_, fun j id at' n hj hjtrail => ?_⟩
  · rw [View.advance_world, hconsumed, h.consumed, hfirst]
    by_cases hid : challengeId = id
    · simp [hid]
    · simp [hid, Ne.symm hid]
  · by_cases hji : j = i
    · subst j
      obtain ⟨rfl, rfl⟩ : challengeId = id ∧ expiresAt = at' := by
        rw [hi] at hj
        exact ⟨(Worker.TryConsume.inj hj).1, (Worker.TryConsume.inj hj).2⟩
      rw [View.advance_world, hchanges]
      simp only [Won, hfirst, ite_true]
      cases hearlier : firstInsert challengeId view.history with
      | none =>
          have hiff := h.consumed challengeId
          simp only [hearlier, Option.isSome_none, Bool.false_eq_true, or_false] at hiff
          simp only [hiff, Option.none_or, and_true]
          split_ifs with hused <;> simp [hused]
      | some k =>
          have hused := (h.consumed challengeId).mpr (.inr (by simp [hearlier]))
          have hki : k ≠ i := fun hk => hself (hk ▸ hearlier)
          simp [hused, hki]
    · rw [View.advance_attemptsSince_of_ne _ _ _ _ _ hji, List.forall_mem_cons] at hsince
      simp [Op.isWrite] at hsince
  · have hji : j ≠ i := by
      rintro rfl
      rw [View.advance_trail_self, htrail] at hjtrail
      simp at hjtrail
    rw [View.advance_trail_of_ne _ _ _ _ _ hji] at hjtrail
    rw [hwon id j hji]
    exact h.counted j id at' n hj hjtrail

-- A statement that fails decides nothing either, but the count is not the claim's any more.
theorem ReplayInv.fail (h : ReplayInv start workers view) {i : ι} {op : Op} {exn : SqlError}
    {world : World} (hresult : ∀ challengeId, (workers i).challenge? ≠ some challengeId)
    (hexec : exec op view.world = .error (exn, world)) :
    ReplayInv start workers (view.fail i op exn world) where
  consumed challengeId := by
    rw [View.fail_world, refused_of_exec hexec]
    exact h.consumed challengeId
  inserted j challengeId expiresAt hj htrail hsince := by
    have hji : j ≠ i := by
      rintro rfl
      exact hresult challengeId (by rw [hj]; rfl)
    rw [View.fail_attemptsSince_of_ne _ _ _ _ _ hji, List.forall_mem_cons,
      isWrite_of_exec_error hexec] at hsince
    exact absurd hsince.1 (by simp)
  counted := h.counted

theorem preserves_replayInv (start : World) (workers : ι → Worker) :
    Preserves exec (fun i => (workers i).Legal) (fun i => (workers i).Ends)
      (CountsOwnInsert workers) (ReplayInv start workers) where
  advance view i op result world _ hinv _ hlegal hadmits hexec := by
    cases hi : workers i with
    | Other prog h =>
        rw [hi] at hlegal
        exact hinv.advance_other (hlegal _ List.mem_cons_self) hexec (by simp [hi])
    | TryConsume challengeId expiresAt =>
        rw [hi] at hlegal
        generalize htrail : view.trail i = trail at hlegal
        cases hlegal with
        | Inserted => exact hinv.advance_insert hi htrail hexec
        | Counted n =>
            refine hinv.advance_other rfl hexec fun id at' m hj hjtrail => ?_
            obtain ⟨rfl, rfl⟩ : challengeId = id ∧ expiresAt = at' := by
              rw [hi] at hj
              exact ⟨(Worker.TryConsume.inj hj).1, (Worker.TryConsume.inj hj).2⟩
            obtain rfl : n = m := by simpa using (List.cons.inj hjtrail).1
            have hn : n = view.world.changes := by
              simp only [exec, Except.ok.injEq, Prod.mk.injEq] at hexec
              exact hexec.1.symm
            rw [hn]
            exact hinv.inserted i challengeId expiresAt hi htrail
              (hadmits rfl (by simp [hi, Worker.challenge?]))
  finish view i outcome _ hinv _ _ := ⟨hinv.consumed, hinv.inserted, hinv.counted⟩
  fail view i op exn world _ hinv _ hends _ hexec := by
    refine hinv.fail (fun challengeId hi => ?_) hexec
    cases hworker : workers i with
    | Other prog h => simp [hworker, Worker.challenge?] at hi
    | TryConsume id expiresAt =>
        rw [hworker] at hends
        obtain ⟨n, -, hn⟩ := hends
        cases hn

theorem challenge_of_mem_trail {worker : Worker} {trail : Trail} {challengeId : Bytes}
    {expiresAt : Int} (hlegal : worker.Legal trail)
    (h : ⟨.ReplayInsert challengeId expiresAt, ()⟩ ∈ trail) : worker.challenge? = some challengeId := by
  cases worker with
  | Other prog honly => exact absurd (hlegal _ h) (by simp [Op.onReplay])
  | TryConsume id at' =>
      cases hlegal with
      | Start => simp at h
      | Inserted =>
          have hid : challengeId = id ∧ expiresAt = at' := by simpa using h
          rw [Worker.challenge?, hid.1]
      | Counted n =>
          have hid : challengeId = id ∧ expiresAt = at' := by simpa using h
          rw [Worker.challenge?, hid.1]

-- What a claim has done when it has finished.
theorem finished_of_challenge (hlawful : view.Lawful (fun i => (workers i).Legal)
    (fun i => (workers i).Ends)) {i : ι} {challengeId : Bytes}
    (hi : (workers i).challenge? = some challengeId) (hresult : (view.result i).isSome) :
    ∃ expiresAt, ∃ n : Nat, workers i = .TryConsume challengeId expiresAt ∧
      view.trail i = [⟨.Changes, n⟩, ⟨.ReplayInsert challengeId expiresAt, ()⟩] ∧
      view.result i = some (.ok (n == 1)) := by
  obtain ⟨outcome, houtcome⟩ := Option.isSome_iff_exists.mp hresult
  have hends := hlawful.done i outcome houtcome
  cases hworker : workers i with
  | Other prog h => simp [hworker, Worker.challenge?] at hi
  | TryConsume id expiresAt =>
      obtain rfl : id = challengeId := by simpa [hworker, Worker.challenge?] using hi
      rw [hworker] at hends
      obtain ⟨n, htrail, rfl⟩ := hends
      exact ⟨expiresAt, n, rfl, htrail, houtcome⟩

-- The claims that have finished, seen through the invariant.
theorem ReplayInv.result_true_iff (hinv : ReplayInv start workers view)
    (hlawful : view.Lawful (fun i => (workers i).Legal) (fun i => (workers i).Ends))
    {i : ι} {challengeId : Bytes} (hi : (workers i).challenge? = some challengeId)
    (hresult : (view.result i).isSome) :
    view.result i = some (.ok true) ↔ Won start view challengeId i := by
  obtain ⟨expiresAt, n, hworker, htrail, houtcome⟩ := finished_of_challenge hlawful hi hresult
  rw [houtcome, ← hinv.counted i challengeId expiresAt n hworker htrail]
  simp

theorem ReplayInv.givenOnce (hinv : ReplayInv start workers view)
    (hlawful : view.Lawful (fun i => (workers i).Legal) (fun i => (workers i).Ends)) :
    GivenOnce start workers view := by
  refine fun challengeId => ⟨fun hused i hi htrue => ?_, fun hused hclaimed hdone => ?_⟩
  · exact ((hinv.result_true_iff hlawful hi (by simp [htrue])).mp htrue).1 hused
  · have hiff : ∀ i, (workers i).challenge? = some challengeId →
        (view.result i = some (.ok true) ↔ Won start view challengeId i) :=
      fun i hi => hinv.result_true_iff hlawful hi (hdone i hi)
    obtain ⟨i, hi⟩ := hclaimed
    obtain ⟨expiresAt, n, -, htrail, -⟩ := finished_of_challenge hlawful hi (hdone i hi)
    have hinserted : ⟨.ReplayInsert challengeId expiresAt, ()⟩ ∈ view.trail i := by simp [htrail]
    obtain ⟨first, hfirst⟩ := Option.isSome_iff_exists.mp (firstInsert_isSome hinserted)
    obtain ⟨_, hmem⟩ := mem_trail_of_firstInsert hfirst
    have hclaims := challenge_of_mem_trail (hlawful.legal first) hmem
    refine ⟨first, ⟨hclaims, (hiff first hclaims).mpr ⟨hused, hfirst⟩⟩, fun j hj => ?_⟩
    have hwon := (hiff j hj.1).mp hj.2
    exact Option.some.inj (hwon.2.symm.trans hfirst)

-- Every run in which each claim reads the count of its own INSERT.
theorem tryConsume_givenOnce (start : World) (workers : ι → Worker)
    (pool : Pool Op Op.Result World SqlError Bool ι)
    (hrun : Pool.Reaches exec (CountsOwnInsert workers)
      (Pool.start start fun i => (workers i).prog) pool) :
    GivenOnce start workers pool.toView := by
  have hstart : Pool.Sound exec (fun i => (workers i).Legal) (fun i => (workers i).Ends)
      (ReplayInv start workers) (Pool.start start fun i => (workers i).prog) :=
    .start (fun i => by cases workers i <;> simp [Worker.Legal, Worker.ConsumeTrail.Start])
      (fun i => (workers i).follows)
      ⟨by simp [Pool.start, firstInsert], by simp [Pool.start, View.trail],
        by simp [Pool.start, View.trail]⟩
  have hpool := hstart.reaches (preserves_replayInv start workers) hrun
  exact hpool.inv.givenOnce hpool.lawful

-- Three claims, the last on a challenge of its own, next to a status update
-- that finds no ticket.
def racingWorkers : Fin 4 → Worker
  | 0 => .TryConsume (utf8 "a") 3600
  | 1 => .TryConsume (utf8 "a") 3600
  | 2 => .TryConsume (utf8 "b") 3600
  | 3 => .Other (do TicketsRepo.setStatus (utf8 "A3F2K9") .AwaitingAdmin; return true)
      ⟨rfl, fun _ => trivial⟩

instance (workers : ι → Worker) (view : ReplayView ι) (i : ι) (op : Op) :
    Decidable (CountsOwnInsert workers view i op) :=
  inferInstanceAs (Decidable (_ → _ → _))

theorem tryConsume_givenOnce_inTurn :
    ∃ pool, (Pool.Reaches exec (CountsOwnInsert racingWorkers)
      (Pool.start World.empty fun i => (racingWorkers i).prog) pool ∧
      List.ofFn pool.result =
        [some (.ok true), some (.ok false), some (.ok true), some (.ok true)]) ∧
      GivenOnce World.empty racingWorkers pool.toView := by
  obtain ⟨pool, hrun, hresult⟩ := Pool.exists_reaches_of_follow exec
    (CountsOwnInsert racingWorkers) [0, 0, 3, 0, 3, 1, 1, 2, 1, 2, 2]
    (Pool.start World.empty fun i => (racingWorkers i).prog) (fun pool => List.ofFn pool.result)
    [some (.ok true), some (.ok false), some (.ok true), some (.ok true)] (by decide +kernel)
  exact ⟨pool, ⟨hrun, hresult⟩, tryConsume_givenOnce World.empty racingWorkers pool hrun⟩

-- Without the condition a claim may read another thread's count: thread 1 sees
-- the row that thread 2 stored, and both 0 and 1 have the challenge.
theorem tryConsume_givenTwice : ¬ ∀ pool, Pool.Reaches exec (fun _ _ _ => True)
    (Pool.start World.empty fun i => (racingWorkers i).prog) pool →
    GivenOnce World.empty racingWorkers pool.toView := by
  intro hclaim
  obtain ⟨pool, hrun, hresult⟩ := Pool.exists_reaches_of_follow exec (fun _ _ _ => True)
    [0, 0, 0, 1, 2, 1, 1]
    (Pool.start World.empty fun i => (racingWorkers i).prog) (fun pool => List.ofFn pool.result)
    [some (.ok true), some (.ok true), none, none] (by decide +kernel)
  simp only [List.ofFn_succ, List.ofFn_zero, List.cons.injEq] at hresult
  have hdone : ∀ i, (racingWorkers i).challenge? = some (utf8 "a") → (pool.result i).isSome
    | 0, _ => congrArg Option.isSome hresult.1
    | 1, _ => congrArg Option.isSome hresult.2.1
    | 2, hi => absurd hi (by decide +kernel)
    | 3, hi => absurd hi (by decide +kernel)
  have hunused : ¬ World.empty.db.consumed (utf8 "a") := by decide +kernel
  obtain ⟨i, -, hunique⟩ := (hclaim pool hrun (utf8 "a")).2 hunused ⟨0, rfl⟩ hdone
  have h01 := (hunique 0 ⟨rfl, hresult.1⟩).trans (hunique 1 ⟨rfl, hresult.2.1⟩).symm
  exact absurd h01 (by decide)

end DeltaFeedback.Concurrency
