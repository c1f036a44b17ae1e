import DeltaFeedback.Interleaving.Pool

namespace Interleaving

variable {Op : Type} {Res : Op → Type} {World Exn Out α β ι : Type}

section Follows

variable (exec : (op : Op) → World → Except (Exn × World) (Res op × World))

-- A program keeps to a discipline when, whatever the others do to the world in
-- between, the trail of its operations stays legal, and `done` holds of the
-- trail and the outcome when it ends.
def Follows (legal : List (Taken Op Res) → Prop)
    (done : List (Taken Op Res) → Except Exn α → Prop) :
    Prog Op Res α → List (Taken Op Res) → Prop
  | .ret value, trail => done trail (.ok value)
  | .call op next, trail =>
      (∀ before result world, exec op before = .ok (result, world) →
        legal (⟨op, result⟩ :: trail) ∧ Follows legal done (next result) (⟨op, result⟩ :: trail)) ∧
      ∀ before exn world, exec op before = .error (exn, world) → done trail (.error exn)

variable {exec} {legal : List (Taken Op Res) → Prop}

theorem Follows.bind {done : List (Taken Op Res) → Except Exn β → Prop}
    {prog : Prog Op Res α} {rest : α → Prog Op Res β} {trail : List (Taken Op Res)}
    (h : Follows exec legal (fun trail outcome =>
      match outcome with
      | .ok value => Follows exec legal done (rest value) trail
      | .error exn => done trail (.error exn)) prog trail) :
    Follows exec legal done (prog >>= rest) trail := by
  induction prog generalizing trail with
  | ret value => exact h
  | call op next ih =>
      refine ⟨fun before result world hexec => ?_, h.2⟩
      obtain ⟨hlegal, hnext⟩ := h.1 before result world hexec
      exact ⟨hlegal, ih result hnext⟩

theorem Follows.mono {weaker : List (Taken Op Res) → Prop}
    {done weakerDone : List (Taken Op Res) → Except Exn α → Prop}
    {prog : Prog Op Res α} {trail : List (Taken Op Res)}
    (hlegal : ∀ trail, legal trail → weaker trail)
    (hdone : ∀ trail outcome, done trail outcome → weakerDone trail outcome)
    (h : Follows exec legal done prog trail) : Follows exec weaker weakerDone prog trail := by
  induction prog generalizing trail with
  | ret value => exact hdone _ _ h
  | call op next ih =>
      refine ⟨fun before result world hexec => ?_, fun before exn world hexec =>
        hdone _ _ (h.2 _ _ _ hexec)⟩
      obtain ⟨htrail, hnext⟩ := h.1 before result world hexec
      exact ⟨hlegal _ htrail, ih result hnext⟩

-- A program whose result is only relabelled.
theorem Follows.map {done : List (Taken Op Res) → Except Exn β → Prop} {f : α → β}
    {prog : Prog Op Res α} {trail : List (Taken Op Res)}
    (h : Follows exec legal (fun trail outcome => done trail (outcome.map f)) prog trail) :
    Follows exec legal done (f <$> prog) trail := by
  induction prog generalizing trail with
  | ret value => exact h
  | call op next ih =>
      refine ⟨fun before result world hexec => ?_, h.2⟩
      obtain ⟨hlegal, hnext⟩ := h.1 before result world hexec
      exact ⟨hlegal, ih result hnext⟩

theorem follows_of_only {allowed : Op → Prop} {prog : Prog Op Res α}
    {trail : List (Taken Op Res)} (h : prog.Only allowed) (htrail : ∀ taken ∈ trail, allowed taken.1) :
    Follows exec (fun trail => ∀ taken ∈ trail, allowed taken.1) (fun _ _ => True) prog trail := by
  induction prog generalizing trail with
  | ret value => trivial
  | call op next ih =>
      refine ⟨fun before result world _ => ?_, fun _ _ _ _ => trivial⟩
      have hnext : ∀ taken ∈ ⟨op, result⟩ :: trail, allowed taken.1 :=
        List.forall_mem_cons.mpr ⟨h.1, htrail⟩
      exact ⟨hnext, ih result (h.2 result) hnext⟩

theorem follows_ite {done : List (Taken Op Res) → Except Exn α → Prop} {c : Prop} [Decidable c]
    {yes no : Prog Op Res α} {trail : List (Taken Op Res)}
    (hyes : c → Follows exec legal done yes trail) (hno : ¬ c → Follows exec legal done no trail) :
    Follows exec legal done (if c then yes else no) trail := by
  split_ifs with h
  · exact hyes h
  · exact hno h

-- A program that keeps to a discipline, however it ends.
abbrev Within (exec : (op : Op) → World → Except (Exn × World) (Res op × World))
    (legal : List (Taken Op Res) → Prop) (prog : Prog Op Res α) (trail : List (Taken Op Res)) : Prop :=
  Follows exec legal (fun _ _ => True) prog trail

theorem Within.call {op : Op} {next : Res op → Prog Op Res α} {trail : List (Taken Op Res)}
    (h : ∀ before result world, exec op before = .ok (result, world) →
      legal (⟨op, result⟩ :: trail) ∧ Within exec legal (next result) (⟨op, result⟩ :: trail)) :
    Within exec legal (.call op next) trail :=
  ⟨h, fun _ _ _ _ => trivial⟩

theorem Within.of_only {allowed : Op → Prop} {prog : Prog Op Res α} {trail : List (Taken Op Res)}
    (hlegal : ∀ op result trail, allowed op → legal (⟨op, result⟩ :: trail))
    (h : prog.Only allowed) : Within exec legal prog trail := by
  induction prog generalizing trail with
  | ret value => trivial
  | call op next ih =>
      exact .call fun _ result _ _ => ⟨hlegal op result trail h.1, ih result (h.2 result)⟩

-- Two programs one after the other.
theorem Within.andThen {prog : Prog Op Res α} {rest : α → Prog Op Res β}
    {trail : List (Taken Op Res)} (h : Within exec legal prog trail)
    (hrest : ∀ value trail, Within exec legal (rest value) trail) :
    Within exec legal (prog >>= rest) trail := by
  refine Follows.bind (h.mono (fun _ htrail => htrail) fun trail outcome _ => ?_)
  cases outcome with
  | ok value => exact hrest value trail
  | error exn => trivial

end Follows

section Sound

variable [DecidableEq ι]
variable (exec : (op : Op) → World → Except (Exn × World) (Res op × World))
variable (legal : ι → List (Taken Op Res) → Prop)
variable (done : ι → List (Taken Op Res) → Except Exn Out → Prop)

structure View.Lawful (view : View Op Res World Exn Out ι) : Prop where
  legal : ∀ i, legal i (view.trail i)
  done : ∀ i outcome, view.result i = some outcome → done i (view.trail i) outcome

-- What holds of a pool whose programs have kept to their disciplines so far.
structure Pool.Sound (inv : View Op Res World Exn Out ι → Prop)
    (pool : Pool Op Res World Exn Out ι) : Prop where
  lawful : pool.toView.Lawful legal done
  inv : inv pool.toView
  follows : ∀ i, pool.result i = none →
    Follows exec (legal i) (done i) (pool.todo i) (pool.trail i)

-- An operation that would have been legal has failed.
def Fails (legal : List (Taken Op Res) → Prop) (trail : List (Taken Op Res))
    (reached : World) (exn : Exn) (world : World) : Prop :=
  ∃ op, exec op reached = .error (exn, world) ∧ ∀ before result world,
    exec op before = .ok (result, world) → legal (⟨op, result⟩ :: trail)

variable {exec} in
theorem Fails.exists_legal {legal : List (Taken Op Res) → Prop} {trail : List (Taken Op Res)}
    {reached world : World} {exn : Exn} (h : Fails exec legal trail reached exn world)
    (hexec : ∀ op, ∃ before result world, exec op before = .ok (result, world)) :
    ∃ op result, exec op reached = .error (exn, world) ∧ legal (⟨op, result⟩ :: trail) := by
  obtain ⟨op, hfails, hlegal⟩ := h
  obtain ⟨before, result, world, hok⟩ := hexec op
  exact ⟨op, result, hfails, hlegal before result world hok⟩

-- An invariant that every legal operation, every return and every failure preserve.
structure Preserves (admits : Pool.Condition Op Res World Exn Out ι)
    (inv : View Op Res World Exn Out ι → Prop) : Prop where
  advance : ∀ view i op result world, view.Lawful legal done → inv view →
    view.result i = none → legal i (⟨op, result⟩ :: view.trail i) → admits view i op →
    exec op view.world = .ok (result, world) → inv (view.advance i op result world)
  finish : ∀ view i value, view.Lawful legal done → inv view → view.result i = none →
    done i (view.trail i) (.ok value) → inv (view.finish i (.ok value))
  fail : ∀ view i op exn world, view.Lawful legal done → inv view → view.result i = none →
    done i (view.trail i) (.error exn) → (∀ before result later,
      exec op before = .ok (result, later) → legal i (⟨op, result⟩ :: view.trail i)) →
    exec op view.world = .error (exn, world) → inv (view.fail i op exn world)

variable {exec legal done} {admits : Pool.Condition Op Res World Exn Out ι}
variable {inv : View Op Res World Exn Out ι → Prop}

theorem Pool.Sound.start {world : World} {calls : ι → Prog Op Res Out}
    (hlegal : ∀ i, legal i []) (hcalls : ∀ i, Follows exec (legal i) (done i) (calls i) [])
    (hinv : inv (Pool.start world calls).toView) :
    (Pool.start world calls).Sound exec legal done inv where
  lawful := ⟨hlegal, fun _ _ h => by simp [Pool.start] at h⟩
  inv := hinv
  follows i _ := hcalls i

theorem Pool.Sound.advance {pool : Pool Op Res World Exn Out ι} {i : ι} {op : Op}
    {next : Res op → Prog Op Res Out} {result : Res op} {world : World}
    (hpool : pool.Sound exec legal done inv) (hresult : pool.result i = none)
    (htodo : pool.todo i = .call op next) (hexec : exec op pool.world = .ok (result, world))
    (hinv : inv (pool.toView.advance i op result world)) :
    Pool.Sound exec legal done inv
      { toView := pool.toView.advance i op result world
        todo := Function.update pool.todo i (next result) } := by
  have hi := (htodo ▸ hpool.follows i hresult).1 _ _ _ hexec
  refine ⟨⟨fun j => ?_, fun j outcome hj => ?_⟩, hinv, fun j hj => ?_⟩
  · by_cases hji : j = i
    · subst j
      rw [View.advance_trail_self]
      exact hi.1
    · rw [View.advance_trail_of_ne _ _ _ _ _ hji]
      exact hpool.lawful.legal j
  · have hji : j ≠ i := by
      rintro rfl
      simp [hresult] at hj
    rw [View.advance_trail_of_ne _ _ _ _ _ hji]
    exact hpool.lawful.done j outcome hj
  · by_cases hji : j = i
    · subst j
      simp only [Function.update_self, View.advance_trail_self]
      exact hi.2
    · simp only [Function.update_of_ne hji, View.advance_trail_of_ne _ _ _ _ _ hji]
      exact hpool.follows j hj

-- A program that has ended, whatever became of the world with it.
theorem Pool.Sound.ended {pool : Pool Op Res World Exn Out ι} {i : ι} {outcome : Except Exn Out}
    {view : View Op Res World Exn Out ι} (hpool : pool.Sound exec legal done inv)
    (hdone : done i (pool.trail i) outcome) (hhistory : view.history = pool.history)
    (hresult : view.result = (pool.toView.finish i outcome).result) (hinv : inv view) :
    Pool.Sound exec legal done inv { pool with toView := view } := by
  have htrail (j : ι) : view.trail j = pool.trail j := by rw [View.trail, View.trail, hhistory]
  refine ⟨⟨fun j => htrail j ▸ hpool.lawful.legal j, fun j other hj => ?_⟩, hinv, fun j hj => ?_⟩
  · rw [htrail]
    rw [hresult] at hj
    by_cases hji : j = i
    · subst j
      rw [View.finish_result_self] at hj
      exact Option.some.inj hj ▸ hdone
    · rw [View.finish_result_of_ne _ _ _ hji] at hj
      exact hpool.lawful.done j other hj
  · replace hj : view.result j = none := hj
    have hji : j ≠ i := by
      rintro rfl
      simp [hresult] at hj
    rw [hresult, View.finish_result_of_ne _ _ _ hji] at hj
    change Follows exec (legal j) (done j) (pool.todo j) (view.trail j)
    exact htrail j ▸ hpool.follows j hj

theorem Pool.Sound.step {pool later : Pool Op Res World Exn Out ι} {i : ι}
    (hpool : pool.Sound exec legal done inv) (hpreserves : Preserves exec legal done admits inv)
    (hadmits : pool.Admitted admits i) (hstep : pool.step exec i = some later) :
    later.Sound exec legal done inv := by
  rcases Pool.step_cases exec hstep with ⟨hresult, ⟨value, htodo, rfl⟩ |
    ⟨op, next, result, world, htodo, hexec, rfl⟩ | ⟨op, next, exn, world, htodo, hexec, rfl⟩⟩
  · have hdone := htodo ▸ hpool.follows i hresult
    exact hpool.ended hdone rfl rfl
      (hpreserves.finish _ i _ hpool.lawful hpool.inv hresult hdone)
  · have hop := htodo ▸ hpool.follows i hresult
    exact hpool.advance hresult htodo hexec (hpreserves.advance _ i op _ _ hpool.lawful hpool.inv
      hresult (hop.1 _ _ _ hexec).1 (hadmits op next htodo) hexec)
  · have hop := htodo ▸ hpool.follows i hresult
    have hdone := hop.2 _ _ _ hexec
    exact hpool.ended hdone rfl rfl (hpreserves.fail _ i op _ _ hpool.lawful hpool.inv hresult hdone
      (fun before result later hok => (hop.1 before result later hok).1) hexec)

-- Programs that keep to their disciplines, run in any order.
theorem Pool.Sound.reaches {pool later : Pool Op Res World Exn Out ι}
    (hpool : pool.Sound exec legal done inv) (hpreserves : Preserves exec legal done admits inv)
    (hrun : Pool.Reaches exec admits pool later) : later.Sound exec legal done inv :=
  hrun.invariant hpool fun _ _ _ hsound hadmits hstep => hsound.step hpreserves hadmits hstep

-- Where no admitted operation can fail, no program ever ends with an exception.
theorem Pool.Sound.never_fails {pool later : Pool Op Res World Exn Out ι}
    (hpool : pool.Sound exec legal done inv) (hpreserves : Preserves exec legal done admits inv)
    (hresults : ∀ i exn, pool.result i ≠ some (.error exn))
    (hnever : ∀ view i op failed, view.Lawful legal done → inv view → admits view i op →
      (∀ before result world, exec op before = .ok (result, world) →
        legal i (⟨op, result⟩ :: view.trail i)) → exec op view.world ≠ .error failed)
    (hrun : Pool.Reaches exec admits pool later) : ∀ i exn, later.result i ≠ some (.error exn) := by
  let both (pool : Pool Op Res World Exn Out ι) : Prop :=
    pool.Sound exec legal done inv ∧ ∀ i exn, pool.result i ≠ some (.error exn)
  suffices hboth : both later from hboth.2
  refine hrun.invariant ⟨hpool, hresults⟩ ?_
  rintro pool later i ⟨hsound, hresults⟩ hadmits hstep
  refine ⟨hsound.step hpreserves hadmits hstep, fun j exn hj => ?_⟩
  rcases Pool.step_cases exec hstep with ⟨hresult, ⟨value, htodo, rfl⟩ |
    ⟨op, next, result, world, htodo, hexec, rfl⟩ | ⟨op, next, exn', world, htodo, hexec, rfl⟩⟩
  · by_cases hji : j = i
    · subst j
      simp at hj
    · rw [View.finish_result_of_ne _ _ _ hji] at hj
      exact hresults j exn hj
  · exact hresults j exn hj
  · have hop := htodo ▸ hsound.follows i hresult
    exact hnever _ i op (exn', world) hsound.lawful hsound.inv (hadmits op next htodo)
      (fun before result world hok => (hop.1 before result world hok).1) hexec

end Sound

end Interleaving
