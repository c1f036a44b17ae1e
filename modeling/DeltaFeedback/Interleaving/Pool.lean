import DeltaFeedback.Interleaving.Prog
import Mathlib.Logic.Relation

namespace Interleaving

-- An operation that was completed: whose it was, what it returned and the
-- world it found.
structure Event (Op : Type) (Res : Op → Type) (World ι : Type) where
  actor : ι
  op : Op
  result : Res op
  before : World

-- An operation that was executed, whether it was completed or failed.
structure Attempt (Op ι : Type) where
  actor : ι
  op : Op

-- What is visible of a pool of programs over one world: the world, the
-- operations completed so far (latest first), those and the ones that failed,
-- and the outcome of each program that has returned.
structure View (Op : Type) (Res : Op → Type) (World Exn Out ι : Type) where
  world : World
  history : List (Event Op Res World ι)
  attempts : List (Attempt Op ι)
  result : ι → Option (Except Exn Out)

structure Pool (Op : Type) (Res : Op → Type) (World Exn Out ι : Type)
    extends View Op Res World Exn Out ι where
  todo : ι → Prog Op Res Out

variable {Op : Type} {Res : Op → Type} {World Exn Out ι : Type}

namespace View

def advance (view : View Op Res World Exn Out ι) (i : ι) (op : Op) (result : Res op)
    (world : World) : View Op Res World Exn Out ι :=
  { view with
    world
    history := ⟨i, op, result, view.world⟩ :: view.history
    attempts := ⟨i, op⟩ :: view.attempts }

@[simp] theorem advance_world (view : View Op Res World Exn Out ι) (i : ι) (op : Op)
    (result : Res op) (world : World) : (view.advance i op result world).world = world := rfl

@[simp] theorem advance_result (view : View Op Res World Exn Out ι) (i : ι) (op : Op)
    (result : Res op) (world : World) :
    (view.advance i op result world).result = view.result := rfl

@[simp] theorem advance_history (view : View Op Res World Exn Out ι) (i : ι) (op : Op)
    (result : Res op) (world : World) : (view.advance i op result world).history =
      ⟨i, op, result, view.world⟩ :: view.history := rfl

@[simp] theorem advance_attempts (view : View Op Res World Exn Out ι) (i : ι) (op : Op)
    (result : Res op) (world : World) :
    (view.advance i op result world).attempts = ⟨i, op⟩ :: view.attempts := rfl

variable [DecidableEq ι]

def finish (view : View Op Res World Exn Out ι) (i : ι) (outcome : Except Exn Out) :
    View Op Res World Exn Out ι :=
  { view with result := Function.update view.result i (some outcome) }

-- An operation that failed, and with it the program.
def fail (view : View Op Res World Exn Out ι) (i : ι) (op : Op) (exn : Exn) (world : World) :
    View Op Res World Exn Out ι :=
  { view.finish i (.error exn) with
    world
    attempts := ⟨i, op⟩ :: view.attempts }

-- The operations of one program, latest first.
def trail (view : View Op Res World Exn Out ι) (i : ι) : List (Taken Op Res) :=
  (view.history.filter fun event => event.actor = i).map fun event => ⟨event.op, event.result⟩

-- The operations of the others since the last one of `i`.
def since (view : View Op Res World Exn Out ι) (i : ι) : List (Event Op Res World ι) :=
  view.history.takeWhile fun event => event.actor ≠ i

-- What the others have tried since the last operation of `i`.
def attemptsSince (view : View Op Res World Exn Out ι) (i : ι) : List (Attempt Op ι) :=
  view.attempts.takeWhile fun attempt => attempt.actor ≠ i

-- The operations since the last `read` of `i`.
def sinceOp [DecidableEq Op] (view : View Op Res World Exn Out ι) (i : ι) (read : Op) :
    List (Event Op Res World ι) :=
  view.history.takeWhile fun event => ¬ (event.actor = i ∧ event.op = read)

-- The operations since the last one of `i` of a kind.
def sinceAny (view : View Op Res World Exn Out ι) (i : ι) (kind : Op → Bool) :
    List (Event Op Res World ι) :=
  view.history.takeWhile fun event => ¬ (event.actor = i ∧ kind event.op = true)

-- The operations up to the last `read` of `i`.
def upToOp [DecidableEq Op] (view : View Op Res World Exn Out ι) (i : ι) (read : Op) :
    List (Event Op Res World ι) :=
  view.history.dropWhile fun event => ¬ (event.actor = i ∧ event.op = read)

variable (view : View Op Res World Exn Out ι) (i : ι) (op : Op) (result : Res op) (world : World)
  (outcome : Except Exn Out) (exn : Exn)

@[simp] theorem advance_trail_self : (view.advance i op result world).trail i =
    ⟨op, result⟩ :: view.trail i := by
  simp [trail]

@[simp] theorem advance_trail_of_ne {j : ι} (h : j ≠ i) :
    (view.advance i op result world).trail j = view.trail j := by
  simp [trail, h.symm]

@[simp] theorem advance_since_self : (view.advance i op result world).since i = [] := by
  simp [since]

@[simp] theorem advance_since_of_ne {j : ι} (h : j ≠ i) :
    (view.advance i op result world).since j = ⟨i, op, result, view.world⟩ :: view.since j := by
  simp [since, h.symm]

@[simp] theorem advance_attemptsSince_of_ne {j : ι} (h : j ≠ i) :
    (view.advance i op result world).attemptsSince j = ⟨i, op⟩ :: view.attemptsSince j := by
  simp [attemptsSince, h.symm]

theorem advance_sinceOp_of_ne [DecidableEq Op] {j : ι} {read : Op} (h : ¬ (i = j ∧ op = read)) :
    (view.advance i op result world).sinceOp j read =
      ⟨i, op, result, view.world⟩ :: view.sinceOp j read := by
  simp only [sinceOp, advance_history]
  exact List.takeWhile_cons_of_pos (decide_eq_true h)

theorem advance_sinceAny_of_ne {j : ι} {kind : Op → Bool} (h : ¬ (i = j ∧ kind op = true)) :
    (view.advance i op result world).sinceAny j kind =
      ⟨i, op, result, view.world⟩ :: view.sinceAny j kind := by
  simp only [sinceAny, advance_history]
  exact List.takeWhile_cons_of_pos (decide_eq_true h)

theorem advance_upToOp_self [DecidableEq Op] : (view.advance i op result world).upToOp i op =
    (view.advance i op result world).history := by
  simp [upToOp]

theorem advance_upToOp_of_ne [DecidableEq Op] {j : ι} {read : Op} (h : ¬ (i = j ∧ op = read)) :
    (view.advance i op result world).upToOp j read = view.upToOp j read := by
  simp only [upToOp, advance_history]
  exact List.dropWhile_cons_of_pos (decide_eq_true h)

theorem mem_history_of_mem_upToOp [DecidableEq Op] {read : Op} {event : Event Op Res World ι}
    (h : event ∈ view.upToOp i read) : event ∈ view.history :=
  (List.dropWhile_suffix _).subset h

@[simp] theorem finish_world : (view.finish i outcome).world = view.world := rfl

@[simp] theorem finish_trail (j : ι) : (view.finish i outcome).trail j = view.trail j := rfl

@[simp] theorem finish_since (j : ι) : (view.finish i outcome).since j = view.since j := rfl

@[simp] theorem finish_result_self : (view.finish i outcome).result i = some outcome := by
  simp [finish]

@[simp] theorem finish_result_of_ne {j : ι} (h : j ≠ i) :
    (view.finish i outcome).result j = view.result j := by
  simp [finish, h]

@[simp] theorem fail_world : (view.fail i op exn world).world = world := rfl

@[simp] theorem fail_attemptsSince_of_ne {j : ι} (h : j ≠ i) :
    (view.fail i op exn world).attemptsSince j = ⟨i, op⟩ :: view.attemptsSince j := by
  simp [attemptsSince, fail, h.symm]

theorem mem_trail {taken : Taken Op Res} : taken ∈ view.trail i ↔
    ∃ event ∈ view.history, event.actor = i ∧ ⟨event.op, event.result⟩ = taken := by
  simp [trail, and_assoc]

-- What a program has done after a step: the step itself, if it is its own, and
-- what it had done before.
theorem mem_trail_advance {j : ι} {taken : Taken Op Res} :
    taken ∈ (view.advance i op result world).trail j ↔
      j = i ∧ taken = ⟨op, result⟩ ∨ taken ∈ view.trail j := by
  by_cases hji : j = i
  · subst j
    rw [advance_trail_self, List.mem_cons, and_iff_right rfl]
  · rw [advance_trail_of_ne _ _ _ _ _ hji]
    exact ⟨.inr, fun h => h.resolve_left fun hown => hji hown.1⟩

-- No program is between its first operation and its return.
def Quiescent (view : View Op Res World Exn Out ι) : Prop :=
  ∀ i, view.trail i = [] ∨ (view.result i).isSome

end View

namespace Pool

def start (world : World) (calls : ι → Prog Op Res Out) : Pool Op Res World Exn Out ι where
  world := world
  history := []
  attempts := []
  result := fun _ => none
  todo := calls

variable [DecidableEq ι]

variable (exec : (op : Op) → World → Except (Exn × World) (Res op × World))

-- One step of program `i`: its next operation, or its return to the caller. An
-- operation that fails ends the program.
def step (i : ι) (pool : Pool Op Res World Exn Out ι) : Option (Pool Op Res World Exn Out ι) :=
  if (pool.result i).isSome then none else
  match pool.todo i with
  | .ret value => some { pool with toView := pool.toView.finish i (.ok value) }
  | .call op next =>
      match exec op pool.world with
      | .ok (result, world) => some {
          toView := pool.toView.advance i op result world
          todo := Function.update pool.todo i (next result) }
      | .error (exn, world) => some { pool with toView := pool.toView.fail i op exn world }

-- All a step can be: a return, an operation, or one that fails.
theorem step_cases {i : ι} {pool later : Pool Op Res World Exn Out ι}
    (h : pool.step exec i = some later) : pool.result i = none ∧
      ((∃ value, pool.todo i = .ret value ∧
        later = { pool with toView := pool.toView.finish i (.ok value) }) ∨
      (∃ op next result world, pool.todo i = .call op next ∧
        exec op pool.world = .ok (result, world) ∧
        later = { toView := pool.toView.advance i op result world
                  todo := Function.update pool.todo i (next result) }) ∨
      ∃ op next exn world, pool.todo i = .call op next ∧
        exec op pool.world = .error (exn, world) ∧
        later = { pool with toView := pool.toView.fail i op exn world }) := by
  cases hresult : pool.result i with
  | some outcome => simp [step, hresult] at h
  | none =>
      refine ⟨rfl, ?_⟩
      simp only [step, hresult, Option.isSome_none, Bool.false_eq_true, ite_false] at h
      cases htodo : pool.todo i with
      | ret value =>
          simp only [htodo, Option.some.injEq] at h
          exact .inl ⟨value, rfl, h.symm⟩
      | call op next =>
          simp only [htodo] at h
          cases hexec : exec op pool.world with
          | ok taken =>
              simp only [hexec, Option.some.injEq] at h
              exact .inr (.inl ⟨op, next, taken.1, taken.2, rfl, hexec, h.symm⟩)
          | error failed =>
              simp only [hexec, Option.some.injEq] at h
              exact .inr (.inr ⟨op, next, failed.1, failed.2, rfl, hexec, h.symm⟩)

-- A condition on the operation a program is about to execute.
abbrev Condition (Op : Type) (Res : Op → Type) (World Exn Out ι : Type) :=
  View Op Res World Exn Out ι → ι → Op → Prop

variable (admits : Condition Op Res World Exn Out ι)

def Admitted (pool : Pool Op Res World Exn Out ι) (i : ι) : Prop :=
  ∀ op next, pool.todo i = .call op next → admits pool.toView i op

def Steps (pool later : Pool Op Res World Exn Out ι) : Prop :=
  ∃ i, pool.Admitted admits i ∧ pool.step exec i = some later

-- The runs in which every operation meets the condition.
def Reaches : Pool Op Res World Exn Out ι → Pool Op Res World Exn Out ι → Prop :=
  Relation.ReflTransGen (Steps exec admits)

variable {exec admits}

theorem Reaches.invariant {inv : Pool Op Res World Exn Out ι → Prop}
    {first last : Pool Op Res World Exn Out ι} (hrun : Reaches exec admits first last)
    (hfirst : inv first)
    (hstep : ∀ pool later i, inv pool → pool.Admitted admits i →
      pool.step exec i = some later → inv later) : inv last := by
  induction hrun with
  | refl => exact hfirst
  | tail _ hnext ih =>
      obtain ⟨i, hadmits, hnext⟩ := hnext
      exact hstep _ _ i ih hadmits hnext

theorem Reaches.mono {weaker : Condition Op Res World Exn Out ι}
    {first last : Pool Op Res World Exn Out ι} (hrun : Reaches exec admits first last)
    (h : ∀ view i op, admits view i op → weaker view i op) : Reaches exec weaker first last := by
  refine Relation.ReflTransGen.mono ?_ _ _ hrun
  rintro pool later ⟨i, hadmits, hstep⟩
  exact ⟨i, fun op next htodo => h _ _ _ (hadmits op next htodo), hstep⟩

-- The steps of a schedule, in order, as long as they are admitted.
def follow (exec : (op : Op) → World → Except (Exn × World) (Res op × World))
    (admits : Condition Op Res World Exn Out ι) [∀ view i op, Decidable (admits view i op)] :
    List ι → Pool Op Res World Exn Out ι → Option (Pool Op Res World Exn Out ι)
  | [], pool => some pool
  | i :: rest, pool =>
      let admitted := match pool.todo i with
        | .call op _ => decide (admits pool.toView i op)
        | _ => true
      if admitted then (pool.step exec i).bind (follow exec admits rest) else none

variable (exec admits) in
-- What is seen at the end of a schedule is seen in a run.
theorem exists_reaches_of_follow {α : Type} [∀ view i op, Decidable (admits view i op)]
    (schedule : List ι) (first : Pool Op Res World Exn Out ι)
    (see : Pool Op Res World Exn Out ι → α) (seen : α)
    (h : (follow exec admits schedule first).map see = some seen) :
    ∃ last, Reaches exec admits first last ∧ see last = seen := by
  obtain ⟨last, hlast, hseen⟩ := Option.map_eq_some_iff.mp h
  refine ⟨last, ?_, hseen⟩
  clear h hseen
  induction schedule generalizing first with
  | nil =>
      obtain rfl : first = last := Option.some.inj hlast
      exact .refl
  | cons i rest ih =>
      obtain ⟨hadmitted, hlast⟩ := Option.ite_none_right_eq_some.mp hlast
      obtain ⟨next, hstep, hrest⟩ := Option.bind_eq_some_iff.mp hlast
      refine .head ⟨i, fun op rest htodo => ?_, hstep⟩ (ih next hrest)
      simpa [htodo] using hadmitted

end Pool

end Interleaving
