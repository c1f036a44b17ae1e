import Mathlib.Logic.Function.Basic
import Mathlib.Tactic.SplitIfs

namespace Interleaving

-- A sequential program as the tree of its atomic operations: what it does after
-- an operation depends on the result.
inductive Prog (Op : Type) (Res : Op → Type) (α : Type) : Type
  | ret (value : α)
  | call (op : Op) (next : Res op → Prog Op Res α)

-- A completed operation as the program that took it sees it.
abbrev Taken (Op : Type) (Res : Op → Type) := (op : Op) × Res op

namespace Prog

variable {Op : Type} {Res : Op → Type} {Exn World α β γ : Type}

def bind : Prog Op Res α → (α → Prog Op Res β) → Prog Op Res β
  | .ret value, rest => rest value
  | .call op next, rest => .call op fun result => (next result).bind rest

instance : Monad (Prog Op Res) where
  pure := .ret
  bind := bind

def perform (op : Op) : Prog Op Res (Res op) := .call op .ret

@[simp] theorem pure_eq_ret (value : α) : (pure value : Prog Op Res α) = .ret value := rfl

@[simp] theorem ret_bind (value : α) (rest : α → Prog Op Res β) :
    (.ret value : Prog Op Res α) >>= rest = rest value := rfl

@[simp] theorem call_bind (op : Op) (next : Res op → Prog Op Res α) (rest : α → Prog Op Res β) :
    (.call op next : Prog Op Res α) >>= rest = .call op fun result => next result >>= rest := rfl

@[simp] theorem perform_bind (op : Op) (rest : Res op → Prog Op Res β) :
    (perform op : Prog Op Res (Res op)) >>= rest = .call op rest := rfl

theorem id_map (prog : Prog Op Res α) : id <$> prog = prog := by
  induction prog with
  | ret value => rfl
  | call op next ih => exact congrArg (Prog.call op) (funext ih)

theorem bind_assoc (prog : Prog Op Res α) (first : α → Prog Op Res β)
    (second : β → Prog Op Res γ) :
    prog >>= first >>= second = prog >>= fun value => first value >>= second := by
  induction prog with
  | ret value => rfl
  | call op next ih => exact congrArg (Prog.call op) (funext ih)

instance : LawfulMonad (Prog Op Res) :=
  LawfulMonad.mk' _ id_map (fun _ _ => rfl) bind_assoc

-- Only allowed operations, whatever they return.
def Only (allowed : Op → Prop) : Prog Op Res α → Prop
  | .ret _ => True
  | .call op next => allowed op ∧ ∀ result, (next result).Only allowed

theorem Only.bind {allowed : Op → Prop} {prog : Prog Op Res α} {rest : α → Prog Op Res β}
    (h : prog.Only allowed) (hrest : ∀ value, (rest value).Only allowed) :
    (prog >>= rest).Only allowed := by
  induction prog with
  | ret value => exact hrest value
  | call op next ih => exact ⟨h.1, fun result => ih result (h.2 result)⟩

theorem Only.map {allowed : Op → Prop} {prog : Prog Op Res α} (f : α → β)
    (h : prog.Only allowed) : (f <$> prog).Only allowed := by
  rw [map_eq_pure_bind]
  exact h.bind fun _ => trivial

theorem only_ite {allowed : Op → Prop} {c : Prop} [Decidable c] {yes no : Prog Op Res α}
    (hyes : c → yes.Only allowed) (hno : ¬ c → no.Only allowed) :
    (if c then yes else no).Only allowed := by
  split_ifs with h
  · exact hyes h
  · exact hno h

-- The program with the world to itself, after the operations in `trail`. An
-- operation that fails ends the program, in the world that it has left.
def run (exec : (op : Op) → World → Except (Exn × World) (Res op × World)) :
    Prog Op Res α → List (Taken Op Res) → World → Except Exn α × List (Taken Op Res) × World
  | .ret value, trail, world => (.ok value, trail, world)
  | .call op next, trail, world =>
      match exec op world with
      | .ok (result, later) => (next result).run exec (⟨op, result⟩ :: trail) later
      | .error (exn, later) => (.error exn, trail, later)

-- The same without the trail.
def eval (exec : (op : Op) → World → Except (Exn × World) (Res op × World)) :
    Prog Op Res α → World → Except Exn α × World
  | .ret value, world => (.ok value, world)
  | .call op next, world =>
      match exec op world with
      | .ok (result, later) => (next result).eval exec later
      | .error (exn, later) => (.error exn, later)

variable {exec : (op : Op) → World → Except (Exn × World) (Res op × World)} {world later : World}

theorem run_eq_eval (prog : Prog Op Res α) (trail : List (Taken Op Res)) (world : World) :
    ((prog.run exec trail world).1, (prog.run exec trail world).2.2) = prog.eval exec world := by
  induction prog generalizing trail world with
  | ret value => rfl
  | call op next ih =>
      simp only [run, eval]
      cases exec op world with
      | ok taken => exact ih taken.1 _ taken.2
      | error failed => rfl

@[simp] theorem eval_ret (value : α) : (.ret value : Prog Op Res α).eval exec world =
    (.ok value, world) := rfl

theorem eval_call {op : Op} {result : Res op} {next : Res op → Prog Op Res α}
    {ended : Except Exn α × World} (hexec : exec op world = .ok (result, later))
    (h : (next result).eval exec later = ended) : (Prog.call op next).eval exec world = ended := by
  simp only [eval, hexec]
  exact h

theorem eval_of_call {op : Op} {result : Res op} {next : Res op → Prog Op Res α}
    {ended : Except Exn α × World} (hexec : exec op world = .ok (result, later))
    (h : (Prog.call op next).eval exec world = ended) : (next result).eval exec later = ended := by
  simp only [eval, hexec] at h
  exact h

theorem eval_of_error {op : Op} {exn : Exn} {next : Res op → Prog Op Res α}
    {ended : Except Exn α × World} (hexec : exec op world = .error (exn, later))
    (h : (Prog.call op next).eval exec world = ended) : (.error exn, later) = ended := by
  simp only [eval, hexec] at h
  exact h

theorem eval_bind (prog : Prog Op Res α) (rest : α → Prog Op Res β) (world : World) :
    (prog >>= rest).eval exec world = match prog.eval exec world with
      | (.ok value, later) => (rest value).eval exec later
      | (.error exn, later) => (.error exn, later) := by
  induction prog generalizing world with
  | ret value => rfl
  | call op next ih =>
      simp only [call_bind, eval]
      cases exec op world with
      | ok taken => exact ih taken.1 taken.2
      | error failed => rfl

-- What all operations of a program preserve, those that fail too.
theorem Only.eval {allowed : Op → Prop} {prog : Prog Op Res α} (h : prog.Only allowed)
    (inv : World → Prop) (hworld : inv world) (hstep : ∀ op, allowed op → ∀ before result later,
      inv before → exec op before = .ok (result, later) → inv later)
    (hfails : ∀ op, allowed op → ∀ before exn later, inv before →
      exec op before = .error (exn, later) → inv later) : inv (prog.eval exec world).2 := by
  induction prog generalizing world with
  | ret value => exact hworld
  | call op next ih =>
      simp only [Prog.eval]
      cases hexec : exec op world with
      | ok taken => exact ih taken.1 (h.2 taken.1) (hstep op h.1 _ _ _ hworld hexec)
      | error failed => exact hfails op h.1 _ _ _ hworld hexec

theorem eval_map (prog : Prog Op Res α) (f : α → β) (world : World) :
    (f <$> prog).eval exec world = ((prog.eval exec world).1.map f, (prog.eval exec world).2) := by
  induction prog generalizing world with
  | ret value => rfl
  | call op next ih =>
      change (Prog.call op fun result => f <$> next result).eval exec world = _
      simp only [eval]
      cases exec op world with
      | ok taken => exact ih taken.1 taken.2
      | error failed => rfl

end Prog

end Interleaving
