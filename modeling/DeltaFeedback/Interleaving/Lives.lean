import DeltaFeedback.Interleaving.Pool

namespace Interleaving

-- A process over a world that outlives it: what a start makes of the world, the
-- programs of its jobs, and which operations it lets them execute.
structure Process (Op : Type) (Res : Op → Type) (World Exn Out Job ι : Type) where
  boot : World → World
  prog : Job → Prog Op Res Out
  admits : (ι → Job) → Pool.Condition Op Res World Exn Out ι

namespace Process

variable {Op : Type} {Res : Op → Type} {World Exn Out Job ι : Type} [DecidableEq ι]
variable (exec : (op : Op) → World → Except (Exn × World) (Res op × World))
variable (process : Process Op Res World Exn Out Job ι)

def start (jobs : ι → Job) (world : World) : Pool Op Res World Exn Out ι :=
  Pool.start (process.boot world) fun i => process.prog (jobs i)

-- What a process that was started on a world can have come to.
def Life (jobs : ι → Job) (world : World) (pool : Pool Op Res World Exn Out ι) : Prop :=
  Pool.Reaches exec (process.admits jobs) (process.start jobs world) pool

-- One process after the other, each with jobs of its own and each killed at some
-- point: what it kept to itself is gone.
def Lives (killed : View Op Res World Exn Out ι → Prop) : World → World → Prop :=
  Relation.ReflTransGen fun world last =>
    ∃ jobs pool, process.Life exec jobs world pool ∧ killed pool.toView ∧ pool.world = last

variable {exec process} {killed : View Op Res World Exn Out ι → Prop}

-- What every life keeps up from a safe world on, and what is left of it whenever
-- the process is killed.
theorem Lives.invariant {safe : World → Prop} {inv : (ι → Job) → View Op Res World Exn Out ι → Prop}
    {first last : World} (hrun : process.Lives exec killed first last) (hfirst : safe first)
    (hlife : ∀ jobs world pool, safe world → process.Life exec jobs world pool →
      inv jobs pool.toView)
    (hkilled : ∀ jobs view, inv jobs view → killed view → safe view.world) : safe last := by
  induction hrun with
  | refl => exact hfirst
  | tail _ hnext ih =>
      obtain ⟨jobs, pool, hpool, hend, rfl⟩ := hnext
      exact hkilled jobs pool.toView (hlife jobs _ pool ih hpool) hend

end Process

end Interleaving
