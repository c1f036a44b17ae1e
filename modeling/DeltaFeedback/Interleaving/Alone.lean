import DeltaFeedback.Interleaving.Discipline

namespace Interleaving

variable {Op : Type} {Res : Op → Type} {World Exn α : Type}

variable (exec : (op : Op) → World → Except (Exn × World) (Res op × World))

-- The operations of a trail, executed one after the other with nobody in
-- between, lead from the first world to the last.
inductive Leads (first : World) : List (Taken Op Res) → World → Prop
  | refl : Leads first [] first
  | step {trail : List (Taken Op Res)} {before : World} {op : Op} {result : Res op} {world : World}
      (h : Leads first trail before) (hexec : exec op before = .ok (result, world)) :
      Leads first (⟨op, result⟩ :: trail) world

variable {exec} {first between last : World} {trail lower upper : List (Taken Op Res)}

theorem Leads.of_nil (h : Leads exec first [] last) : last = first := by
  cases h
  rfl

theorem Leads.of_cons {op : Op} {result : Res op}
    (h : Leads exec first (⟨op, result⟩ :: trail) last) :
    ∃ before, Leads exec first trail before ∧ exec op before = .ok (result, last) := by
  cases h with
  | step h hexec => exact ⟨_, h, hexec⟩

theorem Leads.of_append (h : Leads exec first (upper ++ lower) last) :
    ∃ between, Leads exec first lower between ∧ Leads exec between upper last := by
  induction upper generalizing last with
  | nil => exact ⟨last, h, .refl⟩
  | cons taken upper ih =>
      obtain ⟨before, hbefore, hexec⟩ := h.of_cons
      obtain ⟨between, hlower, hupper⟩ := ih hbefore
      exact ⟨between, hlower, hupper.step hexec⟩

-- What every operation of the trail preserves.
theorem Leads.invariant (h : Leads exec first trail last) (inv : World → Prop) (hfirst : inv first)
    (hstep : ∀ taken ∈ trail, ∀ before world, inv before →
      exec taken.1 before = .ok (taken.2, world) → inv world) : inv last := by
  induction h with
  | refl => exact hfirst
  | step _ hexec ih =>
      rw [List.forall_mem_cons] at hstep
      exact hstep.1 _ _ (ih hstep.2) hexec

-- A program that keeps to a discipline, alone: its trail and its end, the world
-- that the trail has reached and the one it leaves, which is another one only if
-- an operation has failed.
structure Alone (exec : (op : Op) → World → Except (Exn × World) (Res op × World))
    (legal : List (Taken Op Res) → Prop) (done : List (Taken Op Res) → Except Exn α → Prop)
    (first : World) (outcome : Except Exn α) (trail : List (Taken Op Res)) (reached last : World) :
    Prop where
  returns : ∀ value, outcome = .ok value → last = reached
  fails : ∀ exn, outcome = .error exn → Fails exec legal trail reached exn last
  leads : Leads exec first trail reached
  legal : legal trail
  done : done trail outcome

-- What the trail has come to is what is left, where a failure keeps it up.
theorem Alone.carries {legal : List (Taken Op Res) → Prop}
    {done : List (Taken Op Res) → Except Exn α → Prop} {outcome : Except Exn α} {reached : World}
    (h : Alone exec legal done first outcome trail reached last) (inv : World → Prop)
    (hreached : inv reached)
    (hfails : ∀ op exn world, exec op reached = .error (exn, world) → inv world) : inv last := by
  cases outcome with
  | ok value => exact h.returns value rfl ▸ hreached
  | error exn =>
      obtain ⟨op, hexec, -⟩ := h.fails exn rfl
      exact hfails op exn last hexec

theorem Prog.run_follows {legal : List (Taken Op Res) → Prop}
    {done : List (Taken Op Res) → Except Exn α → Prop} {prog : Prog Op Res α}
    (hprog : Follows exec legal done prog trail) (hlegal : legal trail)
    (htrail : Leads exec first trail last) : ∃ reached, Alone exec legal done first
      (prog.run exec trail last).1 (prog.run exec trail last).2.1 reached
      (prog.run exec trail last).2.2 := by
  induction prog generalizing trail last with
  | ret value => exact ⟨last, fun _ _ => rfl, by simp [run], htrail, hlegal, hprog⟩
  | call op next ih =>
      cases hexec : exec op last with
      | ok taken =>
          have hop := hprog.1 _ _ _ hexec
          simp only [run, hexec]
          exact ih _ hop.2 hop.1 (htrail.step hexec)
      | error failed =>
          simp only [run, hexec]
          refine ⟨last, by simp, ?_, htrail, hlegal, hprog.2 _ _ _ hexec⟩
          rintro _ ⟨⟩
          exact ⟨op, hexec, fun before result world hok => (hprog.1 before result world hok).1⟩

end Interleaving
