import DeltaFeedback.Interleaving.Prog

namespace Interleaving

variable {Op : Type} {Res : Op → Type} {World Exn α β γ δ : Type}

-- The same exception, or values that are related.
def AlikeEnds (rel : α → β → Prop) : Except Exn α → Except Exn β → Prop
  | .ok x, .ok y => rel x y
  | .error exn, .error other => exn = other
  | _, _ => False

theorem AlikeEnds.eq {first second : Except Exn α} (h : AlikeEnds (· = ·) first second) :
    first = second := by
  cases first with
  | ok x =>
      cases second with
      | ok y => exact congrArg Except.ok h
      | error other => exact h.elim
  | error exn =>
      cases second with
      | ok y => exact h.elim
      | error other => exact congrArg Except.error h

section Twins

variable (exec : (op : Op) → World → Except (Exn × World) (Res op × World))
variable (inv : World → World → Prop)

-- Two operations that both fail, with the same exception, or are both completed.
def AlikeSteps {op other : Op} (rel : Res op × World → Res other × World → Prop) :
    Except (Exn × World) (Res op × World) → Except (Exn × World) (Res other × World) → Prop
  | .ok taken, .ok done => rel taken done
  | .error failed, .error other => failed.1 = other.1 ∧ inv failed.2 other.2
  | _, _ => False

variable {inv} in
theorem AlikeSteps.mono {op other : Op} {rel weaker : Res op × World → Res other × World → Prop}
    {first : Except (Exn × World) (Res op × World)} {second : Except (Exn × World) (Res other × World)}
    (h : AlikeSteps inv rel first second)
    (hrel : ∀ taken done, first = .ok taken → second = .ok done → rel taken done → weaker taken done) :
    AlikeSteps inv weaker first second := by
  cases first with
  | ok taken =>
      cases second with
      | ok done => exact hrel taken done rfl rfl h
      | error thrown => exact h
  | error failed =>
      cases second with
      | ok done => exact h
      | error thrown => exact h

-- Two programs, each alone: from worlds that are related by `inv` they end
-- alike, in worlds that are related again.
def Twins (rel : α → β → Prop) (left : Prog Op Res α) (right : Prog Op Res β) : Prop :=
  ∀ first second trail other, inv first second →
    AlikeEnds rel (left.run exec trail first).1 (right.run exec other second).1 ∧
      inv (left.run exec trail first).2.2 (right.run exec other second).2.2

variable {exec inv} {rel : α → β → Prop} {left : Prog Op Res α} {right : Prog Op Res β}

theorem twins_ret {x : α} {y : β} (h : rel x y) :
    Twins exec inv rel (.ret x : Prog Op Res α) (.ret y) :=
  fun _ _ _ _ hinv => ⟨h, hinv⟩

-- Both sides branch on the same condition.
theorem twins_ite {c : Prop} [Decidable c] {next : Prog Op Res α} {rest : Prog Op Res β}
    (hpos : c → Twins exec inv rel left right) (hneg : ¬ c → Twins exec inv rel next rest) :
    Twins exec inv rel (if c then left else next) (if c then right else rest) := by
  by_cases hc : c
  · rw [if_pos hc, if_pos hc]
    exact hpos hc
  · rw [if_neg hc, if_neg hc]
    exact hneg hc

theorem twins_call {op other : Op} (step : Res op → Res other → Prop)
    {next : Res op → Prog Op Res α} {rest : Res other → Prog Op Res β}
    (hstep : ∀ first second, inv first second → AlikeSteps inv
      (fun taken done => step taken.1 done.1 ∧ inv taken.2 done.2) (exec op first) (exec other second))
    (hnext : ∀ result reply, step result reply → Twins exec inv rel (next result) (rest reply)) :
    Twins exec inv rel (.call op next) (.call other rest) := by
  intro first second trail later hinv
  have hends := hstep first second hinv
  cases hleft : exec op first with
  | ok taken =>
      cases hright : exec other second with
      | ok done =>
          rw [hleft, hright] at hends
          simp only [Prog.run, hleft, hright]
          exact hnext _ _ hends.1 _ _ _ _ hends.2
      | error failed =>
          rw [hleft, hright] at hends
          exact hends.elim
  | error failed =>
      cases hright : exec other second with
      | ok done =>
          rw [hleft, hright] at hends
          exact hends.elim
      | error thrown =>
          rw [hleft, hright] at hends
          simp only [Prog.run, hleft, hright]
          exact hends

-- An operation and a question about it, which the invariant need not hold between.
theorem twins_pair {op ask : Op} (step : Res ask → Res ask → Prop)
    {next : Res ask → Prog Op Res α} {rest : Res ask → Prog Op Res β}
    (hpair : ∀ first second, inv first second → AlikeSteps inv
      (fun taken done => ∃ reply other, exec ask taken.2 = .ok reply ∧ exec ask done.2 = .ok other ∧
        step reply.1 other.1 ∧ inv reply.2 other.2) (exec op first) (exec op second))
    (hnext : ∀ reply other, step reply other → Twins exec inv rel (next reply) (rest other)) :
    Twins exec inv rel (.call op fun _ => .call ask next) (.call op fun _ => .call ask rest) := by
  intro first second trail later hinv
  have hends := hpair first second hinv
  cases hleft : exec op first with
  | ok taken =>
      cases hright : exec op second with
      | ok done =>
          rw [hleft, hright] at hends
          obtain ⟨reply, other, hreply, hother, hstep, hworlds⟩ := hends
          simp only [Prog.run, hleft, hright, hreply, hother]
          exact hnext _ _ hstep _ _ _ _ hworlds
      | error failed =>
          rw [hleft, hright] at hends
          exact hends.elim
  | error failed =>
      cases hright : exec op second with
      | ok done =>
          rw [hleft, hright] at hends
          exact hends.elim
      | error thrown =>
          rw [hleft, hright] at hends
          simp only [Prog.run, hleft, hright]
          exact hends

theorem run_bind (prog : Prog Op Res α) (rest : α → Prog Op Res γ) (trail : List (Taken Op Res))
    (world : World) : (prog >>= rest).run exec trail world =
      match prog.run exec trail world with
      | (.ok value, trail, world) => (rest value).run exec trail world
      | (.error exn, trail, world) => (.error exn, trail, world) := by
  induction prog generalizing trail world with
  | ret value => rfl
  | call op next ih =>
      rw [Prog.call_bind, Prog.run, Prog.run]
      cases exec op world with
      | ok taken => exact ih taken.1 _ taken.2
      | error failed => rfl

theorem Twins.bind {later : γ → δ → Prop} {next : α → Prog Op Res γ} {rest : β → Prog Op Res δ}
    (h : Twins exec inv rel left right)
    (hnext : ∀ x y, rel x y → Twins exec inv later (next x) (rest y)) :
    Twins exec inv later (left >>= next) (right >>= rest) := by
  intro first second trail other hinv
  have hends := h first second trail other hinv
  rw [run_bind, run_bind]
  generalize left.run exec trail first = run at hends
  generalize right.run exec other second = reply at hends
  obtain ⟨outcome, trail, world⟩ := run
  obtain ⟨answer, other, site⟩ := reply
  obtain ⟨halike, hworlds⟩ := hends
  cases outcome with
  | ok x =>
      cases answer with
      | ok y => exact hnext x y halike _ _ _ _ hworlds
      | error exn => exact halike.elim
  | error exn =>
      cases answer with
      | ok y => exact halike.elim
      | error thrown => exact ⟨halike, hworlds⟩

-- One program, twice: it returns the same value.
theorem Twins.bind_eq {prog : Prog Op Res α} {later : γ → δ → Prop} {next : α → Prog Op Res γ}
    {rest : α → Prog Op Res δ} (h : Twins exec inv (· = ·) prog prog)
    (hnext : ∀ x, Twins exec inv later (next x) (rest x)) :
    Twins exec inv later (prog >>= next) (prog >>= rest) := by
  refine h.bind fun x y hxy => ?_
  subst hxy
  exact hnext x

end Twins

end Interleaving
