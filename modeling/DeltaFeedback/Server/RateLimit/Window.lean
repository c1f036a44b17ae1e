import DeltaFeedback.Server.RateLimit.Bound

namespace DeltaFeedback.Server.TokenBucket

open Text

-- The calls on a key read the clock within `length` nanoseconds from `opens` on.
def InWindow (key : Bytes) (opens length : Int) (calls : List Attempt) : Prop :=
  ∀ c ∈ calls, c.key = key → c.now ≠ 0 ∧ opens ≤ c.now ∧ c.now ≤ opens + length

-- What a key can still be allowed in the window, if it is never full.
def credit (limiter : TokenBucket) (key : Bytes) (closes : Int) : ℚ :=
  (limiter.buckets key).tokens + limiter.rate * seconds (closes - (limiter.buckets key).last)

variable {limiter : TokenBucket} {key : Bytes} {opens length closes now : Int}

theorem credit_other {other : Bytes} (h : key ≠ other) :
    (limiter.allow now other).2.credit key closes = limiter.credit key closes := by
  rw [credit, credit, allow_other limiter now h, allow_rate]

theorem credit_self : (limiter.allow now key).2.credit key closes =
    (limiter.refill (limiter.buckets key) now).tokens -
      (if (limiter.allow now key).1 then 1 else 0) + limiter.rate * seconds (closes - now) := by
  rw [credit, allow_self, allow_rate]

-- A call never adds to the credit, and one that is allowed takes a token of it.
theorem credit_allow (now closes : Int) (hlast : (limiter.buckets key).last ≠ 0) :
    (limiter.allow now key).2.credit key closes + (if (limiter.allow now key).1 then 1 else 0) ≤
      limiter.credit key closes := by
  have hrefill := refill_le limiter now hlast
  have hsum : limiter.rate * seconds (closes - (limiter.buckets key).last) =
      limiter.rate * seconds (now - (limiter.buckets key).last) +
        limiter.rate * seconds (closes - now) := by
    unfold seconds
    push_cast
    ring
  rw [credit_self, credit, hsum]
  linarith

theorem credit_nonneg (hrate : 0 ≤ limiter.rate) (hnow : now ≤ closes)
    (h : (limiter.allow now key).1 = true) : 0 ≤ (limiter.allow now key).2.credit key closes := by
  have hfull := (allow_allowed_iff limiter now key).mp h
  have hleft : 0 ≤ limiter.rate * seconds (closes - now) := by
    refine mul_nonneg hrate (div_nonneg ?_ (by norm_num))
    exact_mod_cast sub_nonneg.mpr hnow
  rw [credit_self, if_pos h]
  linarith

theorem allowed_le_credit (hrate : 0 ≤ limiter.rate) {calls : List Attempt}
    (hwindow : InWindow key opens length calls) (hlast : (limiter.buckets key).last ≠ 0) :
    (allowedOn key (log limiter calls) : ℚ) ≤ max 0 (limiter.credit key (opens + length)) := by
  induction calls generalizing limiter with
  | nil => simp [log, allowedOn]
  | cons c calls ih =>
      obtain ⟨hc, hrest⟩ := List.forall_mem_cons.mp hwindow
      have hrate' : 0 ≤ (limiter.allow c.now c.key).2.rate := by rwa [allow_rate]
      rw [log, allowedOn_cons]
      by_cases hkey : c.key = key
      · subst hkey
        have hstarted : ((limiter.allow c.now c.key).2.buckets c.key).last ≠ 0 := by
          rw [allow_self]
          exact (hc rfl).1
        have hnext := ih hrate' hrest hstarted
        have hpaid := credit_allow c.now (opens + length) hlast
        by_cases hallowed : (limiter.allow c.now c.key).1 = true
        · have hcredit := credit_nonneg hrate (hc rfl).2.2 hallowed
          rw [max_eq_right hcredit] at hnext
          simp only [hallowed, and_self, if_true] at hpaid ⊢
          exact le_max_of_le_right (by linarith)
        · simp only [hallowed, and_false, Bool.false_eq_true, if_false, add_zero] at hpaid ⊢
          exact hnext.trans (max_le_max_left 0 hpaid)
      · have hkept : ((limiter.allow c.now c.key).2.buckets key).last ≠ 0 := by
          rwa [allow_other _ _ (Ne.symm hkey)]
        have hnext := ih hrate' hrest hkept
        rw [credit_other (Ne.symm hkey)] at hnext
        simpa [hkey] using hnext

-- Whatever the bucket was before, the window gets the burst and what is refilled
-- while it lasts.
theorem allowed_in_window (hrate : 0 ≤ limiter.rate) (hburst : 0 ≤ limiter.burst)
    (hlength : 0 ≤ length) {calls : List Attempt} (hwindow : InWindow key opens length calls) :
    (allowedOn key (log limiter calls) : ℚ) ≤ limiter.burst + limiter.rate * seconds length := by
  have hrefilled : 0 ≤ limiter.rate * seconds length :=
    mul_nonneg hrate (div_nonneg (by exact_mod_cast hlength) (by norm_num))
  induction calls generalizing limiter with
  | nil =>
      simp only [log, allowedOn, List.countP_nil, Nat.cast_zero]
      linarith
  | cons c calls ih =>
      obtain ⟨hc, hrest⟩ := List.forall_mem_cons.mp hwindow
      have hrate' : 0 ≤ (limiter.allow c.now c.key).2.rate := by rwa [allow_rate]
      rw [log, allowedOn_cons]
      by_cases hkey : c.key = key
      · subst hkey
        have hstarted : ((limiter.allow c.now c.key).2.buckets c.key).last ≠ 0 := by
          rw [allow_self]
          exact (hc rfl).1
        have hnext := allowed_le_credit hrate' hrest hstarted
        have hfull := refill_le_burst limiter c.now (limiter.buckets c.key)
        have hspent : limiter.rate * seconds (opens + length - c.now) ≤
            limiter.rate * seconds length := by
          refine mul_le_mul_of_nonneg_left (div_le_div_of_nonneg_right ?_ (by norm_num)) hrate
          have hopens := (hc rfl).2.1
          exact_mod_cast (by omega : opens + length - c.now ≤ length)
        by_cases hallowed : (limiter.allow c.now c.key).1 = true
        · have hcredit := credit_nonneg hrate (hc rfl).2.2 hallowed
          rw [max_eq_right hcredit, credit_self, if_pos hallowed] at hnext
          simp only [hallowed, and_self, if_true]
          linarith
        · rw [credit_self, if_neg hallowed] at hnext
          simp only [hallowed, and_false, Bool.false_eq_true, if_false, add_zero]
          exact hnext.trans (max_le (by linarith) (by linarith))
      · have hnext := ih hrate' (by rwa [allow_burst]) hrest (by rwa [allow_rate])
        rw [allow_rate, allow_burst] at hnext
        simpa [hkey] using hnext

end DeltaFeedback.Server.TokenBucket
