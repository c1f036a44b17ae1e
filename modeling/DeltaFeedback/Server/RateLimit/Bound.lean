import Mathlib.Algebra.Order.Field.Rat
import Mathlib.Tactic.FieldSimp
import Mathlib.Tactic.Linarith
import Mathlib.Tactic.Ring
import DeltaFeedback.Server.RateLimit

namespace DeltaFeedback.Server.TokenBucket

open Text

structure Attempt where
  key : Bytes
  now : Int
deriving DecidableEq

structure Decision where
  key : Bytes
  now : Int
  allowed : Bool
deriving DecidableEq

-- The calls of `allow` in the order of the lock, and what each of them answers.
def log (limiter : TokenBucket) : List Attempt → List Decision
  | [] => []
  | c :: calls =>
      ⟨c.key, c.now, (limiter.allow c.now c.key).1⟩ :: log (limiter.allow c.now c.key).2 calls

def after (limiter : TokenBucket) : List Attempt → TokenBucket
  | [] => limiter
  | c :: calls => after (limiter.allow c.now c.key).2 calls

def seconds (ns : Int) : ℚ := ns / 1000000000

def allowedOn (key : Bytes) (decisions : List Decision) : Nat :=
  decisions.countP fun d => d.key = key && d.allowed

section Steps

variable (limiter : TokenBucket) (now : Int)

@[simp] theorem allow_rate (key : Bytes) : (limiter.allow now key).2.rate = limiter.rate := by
  unfold allow
  dsimp only
  split_ifs <;> rfl

@[simp] theorem allow_burst (key : Bytes) : (limiter.allow now key).2.burst = limiter.burst := by
  unfold allow
  dsimp only
  split_ifs <;> rfl

theorem allow_other {key other : Bytes} (h : key ≠ other) :
    (limiter.allow now other).2.buckets key = limiter.buckets key := by
  unfold allow
  dsimp only
  split_ifs <;> exact Function.update_of_ne h _ _

theorem allow_full {key : Bytes} (h : 1 ≤ (limiter.refill (limiter.buckets key) now).tokens) :
    limiter.allow now key = (true, { limiter with
      buckets := Function.update limiter.buckets key
        ⟨(limiter.refill (limiter.buckets key) now).tokens - 1,
          (limiter.refill (limiter.buckets key) now).last⟩ }) := if_pos h

theorem allow_empty {key : Bytes} (h : ¬ 1 ≤ (limiter.refill (limiter.buckets key) now).tokens) :
    limiter.allow now key = (false, { limiter with
      buckets := Function.update limiter.buckets key
        (limiter.refill (limiter.buckets key) now) }) := if_neg h

theorem allow_allowed_iff (key : Bytes) :
    (limiter.allow now key).1 = true ↔
      1 ≤ (limiter.refill (limiter.buckets key) now).tokens := by
  by_cases h : 1 ≤ (limiter.refill (limiter.buckets key) now).tokens
  · simp [allow_full limiter now h, h]
  · simp [allow_empty limiter now h, h]

theorem refill_last (b : Bucket) : (limiter.refill b now).last = now := by
  unfold refill
  split_ifs <;> rfl

-- A call refills the bucket of its key, and takes a token when it is allowed.
theorem allow_self (key : Bytes) :
    (limiter.allow now key).2.buckets key =
      ⟨(limiter.refill (limiter.buckets key) now).tokens -
        (if (limiter.allow now key).1 then 1 else 0), now⟩ := by
  have hlast := refill_last limiter now (limiter.buckets key)
  by_cases h : 1 ≤ (limiter.refill (limiter.buckets key) now).tokens
  · simp [allow_full limiter now h, hlast]
  · simp only [allow_empty limiter now h, Function.update_self, Bool.false_eq_true, if_false,
      sub_zero]
    exact congrArg (Bucket.mk _) hlast

theorem refill_le_burst (b : Bucket) : (limiter.refill b now).tokens ≤ limiter.burst := by
  unfold refill
  split_ifs
  · exact le_refl _
  · exact min_le_left _ _

-- The refill may be negative: the readings of two calls can reach the lock in either order.
theorem refill_le {b : Bucket} (h : b.last ≠ 0) :
    (limiter.refill b now).tokens ≤ b.tokens + limiter.rate * seconds (now - b.last) := by
  unfold refill seconds
  rw [if_neg h, mul_comm]
  exact min_le_right _ _

theorem one_le_refill {b : Bucket} (hburst : 1 ≤ limiter.burst) (htokens : 0 ≤ b.tokens)
    (hrefill : 1 ≤ limiter.rate * seconds (now - b.last)) :
    1 ≤ (limiter.refill b now).tokens := by
  unfold refill
  split_ifs
  · exact hburst
  · refine le_min hburst ?_
    unfold seconds at hrefill
    linarith

end Steps

section Log

@[simp] theorem after_rate (limiter : TokenBucket) (calls : List Attempt) :
    (after limiter calls).rate = limiter.rate := by
  induction calls generalizing limiter with
  | nil => rfl
  | cons c calls ih => rw [after, ih, allow_rate]

@[simp] theorem after_burst (limiter : TokenBucket) (calls : List Attempt) :
    (after limiter calls).burst = limiter.burst := by
  induction calls generalizing limiter with
  | nil => rfl
  | cons c calls ih => rw [after, ih, allow_burst]

theorem after_append (limiter : TokenBucket) (first rest : List Attempt) :
    after limiter (first ++ rest) = after (after limiter first) rest := by
  induction first generalizing limiter with
  | nil => rfl
  | cons c first ih => rw [List.cons_append, after, ih, after]

theorem allowedOn_cons (key : Bytes) (d : Decision) (decisions : List Decision) :
    (allowedOn key (d :: decisions) : ℚ) =
      allowedOn key decisions + if d.key = key ∧ d.allowed = true then 1 else 0 := by
  unfold allowedOn
  rw [List.countP_cons]
  by_cases hd : d.key = key ∧ d.allowed = true
  · simp [hd]
  · rw [if_neg hd, if_neg (by simpa using hd)]
    simp

-- What is allowed on the key is paid for by the tokens it had and the time that went by.
theorem paid {limiter : TokenBucket} {key : Bytes} (calls : List Attempt)
    (hclock : ∀ c ∈ calls, c.now ≠ 0) (hlast : (limiter.buckets key).last ≠ 0) :
    ((after limiter calls).buckets key).tokens + allowedOn key (log limiter calls) ≤
      (limiter.buckets key).tokens + limiter.rate *
        seconds (((after limiter calls).buckets key).last - (limiter.buckets key).last) := by
  induction calls generalizing limiter with
  | nil => simp [after, log, allowedOn, seconds]
  | cons c calls ih =>
      obtain ⟨hc, hrest⟩ := List.forall_mem_cons.mp hclock
      rw [after, log, allowedOn_cons]
      dsimp only
      by_cases hkey : c.key = key
      · subst hkey
        have hself := allow_self limiter c.now c.key
        have hstarted : ((limiter.allow c.now c.key).2.buckets c.key).last ≠ 0 := by
          rw [hself]
          exact hc
        have hnext := ih hrest hstarted
        have hrefill := refill_le limiter c.now hlast
        rw [hself, allow_rate] at hnext
        have hsum : limiter.rate * seconds
              (((after (limiter.allow c.now c.key).2 calls).buckets c.key).last -
                (limiter.buckets c.key).last) =
            limiter.rate * seconds
              (((after (limiter.allow c.now c.key).2 calls).buckets c.key).last - c.now) +
            limiter.rate * seconds (c.now - (limiter.buckets c.key).last) := by
          unfold seconds
          push_cast
          ring
        rw [hsum]
        simp only [true_and] at *
        linarith
      · have hother := allow_other limiter c.now (Ne.symm hkey)
        have hkept : ((limiter.allow c.now c.key).2.buckets key).last ≠ 0 := by
          rw [hother]
          exact hlast
        have hnext := ih hrest hkept
        rw [hother, allow_rate] at hnext
        simpa [hkey] using hnext

theorem log_take (limiter : TokenBucket) (calls : List Attempt) (n : Nat) :
    (log limiter calls).take n = log limiter (calls.take n) := by
  induction calls generalizing limiter n with
  | nil => rw [List.take_nil, log, List.take_nil]
  | cons c calls ih =>
      cases n with
      | zero => rfl
      | succ n => rw [List.take_succ_cons, log, log, List.take_succ_cons, ih]

theorem log_drop (limiter : TokenBucket) (calls : List Attempt) (n : Nat) :
    (log limiter calls).drop n = log (after limiter (calls.take n)) (calls.drop n) := by
  induction calls generalizing limiter n with
  | nil => rw [List.drop_nil, List.take_nil, log, List.drop_nil, log]
  | cons c calls ih =>
      cases n with
      | zero => rfl
      | succ n => rw [List.take_succ_cons, log, after, List.drop_succ_cons, List.drop_succ_cons, ih]

theorem log_getElem? (limiter : TokenBucket) (calls : List Attempt) (i : Nat) :
    (log limiter calls)[i]? = calls[i]?.map fun c =>
      ⟨c.key, c.now, ((after limiter (calls.take i)).allow c.now c.key).1⟩ := by
  induction calls generalizing limiter i with
  | nil => simp [log]
  | cons c calls ih =>
      cases i with
      | zero => simp [log, after]
      | succ i => simp [log, after, ih]

end Log

section Window

-- The first call of a window leaves at most the burst.
theorem window_paid (limiter : TokenBucket) {first : Attempt} {rest : List Attempt}
    (hclock : ∀ c ∈ first :: rest, c.now ≠ 0) :
    ((after limiter (first :: rest)).buckets first.key).tokens +
        allowedOn first.key (log limiter (first :: rest)) ≤
      limiter.burst + limiter.rate *
        seconds (((after limiter (first :: rest)).buckets first.key).last - first.now) := by
  obtain ⟨hfirst, hrest⟩ := List.forall_mem_cons.mp hclock
  have hself := allow_self limiter first.now first.key
  have hfull := refill_le_burst limiter first.now (limiter.buckets first.key)
  have hstarted : ((limiter.allow first.now first.key).2.buckets first.key).last ≠ 0 := by
    rw [hself]
    exact hfirst
  have hpaid := paid rest hrest hstarted
  rw [hself, allow_rate] at hpaid
  rw [after, log, allowedOn_cons]
  simp only [true_and] at *
  linarith

-- A call that is allowed leaves no debt.
theorem after_allowed {limiter : TokenBucket} {last : Attempt}
    (h : (limiter.allow last.now last.key).1 = true) :
    0 ≤ ((limiter.allow last.now last.key).2.buckets last.key).tokens ∧
      ((limiter.allow last.now last.key).2.buckets last.key).last = last.now := by
  have hfull := (allow_allowed_iff limiter last.now last.key).mp h
  rw [allow_self, h]
  refine ⟨?_, rfl⟩
  simp only [if_true]
  linarith

theorem window_bound {limiter : TokenBucket} {calls : List Attempt} {i j : Nat}
    {first last : Decision} {key : Bytes} (hclock : ∀ c ∈ calls, c.now ≠ 0) (hij : i ≤ j)
    (hfirst : (log limiter calls)[i]? = some first) (hlast : (log limiter calls)[j]? = some last)
    (hkey : first.key = key) (hkey' : last.key = key) (hallowed : last.allowed = true) :
    allowedOn key (((log limiter calls).drop i).take (j + 1 - i)) ≤
      limiter.burst + limiter.rate * seconds (last.now - first.now) := by
  rw [log_getElem?] at hfirst hlast
  obtain ⟨a, ha, rfl⟩ := Option.map_eq_some_iff.mp hfirst
  obtain ⟨b, hb, rfl⟩ := Option.map_eq_some_iff.mp hlast
  dsimp only at hkey hkey' hallowed ⊢
  obtain ⟨k, rfl⟩ := Nat.exists_eq_add_of_le hij
  rw [show i + k + 1 - i = k + 1 by omega, log_drop, log_take]
  -- the window, by its first call and by its last
  have hhead : (calls.drop i).take (k + 1) = a :: (calls.drop (i + 1)).take k := by
    obtain ⟨hi, ha⟩ := List.getElem?_eq_some_iff.mp ha
    rw [List.drop_eq_getElem_cons hi, List.take_succ_cons, ha]
  have htail : (calls.drop i).take (k + 1) = (calls.drop i).take k ++ [b] := by
    rw [List.take_add_one, List.getElem?_drop, hb, Option.toList_some]
  have hstart : after (after limiter (calls.take i)) ((calls.drop i).take k) =
      after limiter (calls.take (i + k)) := by
    rw [← after_append, ← List.take_add]
  have hend := after_allowed hallowed
  have hclocks : ∀ c ∈ a :: (calls.drop (i + 1)).take k, c.now ≠ 0 := by
    intro c hc
    rw [← hhead] at hc
    exact hclock c (List.mem_of_mem_drop (List.mem_of_mem_take hc))
  have hpaid := window_paid (after limiter (calls.take i)) hclocks
  rw [← hhead, htail, after_append, hstart, after, after, hkey, ← hkey', hend.2, after_burst,
    after_rate] at hpaid
  rw [htail, ← hkey']
  linarith [hend.1]

end Window

section Keys

-- All that `allow` looks at for a key.
structure Same (key : Bytes) (limiter other : TokenBucket) : Prop where
  rate : limiter.rate = other.rate
  burst : limiter.burst = other.burst
  bucket : limiter.buckets key = other.buckets key

variable {key : Bytes} {limiter other : TokenBucket}

theorem Same.refill (h : Same key limiter other) (now : Int) :
    limiter.refill (limiter.buckets key) now = other.refill (other.buckets key) now := by
  unfold TokenBucket.refill
  rw [h.rate, h.burst, h.bucket]

theorem Same.allowed (h : Same key limiter other) (now : Int) :
    (limiter.allow now key).1 = (other.allow now key).1 := by
  rw [Bool.eq_iff_iff, allow_allowed_iff, allow_allowed_iff, h.refill now]

theorem Same.allow (h : Same key limiter other) (now : Int) :
    Same key (limiter.allow now key).2 (other.allow now key).2 := by
  constructor
  · rw [allow_rate, allow_rate, h.rate]
  · rw [allow_burst, allow_burst, h.burst]
  · rw [allow_self, allow_self, h.refill now, h.allowed now]

theorem Same.allow_other (h : Same key limiter other) {attempt : Attempt}
    (hkey : attempt.key ≠ key) :
    Same key (limiter.allow attempt.now attempt.key).2 other := by
  constructor
  · rw [allow_rate, h.rate]
  · rw [allow_burst, h.burst]
  · rw [TokenBucket.allow_other _ _ (Ne.symm hkey), h.bucket]

-- The calls on other keys can be left out.
theorem log_filter (h : Same key limiter other) (calls : List Attempt) :
    (log limiter calls).filter (fun d => d.key = key) =
      log other (calls.filter fun c => c.key = key) := by
  induction calls generalizing limiter other with
  | nil => rfl
  | cons c calls ih =>
      by_cases hkey : c.key = key
      · subst hkey
        rw [log, List.filter_cons_of_pos (by simp), List.filter_cons_of_pos (by simp), log,
          h.allowed, ih (h.allow c.now)]
      · rw [log, List.filter_cons_of_neg (by simpa using hkey),
          List.filter_cons_of_neg (by simpa using hkey), ih (h.allow_other hkey)]

end Keys

section Spaced

-- From a call that is allowed on, each next one finds a whole token refilled.
theorem spaced_allowed {limiter : TokenBucket} {key : Bytes} (hrate : 0 < limiter.rate)
    (hburst : 1 ≤ limiter.burst) {calls : List Attempt} (hkey : ∀ c ∈ calls, c.key = key)
    (hspaced : calls.IsChain fun c d => 1 / limiter.rate ≤ seconds (d.now - c.now))
    (hfirst : ∀ c ∈ calls.head?, 1 ≤ (limiter.refill (limiter.buckets key) c.now).tokens) :
    ∀ d ∈ log limiter calls, d.allowed = true := by
  induction calls generalizing limiter with
  | nil => simp [log]
  | cons c calls ih =>
      obtain ⟨hc, hrest⟩ := List.forall_mem_cons.mp hkey
      subst hc
      have hallowed := (allow_allowed_iff limiter c.now c.key).mpr (hfirst c rfl)
      have hend := after_allowed hallowed
      rw [log]
      refine List.forall_mem_cons.mpr ⟨hallowed, ih ?_ ?_ hrest ?_ ?_⟩
      · rw [allow_rate]
        exact hrate
      · rw [allow_burst]
        exact hburst
      · rw [allow_rate]
        exact List.isChain_of_isChain_cons hspaced
      · intro d hd
        obtain ⟨calls', rfl⟩ := List.head?_eq_some_iff.mp hd
        have hgap := (List.isChain_cons_cons.mp hspaced).1
        refine one_le_refill _ _ (by rw [allow_burst]; exact hburst) hend.1 ?_
        rw [allow_rate, hend.2]
        rwa [div_le_iff₀' hrate] at hgap

end Spaced

theorem rate_limit {rate burst : ℚ} (hrate : 0 < rate) (hburst : 1 ≤ burst)
    {calls : List Attempt} (hclock : ∀ c ∈ calls, c.now ≠ 0) (key : Bytes) :
    (∀ (i j : Nat) (first last : Decision), i ≤ j →
      (log (new rate burst) calls)[i]? = some first →
      (log (new rate burst) calls)[j]? = some last →
      first.key = key → last.key = key → last.allowed = true →
      allowedOn key (((log (new rate burst) calls).drop i).take (j + 1 - i)) ≤
        burst + rate * seconds (last.now - first.now)) ∧
    (log (new rate burst) calls).filter (fun d => d.key = key) =
      log (new rate burst) (calls.filter fun c => c.key = key) ∧
    ((calls.filter fun c => c.key = key).IsChain
        (fun c d => 1 / rate ≤ seconds (d.now - c.now)) →
      ∀ d ∈ log (new rate burst) calls, d.key = key → d.allowed = true) := by
  have hsame : Same key (new rate burst) (new rate burst) := ⟨rfl, rfl, rfl⟩
  have hfilter := log_filter hsame calls
  refine ⟨?_, hfilter, ?_⟩
  · intro i j first last hij hfirst hlast hkey hkey' hallowed
    exact window_bound hclock hij hfirst hlast hkey hkey' hallowed
  · intro hspaced d hd hkey
    have hmem : d ∈ (log (new rate burst) calls).filter (fun d => d.key = key) :=
      List.mem_filter.mpr ⟨hd, by simpa using hkey⟩
    rw [hfilter] at hmem
    have hkeys : ∀ c ∈ calls.filter fun c => c.key = key, c.key = key := by
      intro c hc
      simpa using (List.mem_filter.mp hc).2
    refine spaced_allowed hrate hburst hkeys hspaced ?_ d hmem
    intro c _
    exact hburst

-- Two polls of one key that are spaced, and one of another key between them.
def polls : List Attempt :=
  [⟨utf8 "a", 1⟩, ⟨utf8 "b", 2⟩, ⟨utf8 "a", 20000000001⟩]

theorem rate_limit_polls :
    allowedOn (utf8 "a") ((log (new (1 / 10) 6) polls).take 3) ≤
      (6 : ℚ) + 1 / 10 * seconds 20000000000 ∧
    ∀ d ∈ log (new (1 / 10) 6) polls, d.key = utf8 "a" → d.allowed = true := by
  obtain ⟨hwindow, -, hspaced⟩ := rate_limit (by norm_num : (0 : ℚ) < 1 / 10)
    (by norm_num : (1 : ℚ) ≤ 6) (by decide +kernel : ∀ c ∈ polls, c.now ≠ 0) (utf8 "a")
  constructor
  · exact hwindow 0 2 ⟨utf8 "a", 1, true⟩ ⟨utf8 "a", 20000000001, true⟩ (by decide)
      (by decide +kernel) (by decide +kernel) rfl rfl rfl
  · exact hspaced (by decide +kernel)

end DeltaFeedback.Server.TokenBucket
