import Mathlib.Data.Fintype.BigOperators
import Mathlib.Data.Fintype.Pi
import Mathlib.Data.List.OfFn
import Mathlib.Tactic.NormNum
import DeltaFeedback.Feedback.Service.Trails

namespace DeltaFeedback.Feedback.Service

open Text

-- A Mersenne Twister, as the stream of its outputs for each seed.
abbrev Mt19937 := UInt32 → Nat → UInt64

-- What the i-th ticket of a worker thread draws: one number for the id and
-- four for the read token. `std::random_device` gives the thread its seed.
def threadRng (mt : Mt19937) (seed : UInt32) (i : Nat) (env : Env) : Env :=
  { env with draw := fun j => mt seed (5 * i + j) }

-- The i-th ticket id and read token that submit_new can return on the thread,
-- under any schedule.
def Returns (service : Service) (mt : Mt19937) (seed : UInt32) (i : Nat) (pair : Bytes × Bytes) :
    Prop :=
  ∃ input env trail result, service.SubmitEnd input (threadRng mt seed i env) trail (.ok result) ∧
    (result.error = .Ok ∨ result.error = .SendFailed) ∧ pair = (result.ticketId, result.readToken)

-- `token` can follow on a thread that has returned the pairs `earlier`.
def Possible (service : Service) (mt : Mt19937) (earlier : List (Bytes × Bytes)) (token : Bytes) :
    Prop :=
  ∃ seed, (∀ i pair, earlier[i]? = some pair → Returns service mt seed i pair) ∧
    ∃ id, Returns service mt seed earlier.length (id, token)

def HexToken (token : Bytes) : Prop := token.length = 64 ∧ ∀ c ∈ token, c ∈ Pow.kHex

-- The i-th token of a seed.
def seededToken (mt : Mt19937) (seed : UInt32) (i : Nat) : Bytes :=
  Pow.toHex (makeRandom (fun j => mt seed (5 * i + (j + 1))) 32)

theorem submitPowError_issued {verdict : Pow.VerifyResult} {error : SubmitError}
    (h : submitPowError verdict = some error) : error ≠ .Ok ∧ error ≠ .SendFailed := by
  cases verdict <;> simp [submitPowError] at h <;> subst h <;> decide

theorem reportError_issued (r : ValidationReport) :
    reportError r ≠ .Ok ∧ reportError r ≠ .SendFailed := by
  unfold reportError
  split_ifs <;> decide

theorem readToken_of_end {service : Service} {input : SubmitInput} {env : Env} {trail : Trail}
    {result : SubmitResult} (hend : service.SubmitEnd input env trail (.ok result))
    (hissued : result.error = .Ok ∨ result.error = .SendFailed) :
    result.readToken = readToken env := by
  cases hend with
  | Pow error h =>
      have hnot := submitPowError_issued h
      rcases hissued with h | h
      · exact absurd h hnot.1
      · exact absurd h hnot.2
  | Replayed n h hn => rcases hissued with h | h <;> cases h
  | BadReport h hrep =>
      have hnot := reportError_issued (service.limits.validate (submissionInput input))
      rcases hissued with h | h
      · exact absurd h hnot.1
      · exact absurd h hnot.2
  | NoOwner h => rcases hissued with h | h <;> cases h
  | Unsent owner rowId contact h => rfl
  | Refused owner rowId contact quote h hid => rfl
  | Ok owner rowId contact quote h hid => rfl

theorem Returns.token {service : Service} {mt : Mt19937} {seed : UInt32} {i : Nat}
    {id token : Bytes} (h : Returns service mt seed i (id, token)) :
    token = seededToken mt seed i := by
  obtain ⟨input, env, trail, result, hend, hissued, hpair⟩ := h
  rw [(Prod.mk.inj hpair).2, readToken_of_end hend hissued]
  rfl

-- There is one token for each seed, whatever came before.
theorem possible_few (service : Service) (mt : Mt19937) (earlier : List (Bytes × Bytes)) :
    ∃ tokens : Finset Bytes, tokens.card ≤ 2 ^ 32 ∧
      ∀ token, Possible service mt earlier token → token ∈ tokens := by
  refine ⟨(Finset.range (2 ^ 32)).image fun n =>
    seededToken mt (UInt32.ofNat n) earlier.length, ?_, ?_⟩
  · refine Finset.card_image_le.trans ?_
    rw [Finset.card_range]
  · rintro token ⟨seed, -, id, hreturns⟩
    refine Finset.mem_image.mpr ⟨seed.toNat, Finset.mem_range.mpr seed.toNat_lt, ?_⟩
    rw [UInt32.ofNat_toNat]
    exact hreturns.token.symm

def hexOf (digits : Fin 64 → Fin 16) : Bytes := List.ofFn fun i => Pow.kHex.getD (digits i) 0

theorem hexToken_hexOf (digits : Fin 64 → Fin 16) : HexToken (hexOf digits) := by
  have hmem : ∀ d : Fin 16, Pow.kHex.getD d 0 ∈ Pow.kHex := by decide +kernel
  refine ⟨List.length_ofFn, fun c hc => ?_⟩
  obtain ⟨i, rfl⟩ := List.mem_ofFn.mp hc
  exact hmem (digits i)

theorem hexOf_injective : Function.Injective hexOf := by
  have hdigit : ∀ d e : Fin 16, Pow.kHex.getD d 0 = Pow.kHex.getD e 0 → d = e := by
    decide +kernel
  intro digits other h
  have hfun := List.ofFn_injective h
  funext i
  exact hdigit _ _ (congrFun hfun i)

-- No set of 2^32 texts holds all the 16^64 tokens.
theorem hexToken_notMem {tokens : Finset Bytes} (h : tokens.card ≤ 2 ^ 32) :
    ∃ token, HexToken token ∧ token ∉ tokens := by
  by_contra hall
  push Not at hall
  have hsubset : Finset.univ.image hexOf ⊆ tokens :=
    Finset.image_subset_iff.mpr fun digits _ => hall _ (hexToken_hexOf digits)
  have hcard := Finset.card_le_card hsubset
  rw [Finset.card_image_of_injective _ hexOf_injective, Finset.card_univ, Fintype.card_fun,
    Fintype.card_fin, Fintype.card_fin] at hcard
  have hmany : (2 : Nat) ^ 32 < 16 ^ 64 := by norm_num
  exact absurd (hcard.trans h) (Nat.not_le.mpr hmany)

theorem tokens_narrowed (service : Service) (mt : Mt19937) (earlier : List (Bytes × Bytes)) :
    ¬ ∀ token, HexToken token → Possible service mt earlier token := by
  obtain ⟨tokens, hcard, hpossible⟩ := possible_few service mt earlier
  obtain ⟨token, hhex, hnot⟩ := hexToken_notMem hcard
  intro hall
  exact hnot (hpossible token (hall token hhex))

-- A generator that repeats its seed: half of every token is zeros.
def repeating : Mt19937 := fun seed _ => seed.toUInt64

def allOnes : Bytes := List.replicate 64 102

theorem fifthByte_repeating (seed : UInt32) : (seed.toUInt64 >>> 32).toUInt8 = 0 := by
  have hlt := seed.toNat_lt
  apply UInt8.toNat_inj.mp
  rw [UInt64.toNat_toUInt8, UInt64.toNat_shiftRight, UInt32.toNat_toUInt64,
    Nat.shiftRight_eq_div_pow]
  change seed.toNat / 2 ^ 32 % 2 ^ 8 = 0
  omega

theorem not_possible_allOnes :
    HexToken allOnes ∧ ¬ Possible sampleService repeating [] allOnes := by
  refine ⟨⟨List.length_replicate, fun c hc => ?_⟩, ?_⟩
  · rw [List.eq_of_mem_replicate hc]
    decide +kernel
  · rintro ⟨seed, -, id, hreturns⟩
    have hdigit : (seededToken repeating seed 0)[8]? = some 48 := by
      change some (Pow.kHex.getD ((seed.toUInt64 >>> 32).toUInt8 >>> 4).toNat 0) = some 48
      rw [fifthByte_repeating]
      decide +kernel
    have htoken : allOnes = seededToken repeating seed 0 := hreturns.token
    rw [← htoken] at hdigit
    exact absurd hdigit (by decide +kernel)

end DeltaFeedback.Feedback.Service
