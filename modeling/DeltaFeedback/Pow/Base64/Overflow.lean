import DeltaFeedback.Pow.Base64.Leftover
import DeltaFeedback.Pow.Challenge.Numerals

namespace DeltaFeedback.Pow

open Text

-- The exact values that the decoder computes: `val << 6`, the sextet put into
-- the free bits, and `val >> bits` where a byte is written.
def decodeSteps (val : BitVec 32) (bits : Nat) : Bytes → List Int
  | [] => []
  | ch :: rest =>
      match rev ch with
      | none => []
      | some v =>
          let shifted := val.toInt * 2 ^ 6
          let next := push6 val v
          if bits + 6 ≥ 8 then
            shifted :: (shifted + v.toNat) :: (next.toInt >>> (bits + 6 - 8)) ::
              decodeSteps next (bits + 6 - 8) rest
          else shifted :: (shifted + v.toNat) :: decodeSteps next (bits + 6) rest

def stepsB64 (s : Bytes) : List Int := decodeSteps 0 0 s

-- Not negative, and representable in int.
def InInt (x : Int) : Prop := 0 ≤ x ∧ x ≤ 2 ^ 31 - 1

-- The number that the base64 digits at the start of a text write, behind those
-- read before.
def numberFrom (n : Nat) : Bytes → Nat
  | [] => n
  | ch :: rest =>
      match rev ch with
      | none => n
      | some v => numberFrom (64 * n + v.toNat) rest

def leadingNumber (s : Bytes) : Nat := numberFrom 0 s

section Loop

theorem toInt_of_le {val : BitVec 32} (h : val.toNat ≤ 2 ^ 31 - 1) : val.toInt = val.toNat :=
  BitVec.toInt_eq_toNat_of_lt (by omega)

theorem toNat_push6 {val : BitVec 32} {v : UInt8} (hv : v < 64)
    (h : 64 * val.toNat + v.toNat ≤ 2 ^ 31 - 1) :
    (push6 val v).toNat = 64 * val.toNat + v.toNat := by
  have hv' : v.toNat < 2 ^ 6 := UInt8.lt_iff_toNat_lt.mp hv
  have hshift : val.toNat <<< 6 % 2 ^ 32 = val.toNat <<< 6 := by
    rw [Nat.shiftLeft_eq]
    omega
  rw [push6, BitVec.toNat_or, BitVec.toNat_shiftLeft, BitVec.toNat_setWidth, hshift,
    UInt8.toNat_toBitVec, Nat.mod_eq_of_lt (by omega), ← Nat.shiftLeft_add_eq_or_of_lt hv',
    Nat.shiftLeft_eq]
  omega

theorem le_numberFrom (s : Bytes) (n : Nat) : n ≤ numberFrom n s := by
  induction s generalizing n with
  | nil => exact le_refl n
  | cons ch rest ih =>
      rw [numberFrom]
      cases rev ch with
      | none => exact le_refl n
      | some v =>
          have hle := ih (64 * n + v.toNat)
          dsimp only
          omega

-- The byte that is written is cut from an accumulator in range.
theorem inInt_shiftRight {val : BitVec 32} (h : val.toNat ≤ 2 ^ 31 - 1) (n : Nat) :
    InInt (val.toInt >>> n) := by
  rw [toInt_of_le h, Int.shiftRight_eq_div_pow]
  have hdiv := Nat.div_le_self val.toNat (2 ^ n)
  constructor
  · exact Int.natCast_nonneg (val.toNat / 2 ^ n)
  · have hcast : (val.toNat : Int) / 2 ^ n = (val.toNat / 2 ^ n : Nat) := by simp
    omega

-- As long as nothing overflows, the accumulator is the number read so far, and
-- that only grows.
theorem decodeSteps_in_range (s : Bytes) {val : BitVec 32} (bits : Nat)
    (hval : val.toNat ≤ 2 ^ 31 - 1) :
    (∀ x ∈ decodeSteps val bits s, InInt x) ↔ numberFrom val.toNat s ≤ 2 ^ 31 - 1 := by
  induction s generalizing val bits with
  | nil => exact ⟨fun _ => hval, fun _ x hx => absurd hx List.not_mem_nil⟩
  | cons ch rest ih =>
      rw [decodeSteps, numberFrom]
      cases hrev : rev ch with
      | none => exact ⟨fun _ => hval, fun _ x hx => absurd hx List.not_mem_nil⟩
      | some v =>
          obtain ⟨-, hv⟩ := alpha_of_rev hrev
          have hgrows := le_numberFrom rest (64 * val.toNat + v.toNat)
          have hsum : val.toInt * 2 ^ 6 + v.toNat = (64 * val.toNat + v.toNat : Nat) := by
            rw [toInt_of_le hval]
            omega
          dsimp only
          rw [hsum]
          by_cases hnext : 64 * val.toNat + v.toNat ≤ 2 ^ 31 - 1
          · have hpush := toNat_push6 hv hnext
            have hbelow : (push6 val v).toNat ≤ 2 ^ 31 - 1 := by omega
            have hrest (bits : Nat) := ih bits hbelow
            rw [hpush] at hrest
            have hshifted : InInt (val.toInt * 2 ^ 6) := by
              constructor <;> rw [toInt_of_le hval] <;> omega
            have hplaced : InInt (64 * val.toNat + v.toNat : Nat) := by
              constructor <;> omega
            split_ifs
            · simp only [List.forall_mem_cons, hrest, hshifted, hplaced,
                inInt_shiftRight (hpush ▸ hnext), true_and]
            · simp only [List.forall_mem_cons, hrest, hshifted, hplaced, true_and]
          · refine ⟨fun hall => ?_, fun hle => by omega⟩
            have hplaced : InInt (64 * val.toNat + v.toNat : Nat) := by
              split_ifs at hall
              · exact hall _ (List.mem_cons_of_mem _ List.mem_cons_self)
              · exact hall _ (List.mem_cons_of_mem _ List.mem_cons_self)
            have hle := hplaced.2
            omega

theorem stepsB64_defined_iff (s : Bytes) :
    (∀ x ∈ stepsB64 s, InInt x) ↔ leadingNumber s ≤ 2 ^ 31 - 1 :=
  decodeSteps_in_range s 0 (by decide)

end Loop

namespace ChallengeIssuer

-- The id and the signature are decoded once both numbers are read.
def decodingSteps (token : Bytes) : List Int :=
  match splitLoop [] [] token with
  | some [idB64, expiresText, difficultyText, sigB64] =>
      if (parseI64 expiresText).isSome && (parseUint difficultyText).isSome then
        stepsB64 idB64 ++ stepsB64 sigB64
      else []
  | _ => []

-- With numbers between them, the first and the last field begin with base64
-- numbers below 2 ^ 31.
def DecodesInRange (token : Bytes) : Prop :=
  ∀ idB64 expiresText difficultyText sigB64,
    splitLoop [] [] token = some [idB64, expiresText, difficultyText, sigB64] →
    Numeral expiresText → Numeral difficultyText →
    leadingNumber idB64 ≤ 2 ^ 31 - 1 ∧ leadingNumber sigB64 ≤ 2 ^ 31 - 1

theorem decodingSteps_defined_iff (token : Bytes) :
    (∀ x ∈ decodingSteps token, InInt x) ↔ DecodesInRange token := by
  unfold decodingSteps DecodesInRange
  split
  next idB64 expiresText difficultyText sigB64 hsplit =>
    have hread : ((parseI64 expiresText).isSome && (parseUint difficultyText).isSome) = true ↔
        Numeral expiresText ∧ Numeral difficultyText := by
      rw [Bool.and_eq_true, Option.isSome_iff_exists, Option.isSome_iff_exists,
        parseI64_isSome_iff, parseUint_isSome_iff]
    rw [hsplit]
    split_ifs with hnumbers
    · rw [List.forall_mem_append, stepsB64_defined_iff, stepsB64_defined_iff]
      constructor
      · rintro hboth _ _ _ _ ⟨⟩ _ _
        exact hboth
      · exact fun hall => hall _ _ _ _ rfl (hread.mp hnumbers).1 (hread.mp hnumbers).2
    · refine ⟨?_, fun _ x hx => absurd hx List.not_mem_nil⟩
      rintro - _ _ _ _ ⟨⟩ hexpires hdifficulty
      exact absurd (hread.mpr ⟨hexpires, hdifficulty⟩) hnumbers
  next hother =>
    refine ⟨fun _ idB64 expiresText difficultyText sigB64 hsplit => ?_,
      fun _ x hx => absurd hx List.not_mem_nil⟩
    exact absurd hsplit (hother idB64 expiresText difficultyText sigB64)

theorem b64url_decode_defined (s token : Bytes) :
    ((∀ x ∈ stepsB64 s, InInt x) ↔ leadingNumber s ≤ 2 ^ 31 - 1) ∧
    ((∀ x ∈ decodingSteps token, InInt x) ↔ DecodesInRange token) :=
  ⟨stepsB64_defined_iff s, decodingSteps_defined_iff token⟩

-- Six digits are enough, and a token of which nothing has been checked.
theorem overflows_at_six :
    (¬ ∀ x ∈ stepsB64 (utf8 "______"), InInt x) ∧
    ¬ ∀ x ∈ decodingSteps (utf8 "______.1.0.AA"), InInt x := by
  refine ⟨?_, ?_⟩
  · rw [stepsB64_defined_iff]
    decide +kernel
  · rw [decodingSteps_defined_iff]
    intro hall
    have hid := (hall (utf8 "______") (utf8 "1") (utf8 "0") (utf8 "AA") (by decide +kernel)
      ⟨by decide +kernel, by decide +kernel⟩ ⟨by decide +kernel, by decide +kernel⟩).1
    exact absurd hid (by decide +kernel)

end ChallengeIssuer

end DeltaFeedback.Pow
