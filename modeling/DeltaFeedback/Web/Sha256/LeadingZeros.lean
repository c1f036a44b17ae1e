import DeltaFeedback.Web.Sha256.FindNonce
import Mathlib.Tactic.Ring

namespace DeltaFeedback.Pow

open Text

-- The bytes as one number, the first byte the highest.
def bigEndian (bytes : Bytes) : Nat := bytes.foldl (fun value b => 256 * value + b.toNat) 0

theorem foldl_bigEndian (bytes : Bytes) (value : Nat) :
    bytes.foldl (fun value b => 256 * value + b.toNat) value =
      value * 2 ^ (8 * bytes.length) + bigEndian bytes := by
  induction bytes generalizing value with
  | nil => simp [bigEndian]
  | cons b bytes ih =>
      have hpow : 2 ^ (8 * (bytes.length + 1)) = 256 * 2 ^ (8 * bytes.length) := by
        rw [Nat.mul_succ, Nat.pow_add, Nat.mul_comm]
      rw [bigEndian, List.foldl_cons, List.foldl_cons, ih, ih (256 * 0 + b.toNat), List.length_cons,
        hpow]
      ring

theorem bigEndian_cons (b : UInt8) (bytes : Bytes) :
    bigEndian (b :: bytes) = b.toNat * 2 ^ (8 * bytes.length) + bigEndian bytes := by
  rw [bigEndian, List.foldl_cons, foldl_bigEndian, Nat.mul_zero, Nat.zero_add]

theorem bigEndian_lt (bytes : Bytes) : bigEndian bytes < 2 ^ (8 * bytes.length) := by
  induction bytes with
  | nil => exact Nat.one_pos
  | cons b bytes ih =>
      have hb : b.toNat + 1 ≤ 2 ^ 8 := b.toNat_lt
      rw [bigEndian_cons, List.length_cons, Nat.mul_succ, Nat.add_comm (8 * bytes.length), Nat.pow_add]
      calc b.toNat * 2 ^ (8 * bytes.length) + bigEndian bytes
          < b.toNat * 2 ^ (8 * bytes.length) + 2 ^ (8 * bytes.length) := by omega
        _ = (b.toNat + 1) * 2 ^ (8 * bytes.length) := (Nat.succ_mul _ _).symm
        _ ≤ 2 ^ 8 * 2 ^ (8 * bytes.length) := Nat.mul_le_mul_right _ hb

-- Within the first byte that is not zero.
theorem le_zeroBitsFrom_iff (b : UInt8) {k : Nat} (hk : k ≤ 8) :
    k ≤ zeroBitsFrom b 8 ↔ b.toNat < 2 ^ (8 - k) := by
  have hall : ∀ b : UInt8, ∀ k < 9, k ≤ zeroBitsFrom b 8 ↔ b.toNat < 2 ^ (8 - k) :=
    forall_byte (by decide +kernel)
  exact hall b k (Nat.lt_succ_of_le hk)

theorem zeroBitsFrom_lt {b : UInt8} (h : b ≠ 0) : zeroBitsFrom b 8 < 8 := by
  have hall : ∀ b : UInt8, b ≠ 0 → zeroBitsFrom b 8 < 8 := forall_byte (by decide +kernel)
  exact hall b h

-- A byte and the number behind it stay below a power of two that ends inside
-- the byte if and only if the byte does.
theorem add_lt_two_pow_iff {b rest n j : Nat} (hrest : rest < 2 ^ n) :
    b * 2 ^ n + rest < 2 ^ (j + n) ↔ b < 2 ^ j := by
  rw [Nat.pow_add]
  constructor
  · intro hlt
    exact Nat.lt_of_mul_lt_mul_right (lt_of_le_of_lt (Nat.le_add_right _ rest) hlt)
  · intro hlt
    calc b * 2 ^ n + rest < (b + 1) * 2 ^ n := by rw [Nat.succ_mul]; omega
      _ ≤ 2 ^ j * 2 ^ n := Nat.mul_le_mul_right _ hlt

theorem le_leadingZeroBits_iff (bytes : Bytes) {k : Nat} (hk : k ≤ 8 * bytes.length) :
    k ≤ leadingZeroBits bytes ↔ bigEndian bytes < 2 ^ (8 * bytes.length - k) := by
  induction bytes generalizing k with
  | nil =>
      obtain rfl : k = 0 := Nat.le_zero.mp hk
      exact ⟨fun _ => Nat.one_pos, fun _ => Nat.zero_le _⟩
  | cons b bytes ih =>
      have hrest := bigEndian_lt bytes
      rw [List.length_cons] at hk ⊢
      rw [leadingZeroBits, bigEndian_cons]
      by_cases hinside : k ≤ 8
      · have hexponent : 8 * (bytes.length + 1) - k = 8 - k + 8 * bytes.length := by omega
        rw [hexponent, add_lt_two_pow_iff hrest, ← le_zeroBitsFrom_iff b hinside]
        split_ifs with hb
        · subst hb
          have hall : zeroBitsFrom 0 8 = 8 := by decide
          omega
        · rfl
      · obtain ⟨m, rfl⟩ : ∃ m, k = m + 8 := ⟨k - 8, by omega⟩
        have hexponent : 8 * (bytes.length + 1) - (m + 8) = 8 * bytes.length - m := by omega
        rw [hexponent]
        split_ifs with hb
        · rw [hb, UInt8.toNat_zero, Nat.zero_mul, Nat.zero_add, ← ih (by omega)]
          omega
        · have hcount := zeroBitsFrom_lt hb
          have hb' : 1 ≤ b.toNat := Nat.pos_of_ne_zero fun hzero => hb (UInt8.toNat_inj.mp hzero)
          have hlarge : 2 ^ (8 * bytes.length - m) ≤ b.toNat * 2 ^ (8 * bytes.length) :=
            calc 2 ^ (8 * bytes.length - m)
                ≤ 2 ^ (8 * bytes.length) := Nat.pow_le_pow_right (by decide) (Nat.sub_le _ _)
              _ ≤ b.toNat * 2 ^ (8 * bytes.length) := Nat.le_mul_of_pos_left _ hb'
          constructor <;> intro _ <;> omega

-- A count is a measure of work, and it is the same one on both sides.
theorem leadingZeroBits_measures :
    (∀ (d : Sha256Digest) (k : Nat), k ≤ 256 →
      (leadingZeroBits d.val ≥ k ↔ bigEndian d.val < 2 ^ (256 - k))) ∧
    ∀ bytes : Bytes, Web.SHA256.leadingZeroBits bytes = leadingZeroBits bytes ∧
      ∀ k ≤ 8 * bytes.length, (Web.SHA256.leadingZeroBits bytes ≥ k ↔
        bigEndian bytes < 2 ^ (8 * bytes.length - k)) := by
  refine ⟨fun d k hk => ?_, fun bytes => ⟨Web.SHA256.leadingZeroBits_eq bytes, fun k hk => ?_⟩⟩
  · have hmeasure := le_leadingZeroBits_iff d.val (k := k) (by rw [d.property]; exact hk)
    rwa [d.property] at hmeasure
  · rw [Web.SHA256.leadingZeroBits_eq]
    exact le_leadingZeroBits_iff bytes hk

end DeltaFeedback.Pow
