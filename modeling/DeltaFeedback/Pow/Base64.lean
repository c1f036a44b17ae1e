import DeltaFeedback.Text.Bytes
import Mathlib.Tactic.IntervalCases

namespace DeltaFeedback.Pow

open Text

def kAlpha : Bytes := utf8 "ABCDEFGHIJKLMNOPQRSTUVWXYZabcdefghijklmnopqrstuvwxyz0123456789-_"

-- `kAlpha[i]`; the encoder only asks for i < 64.
def alpha (i : UInt8) : UInt8 := kAlpha.getD i.toNat 0

def b64urlEncode : Bytes → Bytes
  | a :: b :: c :: rest =>
      alpha (a >>> 2) :: alpha (((a &&& 0x03) <<< 4) ||| (b >>> 4)) ::
        alpha (((b &&& 0x0F) <<< 2) ||| (c >>> 6)) :: alpha (c &&& 0x3F) :: b64urlEncode rest
  | [a, b] =>
      [alpha (a >>> 2), alpha (((a &&& 0x03) <<< 4) ||| (b >>> 4)), alpha ((b &&& 0x0F) <<< 2)]
  | [a] => [alpha (a >>> 2), alpha ((a &&& 0x03) <<< 4)]
  | [] => []

-- The reverse table; none stands for its entries of -1.
def rev (ch : UInt8) : Option UInt8 := (kAlpha.idxOf? ch).map Nat.toUInt8

-- `static_cast<char>((val >> bits) & 0xFF)`, the shift keeping the sign of `val`.
def outByte (val : BitVec 32) (bits : Nat) : UInt8 :=
  UInt8.ofBitVec ((val.sshiftRight bits &&& 0xFF).setWidth 8)

-- `(val << 6) | v`, modulo 2^32: the source never masks the accumulator.
def push6 (val : BitVec 32) (v : UInt8) : BitVec 32 := (val <<< 6) ||| v.toBitVec.setWidth 32

def b64urlDecodeLoop (val : BitVec 32) (bits : Nat) : Bytes → Option Bytes
  | [] => some []
  | ch :: rest =>
      match rev ch with
      | none => none
      | some v =>
          if bits + 6 ≥ 8 then
            (b64urlDecodeLoop (push6 val v) (bits + 6 - 8) rest).map
              (outByte (push6 val v) (bits + 6 - 8) :: ·)
          else b64urlDecodeLoop (push6 val v) (bits + 6) rest

def b64urlDecode (s : Bytes) : Option Bytes := b64urlDecodeLoop 0 0 s

theorem rev_alpha_fin : ∀ i : Fin 64, rev (alpha (UInt8.ofNat i)) = some (UInt8.ofNat i) := by
  decide +kernel

theorem rev_alpha (i : UInt8) (h : i < 64) : rev (alpha i) = some i := by
  have hi : i.toNat < 64 := by simpa [UInt8.lt_iff_toNat_lt] using h
  simpa using rev_alpha_fin ⟨i.toNat, hi⟩

theorem or_lt_64 (x y : UInt8) (hx : x < 64) (hy : y < 64) : x ||| y < 64 := by
  simp only [UInt8.lt_iff_toNat_lt, UInt8.toNat_or] at *
  exact Nat.or_lt_two_pow (n := 6) hx hy

theorem shiftRight_lt_64 (x : UInt8) : x >>> 2 < 64 ∧ x >>> 4 < 64 ∧ x >>> 6 < 64 := by
  have := x.toNat_lt
  simp only [UInt8.lt_iff_toNat_lt, UInt8.toNat_shiftRight, Nat.shiftRight_eq_div_pow]
  simp only [UInt8.reduceToNat, Nat.reduceMod, Nat.reducePow]
  omega

theorem mask_lt_64 (x : UInt8) :
    (x &&& 0x03) <<< 4 < 64 ∧ (x &&& 0x0F) <<< 2 < 64 ∧ x &&& 0x3F < 64 := by
  revert x
  exact forall_byte (by decide +kernel)

-- The three bytes of a group come out of its four characters, whatever the
-- accumulator still holds above them.
theorem outByte_first (val : BitVec 32) (a b : UInt8) :
    outByte (push6 (push6 val (a >>> 2)) (((a &&& 0x03) <<< 4) ||| (b >>> 4))) 4 = a := by
  apply UInt8.toBitVec_inj.mp
  simp only [outByte, push6, UInt8.toBitVec_or]
  ext i hi
  interval_cases i <;> simp [BitVec.getElem_sshiftRight]

theorem outByte_second (val : BitVec 32) (a b c : UInt8) :
    outByte (push6 (push6 val (((a &&& 0x03) <<< 4) ||| (b >>> 4)))
      (((b &&& 0x0F) <<< 2) ||| (c >>> 6))) 2 = b := by
  apply UInt8.toBitVec_inj.mp
  simp only [outByte, push6, UInt8.toBitVec_or]
  ext i hi
  interval_cases i <;> simp [BitVec.getElem_sshiftRight]

theorem outByte_third (val : BitVec 32) (b c : UInt8) :
    outByte (push6 (push6 val (((b &&& 0x0F) <<< 2) ||| (c >>> 6))) (c &&& 0x3F)) 0 = c := by
  apply UInt8.toBitVec_inj.mp
  simp only [outByte, push6, UInt8.toBitVec_or]
  ext i hi
  interval_cases i <;> simp

theorem b64urlDecodeLoop_quiet (val : BitVec 32) (i : UInt8) (rest : Bytes) (hi : i < 64) :
    b64urlDecodeLoop val 0 (alpha i :: rest) = b64urlDecodeLoop (push6 val i) 6 rest := by
  simp [b64urlDecodeLoop, rev_alpha i hi]

theorem b64urlDecodeLoop_emit (val : BitVec 32) (bits : Nat) (i : UInt8) (rest : Bytes)
    (hi : i < 64) (hbits : 2 ≤ bits) :
    b64urlDecodeLoop val bits (alpha i :: rest) =
      (b64urlDecodeLoop (push6 val i) (bits - 2) rest).map (outByte (push6 val i) (bits - 2) :: ·) := by
  have hge : bits + 6 ≥ 8 := by omega
  have hsub : bits + 6 - 8 = bits - 2 := by omega
  simp [b64urlDecodeLoop, rev_alpha i hi, hge, hsub]

-- Two characters give the first byte, a third the second and a fourth the
-- last; only after a whole group is nothing left over.
theorem b64urlDecodeLoop_encode (val : BitVec 32) (bytes : Bytes) :
    b64urlDecodeLoop val 0 (b64urlEncode bytes) = some bytes := by
  induction bytes using b64urlEncode.induct generalizing val with
  | case1 a b c rest ih =>
      have hab := or_lt_64 _ _ (mask_lt_64 a).1 (shiftRight_lt_64 b).2.1
      have hbc := or_lt_64 _ _ (mask_lt_64 b).2.1 (shiftRight_lt_64 c).2.2
      rw [b64urlEncode, b64urlDecodeLoop_quiet _ _ _ (shiftRight_lt_64 a).1,
        b64urlDecodeLoop_emit _ _ _ _ hab (by decide),
        b64urlDecodeLoop_emit _ _ _ _ hbc (by decide),
        b64urlDecodeLoop_emit _ _ _ _ (mask_lt_64 c).2.2 (by decide), ih]
      simp only [Option.map_some, Nat.reduceSub, outByte_first, outByte_second, outByte_third]
  | case2 a b =>
      have hab := or_lt_64 _ _ (mask_lt_64 a).1 (shiftRight_lt_64 b).2.1
      rw [b64urlEncode, b64urlDecodeLoop_quiet _ _ _ (shiftRight_lt_64 a).1,
        b64urlDecodeLoop_emit _ _ _ _ hab (by decide),
        b64urlDecodeLoop_emit _ _ _ _ (mask_lt_64 b).2.1 (by decide)]
      have hb := outByte_second (push6 val (a >>> 2)) a b 0
      simp only [UInt8.zero_shiftRight, UInt8.or_zero] at hb
      simp only [b64urlDecodeLoop, Option.map_some, Nat.reduceSub, outByte_first, hb]
  | case3 a =>
      rw [b64urlEncode, b64urlDecodeLoop_quiet _ _ _ (shiftRight_lt_64 a).1,
        b64urlDecodeLoop_emit _ _ _ _ (mask_lt_64 a).1 (by decide)]
      have ha := outByte_first val a 0
      simp only [UInt8.zero_shiftRight, UInt8.or_zero] at ha
      simp only [b64urlDecodeLoop, Option.map_some, Nat.reduceSub, ha]
  | case4 => rfl

@[simp] theorem b64urlDecode_encode (bytes : Bytes) :
    b64urlDecode (b64urlEncode bytes) = some bytes :=
  b64urlDecodeLoop_encode 0 bytes

-- No dot comes out of the encoder: its alphabet has none.
theorem dot_notMem_alpha_fin : ∀ i : Fin 64, alpha (UInt8.ofNat i) ≠ 46 := by decide +kernel

theorem alpha_ne_dot (i : UInt8) : alpha i ≠ 46 := by
  by_cases h : i.toNat < 64
  · simpa using dot_notMem_alpha_fin ⟨i.toNat, h⟩
  · have hlen : kAlpha.length ≤ i.toNat := by
      have : kAlpha.length = 64 := by decide +kernel
      omega
    simp [alpha, List.getElem?_eq_none hlen]

theorem dot_notMem_b64urlEncode (bytes : Bytes) : 46 ∉ b64urlEncode bytes := by
  induction bytes using b64urlEncode.induct with
  | case1 a b c rest ih => simp [b64urlEncode, (alpha_ne_dot _).symm, ih]
  | case2 a b => simp [b64urlEncode, (alpha_ne_dot _).symm]
  | case3 a => simp [b64urlEncode, (alpha_ne_dot _).symm]
  | case4 => simp [b64urlEncode]

end DeltaFeedback.Pow
