import DeltaFeedback.Sha2.Spec
import DeltaFeedback.Web.Sha256

namespace DeltaFeedback.Web.SHA256

open Text Js

-- `((len + 9 + 63) >> 6) << 6`
def padLength (len : Nat) : Int := shl (shr (len + 9 + 63) 6) 6

theorem padLength_eq (len : Nat) : padLength len = ((len + 72 : Nat) : Int).bmod (2 ^ 32) / 64 * 64 := by
  have hsum : (len + 9 + 63 : Int) = ((len + 72 : Nat) : Int) := by omega
  have hlo := Int.le_bmod (x := ((len + 72 : Nat) : Int)) (m := 2 ^ 32) (by decide)
  have hhi := Int.bmod_lt (x := ((len + 72 : Nat) : Int)) (m := 2 ^ 32) (by decide)
  rw [padLength, hsum, shr_six]
  apply shl_six <;> omega

theorem padLength_of_lt {len : Nat} (h : len + 72 < 2 ^ 31) :
    padLength len = (len + 1 + (119 - len % 64) % 64 + 8 : Nat) := by
  have hsmall : ((len + 72 : Nat) : Int).bmod (2 ^ 32) = (len + 72 : Nat) := by
    apply Int.bmod_eq_of_le <;> omega
  rw [padLength_eq, hsmall]
  omega

-- From 2^31 - 72 bytes on the length has wrapped around.
theorem padLength_lt {len : Nat} (h : 2 ^ 31 ≤ len + 72) : padLength len < len := by
  have hdvd := Int.dvd_self_sub_bmod (x := ((len + 72 : Nat) : Int)) (m := 2 ^ 32)
  have hhi := Int.bmod_lt (x := ((len + 72 : Nat) : Int)) (m := 2 ^ 32) (by decide)
  rw [padLength_eq]
  omega

theorem padded_error {bytes : Bytes} (h : 2 ^ 31 ≤ bytes.length + 72) :
    ∃ e, padded bytes = .error e := by
  have hlt := padLength_lt h
  by_cases hneg : padLength bytes.length < 0
  · refine ⟨.InvalidTypedArrayLength, ?_⟩
    have hnew : newUint8Array (padLength bytes.length) = .error .InvalidTypedArrayLength :=
      if_pos hneg
    rw [padded, ← padLength, hnew]
    rfl
  · refine ⟨.OffsetOutOfBounds, ?_⟩
    have hnew : newUint8Array (padLength bytes.length) =
        .ok (List.replicate (padLength bytes.length).toNat 0) := if_neg hneg
    have hset : setBytes (List.replicate (padLength bytes.length).toNat 0) bytes =
        .error .OffsetOutOfBounds :=
      if_pos (by rw [List.length_replicate]; omega)
    rw [padded, ← padLength, hnew]
    simp only [bind, Except.bind, hset]

-- The eight bytes of the bit length, most significant first.
theorem bitLength_bytes {len : Nat} (h : len + 72 < 2 ^ 31) :
    [UInt8.ofInt (band (ushr (len / 0x20000000 : Int) 24) 0xff),
      UInt8.ofInt (band (ushr (len / 0x20000000 : Int) 16) 0xff),
      UInt8.ofInt (band (ushr (len / 0x20000000 : Int) 8) 0xff),
      UInt8.ofInt (band (len / 0x20000000 : Int) 0xff),
      UInt8.ofInt (band (ushr (ushr (len * 8 : Int) 0) 24) 0xff),
      UInt8.ofInt (band (ushr (ushr (len * 8 : Int) 0) 16) 0xff),
      UInt8.ofInt (band (ushr (ushr (len * 8 : Int) 0) 8) 0xff),
      UInt8.ofInt (band (ushr (len * 8 : Int) 0) 0xff)] = Sha2.bigEndian (8 * len) 8 := by
  have hhi : (len / 0x20000000 : Int) = (len / 0x20000000 : Nat) := by omega
  have hlo : (len * 8 : Int) = (len * 8 : Nat) := by omega
  simp only [ofInt_band, hhi, hlo, toUint32_ushr, toUint32_natCast, toUint32_ofNat, Sha2.bigEndian,
    UInt32.toNat_shiftRight, UInt32.toNat_ofNat', Nat.shiftRight_eq_div_pow, UInt32.reduceToNat,
    Nat.reduceMod, Nat.reducePow, List.cons.injEq, ← UInt8.toNat_inj, UInt8.toNat_ofNat', and_true]
  omega

theorem padded_ok {bytes : Bytes} (h : bytes.length + 72 < 2 ^ 31) :
    padded bytes = .ok (Sha2.pad bytes) := by
  have hlen := padLength_of_lt h
  have hroom : bytes.length ≤ (padLength bytes.length).toNat := by omega
  have hnew : newUint8Array (padLength bytes.length) =
      .ok (List.replicate (padLength bytes.length).toNat 0) := if_neg (by omega)
  have hset : setBytes (List.replicate (padLength bytes.length).toNat 0) bytes =
      .ok (bytes ++ 0 :: List.replicate ((119 - bytes.length % 64) % 64) 0 ++ List.replicate 8 0) := by
    have hrest : (padLength bytes.length).toNat - bytes.length =
        1 + (119 - bytes.length % 64) % 64 + 8 := by omega
    rw [setBytes, if_neg (by rw [List.length_replicate]; omega), List.drop_replicate, hrest,
      List.replicate_add, List.replicate_add, List.append_assoc, List.append_assoc]
    rfl
  have hmark : storeByte
      (bytes ++ 0 :: List.replicate ((119 - bytes.length % 64) % 64) 0 ++ List.replicate 8 0)
      bytes.length 0x80 =
        bytes ++ 0x80 :: List.replicate ((119 - bytes.length % 64) % 64) 0 ++ List.replicate 8 0 := by
    have hfirst := storeByte_append bytes
      (0 :: List.replicate ((119 - bytes.length % 64) % 64) 0 ++ List.replicate 8 0) 0 0x80
    rw [Int.natCast_zero, Int.add_zero] at hfirst
    rw [List.append_assoc, hfirst, List.append_assoc]
    rfl
  rw [Sha2.pad, ← bitLength_bytes h, padded, ← padLength, hnew]
  simp only [bind, Except.bind, hset, hmark]
  -- The last eight bytes follow the front, of length padLen - 8.
  have hfront : ((bytes ++ 0x80 :: List.replicate ((119 - bytes.length % 64) % 64) 0).length : Int) =
      padLength bytes.length - 8 := by
    rw [hlen, List.length_append, List.length_cons, List.length_replicate]
    omega
  generalize bytes ++ 0x80 :: List.replicate ((119 - bytes.length % 64) % 64) 0 = front at *
  have hstore : ∀ (i : Nat) (index : Int) (tail : Bytes) (x : Int),
      index = padLength bytes.length - 8 + i →
        storeByte (front ++ tail) index x = front ++ tail.set i (UInt8.ofInt x) := by
    intro i index tail x hindex
    rw [hindex, ← hfront, storeByte_append]
  rw [hstore 0 _ _ _ (by omega), hstore 1 _ _ _ (by omega), hstore 2 _ _ _ (by omega),
    hstore 3 _ _ _ (by omega), hstore 4 _ _ _ (by omega), hstore 5 _ _ _ (by omega),
    hstore 6 _ _ _ (by omega), hstore 7 _ _ _ (by omega)]
  rfl

end DeltaFeedback.Web.SHA256
