import DeltaFeedback.Pow.Base64

namespace DeltaFeedback.Pow

open Text

theorem alpha_of_rev {ch v : UInt8} (h : rev ch = some v) : alpha v = ch ∧ v < 64 := by
  have hall : ∀ ch, (rev ch).all (fun v => alpha v = ch ∧ v < 64) = true :=
    forall_byte (by decide +kernel)
  simpa [h] using hall ch

theorem high_bits_fin : ∀ i : Fin 64,
    (UInt8.ofNat i).toBitVec[6] = false ∧ (UInt8.ofNat i).toBitVec[7] = false := by
  decide

theorem high_bits {v : UInt8} (h : v < 64) : v.toBitVec[6] = false ∧ v.toBitVec[7] = false := by
  have hv : v.toNat < 64 := by simpa [UInt8.lt_iff_toNat_lt] using h
  simpa using high_bits_fin ⟨v.toNat, hv⟩

-- Every byte comes of two characters, whatever the accumulator holds above.
theorem outByte_four (val : BitVec 32) (v : UInt8) {w : UInt8} (hw : w < 64) :
    outByte (push6 (push6 val v) w) 4 = (v <<< 2) ||| (w >>> 4) := by
  obtain ⟨h6, h7⟩ := high_bits hw
  apply UInt8.toBitVec_inj.mp
  simp only [outByte, push6, UInt8.toBitVec_or]
  ext i hi
  interval_cases i <;> simp [BitVec.getElem_sshiftRight, h6, h7]

theorem outByte_two (val : BitVec 32) (v : UInt8) {w : UInt8} (hw : w < 64) :
    outByte (push6 (push6 val v) w) 2 = (v <<< 4) ||| (w >>> 2) := by
  obtain ⟨h6, h7⟩ := high_bits hw
  apply UInt8.toBitVec_inj.mp
  simp only [outByte, push6, UInt8.toBitVec_or]
  ext i hi
  interval_cases i <;> simp [BitVec.getElem_sshiftRight, h6, h7]

theorem outByte_zero (val : BitVec 32) (v : UInt8) {w : UInt8} (hw : w < 64) :
    outByte (push6 (push6 val v) w) 0 = (v <<< 6) ||| w := by
  obtain ⟨h6, h7⟩ := high_bits hw
  apply UInt8.toBitVec_inj.mp
  simp only [outByte, push6, UInt8.toBitVec_or]
  ext i hi
  interval_cases i <;> simp [h6, h7]

-- The encoder's sextets, from the bytes that four of them were decoded to.
theorem sextets (a b c d : UInt8) (ha : a < 64) (hb : b < 64) (hc : c < 64) (hd : d < 64) :
    ((a <<< 2) ||| (b >>> 4)) >>> 2 = a ∧
    (((a <<< 2) ||| (b >>> 4)) &&& 0x03) <<< 4 ||| (((b <<< 4) ||| (c >>> 2)) >>> 4) = b ∧
    (((b <<< 4) ||| (c >>> 2)) &&& 0x0F) <<< 2 ||| (((c <<< 6) ||| d) >>> 6) = c ∧
    (((b <<< 4) ||| (c >>> 2)) &&& 0x0F) <<< 2 = c &&& 0x3C ∧
    ((c <<< 6) ||| d) &&& 0x3F = d := by
  obtain ⟨ha6, ha7⟩ := high_bits ha
  obtain ⟨hb6, hb7⟩ := high_bits hb
  obtain ⟨hc6, hc7⟩ := high_bits hc
  obtain ⟨hd6, hd7⟩ := high_bits hd
  refine ⟨?_, ?_, ?_, ?_, ?_⟩ <;> apply UInt8.toBitVec_inj.mp <;> ext i hi <;>
    interval_cases i <;> simp [ha6, ha7, hb6, hb7, hc6, hc7, hd6, hd7]

theorem b64urlDecodeLoop_quiet_some {val : BitVec 32} {ch : UInt8} {rest out : Bytes}
    (h : b64urlDecodeLoop val 0 (ch :: rest) = some out) :
    ∃ v, rev ch = some v ∧ b64urlDecodeLoop (push6 val v) 6 rest = some out := by
  rw [b64urlDecodeLoop] at h
  cases hrev : rev ch with
  | none =>
      rw [hrev] at h
      cases h
  | some v =>
      rw [hrev] at h
      exact ⟨v, rfl, h⟩

theorem b64urlDecodeLoop_emit_some {val : BitVec 32} {bits : Nat} {ch : UInt8} {rest out : Bytes}
    (hbits : 2 ≤ bits) (h : b64urlDecodeLoop val bits (ch :: rest) = some out) :
    ∃ v more, rev ch = some v ∧ out = outByte (push6 val v) (bits - 2) :: more ∧
      b64urlDecodeLoop (push6 val v) (bits - 2) rest = some more := by
  have hge : bits + 6 ≥ 8 := by omega
  have hsub : bits + 6 - 8 = bits - 2 := by omega
  rw [b64urlDecodeLoop] at h
  cases hrev : rev ch with
  | none =>
      rw [hrev] at h
      cases h
  | some v =>
      rw [hrev] at h
      simp only [hge, ite_true, hsub] at h
      obtain ⟨more, hmore, rfl⟩ := Option.map_eq_some_iff.mp h
      exact ⟨v, more, rfl, rfl, hmore⟩

-- Three characters of every four give their bits to the bytes whole; of the
-- last one of a text of 4 * n + 3 two bits are left over.
theorem encode_of_decodeLoop (val : BitVec 32) (s out : Bytes)
    (h : b64urlDecodeLoop val 0 s = some out) (hlen : s.length % 4 = 3) :
    ∃ front last v, s = front ++ [last] ∧ rev last = some v ∧
      b64urlEncode out = front ++ [alpha (v &&& 0x3C)] := by
  match s, h, hlen with
  | [x, y, z], h, _ =>
      obtain ⟨a, hx, hout⟩ := b64urlDecodeLoop_quiet_some h
      obtain ⟨b, out1, hy, rfl, hout1⟩ := b64urlDecodeLoop_emit_some (by decide) hout
      obtain ⟨c, out2, hz, rfl, hout2⟩ := b64urlDecodeLoop_emit_some (by decide) hout1
      obtain ⟨rfl, ha⟩ := alpha_of_rev hx
      obtain ⟨rfl, hb⟩ := alpha_of_rev hy
      obtain ⟨rfl, hc⟩ := alpha_of_rev hz
      obtain ⟨h1, h2, _, h4, _⟩ := sextets a b c 0 ha hb hc (by decide)
      cases hout2
      refine ⟨[alpha a, alpha b], alpha c, c, rfl, hz, ?_⟩
      rw [outByte_four _ _ hb, outByte_two _ _ hc, b64urlEncode, h1, h2, h4]
      rfl
  | x :: y :: z :: w :: rest, h, hlen =>
      obtain ⟨a, hx, hout⟩ := b64urlDecodeLoop_quiet_some h
      obtain ⟨b, out1, hy, rfl, hout1⟩ := b64urlDecodeLoop_emit_some (by decide) hout
      obtain ⟨c, out2, hz, rfl, hout2⟩ := b64urlDecodeLoop_emit_some (by decide) hout1
      obtain ⟨d, out3, hw, rfl, hout3⟩ := b64urlDecodeLoop_emit_some (by decide) hout2
      obtain ⟨rfl, ha⟩ := alpha_of_rev hx
      obtain ⟨rfl, hb⟩ := alpha_of_rev hy
      obtain ⟨rfl, hc⟩ := alpha_of_rev hz
      obtain ⟨rfl, hd⟩ := alpha_of_rev hw
      obtain ⟨h1, h2, h3, _, h5⟩ := sextets a b c d ha hb hc hd
      obtain ⟨front, last, v, rfl, hv, hencode⟩ := encode_of_decodeLoop _ rest out3 hout3
        (by simp only [List.length_cons] at hlen; omega)
      refine ⟨alpha a :: alpha b :: alpha c :: alpha d :: front, last, v, rfl, hv, ?_⟩
      rw [outByte_four _ _ hb, outByte_two _ _ hc, outByte_zero _ _ hd, b64urlEncode, h1, h2, h3, h5,
        hencode]
      rfl

-- Eight bits make a byte, and fewer than eight stay behind.
theorem length_decodeLoop (val : BitVec 32) (bits : Nat) (s out : Bytes) (hbits : bits < 8)
    (h : b64urlDecodeLoop val bits s = some out) :
    8 * out.length ≤ 6 * s.length + bits ∧ 6 * s.length + bits < 8 * out.length + 8 := by
  induction s generalizing val bits out with
  | nil =>
      cases h
      simpa using hbits
  | cons ch rest ih =>
      rw [b64urlDecodeLoop] at h
      cases hrev : rev ch with
      | none =>
          rw [hrev] at h
          cases h
      | some v =>
          rw [hrev] at h
          simp only at h
          split_ifs at h with hge
          · obtain ⟨more, hmore, rfl⟩ := Option.map_eq_some_iff.mp h
            have hrest := ih _ _ _ (by omega) hmore
            simp only [List.length_cons]
            omega
          · have hrest := ih _ _ _ (by omega) h
            simp only [List.length_cons]
            omega

theorem and_leftover_lt_64 (v : UInt8) : v &&& 0x3C < 64 := by
  rw [UInt8.lt_iff_toNat_lt, UInt8.toNat_and]
  exact Nat.lt_of_le_of_lt Nat.and_le_right (by decide)

theorem leftover_fin : ∀ i j : Fin 64, UInt8.ofNat i &&& 0x3C = UInt8.ofNat j &&& 0x3C →
    UInt8.ofNat i >>> 2 = UInt8.ofNat j >>> 2 ∧
      (UInt8.ofNat i &&& 0x03 = UInt8.ofNat j &&& 0x03 → i = j) := by
  decide +kernel

theorem leftover {v w : UInt8} (hv : v < 64) (hw : w < 64) (h : v &&& 0x3C = w &&& 0x3C) :
    v >>> 2 = w >>> 2 ∧ (v &&& 0x03 = w &&& 0x03 → v = w) := by
  have hv' : v.toNat < 64 := by simpa [UInt8.lt_iff_toNat_lt] using hv
  have hw' : w.toNat < 64 := by simpa [UInt8.lt_iff_toNat_lt] using hw
  have hbits := leftover_fin ⟨v.toNat, hv'⟩ ⟨w.toNat, hw'⟩
  simp only [UInt8.ofNat_toNat, Fin.mk.injEq, UInt8.toNat_inj] at hbits
  exact hbits h

-- The two bits left over do not reach the bytes.
theorem decodeLoop_leftover (val : BitVec 32) (front : Bytes) (v w : UInt8) (hv : v < 64)
    (hw : w < 64) (h : v &&& 0x3C = w &&& 0x3C) (hlen : front.length % 4 = 2) :
    b64urlDecodeLoop val 0 (front ++ [alpha v]) = b64urlDecodeLoop val 0 (front ++ [alpha w]) := by
  match front, hlen with
  | [x, y], _ =>
      have hshift := (leftover hv hw h).1
      simp only [List.cons_append, List.nil_append, b64urlDecodeLoop, rev_alpha v hv, rev_alpha w hw]
      cases rev x with
      | none => rfl
      | some a =>
          cases rev y with
          | none => rfl
          | some b =>
              simp [outByte_two _ _ hv, outByte_two _ _ hw, hshift]
  | x :: y :: z :: u :: rest, hlen =>
      have hrest := fun val => decodeLoop_leftover val rest v w hv hw h
        (by simp only [List.length_cons] at hlen; omega)
      simp only [List.cons_append, b64urlDecodeLoop]
      cases rev x with
      | none => rfl
      | some a =>
          cases rev y with
          | none => rfl
          | some b =>
              cases rev z with
              | none => rfl
              | some c =>
                  cases rev u with
                  | none => rfl
                  | some d => simp [hrest]

end DeltaFeedback.Pow
