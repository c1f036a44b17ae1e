import DeltaFeedback.Sha2.Schedule
import DeltaFeedback.Web.Sha256.Padding

namespace DeltaFeedback.Web.SHA256

open Text Js

theorem K_eq : K = Sha2.k := rfl

@[simp] theorem toUint32_rotr (x n : Int) :
    toUint32 (rotr x n) = Sha2.rotr (toUint32 x) (toUint32 n) := by
  simp [rotr, Sha2.rotr]

-- The variables as FIPS 180-4 has them, words of 32 bits.
def Vars.toHash (v : Vars) : Sha2.Hash :=
  ⟨toUint32 v.a, toUint32 v.b, toUint32 v.c, toUint32 v.d, toUint32 v.e, toUint32 v.f,
    toUint32 v.g, toUint32 v.h⟩

theorem toHash_initial : initial.toHash = Sha2.initial := by
  simp [Vars.toHash, initial, Sha2.initial]

theorem toHash_round (W : List UInt32) (v : Vars) (i : Nat) :
    (round W v i).toHash = Sha2.round v.toHash (K.getD i 0) (W.getD i 0) := by
  simp [Vars.toHash, round, Sha2.round, Sha2.bigSigma0, Sha2.bigSigma1, Sha2.ch, Sha2.maj]

theorem toHash_rounds (W : List UInt32) (v : Vars) (is : List Nat) :
    (is.foldl (round W) v).toHash =
      is.foldl (fun s i => Sha2.round s (K.getD i 0) (W.getD i 0)) v.toHash :=
  (List.foldl_hom Vars.toHash fun v i => (toHash_round W v i).symm).symm

theorem toUint32_extendWord (W : List UInt32) (i : Nat) :
    toUint32 (extendWord W i) = Sha2.smallSigma1 (W.getD (i - 2) 0) + W.getD (i - 7) 0 +
      Sha2.smallSigma0 (W.getD (i - 15) 0) + W.getD (i - 16) 0 := by
  simp only [extendWord, toUint32_ushr, toUint32_add, toUint32_bxor, toUint32_rotr,
    toUint32_wordAt, toUint32_ofNat, UInt32.shiftRight_zero, Sha2.smallSigma0, Sha2.smallSigma1]
  ac_rfl

theorem toUint32_loadWord (buf : Bytes) (off i : Nat) :
    toUint32 (loadWord buf off i) = Sha2.word (buf.getD (off + 4 * i) 0)
      (buf.getD (off + 4 * i + 1) 0) (buf.getD (off + 4 * i + 2) 0)
      (buf.getD (off + 4 * i + 3) 0) := by
  simp [loadWord, Sha2.word]

-- The sixteen words of the block at byte 64 * j.
def blockWords (buf : Bytes) (j : Nat) : List UInt32 := ((Sha2.words buf).drop (16 * j)).take 16

theorem length_blockWords {buf : Bytes} {j : Nat} (h : 64 * j + 64 ≤ buf.length) :
    (blockWords buf j).length = 16 := by
  simp only [blockWords, List.length_take, List.length_drop, Sha2.length_words]
  omega

theorem getD_blockWords {buf : Bytes} {i j : Nat} (hi : i < 16) (h : 64 * j + 64 ≤ buf.length) :
    (blockWords buf j).getD i 0 = toUint32 (loadWord buf (64 * j) i) := by
  have hbyte : 4 * (16 * j + i) = 64 * j + 4 * i := by omega
  rw [toUint32_loadWord, ← hbyte, ← Sha2.getD_words buf _ (by omega), blockWords,
    List.getD_eq_getElem?_getD, List.getElem?_take_of_lt hi, List.getElem?_drop,
    List.getD_eq_getElem?_getD]

-- First the words of the block, then the recurrence: whatever W held before.
theorem schedule_spec (buf : Bytes) (j : Nat) (W : List UInt32) (hW : W.length = 64)
    (h : 64 * j + 64 ≤ buf.length) :
    (schedule buf (64 * j) W).length = 64 ∧
      ∀ i < 64, (schedule buf (64 * j) W).getD i 0 = Sha2.scheduleWord (blockWords buf j) i := by
  obtain ⟨hlen, hload⟩ := fill (fun _ i => loadWord buf (64 * j) i)
    (Sha2.scheduleWord (blockWords buf j)) W 0 16 (by omega) (by simp) fun ws i _ hi _ => by
      rw [Sha2.scheduleWord_of_lt _ (by omega), getD_blockWords (by omega) h]
  have hextend := fill extendWord (Sha2.scheduleWord (blockWords buf j)) _ 16 48
    (by rw [hlen, hW]) (by simpa using hload) fun ws i hlo hhi hbefore => by
      obtain ⟨t, rfl⟩ := Nat.exists_eq_add_of_le' hlo
      rw [toUint32_extendWord, hbefore _ (by omega), hbefore _ (by omega), hbefore _ (by omega),
        hbefore _ (by omega), Sha2.scheduleWord_add]
      simp only [Nat.add_sub_cancel, Nat.reduceSubDiff]
  rw [hlen, hW] at hextend
  exact hextend

theorem toHash_block (buf : Bytes) (H : Vars × List UInt32) (j : Nat) (hW : H.2.length = 64)
    (h : 64 * j + 64 ≤ buf.length) :
    (block buf H (64 * j)).1.toHash = Sha2.compress H.1.toHash (blockWords buf j) ∧
      (block buf H (64 * j)).2.length = 64 := by
  obtain ⟨hlen, hwords⟩ := schedule_spec buf j H.2 hW h
  have hrounds : ((List.range' 0 64).foldl (round (schedule buf (64 * j) H.2)) H.1).toHash =
      Sha2.rounds H.1.toHash (blockWords buf j) Sha2.k := by
    rw [toHash_rounds, Sha2.rounds_block _ (length_blockWords h), K_eq]
    apply List.foldl_ext
    intro s i hi
    rw [hwords i (by simpa using List.mem_range'_1.mp hi)]
  rw [Sha2.compress, ← hrounds, block]
  generalize schedule buf (64 * j) H.2 = W at *
  generalize (List.range' 0 64).foldl (round W) H.1 = v
  refine ⟨?_, hlen⟩
  simp only [Vars.toHash, toUint32_ushr, toUint32_add, toUint32_ofNat, UInt32.shiftRight_zero]

-- The blocks one after the other, W going from one to the next.
theorem toHash_blocks (buf : Bytes) (H : Vars × List UInt32) (n : Nat) (hW : H.2.length = 64)
    (h : 64 * n ≤ buf.length) :
    (((List.range n).foldl (fun H j => block buf H (64 * j)) H).1.toHash =
        Sha2.blocks H.1.toHash n (Sha2.words buf)) ∧
      ((List.range n).foldl (fun H j => block buf H (64 * j)) H).2.length = 64 := by
  rw [Sha2.blocks_eq]
  induction n with
  | zero => exact ⟨rfl, hW⟩
  | succ n ih =>
      obtain ⟨hhash, hlen⟩ := ih (by omega)
      rw [List.range_succ, List.foldl_append, List.foldl_append, ← hhash]
      exact toHash_block buf _ n hlen (by omega)

theorem outWord_eq (x : Int) : outWord x = Sha2.bigEndian (toUint32 x).toNat 4 := by
  have hlt := (toUint32 x).toNat_lt
  simp only [outWord, ofInt_band, toUint32_ushr, toUint32_ofNat, Sha2.bigEndian,
    UInt32.toNat_shiftRight, Nat.shiftRight_eq_div_pow, UInt32.reduceToNat, Nat.reduceMod,
    Nat.reducePow, Nat.div_one]

theorem sha256Bytes_ok {bytes : Bytes} (h : bytes.length + 72 < 2 ^ 31) :
    sha256Bytes bytes = .ok (Sha2.sha256 bytes) := by
  obtain ⟨n, hn⟩ := Sha2.length_pad bytes
  have hoffs : List.range' 0 (((Sha2.pad bytes).length + 63) / 64) 64 =
      (List.range n).map (64 * ·) := by
    have hcount : ((Sha2.pad bytes).length + 63) / 64 = n := by omega
    rw [hcount]
    apply List.ext_getElem <;> simp
  have hcount : (Sha2.words (Sha2.pad bytes)).length / 16 = n := by
    rw [Sha2.length_words]
    omega
  have hblocks := (toHash_blocks (Sha2.pad bytes) (initial, List.replicate 64 0) n
    List.length_replicate (by omega)).1
  rw [sha256Bytes, padded_ok h]
  simp only [bind, Except.bind, hoffs, List.foldl_map]
  generalize (List.range n).foldl (fun H j => block (Sha2.pad bytes) H (64 * j))
    (initial, List.replicate 64 0) = H at *
  rw [Sha2.sha256, hcount, ← toHash_initial, ← hblocks]
  simp [Sha2.output, Vars.toHash, outWord_eq, pure, Except.pure]

-- An array that is too long for the padding to be counted in 32 bits.
theorem sha256Bytes_error (bytes : Bytes) (h : 2 ^ 31 ≤ bytes.length + 72) :
    ∃ e, sha256Bytes bytes = .error e := by
  obtain ⟨e, he⟩ := padded_error h
  exact ⟨e, by rw [sha256Bytes, he]; rfl⟩

theorem sha256Bytes_eq_ok {bytes digest : Bytes} (h : sha256Bytes bytes = .ok digest) :
    digest = Sha2.sha256 bytes := by
  by_cases hlt : bytes.length + 72 < 2 ^ 31
  · rw [sha256Bytes_ok hlt] at h
    exact (Except.ok.inj h).symm
  · obtain ⟨e, he⟩ := sha256Bytes_error bytes (by omega)
    rw [he] at h
    cases h

end DeltaFeedback.Web.SHA256
