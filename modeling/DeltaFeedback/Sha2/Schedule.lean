import DeltaFeedback.Sha2.Spec

namespace Sha2

open Text

-- W_t of FIPS 180-4: the words of the block, then the recurrence.
def scheduleWord (block : List UInt32) (t : Nat) : UInt32 :=
  if t < 16 then block.getD t 0
  else smallSigma1 (scheduleWord block (t - 2)) + scheduleWord block (t - 7) +
    smallSigma0 (scheduleWord block (t - 15)) + scheduleWord block (t - 16)
termination_by t

theorem scheduleWord_of_lt (block : List UInt32) {t : Nat} (h : t < 16) :
    scheduleWord block t = block.getD t 0 := by
  rw [scheduleWord, if_pos h]

theorem scheduleWord_add (block : List UInt32) (t : Nat) :
    scheduleWord block (t + 16) = smallSigma1 (scheduleWord block (t + 14)) +
      scheduleWord block (t + 9) + smallSigma0 (scheduleWord block (t + 1)) +
      scheduleWord block t := by
  have hge : ¬t + 16 < 16 := by omega
  rw [scheduleWord, if_neg hge]
  simp only [Nat.add_sub_cancel, Nat.reduceSubDiff]

-- The window of the rounds holds W_t to W_{t+15}.
def window (block : List UInt32) (t : Nat) : List UInt32 :=
  (List.range' t 16).map (scheduleWord block)

theorem window_zero {block : List UInt32} (h : block.length = 16) : window block 0 = block := by
  apply List.ext_getElem
  · simp [window, h]
  · intro i hi hi'
    have hlt : i < 16 := by omega
    simp [window, scheduleWord_of_lt block hlt, hi']

theorem getD_window (block : List UInt32) (t : Nat) {j : Nat} (hj : j < 16) :
    (window block t).getD j 0 = scheduleWord block (t + j) := by
  simp [window, hj]

theorem window_succ (block : List UInt32) (t : Nat) :
    (window block t).drop 1 ++ [scheduleWord block (t + 16)] = window block (t + 1) := by
  have hhead : List.range' t 16 = t :: List.range' (t + 1) 15 := List.range'_succ
  have hlast : List.range' (t + 1) 16 = List.range' (t + 1) 15 ++ [t + 16] := List.range'_concat
  simp only [window, hhead, hlast, List.map_cons, List.drop_succ_cons, List.drop_zero,
    List.map_append, List.map_nil]

-- The rounds read the schedule at the index of the constant.
theorem rounds_window (block all ks : List UInt32) (s : Hash) (t : Nat) (hks : all.drop t = ks) :
    rounds s (window block t) ks = (List.range' t ks.length).foldl
      (fun s i => round s (all.getD i 0) (scheduleWord block i)) s := by
  induction ks generalizing s t with
  | nil => rfl
  | cons kt ks ih =>
      have hkt : all.getD t 0 = kt := by
        rw [List.getD_eq_getElem?_getD, ← List.head?_drop, hks]
        rfl
      have hrest : all.drop (t + 1) = ks := by
        rw [← List.drop_drop, hks]
        rfl
      rw [rounds, getD_window block t (by decide), getD_window block t (by decide),
        getD_window block t (by decide), getD_window block t (by decide), Nat.add_zero,
        ← scheduleWord_add, window_succ, ih _ _ hrest, List.length_cons, List.range'_succ,
        List.foldl_cons, hkt]

theorem rounds_block (s : Hash) {block : List UInt32} (h : block.length = 16) :
    rounds s block k = (List.range' 0 64).foldl
      (fun s i => round s (k.getD i 0) (scheduleWord block i)) s := by
  have hwindow := rounds_window block k k s 0 rfl
  rwa [window_zero h] at hwindow

-- The blocks one after the other, by their index.
theorem blocks_eq (s : Hash) (n : Nat) (ws : List UInt32) :
    blocks s n ws =
      (List.range n).foldl (fun s j => compress s ((ws.drop (16 * j)).take 16)) s := by
  induction n generalizing s ws with
  | zero => rfl
  | succ n ih =>
      rw [blocks, ih, List.range_succ_eq_map, List.foldl_cons, List.foldl_map]
      simp only [List.drop_drop, Nat.mul_zero, List.drop_zero, Nat.mul_succ, Nat.add_comm]

theorem length_lt_of_short {bytes : Bytes}
    (h : ∀ a b c d rest, bytes = a :: b :: c :: d :: rest → False) : bytes.length < 4 := by
  match bytes, h with
  | [], _ | [_], _ | [_, _], _ | [_, _, _], _ => simp
  | a :: b :: c :: d :: rest, h => exact (h a b c d rest rfl).elim

theorem length_words (bytes : Bytes) : (words bytes).length = bytes.length / 4 := by
  induction bytes using words.induct with
  | case1 a b c d rest ih => simp [words, ih]; omega
  | case2 bytes h =>
      have hlt : bytes.length < 4 := length_lt_of_short h
      rw [words.eq_2 _ h, List.length_nil, Nat.div_eq_of_lt hlt]

theorem getD_words (bytes : Bytes) (i : Nat) (h : 4 * i + 3 < bytes.length) :
    (words bytes).getD i 0 = word (bytes.getD (4 * i) 0) (bytes.getD (4 * i + 1) 0)
      (bytes.getD (4 * i + 2) 0) (bytes.getD (4 * i + 3) 0) := by
  induction bytes using words.induct generalizing i with
  | case1 a b c d rest ih =>
      cases i with
      | zero => rfl
      | succ i =>
          simp only [words, List.getD_cons_succ, Nat.mul_succ]
          exact ih i (by simp at h; omega)
  | case2 bytes hshort => exact absurd (length_lt_of_short hshort) (by omega)

-- The padded message is whole blocks.
theorem length_pad (message : Bytes) : 64 ∣ (pad message).length := by
  simp only [pad, List.length_append, List.length_cons, List.length_replicate, length_bigEndian]
  omega

end Sha2
