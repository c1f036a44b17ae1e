import DeltaFeedback.Pow.Challenge
import Mathlib.Data.Int.ModEq

namespace DeltaFeedback.Pow

open Text

theorem i64_add_i64_mul (x y : Int) : i64 (i64 x * 10 + y) = i64 (x * 10 + y) := by
  unfold i64
  rw [← Int.bmod_add_bmod, Int.bmod_mul_bmod, Int.bmod_add_bmod]

theorem i64_of_lt (x : Int) (h0 : 0 ≤ x) (h : x < 2 ^ 63) : i64 x = x := by
  unfold i64
  apply Int.bmod_eq_of_le <;> omega

theorem i64_le (x : Int) (h : 0 ≤ x) : i64 x ≤ x := by
  unfold i64
  have hm := Int.emod_nonneg x (show (2 : Int) ^ 64 ≠ 0 by decide)
  have hd := Int.emod_add_mul_ediv x (2 ^ 64)
  have hq := Int.ediv_nonneg h (show (0 : Int) ≤ 2 ^ 64 by decide)
  rw [Int.bmod_def]
  split <;> omega

theorem not_outside_of_isDigit {c : UInt8} (h : isDigit c = true) : (c < 48 || c > 57) = false := by
  obtain ⟨hlo, hhi⟩ := (isDigit_iff c).mp h
  simp [UInt8.lt_iff_toNat_lt]
  omega

theorem parseI64Loop_digits (s : Bytes) (v : Nat) (hs : ∀ c ∈ s, isDigit c = true) :
    parseI64Loop (i64 v) s =
      some (i64 (s.foldl (fun value c => 10 * value + digit c) v : Nat)) := by
  induction s generalizing v with
  | nil => rfl
  | cons c rest ih =>
      obtain ⟨hlo, _⟩ := (isDigit_iff c).mp (hs c (by simp))
      have hv : i64 (i64 v * 10 + (c.toNat - 48)) = i64 (10 * v + digit c : Nat) := by
        rw [i64_add_i64_mul]
        congr 1
        simp only [digit]
        omega
      simp only [parseI64Loop, not_outside_of_isDigit (hs c (by simp)), Bool.false_eq_true, ite_false,
        List.foldl_cons, hv]
      exact ih _ fun d hd => hs d (List.mem_cons_of_mem _ hd)

theorem parseUintLoop_digits (s : Bytes) (v : Nat) (hs : ∀ c ∈ s, isDigit c = true) :
    parseUintLoop (UInt32.ofNat v) s =
      some (UInt32.ofNat (s.foldl (fun value c => 10 * value + digit c) v)) := by
  induction s generalizing v with
  | nil => rfl
  | cons c rest ih =>
      obtain ⟨hlo, _⟩ := (isDigit_iff c).mp (hs c (by simp))
      have hv : UInt32.ofNat v * 10 + (c - 48).toUInt32 = UInt32.ofNat (10 * v + digit c) := by
        apply UInt32.toNat_inj.mp
        have hsub : (c - 48).toNat = c.toNat - 48 := UInt8.toNat_sub_of_le _ _ hlo
        simp [digit, hsub, Nat.mul_comm, -UInt8.toUInt32_sub]
      simp only [parseUintLoop, not_outside_of_isDigit (hs c (by simp)), Bool.false_eq_true, ite_false,
        List.foldl_cons, hv]
      exact ih _ fun d hd => hs d (List.mem_cons_of_mem _ hd)

@[simp] theorem parseI64_decimal (n : Nat) : parseI64 (decimal n) = some (i64 n) := by
  have h := parseI64Loop_digits (decimal n) 0 fun _ hc => isDigit_of_mem_decimal hc
  rw [← digitsValue, digitsValue_decimal] at h
  simpa [parseI64, decimal_ne_nil, i64_of_lt 0] using h

@[simp] theorem parseUint_decimal (difficulty : UInt32) :
    parseUint (decimal difficulty.toNat) = some difficulty := by
  have h := parseUintLoop_digits (decimal difficulty.toNat) 0 fun _ hc => isDigit_of_mem_decimal hc
  rw [← digitsValue, digitsValue_decimal] at h
  simpa [parseUint, decimal_ne_nil] using h

-- A negative number is printed with a sign the parser does not take.
theorem parseI64_decimalInt (v : Int) :
    parseI64 (decimalInt v) = if v < 0 then none else some (i64 v) := by
  unfold decimalInt
  split_ifs with h
  · rfl
  · rw [parseI64_decimal, Int.natAbs_of_nonneg (by omega)]

theorem dot_notMem_decimal (n : Nat) : 46 ∉ decimal n := fun h =>
  absurd (isDigit_of_mem_decimal h) (by decide)

theorem dot_notMem_decimalInt (v : Int) : 46 ∉ decimalInt v := by
  unfold decimalInt
  split_ifs <;> simp [dot_notMem_decimal]

theorem splitLoop_append (s rest field : Bytes) (parts : List Bytes) (hs : 46 ∉ s) :
    splitLoop field parts (s ++ rest) = splitLoop (field ++ s) parts rest := by
  induction s generalizing field with
  | nil => simp
  | cons c s ih =>
      have hc : ¬c = 46 := fun he => hs (by simp [he])
      simp [splitLoop, hc, ih _ fun hm => hs (by simp [hm])]

theorem splitLoop_field (s rest : Bytes) (parts : List Bytes) (hs : 46 ∉ s)
    (hparts : parts.length ≠ 3) :
    splitLoop [] parts (s ++ 46 :: rest) = splitLoop [] (parts ++ [s]) rest := by
  rw [splitLoop_append _ _ _ _ hs]
  simp [splitLoop, hparts]

theorem splitLoop_last (s : Bytes) (parts : List Bytes) (hs : 46 ∉ s) :
    splitLoop [] parts s = some (parts ++ [s]) := by
  simpa [splitLoop] using splitLoop_append s [] [] parts hs

-- Four fields without dots are found again.
theorem splitLoop_join (a b c d : Bytes) (ha : 46 ∉ a) (hb : 46 ∉ b) (hc : 46 ∉ c) (hd : 46 ∉ d) :
    splitLoop [] [] (joinPayload a b c ++ [46] ++ d) = some [a, b, c, d] := by
  simp only [joinPayload, List.append_assoc, List.cons_append, List.nil_append]
  rw [splitLoop_field a _ _ ha (by simp), splitLoop_field b _ _ hb (by simp),
    splitLoop_field c _ _ hc (by simp), splitLoop_last d _ hd]
  rfl

-- What the loop has read is the fields it returns, dots between them.
theorem splitLoop_eq_some (s field : Bytes) (parts out : List Bytes) (hfield : 46 ∉ field)
    (h : splitLoop field parts s = some out) :
    ∃ first more, out = parts ++ first :: more ∧ field ++ s = [46].intercalate (first :: more) ∧
      ∀ part ∈ first :: more, 46 ∉ part := by
  induction s generalizing field parts with
  | nil =>
      refine ⟨field, [], ?_, by simp, by simpa using hfield⟩
      simpa [splitLoop, eq_comm] using h
  | cons c s ih =>
      simp only [splitLoop] at h
      split_ifs at h with hc hfull
      · subst hc
        obtain ⟨first, more, rfl, hjoin, hdots⟩ := ih [] _ (by simp) h
        refine ⟨field, first :: more, by simp, ?_, ?_⟩
        · simp only [List.nil_append] at hjoin
          simp [hjoin, List.intercalate]
        · intro part hpart
          rcases List.mem_cons.mp hpart with rfl | hpart
          · exact hfield
          · exact hdots part hpart
      · obtain ⟨first, more, hout, hjoin, hdots⟩ :=
          ih (field ++ [c]) parts (by simp [hfield, Ne.symm hc]) h
        exact ⟨first, more, hout, by simpa using hjoin, hdots⟩

theorem splitLoop_four (token a b c d : Bytes) (h : splitLoop [] [] token = some [a, b, c, d]) :
    token = joinPayload a b c ++ [46] ++ d ∧ 46 ∉ a ∧ 46 ∉ b ∧ 46 ∉ c ∧ 46 ∉ d := by
  obtain ⟨first, more, hout, hjoin, hdots⟩ := splitLoop_eq_some token [] [] _ (by simp) h
  simp only [List.nil_append, List.cons.injEq] at hout hjoin
  obtain ⟨rfl, rfl⟩ := hout
  refine ⟨?_, by simpa using hdots⟩
  simpa [joinPayload, List.intercalate] using hjoin

theorem joinPayload_injective {a b c a' b' c' : Bytes} (ha : 46 ∉ a) (hb : 46 ∉ b) (hc : 46 ∉ c)
    (ha' : 46 ∉ a') (hb' : 46 ∉ b') (hc' : 46 ∉ c') (h : joinPayload a b c = joinPayload a' b' c') :
    a = a' ∧ b = b' ∧ c = c' := by
  have hsplit := splitLoop_join a b c [] ha hb hc (by simp)
  rw [h, splitLoop_join a' b' c' [] ha' hb' hc' (by simp)] at hsplit
  simp only [Option.some.injEq, List.cons.injEq] at hsplit
  exact ⟨hsplit.1.symm, hsplit.2.1.symm, hsplit.2.2.1.symm⟩

end DeltaFeedback.Pow
