import Mathlib.Algebra.Group.Nat.Defs
import Mathlib.Data.List.Basic
import Mathlib.Data.List.DropRight

namespace Text

abbrev Bytes := List UInt8

def utf8 (s : String) : Bytes := s.toList.flatMap String.utf8EncodeChar

-- `isspace` in the C locale: space, tab, newline, vertical tab, form feed, return.
def isSpace (c : UInt8) : Bool := c == 32 || (9 ≤ c && c ≤ 13)

def trim (s : Bytes) : Bytes := (s.dropWhile isSpace).rdropWhile isSpace

-- What a C function reads of a string: the bytes before the first NUL.
def cStr (s : Bytes) : Bytes := s.takeWhile fun c => c != 0

theorem cStr_append {first : Bytes} (rest : Bytes) (h : ∀ c ∈ first, c ≠ 0) :
    cStr (first ++ rest) = first ++ cStr rest :=
  List.takeWhile_append_of_pos fun c hc => by simpa using h c hc

def isDigit (c : UInt8) : Bool := 48 ≤ c && c ≤ 57

def digit (c : UInt8) : Nat := c.toNat - 48

def digitsValue (s : Bytes) : Nat := s.foldl (fun value c => 10 * value + digit c) 0

-- `std::stoul` in base 10, none where it throws: a negative number wraps around.
def stoul (s : Bytes) : Option Nat :=
  let s := s.dropWhile isSpace
  let negative := s.head? = some 45
  let digits := (if negative ∨ s.head? = some 43 then s.drop 1 else s).takeWhile isDigit
  let v := digitsValue digits
  if digits.isEmpty ∨ v ≥ 2 ^ 64 then none
  else some (if negative then (2 ^ 64 - v) % 2 ^ 64 else v)

def decimal (n : Nat) : Bytes := (Nat.toDigits 10 n).map fun c => c.toNat.toUInt8

def decimalInt (v : Int) : Bytes := if v < 0 then 45 :: decimal v.natAbs else decimal v.natAbs

-- The accumulator of a comparison that looks at every byte: the OR of the XORs.
def xorDiff (start : UInt8) (a b : Bytes) : UInt8 :=
  (List.zipWith (· ^^^ ·) a b).foldl (· ||| ·) start

theorem forall_byte {P : UInt8 → Prop} (h : ∀ n < 256, P (UInt8.ofNat n)) (c : UInt8) : P c := by
  have hc := h c.toNat c.toNat_lt
  rwa [UInt8.ofNat_toNat] at hc

theorem notMem_of_mem_splitOn {s part : Bytes} {c : UInt8} (h : part ∈ s.splitOn c) : c ∉ part := by
  induction s generalizing part with
  | nil =>
      rw [List.splitOn_nil, List.mem_singleton] at h
      rw [h]
      exact List.not_mem_nil
  | cons d s ih =>
      rw [List.splitOn_cons_eq_if_modifyHead] at h
      split_ifs at h with hd
      · rcases List.mem_cons.mp h with rfl | h
        · exact List.not_mem_nil
        · exact ih h
      · obtain ⟨first, rest, hrest⟩ := List.exists_cons_of_ne_nil (List.splitOn_ne_nil c s)
        rw [hrest, List.modifyHead_cons] at h
        rcases List.mem_cons.mp h with rfl | h
        · have hfirst := ih (hrest ▸ List.mem_cons_self)
          rw [List.mem_cons, not_or]
          exact ⟨fun hc => hd (by simp [hc]), hfirst⟩
        · exact ih (hrest ▸ List.mem_cons_of_mem first h)

theorem isDigit_iff (c : UInt8) : isDigit c = true ↔ 48 ≤ c.toNat ∧ c.toNat ≤ 57 := by
  simp [isDigit, UInt8.le_iff_toNat_le]

theorem toNat_of_isDigit (c : Char) (h : c.isDigit) :
    c.toNat.toUInt8.toNat = c.toNat ∧ 48 ≤ c.toNat ∧ c.toNat ≤ 57 := by
  have hc : 48 ≤ c.toNat ∧ c.toNat ≤ 57 := by
    simpa [Char.isDigit, UInt32.le_iff_toNat_le] using h
  refine ⟨?_, hc⟩
  change c.toNat % 256 = c.toNat
  omega

theorem isDigit_of_mem_decimal {n : Nat} {c : UInt8} (h : c ∈ decimal n) : isDigit c = true := by
  obtain ⟨d, hd, rfl⟩ := List.mem_map.mp h
  have hc := toNat_of_isDigit d (Nat.isDigit_of_mem_toDigits (by decide) (by decide) hd)
  rw [isDigit_iff, hc.1]
  exact hc.2

theorem decimal_ne_nil (n : Nat) : decimal n ≠ [] := by
  simp [decimal, Nat.toDigits_ne_nil]

@[simp] theorem digitsValue_decimal (n : Nat) : digitsValue (decimal n) = n := by
  have hfold : ∀ (cs : List Char) (value : Nat), (∀ c ∈ cs, c.isDigit) →
      (cs.map fun c => c.toNat.toUInt8).foldl (fun value c => 10 * value + digit c) value =
        Nat.ofDigitChars 10 cs value := by
    intro cs
    induction cs with
    | nil => simp
    | cons c cs ih =>
        intro value hcs
        have hc := toNat_of_isDigit c (hcs c (by simp))
        simp only [List.map_cons, List.foldl_cons, Nat.ofDigitChars_cons]
        rw [ih _ fun d hd => hcs d (List.mem_cons_of_mem _ hd)]
        simp [digit, hc.1]
  have hdigits : ∀ c ∈ Nat.toDigits 10 n, c.isDigit := fun c hc =>
    Nat.isDigit_of_mem_toDigits (by decide) (by decide) hc
  rw [digitsValue, decimal, hfold _ _ hdigits, Nat.ofDigitChars_ten_toDigits]

theorem stoul_decimal_eq (n : Nat) :
    stoul (decimal n) = if n < 2 ^ 64 then some n else none := by
  have hdigits : ∀ c ∈ decimal n, isDigit c = true := fun c hc => isDigit_of_mem_decimal hc
  cases hd : decimal n with
  | nil => exact absurd hd (decimal_ne_nil n)
  | cons c rest =>
      have hc := (isDigit_iff c).mp (hdigits c (by simp [hd]))
      have hspace : isSpace c = false := by
        have h32 : c ≠ 32 := by
          rintro rfl
          simp at hc
        have h13 : ¬ c ≤ 13 := by
          rw [UInt8.le_iff_toNat_le]
          change ¬ c.toNat ≤ 13
          omega
        simp [isSpace, h32, h13]
      have hsign : c ≠ 45 ∧ c ≠ 43 := by
        constructor <;> rintro rfl <;> simp at hc
      have htake : (c :: rest).takeWhile isDigit = c :: rest := by
        rw [List.takeWhile_eq_self_iff, ← hd]
        exact hdigits
      have hvalue : digitsValue (c :: rest) = n := by rw [← hd, digitsValue_decimal]
      simp only [stoul, List.dropWhile_cons, hspace, List.head?_cons, Option.some.injEq, hsign.1,
        hsign.2, or_self, Bool.false_eq_true, ite_false, htake, hvalue, List.isEmpty_cons,
        false_or, ge_iff_le]
      by_cases hn : n < 2 ^ 64
      · rw [if_neg (Nat.not_le.mpr hn), if_pos hn]
      · rw [if_pos (Nat.not_lt.mp hn), if_neg hn]

-- A number that is written out is read back.
theorem stoul_decimal {n : Nat} (h : n < 2 ^ 64) : stoul (decimal n) = some n := by
  rw [stoul_decimal_eq, if_pos h]

theorem or_foldl_eq_zero (start : UInt8) (bytes : Bytes) :
    bytes.foldl (· ||| ·) start = 0 ↔ start = 0 ∧ ∀ c ∈ bytes, c = 0 := by
  induction bytes generalizing start with
  | nil => simp
  | cons c bytes ih => simp [ih, UInt8.or_eq_zero_iff, and_assoc]

theorem xorDiff_eq_zero (start : UInt8) (a b : Bytes) (h : a.length = b.length) :
    xorDiff start a b = 0 ↔ start = 0 ∧ a = b := by
  rw [xorDiff, or_foldl_eq_zero]
  refine and_congr_right fun _ => ?_
  induction a generalizing b with
  | nil => simp [List.length_eq_zero_iff.mp h.symm]
  | cons x a ih =>
      cases b with
      | nil => simp at h
      | cons y b => simp [ih b (by simpa using h)]

-- The comparison that begins with the lengths.
theorem xorDiff_lengths_iff (a b : Bytes) :
    xorDiff (if a.length ≠ b.length then 1 else 0) a b ≠ 0 ↔ a ≠ b := by
  by_cases hlength : a.length = b.length
  · rw [if_neg (not_not.mpr hlength), ne_eq, xorDiff_eq_zero 0 a b hlength, and_iff_right rfl]
  · have hne : a ≠ b := fun hsame => hlength (congrArg List.length hsame)
    rw [if_pos hlength, xorDiff, ne_eq, or_foldl_eq_zero]
    simp [hne]

end Text
