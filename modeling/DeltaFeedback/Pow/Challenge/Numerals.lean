import DeltaFeedback.Pow.Challenge.Malleable

namespace DeltaFeedback.Pow

open Text

-- The exact values that the accumulate loop of a parser computes, where an
-- accumulator is kept through `wrap`: the product and the sum of each step.
def accumulate (wrap : Int → Int) (v : Int) : Bytes → List Int
  | [] => []
  | c :: rest =>
      if c < 48 || c > 57 then []
      else
        let next := v * 10 + (c.toNat - 48)
        v * 10 :: next :: accumulate wrap (wrap next) rest

def u32 (v : Int) : Int := v % 2 ^ 32

def stepsI64 (s : Bytes) : List Int := accumulate i64 0 s

def stepsUint (s : Bytes) : List Int := accumulate u32 0 s

def InI64 (v : Int) : Prop := -2 ^ 63 ≤ v ∧ v ≤ 2 ^ 63 - 1

def InUint (v : Int) : Prop := 0 ≤ v ∧ v ≤ 2 ^ 32 - 1

def Numeral (s : Bytes) : Prop := s ≠ [] ∧ ∀ c ∈ s, isDigit c = true

structure ReadsI64 (s : Bytes) : Prop where
  succeeds : (∃ v, parseI64 s = some v) ↔ Numeral s ∧ digitsValue s ≤ 2 ^ 63 - 1
  value : ∀ v, parseI64 s = some v → v = digitsValue s
  defined : ∀ x ∈ stepsI64 s, InI64 x

structure ReadsUint (s : Bytes) : Prop where
  succeeds : (∃ v, parseUint s = some v) ↔ Numeral s ∧ digitsValue s ≤ 2 ^ 32 - 1
  value : ∀ v, parseUint s = some v → v.toNat = digitsValue s
  defined : ∀ x ∈ stepsUint s, InUint x

-- The number that the digits at the start of a text write.
def leadingValue (s : Bytes) : Nat := digitsValue (s.takeWhile isDigit)

section Loops

theorem outside_iff (c : UInt8) : (c < 48 || c > 57) = true ↔ ¬ isDigit c = true := by
  revert c
  exact forall_byte (by decide +kernel)

theorem le_foldl_digits (s : Bytes) (v : Nat) :
    v ≤ s.foldl (fun value c => 10 * value + digit c) v := by
  induction s generalizing v with
  | nil => exact le_refl v
  | cons c s ih =>
      have hle := ih (10 * v + digit c)
      rw [List.foldl_cons]
      omega

-- As long as every sum is kept as it is, the accumulator is the number read so
-- far, and that only grows.
theorem accumulate_in_range {wrap : Int → Int} {bound : Nat} {lo : Int} (hlo : lo ≤ 0)
    (hwrap : ∀ v : Nat, v ≤ bound → wrap v = v) (s : Bytes) {v : Nat} (hv : v ≤ bound) :
    (∀ x ∈ accumulate wrap v s, lo ≤ x ∧ x ≤ bound) ↔
      (s.takeWhile isDigit).foldl (fun value c => 10 * value + digit c) v ≤ bound := by
  induction s generalizing v with
  | nil => simp [accumulate, hv]
  | cons c rest ih =>
      by_cases hdigit : isDigit c = true
      · have hsum : (v : Int) * 10 + (c.toNat - 48) = (10 * v + digit c : Nat) := by
          have hlow := ((isDigit_iff c).mp hdigit).1
          unfold digit
          omega
        rw [accumulate, if_neg (by simp [not_outside_of_isDigit hdigit]),
          List.takeWhile_cons_of_pos hdigit, List.foldl_cons]
        simp only [hsum, List.forall_mem_cons]
        by_cases hnext : 10 * v + digit c ≤ bound
        · rw [hwrap _ hnext, ih hnext]
          refine ⟨fun hall => hall.2.2, fun hrest => ⟨⟨by omega, by omega⟩, ⟨by omega, ?_⟩, hrest⟩⟩
          exact Int.ofNat_le.mpr hnext
        · have hgrows := le_foldl_digits (rest.takeWhile isDigit) (10 * v + digit c)
          constructor
          · intro hall
            exact absurd (Int.ofNat_le.mp hall.2.1.2) hnext
          · intro hle
            omega
      · rw [accumulate, if_pos ((outside_iff c).mpr hdigit), List.takeWhile_cons_of_neg hdigit]
        simp [hv]

theorem parseI64Loop_isSome_iff (v : Int) (s : Bytes) :
    (∃ w, parseI64Loop v s = some w) ↔ ∀ c ∈ s, isDigit c = true := by
  induction s generalizing v with
  | nil => simp [parseI64Loop]
  | cons c rest ih =>
      rw [parseI64Loop, List.forall_mem_cons]
      by_cases hdigit : isDigit c = true
      · rw [if_neg (by simp [not_outside_of_isDigit hdigit]), ih]
        exact ⟨fun h => ⟨hdigit, h⟩, fun h => h.2⟩
      · rw [if_pos ((outside_iff c).mpr hdigit)]
        simp [hdigit]

theorem parseUintLoop_isSome_iff (v : UInt32) (s : Bytes) :
    (∃ w, parseUintLoop v s = some w) ↔ ∀ c ∈ s, isDigit c = true := by
  induction s generalizing v with
  | nil => simp [parseUintLoop]
  | cons c rest ih =>
      rw [parseUintLoop, List.forall_mem_cons]
      by_cases hdigit : isDigit c = true
      · rw [if_neg (by simp [not_outside_of_isDigit hdigit]), ih]
        exact ⟨fun h => ⟨hdigit, h⟩, fun h => h.2⟩
      · rw [if_pos ((outside_iff c).mpr hdigit)]
        simp [hdigit]

end Loops

section Fields

variable {s : Bytes}

theorem Numeral.leadingValue_eq (h : Numeral s) : leadingValue s = digitsValue s := by
  rw [leadingValue, List.takeWhile_eq_self_iff.mpr h.2]

theorem parseI64_isSome_iff (s : Bytes) : (∃ v, parseI64 s = some v) ↔ Numeral s := by
  unfold parseI64 Numeral
  cases s with
  | nil => simp
  | cons c s =>
      rw [if_neg (by simp), parseI64Loop_isSome_iff]
      simp

theorem parseUint_isSome_iff (s : Bytes) : (∃ v, parseUint s = some v) ↔ Numeral s := by
  unfold parseUint Numeral
  cases s with
  | nil => simp
  | cons c s =>
      rw [if_neg (by simp), parseUintLoop_isSome_iff]
      simp

theorem Numeral.parseI64 (h : Numeral s) : parseI64 s = some (i64 (digitsValue s)) := by
  have hloop := parseI64Loop_digits s 0 h.2
  have hzero : i64 (0 : Nat) = 0 := i64_of_lt 0 (le_refl 0) (by decide)
  rw [hzero, ← digitsValue] at hloop
  rw [Pow.parseI64, if_neg (by simpa using h.1)]
  exact hloop

theorem Numeral.parseUint (h : Numeral s) :
    parseUint s = some (UInt32.ofNat (digitsValue s)) := by
  have hloop := parseUintLoop_digits s 0 h.2
  rw [← digitsValue] at hloop
  rw [Pow.parseUint, if_neg (by simpa using h.1)]
  exact hloop

theorem stepsI64_defined_iff (s : Bytes) :
    (∀ x ∈ stepsI64 s, InI64 x) ↔ leadingValue s ≤ 2 ^ 63 - 1 := by
  have hkeep : ∀ v : Nat, v ≤ 2 ^ 63 - 1 → i64 v = v := by
    intro v hv
    exact i64_of_lt v (by omega) (by omega)
  exact accumulate_in_range (by decide) hkeep s (Nat.zero_le _)

theorem stepsUint_defined_iff (s : Bytes) :
    (∀ x ∈ stepsUint s, InUint x) ↔ leadingValue s ≤ 2 ^ 32 - 1 := by
  have hkeep : ∀ v : Nat, v ≤ 2 ^ 32 - 1 → u32 v = v := by
    intro v hv
    unfold u32
    omega
  exact accumulate_in_range (le_refl 0) hkeep s (Nat.zero_le _)

theorem readsI64_iff (s : Bytes) : ReadsI64 s ↔ leadingValue s ≤ 2 ^ 63 - 1 := by
  refine ⟨fun h => (stepsI64_defined_iff s).mp h.defined, fun hle => ⟨?_, ?_, ?_⟩⟩
  · rw [parseI64_isSome_iff]
    exact ⟨fun h => ⟨h, h.leadingValue_eq ▸ hle⟩, fun h => h.1⟩
  · intro v hv
    have hnumeral := (parseI64_isSome_iff s).mp ⟨v, hv⟩
    rw [hnumeral.parseI64] at hv
    have hvalue := hnumeral.leadingValue_eq
    rw [← Option.some.inj hv]
    exact i64_of_lt _ (by omega) (by omega)
  · exact (stepsI64_defined_iff s).mpr hle

theorem readsUint_iff (s : Bytes) : ReadsUint s ↔ leadingValue s ≤ 2 ^ 32 - 1 := by
  refine ⟨fun h => (stepsUint_defined_iff s).mp h.defined, fun hle => ⟨?_, ?_, ?_⟩⟩
  · rw [parseUint_isSome_iff]
    exact ⟨fun h => ⟨h, h.leadingValue_eq ▸ hle⟩, fun h => h.1⟩
  · intro v hv
    have hnumeral := (parseUint_isSome_iff s).mp ⟨v, hv⟩
    rw [hnumeral.parseUint] at hv
    have hvalue := hnumeral.leadingValue_eq
    have hlt : digitsValue s < 2 ^ 32 := by omega
    rw [← Option.some.inj hv]
    exact UInt32.toNat_ofNat_of_lt' hlt
  · exact (stepsUint_defined_iff s).mpr hle

end Fields

namespace ChallengeIssuer

-- The difficulty is only read after the expiry is.
def expirySteps (token : Bytes) : List Int :=
  match splitLoop [] [] token with
  | some [_, expiresText, _, _] => stepsI64 expiresText
  | _ => []

def difficultySteps (token : Bytes) : List Int :=
  match splitLoop [] [] token with
  | some [_, expiresText, difficultyText, _] =>
      if (parseI64 expiresText).isSome then stepsUint difficultyText else []
  | _ => []

-- No accumulation of `verify` overflows, and it compares the numbers as they
-- are written.
structure VerifiesExactly (token : Bytes) : Prop where
  expires : ∀ x ∈ expirySteps token, InI64 x
  difficulty : ∀ x ∈ difficultySteps token, InUint x
  compared : ∀ (crypto : Crypto) (issuer : ChallengeIssuer) (nonce : Bytes) (clock : Int)
    (idB64 expiresText difficultyText sigB64 : Bytes),
    splitLoop [] [] token = some [idB64, expiresText, difficultyText, sigB64] →
    (issuer.verify crypto token nonce clock).1 ≠ .Malformed →
    (issuer.verify crypto token nonce clock).1 ≠ .BadSignature →
    (issuer.verify crypto token nonce clock).1 =
      if clock > digitsValue expiresText then .Expired
      else if leadingZeroBits (crypto.sha256 (token ++ [58] ++ nonce)).val <
        digitsValue difficultyText then .InsufficientWork
      else .Ok

-- The digits at the start of the second field stay in int64, and with nothing
-- but digits there, those at the start of the third in unsigned.
def FieldsInRange (token : Bytes) : Prop :=
  ∀ idB64 expiresText difficultyText sigB64,
    splitLoop [] [] token = some [idB64, expiresText, difficultyText, sigB64] →
    leadingValue expiresText ≤ 2 ^ 63 - 1 ∧
      (Numeral expiresText → leadingValue difficultyText ≤ 2 ^ 32 - 1)

variable (crypto : Crypto) (issuer : ChallengeIssuer)

theorem verify_compared {token nonce idB64 expiresText difficultyText sigB64 : Bytes} {clock : Int}
    {expires : Int} {difficulty : UInt32}
    (hsplit : splitLoop [] [] token = some [idB64, expiresText, difficultyText, sigB64])
    (hexpires : parseI64 expiresText = some expires)
    (hdifficulty : parseUint difficultyText = some difficulty)
    (hformed : (issuer.verify crypto token nonce clock).1 ≠ .Malformed)
    (hsigned : (issuer.verify crypto token nonce clock).1 ≠ .BadSignature) :
    (issuer.verify crypto token nonce clock).1 =
      if clock > expires then .Expired
      else if leadingZeroBits (crypto.sha256 (token ++ [58] ++ nonce)).val < difficulty.toNat then
        .InsufficientWork
      else .Ok := by
  unfold verify at *
  simp only [hsplit, hexpires, hdifficulty] at *
  cases hid : b64urlDecode idB64 with
  | none => simp [hid] at hformed
  | some idRaw =>
      cases hsig : b64urlDecode sigB64 with
      | none => simp [hid, hsig] at hformed
      | some sigRaw =>
          simp only [hid, hsig] at hsigned ⊢
          by_cases hct : ctEq (crypto.hmacSha256 issuer.secret
              (joinPayload idB64 expiresText difficultyText)).val sigRaw = true
          · simp only [hct, Bool.not_true, Bool.false_eq_true, if_false]
            split_ifs <;> rfl
          · simp [hct] at hsigned

theorem difficultySteps_eq {token idB64 expiresText difficultyText sigB64 : Bytes}
    (hsplit : splitLoop [] [] token = some [idB64, expiresText, difficultyText, sigB64])
    (hnumeral : Numeral expiresText) : difficultySteps token = stepsUint difficultyText := by
  have hsome := Option.isSome_iff_exists.mpr ((parseI64_isSome_iff expiresText).mpr hnumeral)
  simp only [difficultySteps, hsplit, hsome, if_true]

theorem FieldsInRange.verifiesExactly {token : Bytes} (h : FieldsInRange token) :
    VerifiesExactly token := by
  constructor
  · intro x hx
    unfold expirySteps at hx
    split at hx
    next expiresText _ _ hsplit =>
      exact (stepsI64_defined_iff expiresText).mpr (h _ _ _ _ hsplit).1 x hx
    · cases hx
  · intro x hx
    unfold difficultySteps at hx
    split at hx
    next expiresText difficultyText _ hsplit =>
      split_ifs at hx with hread
      · have hnumeral := (parseI64_isSome_iff expiresText).mp (Option.isSome_iff_exists.mp hread)
        exact (stepsUint_defined_iff difficultyText).mpr ((h _ _ _ _ hsplit).2 hnumeral) x hx
      · cases hx
    · cases hx
  · intro crypto issuer nonce clock idB64 expiresText difficultyText sigB64 hsplit hformed hsigned
    obtain ⟨⟨_, _, _, _, hsplit', hexpires, hdifficulty, _⟩, _⟩ :=
      checked_of_verify crypto issuer ⟨hformed, hsigned⟩
    rw [hsplit] at hsplit'
    simp only [Option.some.injEq, List.cons.injEq] at hsplit'
    obtain ⟨rfl, rfl, rfl, rfl, -⟩ := hsplit'
    obtain ⟨expires, hexpires⟩ := Option.isSome_iff_exists.mp hexpires
    obtain ⟨difficulty, hdifficulty⟩ := Option.isSome_iff_exists.mp hdifficulty
    have hnumeral := (parseI64_isSome_iff expiresText).mp ⟨expires, hexpires⟩
    have hrange := h _ _ _ _ hsplit
    have hexpires' := ((readsI64_iff expiresText).mpr hrange.1).value expires hexpires
    have hdifficulty' :=
      ((readsUint_iff difficultyText).mpr (hrange.2 hnumeral)).value difficulty hdifficulty
    rw [← hexpires', ← hdifficulty']
    exact verify_compared crypto issuer hsplit hexpires hdifficulty hformed hsigned

theorem verifiesExactly_iff (token : Bytes) : VerifiesExactly token ↔ FieldsInRange token := by
  refine ⟨fun h idB64 expiresText difficultyText sigB64 hsplit => ⟨?_, fun hnumeral => ?_⟩,
    fun h => h.verifiesExactly⟩
  · refine (stepsI64_defined_iff expiresText).mp fun x hx => h.expires x ?_
    simpa only [expirySteps, hsplit] using hx
  · refine (stepsUint_defined_iff difficultyText).mp fun x hx => h.difficulty x ?_
    rwa [difficultySteps_eq hsplit hnumeral]

theorem numerals_read_exactly (s token : Bytes) :
    (ReadsI64 s ↔ leadingValue s ≤ 2 ^ 63 - 1) ∧
    (ReadsUint s ↔ leadingValue s ≤ 2 ^ 32 - 1) ∧
    (VerifiesExactly token ↔ FieldsInRange token) :=
  ⟨readsI64_iff s, readsUint_iff s, verifiesExactly_iff token⟩

-- An expiry of 2 ^ 63 is read as the least int64.
def wrapsToken : Bytes := utf8 "AA.9223372036854775808.8.AA"

theorem wraps_around :
    parseI64 (utf8 "9223372036854775808") = some (-9223372036854775808) ∧
    parseUint (utf8 "4294967296") = some 0 ∧
    ¬ ReadsI64 (utf8 "9223372036854775808") ∧ ¬ ReadsUint (utf8 "4294967296") ∧
    ¬ VerifiesExactly wrapsToken := by
  refine ⟨by decide +kernel, by decide +kernel, ?_, ?_, ?_⟩
  · rw [readsI64_iff]
    decide +kernel
  · rw [readsUint_iff]
    decide +kernel
  · rw [verifiesExactly_iff]
    intro h
    have hexpires := (h (utf8 "AA") (utf8 "9223372036854775808") (utf8 "8") (utf8 "AA")
      (by decide +kernel)).1
    exact absurd hexpires (by decide +kernel)

end ChallengeIssuer

end DeltaFeedback.Pow
