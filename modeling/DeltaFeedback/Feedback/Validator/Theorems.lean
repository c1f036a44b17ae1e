import Mathlib.Data.List.Count
import DeltaFeedback.Feedback.Validator
import DeltaFeedback.Text.Ascii
import DeltaFeedback.Text.Utf8

namespace DeltaFeedback.Feedback

open Text

theorem utf8CodepointCount_append (s t : Bytes) :
    utf8CodepointCount (s ++ t) = utf8CodepointCount s + utf8CodepointCount t :=
  List.countP_append

theorem hasDisallowedControlChars_append (s t : Bytes) :
    hasDisallowedControlChars (s ++ t) =
      (hasDisallowedControlChars s || hasDisallowedControlChars t) :=
  List.any_append

theorem utf8CodepointCount_continuation {s : Bytes} (h : ∀ c ∈ s, isContinuation c = true) :
    utf8CodepointCount s = 0 := by
  rw [utf8CodepointCount, List.countP_eq_zero]
  intro c hc
  have hcont := h c hc
  unfold isContinuation at hcont
  simp [eq_of_beq hcont]

-- Every byte is counted, or goes on with an earlier one.
theorem length_eq_count (s : Bytes) :
    s.length = utf8CodepointCount s + s.countP isContinuation := by
  have hsplit := List.length_eq_countP_add_countP (fun c => c &&& 0xC0 != 0x80) (l := s)
  rw [hsplit, utf8CodepointCount]
  refine congrArg _ (List.countP_congr fun c _ => ?_)
  simp [isContinuation, bne]

-- No byte from 0x80 on is a control character.
theorem hasDisallowedControlChars_high {s : Bytes} (h : ∀ c ∈ s, 0x80 ≤ c.toNat) :
    hasDisallowedControlChars s = false := by
  rw [hasDisallowedControlChars, List.any_eq_false]
  intro c hc
  have hhigh := h c hc
  have hlow : ¬ c < 0x20 := by
    rw [UInt8.lt_iff_toNat_lt]
    change ¬ c.toNat < 32
    omega
  have hdel : c ≠ 0x7F := by
    rintro rfl
    simp at hhigh
  simp [hlow, hdel]

section Scalars

-- U+007F, and every scalar below U+0020 but tab, LF and CR.
def Disallowed (c : Char) : Prop :=
  c.toNat = 0x7F ∨ c.toNat < 0x20 ∧ c.toNat ≠ 9 ∧ c.toNat ≠ 10 ∧ c.toNat ≠ 13

instance : DecidablePred Disallowed := fun c => inferInstanceAs
  (Decidable (c.toNat = 0x7F ∨ c.toNat < 0x20 ∧ c.toNat ≠ 9 ∧ c.toNat ≠ 10 ∧ c.toNat ≠ 13))

def encode (l : List Char) : Bytes := l.flatMap String.utf8EncodeChar

theorem encode_cons (c : Char) (l : List Char) :
    encode (c :: l) = String.utf8EncodeChar c ++ encode l := rfl

theorem ascii_spec : ∀ n < 128, utf8CodepointCount [n.toUInt8] = 1 ∧
    (hasDisallowedControlChars [n.toUInt8] = true ↔
      n = 0x7F ∨ n < 0x20 ∧ n ≠ 9 ∧ n ≠ 10 ∧ n ≠ 13) := by
  decide +kernel

theorem utf8CodepointCount_utf8EncodeChar (c : Char) :
    utf8CodepointCount (String.utf8EncodeChar c) = 1 := by
  by_cases hc : c.toNat < 128
  · rw [utf8EncodeChar_ascii hc]
    exact (ascii_spec c.toNat hc).1
  · obtain ⟨lead, rest, hbytes, hlead, -, hrest⟩ := utf8EncodeChar_wide (Nat.le_of_not_lt hc)
    have hcounted : ¬ isContinuation lead = true := by
      rw [isContinuation_iff]
      omega
    have hone : utf8CodepointCount [lead] = 1 := by
      unfold isContinuation at hcounted
      simp [utf8CodepointCount, bne, hcounted]
    rw [hbytes, ← List.singleton_append, utf8CodepointCount_append, hone,
      utf8CodepointCount_continuation hrest]

theorem hasDisallowedControlChars_utf8EncodeChar (c : Char) :
    hasDisallowedControlChars (String.utf8EncodeChar c) = true ↔ Disallowed c := by
  by_cases hc : c.toNat < 128
  · rw [utf8EncodeChar_ascii hc]
    exact (ascii_spec c.toNat hc).2
  · obtain ⟨lead, rest, hbytes, hlead, -, hrest⟩ := utf8EncodeChar_wide (Nat.le_of_not_lt hc)
    have hhigh : ∀ b ∈ lead :: rest, 0x80 ≤ b.toNat := by
      refine List.forall_mem_cons.mpr ⟨by omega, fun b hb => ?_⟩
      exact ((isContinuation_iff b).mp (hrest b hb)).1
    rw [hbytes, hasDisallowedControlChars_high hhigh]
    unfold Disallowed
    constructor
    · intro h
      cases h
    · intro h
      omega

theorem utf8CodepointCount_encode (l : List Char) : utf8CodepointCount (encode l) = l.length := by
  induction l with
  | nil => rfl
  | cons c l ih =>
      rw [encode_cons, utf8CodepointCount_append, utf8CodepointCount_utf8EncodeChar, ih,
        List.length_cons, Nat.add_comm]

theorem hasDisallowedControlChars_encode (l : List Char) :
    hasDisallowedControlChars (encode l) = true ↔ ∃ c ∈ l, Disallowed c := by
  induction l with
  | nil => simp [encode, hasDisallowedControlChars]
  | cons c l ih =>
      rw [encode_cons, hasDisallowedControlChars_append, Bool.or_eq_true,
        hasDisallowedControlChars_utf8EncodeChar, ih, List.exists_mem_cons_iff]

theorem encode_eq_nil_iff (l : List Char) : encode l = [] ↔ l = [] := by
  constructor
  · intro h
    have hcount := utf8CodepointCount_encode l
    rw [h] at hcount
    exact List.length_eq_zero_iff.mp hcount.symm
  · rintro rfl
    rfl

-- What a reply is checked for, in scalars.
def replySpec (limits : Limits) (l : List Char) : FieldError :=
  if l = [] then .Empty
  else if l.any fun c => Disallowed c then .BadChars
  else if l.length > limits.messageMaxChars then .TooLong
  else .Ok

theorem any_disallowed_iff (l : List Char) :
    (l.any fun c => Disallowed c) = true ↔ ∃ c ∈ l, Disallowed c := by
  simp only [List.any_eq_true, decide_eq_true_eq]

theorem validateReply_encode (limits : Limits) (l : List Char) :
    limits.validateReply (encode l) = replySpec limits l := by
  have hempty : (encode l).isEmpty = true ↔ l = [] := by
    rw [List.isEmpty_iff, encode_eq_nil_iff]
  unfold Limits.validateReply checkText replySpec
  simp only [hempty, any_disallowed_iff, hasDisallowedControlChars_encode, utf8CodepointCount_encode,
    Bool.false_eq_true, if_false]

theorem replySpec_eq_ok_iff (limits : Limits) (l : List Char) :
    replySpec limits l = .Ok ↔
      l ≠ [] ∧ (¬ ∃ c ∈ l, Disallowed c) ∧ l.length ≤ limits.messageMaxChars := by
  unfold replySpec
  simp only [any_disallowed_iff]
  split_ifs with hempty hbad hlong
  · simp [hempty]
  · simp [hbad]
  · simp [Nat.not_le.mpr hlong]
  · simp [hempty, hbad, Nat.le_of_not_lt hlong]

theorem utf8_checked_by_scalars (limits : Limits) (l : List Char) :
    utf8CodepointCount (encode l) = l.length ∧
    (hasDisallowedControlChars (encode l) = true ↔ ∃ c ∈ l, Disallowed c) ∧
    (limits.validateReply (encode l) = .Ok ↔
      l ≠ [] ∧ (¬ ∃ c ∈ l, Disallowed c) ∧ l.length ≤ limits.messageMaxChars) ∧
    limits.validateReply (encode l) = replySpec limits l := by
  refine ⟨utf8CodepointCount_encode l, hasDisallowedControlChars_encode l, ?_,
    validateReply_encode limits l⟩
  rw [validateReply_encode, replySpec_eq_ok_iff]

end Scalars

section Bytes

theorem checkText_eq_ok_iff {s : Bytes} (hs : s ≠ []) (maxChars : Nat) (allowEmpty : Bool) :
    checkText s maxChars allowEmpty = .Ok ↔
      hasDisallowedControlChars s = false ∧ utf8CodepointCount s ≤ maxChars := by
  unfold checkText
  rw [if_neg (by simpa using hs)]
  split_ifs with hbad hlong
  · simp [hbad]
  · simp [Nat.not_le.mpr hlong]
  · simp [Bool.eq_false_iff.mpr hbad, Nat.le_of_not_lt hlong]

-- The limits bound the bytes of `s`, wherever it is accepted.
structure Bounded (limits : Limits) (s : Bytes) : Prop where
  message : ∀ input : SubmissionInput, input.message = s →
    (limits.validate input).message = .Ok → s.length ≤ 4 * limits.messageMaxChars
  name : ∀ input : SubmissionInput, input.name = s →
    (limits.validate input).name = .Ok → s.length ≤ 4 * limits.nameMaxChars
  reply : limits.validateReply s = .Ok → s.length ≤ 4 * limits.messageMaxChars

theorem length_le_of_checkText {s : Bytes} {maxChars : Nat} {allowEmpty : Bool}
    (hcont : s.countP isContinuation ≤ 3 * utf8CodepointCount s)
    (hok : checkText s maxChars allowEmpty = .Ok) : s.length ≤ 4 * maxChars := by
  by_cases hs : s = []
  · simp [hs]
  · have hcount := ((checkText_eq_ok_iff hs maxChars allowEmpty).mp hok).2
    have hlength := length_eq_count s
    omega

theorem checkText_ne_ok {s : Bytes} {maxChars : Nat} {allowEmpty : Bool}
    (hbad : hasDisallowedControlChars s = true) : checkText s maxChars allowEmpty ≠ .Ok := by
  have hs : s ≠ [] := by
    rintro rfl
    cases hbad
  rw [Ne, checkText_eq_ok_iff hs, hbad]
  simp

-- The bytes are bounded under all limits exactly for the strings that no limits let through,
-- and for those with at most three continuation bytes to each byte that is counted.
theorem bounded_iff (s : Bytes) :
    (∀ limits, Bounded limits s) ↔
      hasDisallowedControlChars s = true ∨
        s.countP isContinuation ≤ 3 * s.countP (fun c => !isContinuation c) := by
  have hcount : s.countP (fun c => !isContinuation c) = utf8CodepointCount s := rfl
  rw [hcount]
  constructor
  · intro hall
    by_contra hnot
    obtain ⟨hgood, hcont⟩ := not_or.mp hnot
    have hs : s ≠ [] := by
      rintro rfl
      exact hcont (Nat.zero_le _)
    have hok : (Limits.mk (utf8CodepointCount s) 0 0).validateReply s = .Ok :=
      (checkText_eq_ok_iff hs _ _).mpr ⟨Bool.eq_false_iff.mpr hgood, le_refl _⟩
    have hbound := (hall _).reply hok
    have hlength := length_eq_count s
    simp only at hbound
    omega
  · rintro (hbad | hcont) limits
    · constructor
      · rintro input rfl hok
        exact absurd hok (checkText_ne_ok hbad)
      · rintro input rfl hok
        exact absurd hok (checkText_ne_ok hbad)
      · intro hok
        exact absurd hok (checkText_ne_ok hbad)
    · constructor
      · rintro input rfl hok
        exact length_le_of_checkText hcont hok
      · rintro input rfl hok
        exact length_le_of_checkText hcont hok
      · intro hok
        exact length_le_of_checkText hcont hok

-- Continuation bytes alone are not counted at all.
def uncounted : SubmissionInput where
  name := []
  message := List.replicate 2001 0x80
  locale := utf8 "en"
  honeypot := []
  fillTimeMs := 1500

theorem not_bounded_uncounted :
    (Limits.validate ⟨500, 40, 1500⟩ uncounted).ok = true ∧
      ¬ Bounded ⟨500, 40, 1500⟩ uncounted.message := by
  have hlength : uncounted.message.length = 2001 := List.length_replicate
  refine ⟨by decide +kernel, fun hbounded => ?_⟩
  have hbound := hbounded.message uncounted rfl (by decide +kernel)
  rw [hlength] at hbound
  exact absurd hbound (by decide)

end Bytes

end DeltaFeedback.Feedback
