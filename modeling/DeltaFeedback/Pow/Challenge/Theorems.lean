import DeltaFeedback.Pow.Challenge.Fields

namespace DeltaFeedback.Pow

open Text

theorem ctEq_iff (a b : Bytes) : ctEq a b = true ↔ a = b := by
  unfold ctEq
  split_ifs with h
  · exact ⟨fun hf => absurd hf (by decide), fun he => absurd (congrArg _ he) h⟩
  · rw [beq_iff_eq, xorDiff_eq_zero 0 a b (not_not.mp h)]
    simp

namespace ChallengeIssuer

variable (crypto : Crypto) (issuer : ChallengeIssuer)

-- The text under the signature of a token: its first three fields.
def payloadText (token : Bytes) : Option Bytes :=
  match splitLoop [] [] token with
  | some [idB64, expires, difficulty, _] => some (joinPayload idB64 expires difficulty)
  | _ => none

def signatureChecks (token : Bytes) : Bool :=
  match splitLoop [] [] token with
  | some [idB64, expires, difficulty, sigB64] =>
      match b64urlDecode sigB64 with
      | some sigRaw =>
          ctEq (crypto.hmacSha256 issuer.secret (joinPayload idB64 expires difficulty)).val sigRaw
      | none => false
  | _ => false

theorem splitLoop_issue (clock : Int) (id : Bytes) :
    splitLoop [] [] (issuer.issue crypto clock id).token = some [b64urlEncode id,
      decimalInt (clock + issuer.ttl), decimal issuer.difficultyBits.toNat,
      b64urlEncode (crypto.hmacSha256 issuer.secret (joinPayload (b64urlEncode id)
        (decimalInt (clock + issuer.ttl)) (decimal issuer.difficultyBits.toNat))).val] :=
  splitLoop_join _ _ _ _ (dot_notMem_b64urlEncode _) (dot_notMem_decimalInt _)
    (dot_notMem_decimal _) (dot_notMem_b64urlEncode _)

theorem payloadText_issue (clock : Int) (id : Bytes) :
    payloadText (issuer.issue crypto clock id).token = some (joinPayload (b64urlEncode id)
      (decimalInt (clock + issuer.ttl)) (decimal issuer.difficultyBits.toNat)) := by
  simp only [payloadText, splitLoop_issue]

-- A token the issuer made is read back field by field.
theorem verify_issue (clock now : Int) (id nonce : Bytes) (hexpires : 0 ≤ clock + issuer.ttl) :
    issuer.verify crypto (issuer.issue crypto clock id).token nonce now =
      if now > i64 (clock + issuer.ttl) then (.Expired, none)
      else if leadingZeroBits
          (crypto.sha256 ((issuer.issue crypto clock id).token ++ [58] ++ nonce)).val <
            issuer.difficultyBits.toNat then (.InsufficientWork, none)
      else (.Ok, some id) := by
  have hsig := (ctEq_iff (crypto.hmacSha256 issuer.secret (joinPayload (b64urlEncode id)
    (decimalInt (clock + issuer.ttl)) (decimal issuer.difficultyBits.toNat))).val _).mpr rfl
  simp only [verify, splitLoop_issue, parseI64_decimalInt, not_lt.mpr hexpires, ite_false,
    parseUint_decimal, b64urlDecode_encode, hsig, Bool.not_true, Bool.false_eq_true]

-- What an accepted token is made of.
theorem verify_ok {token nonce : Bytes} {clock : Int} {out : Option Bytes}
    (h : issuer.verify crypto token nonce clock = (.Ok, out)) :
    ∃ idB64 expiresText difficultyText sigB64 expires difficulty id,
      splitLoop [] [] token = some [idB64, expiresText, difficultyText, sigB64] ∧
      parseI64 expiresText = some expires ∧ parseUint difficultyText = some difficulty ∧
      b64urlDecode idB64 = some id ∧ issuer.signatureChecks crypto token = true ∧
      clock ≤ expires ∧
      difficulty.toNat ≤ leadingZeroBits (crypto.sha256 (token ++ [58] ++ nonce)).val ∧
      out = some id := by
  unfold verify at h
  split at h
  next idB64 expiresText difficultyText sigB64 hsplit =>
    split at h
    · simp at h
    next expires hexpires =>
      split at h
      · simp at h
      next difficulty hdifficulty =>
        split at h
        next id sig hid hsig =>
          by_cases hct : ctEq (crypto.hmacSha256 issuer.secret
              (joinPayload idB64 expiresText difficultyText)).val sig = true
          · by_cases hclock : clock > expires
            · simp [hct, hclock] at h
            by_cases hwork : leadingZeroBits (crypto.sha256 (token ++ [58] ++ nonce)).val <
                difficulty.toNat
            · simp only [hct, hclock, hwork, Bool.not_true, Bool.false_eq_true, ite_false,
                ite_true] at h
              simp at h
            simp only [hct, hclock, hwork, Bool.not_true, Bool.false_eq_true, ite_false,
              Prod.mk.injEq, true_and] at h
            refine ⟨idB64, expiresText, difficultyText, sigB64, expires, difficulty, id, hsplit,
              hexpires, hdifficulty, hid, ?_, not_lt.mp hclock, not_lt.mp hwork, h.symm⟩
            simpa only [signatureChecks, hsplit, hsig] using hct
          · simp [hct] at h
        · simp at h
  · simp at h

-- Two tokens with the payload of one challenge name the same id, expiry and difficulty.
theorem fields_of_payload {token : Bytes} {clock : Int} {id : Bytes}
    {idB64 expiresText difficultyText sigB64 : Bytes}
    (hsplit : splitLoop [] [] token = some [idB64, expiresText, difficultyText, sigB64])
    (hpayload : payloadText token = payloadText (issuer.issue crypto clock id).token) :
    idB64 = b64urlEncode id ∧ expiresText = decimalInt (clock + issuer.ttl) ∧
      difficultyText = decimal issuer.difficultyBits.toNat := by
  obtain ⟨_, ha, hb, hc, _⟩ := splitLoop_four _ _ _ _ _ hsplit
  rw [payloadText_issue, payloadText, hsplit] at hpayload
  exact joinPayload_injective ha hb hc (dot_notMem_b64urlEncode _) (dot_notMem_decimalInt _)
    (dot_notMem_decimal _) (Option.some.inj hpayload)

-- The accepted id, expiry and difficulty are those of the challenge whose
-- payload was signed.
theorem verify_ok_of_payload {token nonce : Bytes} {clock issuedAt : Int} {id : Bytes}
    {out : Option Bytes} (h : issuer.verify crypto token nonce clock = (.Ok, out))
    (hpayload : payloadText token = payloadText (issuer.issue crypto issuedAt id).token) :
    out = some id ∧ clock ≤ issuedAt + issuer.ttl ∧ issuer.difficultyBits.toNat ≤
      leadingZeroBits (crypto.sha256 (token ++ [58] ++ nonce)).val := by
  obtain ⟨idB64, expiresText, difficultyText, sigB64, expires, difficulty, raw, hsplit, hexpires,
    hdifficulty, hid, _, hclock, hwork, rfl⟩ := verify_ok crypto issuer h
  obtain ⟨rfl, rfl, rfl⟩ := fields_of_payload crypto issuer hsplit hpayload
  rw [parseI64_decimalInt] at hexpires
  split_ifs at hexpires with hneg
  simp only [Option.some.injEq] at hexpires
  simp only [parseUint_decimal, Option.some.injEq, b64urlDecode_encode] at hdifficulty hid
  have hle := i64_le _ (not_lt.mp hneg)
  refine ⟨by rw [hid], by omega, by rw [hdifficulty]; exact hwork⟩

end ChallengeIssuer

end DeltaFeedback.Pow
