import DeltaFeedback.Pow.Challenge.Theorems

namespace DeltaFeedback.Pow.ChallengeIssuer

open Text

def sampleIssuer : ChallengeIssuer where
  secret := utf8 "test-hmac-secret"
  difficultyBits := 8
  ttl := 60

def sampleChallenge : Challenge := sampleIssuer.issue fips 1700000000 (utf8 "0123456789ABCDEF")

-- Any token whatsoever: if its signature checks only because its payload is
-- that of an issued challenge, an accepted token stands for that challenge,
-- with its id, its expiry and its difficulty.
theorem verify_sound (crypto : Crypto) (issuer : ChallengeIssuer) (issued : Set Challenge)
    (hissued : ∀ c ∈ issued, ∃ issuedAt id, c = issuer.issue crypto issuedAt id)
    (token nonce : Bytes) (clock : Int) (out : Option Bytes)
    (hunforgeable : issuer.signatureChecks crypto token = true →
      ∃ c ∈ issued, payloadText token = payloadText c.token)
    (hok : issuer.verify crypto token nonce clock = (.Ok, out)) :
    ∃ c ∈ issued, out = some c.id ∧ clock ≤ c.expiresUnix ∧ c.difficultyBits.toNat ≤
      leadingZeroBits (crypto.sha256 (token ++ utf8 ":" ++ nonce)).val := by
  obtain ⟨_, _, _, _, _, _, _, _, _, _, _, hsig, _⟩ := verify_ok crypto issuer hok
  obtain ⟨c, hc, hpayload⟩ := hunforgeable hsig
  obtain ⟨issuedAt, id, rfl⟩ := hissued c hc
  exact ⟨_, hc, verify_ok_of_payload crypto issuer hok hpayload⟩

theorem verify_sound_sample :
    sampleIssuer.verify fips sampleChallenge.token (utf8 "240") 1700000060 =
      (.Ok, some (utf8 "0123456789ABCDEF")) ∧
    ∃ c ∈ ({sampleChallenge} : Set Challenge),
      some (utf8 "0123456789ABCDEF") = some c.id ∧ (1700000060 : Int) ≤ c.expiresUnix ∧
      c.difficultyBits.toNat ≤ leadingZeroBits
        (fips.sha256 (sampleChallenge.token ++ utf8 ":" ++ utf8 "240")).val := by
  have hok : sampleIssuer.verify fips sampleChallenge.token (utf8 "240") 1700000060 =
      (.Ok, some (utf8 "0123456789ABCDEF")) := by decide +kernel
  exact ⟨hok, verify_sound fips sampleIssuer {sampleChallenge} (fun c hc => ⟨_, _, hc⟩) _ _ _ _
    (fun _ => ⟨sampleChallenge, rfl, rfl⟩) hok⟩

theorem verify_issue_roundTrip (crypto : Crypto) (issuer : ChallengeIssuer) (clock now : Int)
    (id nonce : Bytes) (hexpires : 0 ≤ clock + issuer.ttl) (hrange : clock + issuer.ttl < 2 ^ 63) :
    let token := (issuer.issue crypto clock id).token
    issuer.verify crypto token nonce now =
      (if now > clock + issuer.ttl then (.Expired, none)
      else if leadingZeroBits (crypto.sha256 (token ++ utf8 ":" ++ nonce)).val <
          issuer.difficultyBits.toNat then (.InsufficientWork, none)
      else (.Ok, some id)) ∧
    (issuer.verify crypto token nonce now).1 ≠ .Malformed ∧
    (issuer.verify crypto token nonce now).1 ≠ .BadSignature := by
  have hverify := verify_issue crypto issuer clock now id nonce hexpires
  rw [i64_of_lt _ hexpires hrange] at hverify
  refine ⟨hverify, ?_, ?_⟩ <;> rw [hverify] <;> split_ifs <;> simp

-- The last second of a challenge is still good.
theorem verify_issue_roundTrip_sample :
    sampleIssuer.verify fips sampleChallenge.token (utf8 "240") 1700000060 =
      (.Ok, some (utf8 "0123456789ABCDEF")) :=
  (verify_issue_roundTrip fips sampleIssuer 1700000000 1700000060 (utf8 "0123456789ABCDEF")
    (utf8 "240") (by decide) (by decide)).1.trans (by decide +kernel)

end DeltaFeedback.Pow.ChallengeIssuer
