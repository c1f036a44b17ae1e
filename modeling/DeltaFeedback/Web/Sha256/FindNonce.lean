import DeltaFeedback.Pow.Challenge.RoundTrip
import DeltaFeedback.Text.Ascii
import DeltaFeedback.Web.Sha256.Theorems
import Mathlib.Order.Bounds.Defs

namespace DeltaFeedback.Web.SHA256

open Text Js

theorem zeroBitsFrom_eq (b : UInt8) : zeroBitsFrom b.toNat 8 = Pow.zeroBitsFrom b 8 := by
  revert b
  exact forall_byte (by decide +kernel)

-- The two counts of leading zeros agree on every array.
theorem leadingZeroBits_eq (bytes : Bytes) : leadingZeroBits bytes = Pow.leadingZeroBits bytes := by
  induction bytes with
  | nil => rfl
  | cons b rest ih =>
      rw [leadingZeroBits, Pow.leadingZeroBits, ih, zeroBitsFrom_eq]

-- The digits as the loop stores them in its buffer.
theorem nonceBytes_eq (n : Nat) :
    ((toString n).toList.map fun c => UInt8.ofInt c.toNat) = utf8 (toString n) := by
  rw [utf8_toString, decimal, toList_toString]
  apply List.map_congr_left
  intro c _
  apply UInt8.toNat_inj.mp
  simp only [UInt8.ofInt, UInt8.toNat_ofNat', Nat.toUInt8_eq]
  omega

-- The work of a nonce, as the server counts it.
def work (head : Bytes) (n : Nat) : Nat :=
  Pow.leadingZeroBits (Sha2.sha256 (head ++ utf8 (toString n)))

-- The loop stops at the first number from n on that is work enough.
theorem findNonceFrom_some {head : Bytes} {bits tries n : Nat} {ns : String}
    (h : findNonceFrom head bits tries n = .ok (some ns)) :
    ∃ m, n ≤ m ∧ m < n + tries ∧ ns = toString m ∧ bits ≤ work head m ∧
      ∀ k, n ≤ k → k < m → work head k < bits := by
  induction tries generalizing n with
  | zero => cases h
  | succ tries ih =>
      rw [findNonceFrom, nonceBytes_eq] at h
      cases hdigest : sha256Bytes (head ++ utf8 (toString n)) with
      | error e =>
          rw [hdigest] at h
          cases h
      | ok digest =>
          rw [hdigest] at h
          simp only [bind, Except.bind, leadingZeroBits_eq, sha256Bytes_eq_ok hdigest] at h
          split_ifs at h with henough
          · refine ⟨n, le_rfl, by omega, ?_, henough, by omega⟩
            simpa [pure, Except.pure, eq_comm] using h
          · obtain ⟨m, hn, htries, hns, hbits, hbefore⟩ := ih h
            refine ⟨m, by omega, by omega, hns, hbits, fun k hk hkm => ?_⟩
            by_cases hkn : k = n
            · subst hkn
              exact Nat.lt_of_not_le henough
            · exact hbefore k (by omega) hkm

theorem ascii_alpha (i : UInt8) : Pow.alpha i < 128 := by
  have hall : ∀ c ∈ Pow.kAlpha, c < 128 := by decide +kernel
  by_cases h : i.toNat < Pow.kAlpha.length
  · rw [Pow.alpha, List.getD_eq_getElem?_getD, List.getElem?_eq_getElem h]
    exact hall _ (List.getElem_mem h)
  · rw [Pow.alpha, List.getD_eq_getElem?_getD, List.getElem?_eq_none (Nat.le_of_not_lt h)]
    decide

theorem ascii_b64urlEncode (bytes : Bytes) : ∀ c ∈ Pow.b64urlEncode bytes, c < 128 := by
  induction bytes using Pow.b64urlEncode.induct with
  | case1 a b c rest ih => simpa [Pow.b64urlEncode, ascii_alpha] using ih
  | case2 a b => simp [Pow.b64urlEncode, ascii_alpha]
  | case3 a => simp [Pow.b64urlEncode, ascii_alpha]
  | case4 => simp [Pow.b64urlEncode]

theorem ascii_token (crypto : Pow.Crypto) (issuer : Pow.ChallengeIssuer) (clock : Int) (id : Bytes) :
    ∀ c ∈ (issuer.issue crypto clock id).token, c < 128 := by
  intro c hc
  simp only [Pow.ChallengeIssuer.issue, Pow.joinPayload, List.mem_append, List.mem_singleton] at hc
  rcases hc with (((((hid | rfl) | hexpires) | rfl) | hdifficulty) | rfl) | hsig
  · exact ascii_b64urlEncode _ c hid
  · decide
  · exact ascii_decimalInt _ c hexpires
  · decide
  · exact ascii_decimal _ c hdifficulty
  · decide
  · exact ascii_b64urlEncode _ c hsig

-- What the page finds, the server takes; and the page finds the first number
-- that the server would take.
theorem findNonce_verify (crypto : Pow.Crypto)
    (hsha256 : ∀ data, (crypto.sha256 data).val = Sha2.sha256 data) (issuer : Pow.ChallengeIssuer)
    (clock : Int) (id : Bytes) (c : Pow.Challenge) (hissued : c = issuer.issue crypto clock id)
    (hexpires : 0 ≤ c.expiresUnix) (hrange : c.expiresUnix < 2 ^ 63) (n : String)
    (hfound : findNonce (ofAscii c.token) c.difficultyBits.toNat = .ok (some n)) :
    ∃ m, n = toString m ∧ ∀ now ≤ c.expiresUnix,
      issuer.verify crypto c.token (utf8 n) now = (.Ok, some c.id) ∧
      IsLeast {k : Nat | k < 2 ^ 31 - 1 ∧
        issuer.verify crypto c.token (utf8 (toString k)) now = (.Ok, some c.id)} m := by
  subst hissued
  obtain ⟨m, _, hm, rfl, hwork, hbefore⟩ := findNonceFrom_some hfound
  rw [utf8_append, utf8_ofAscii (ascii_token crypto issuer clock id)] at hwork hbefore
  -- Before the expiry the answer is a matter of work only.
  have hverify : ∀ k now, now ≤ clock + issuer.ttl →
      (issuer.verify crypto (issuer.issue crypto clock id).token (utf8 (toString k)) now =
          (.Ok, some id) ↔
        issuer.difficultyBits.toNat ≤ work ((issuer.issue crypto clock id).token ++ utf8 ":") k) := by
    intro k now hnow
    rw [(Pow.ChallengeIssuer.verify_issue_roundTrip crypto issuer clock now id _ hexpires hrange).1,
      if_neg (not_lt.mpr hnow), hsha256, work]
    split_ifs with hless
    · simpa using hless
    · simpa using hless
  refine ⟨m, rfl, fun now hnow => ⟨(hverify m now hnow).mpr hwork, ?_, ?_⟩⟩
  · exact ⟨by omega, (hverify m now hnow).mpr hwork⟩
  · rintro k ⟨_, hk⟩
    by_contra hlt
    have hless := hbefore k (Nat.zero_le k) (Nat.lt_of_not_le hlt)
    exact absurd ((hverify k now hnow).mp hk) (Nat.not_le.mpr hless)

def easyIssuer : Pow.ChallengeIssuer := { Pow.ChallengeIssuer.sampleIssuer with difficultyBits := 2 }

def easyChallenge : Pow.Challenge :=
  easyIssuer.issue Pow.fips 1700000004 (utf8 "0123456789ABCDEF")

theorem findNonce_verify_sample : ∃ m, "1" = toString m ∧ ∀ now ≤ easyChallenge.expiresUnix,
    easyIssuer.verify Pow.fips easyChallenge.token (utf8 "1") now = (.Ok, some easyChallenge.id) ∧
    IsLeast {k : Nat | k < 2 ^ 31 - 1 ∧ easyIssuer.verify Pow.fips easyChallenge.token
      (utf8 (toString k)) now = (.Ok, some easyChallenge.id)} m :=
  findNonce_verify Pow.fips (fun _ => rfl) easyIssuer 1700000004 (utf8 "0123456789ABCDEF") _ rfl
    (by decide) (by decide) "1" (by decide +kernel)

end DeltaFeedback.Web.SHA256
