import DeltaFeedback.Pow.Base64.Leftover
import DeltaFeedback.Pow.Challenge.RoundTrip

namespace DeltaFeedback.Pow.ChallengeIssuer

open Text

variable (crypto : Crypto) (issuer : ChallengeIssuer)

-- A token that gets past the signature check, whatever comes after it.
def Passes (token : Bytes) : Prop :=
  ∀ nonce clock, (issuer.verify crypto token nonce clock).1 ≠ .Malformed ∧
    (issuer.verify crypto token nonce clock).1 ≠ .BadSignature

-- The bits of a token's last character that the decoder has no byte for.
def leftoverBits (token : Bytes) : Option UInt8 := (token.getLast?.bind rev).map (· &&& 0x03)

def SameButLeftover (token other : Bytes) : Prop :=
  ∃ front last otherLast v w, token = front ++ [last] ∧ other = front ++ [otherLast] ∧
    rev last = some v ∧ rev otherLast = some w ∧ v &&& 0x3C = w &&& 0x3C

-- The fields of the payload are read before the signature is.
def PayloadParses (token : Bytes) : Prop :=
  ∃ idB64 expiresText difficultyText sigB64, splitLoop [] [] token =
    some [idB64, expiresText, difficultyText, sigB64] ∧ (parseI64 expiresText).isSome ∧
    (parseUint difficultyText).isSome ∧ (b64urlDecode idB64).isSome

theorem checked_of_verify {token nonce : Bytes} {clock : Int}
    (h : (issuer.verify crypto token nonce clock).1 ≠ .Malformed ∧
      (issuer.verify crypto token nonce clock).1 ≠ .BadSignature) :
    PayloadParses token ∧ issuer.signatureChecks crypto token = true := by
  unfold verify at h
  split at h
  next idB64 expiresText difficultyText sigB64 hsplit =>
    split at h
    · exact absurd rfl h.1
    next expires hexpires =>
      split at h
      · exact absurd rfl h.1
      next difficulty hdifficulty =>
        split at h
        next id sig hid hsig =>
          refine ⟨⟨idB64, expiresText, difficultyText, sigB64, hsplit, by simp [hexpires],
            by simp [hdifficulty], by simp [hid]⟩, ?_⟩
          by_contra hct
          simp only [signatureChecks, hsplit, hsig, Bool.not_eq_true] at hct
          simp only [hct, Bool.not_false, ite_true] at h
          exact absurd rfl h.2
        · exact absurd rfl h.1
  · exact absurd rfl h.1

theorem passes_iff (token : Bytes) :
    issuer.Passes crypto token ↔ PayloadParses token ∧ issuer.signatureChecks crypto token = true := by
  refine ⟨fun hpass => checked_of_verify crypto issuer (hpass [] 0), ?_⟩
  rintro ⟨⟨idB64, expiresText, difficultyText, sigB64, hsplit, hexpires, hdifficulty, hid⟩, hsig⟩
  intro nonce clock
  obtain ⟨expires, hexpires⟩ := Option.isSome_iff_exists.mp hexpires
  obtain ⟨difficulty, hdifficulty⟩ := Option.isSome_iff_exists.mp hdifficulty
  obtain ⟨id, hid⟩ := Option.isSome_iff_exists.mp hid
  simp only [signatureChecks, hsplit] at hsig
  simp only [verify, hsplit, hexpires, hdifficulty, hid]
  cases hdecode : b64urlDecode sigB64 with
  | none => simp [hdecode] at hsig
  | some sig =>
      simp only [hdecode] at hsig
      simp only [hsig, Bool.not_true, Bool.false_eq_true, ite_false]
      split_ifs <;> exact ⟨VerifyResult.noConfusion, VerifyResult.noConfusion⟩

-- One answer tells: what is checked before the clock depends on the token only.
theorem Passes.of_verify {token nonce : Bytes} {clock : Int} {result : VerifyResult}
    (h : (issuer.verify crypto token nonce clock).1 = result)
    (hresult : result ≠ .Malformed ∧ result ≠ .BadSignature) : issuer.Passes crypto token :=
  (passes_iff crypto issuer token).mpr (checked_of_verify crypto issuer (by rwa [h]))

-- The signature field of a token that passes: 43 characters, of which the last
-- has two bits that do not count.
theorem signature_chars {token idB64 expiresText difficultyText sigB64 : Bytes}
    (hsplit : splitLoop [] [] token = some [idB64, expiresText, difficultyText, sigB64])
    (hsig : issuer.signatureChecks crypto token = true) :
    ∃ front last v, sigB64 = front ++ [last] ∧ rev last = some v ∧ front.length % 4 = 2 ∧
      b64urlEncode (crypto.hmacSha256 issuer.secret
        (joinPayload idB64 expiresText difficultyText)).val = front ++ [alpha (v &&& 0x3C)] := by
  simp only [signatureChecks, hsplit] at hsig
  cases hdecode : b64urlDecode sigB64 with
  | none => simp [hdecode] at hsig
  | some sig =>
      simp only [hdecode, ctEq_iff] at hsig
      have hdigest := (crypto.hmacSha256 issuer.secret
        (joinPayload idB64 expiresText difficultyText)).property
      rw [hsig] at hdigest ⊢
      have hlen := length_decodeLoop _ _ _ _ (by decide) hdecode
      obtain ⟨front, last, v, rfl, hv, hencode⟩ := encode_of_decodeLoop _ _ _ hdecode (by omega)
      refine ⟨front, last, v, rfl, hv, ?_, hencode⟩
      rw [List.length_append, List.length_singleton] at hlen
      omega

theorem fields_eq {token other idB64 expiresText difficultyText sigB64 : Bytes}
    (hfields : payloadText token = payloadText other)
    (hsplit : splitLoop [] [] token = some [idB64, expiresText, difficultyText, sigB64]) :
    ∃ otherSig, splitLoop [] [] other = some [idB64, expiresText, difficultyText, otherSig] := by
  rw [payloadText, hsplit] at hfields
  simp only [payloadText] at hfields
  split at hfields
  next otherId otherExpires otherDifficulty otherSig hother =>
    obtain ⟨_, ha, hb, hc, _⟩ := splitLoop_four _ _ _ _ _ hsplit
    obtain ⟨_, ha', hb', hc', _⟩ := splitLoop_four _ _ _ _ _ hother
    obtain ⟨rfl, rfl, rfl⟩ := joinPayload_injective ha hb hc ha' hb' hc' (Option.some.inj hfields)
    exact ⟨otherSig, hother⟩
  · cases hfields

theorem PayloadParses.of_fields {token other : Bytes} (h : PayloadParses token)
    (hfields : payloadText token = payloadText other) : PayloadParses other := by
  obtain ⟨idB64, expiresText, difficultyText, sigB64, hsplit, hparse⟩ := h
  obtain ⟨otherSig, hother⟩ := fields_eq hfields hsplit
  exact ⟨idB64, expiresText, difficultyText, otherSig, hother, hparse⟩

theorem SameButLeftover.of_signatures {token other : Bytes}
    (hfields : payloadText token = payloadText other)
    (hparses : PayloadParses token) (htoken : issuer.signatureChecks crypto token = true)
    (hother : issuer.signatureChecks crypto other = true) : SameButLeftover token other := by
  obtain ⟨idB64, expiresText, difficultyText, sigB64, hsplit, _⟩ := hparses
  obtain ⟨otherSig, hsplitOther⟩ := fields_eq hfields hsplit
  obtain ⟨front, last, v, rfl, hv, _, hencode⟩ := signature_chars crypto issuer hsplit htoken
  obtain ⟨otherFront, otherLast, w, rfl, hw, _, hencodeOther⟩ :=
    signature_chars crypto issuer hsplitOther hother
  obtain ⟨rfl, hlast⟩ := List.append_inj' (hencode.symm.trans hencodeOther) rfl
  have hmasked : v &&& 0x3C = w &&& 0x3C := by
    have hrev := congrArg rev (List.singleton_inj.mp hlast)
    rw [rev_alpha _ (and_leftover_lt_64 v), rev_alpha _ (and_leftover_lt_64 w)] at hrev
    exact Option.some.inj hrev
  obtain ⟨rfl, _⟩ := splitLoop_four _ _ _ _ _ hsplit
  obtain ⟨rfl, _⟩ := splitLoop_four _ _ _ _ _ hsplitOther
  exact ⟨joinPayload idB64 expiresText difficultyText ++ [46] ++ front, last, otherLast, v, w,
    (List.append_assoc _ _ _).symm, (List.append_assoc _ _ _).symm, hv, hw, hmasked⟩

theorem signatureChecks_of_same {token other : Bytes}
    (hfields : payloadText token = payloadText other)
    (hparses : PayloadParses token) (htoken : issuer.signatureChecks crypto token = true)
    (hsame : SameButLeftover token other) : issuer.signatureChecks crypto other = true := by
  obtain ⟨idB64, expiresText, difficultyText, sigB64, hsplit, _⟩ := hparses
  obtain ⟨otherSig, hsplitOther⟩ := fields_eq hfields hsplit
  obtain ⟨front, last, v, rfl, hv, hlen, _⟩ := signature_chars crypto issuer hsplit htoken
  obtain ⟨whole, tokenLast, otherLast, x, w, rfl, rfl, hx, hw, hmasked⟩ := hsame
  obtain ⟨htoken', _⟩ := splitLoop_four _ _ _ _ _ hsplit
  obtain ⟨hother', _⟩ := splitLoop_four _ _ _ _ _ hsplitOther
  rw [← List.append_assoc] at htoken'
  obtain ⟨rfl, hlast⟩ := List.append_inj' htoken' rfl
  obtain rfl := List.singleton_inj.mp hlast
  rw [List.append_assoc] at hother'
  obtain rfl := List.append_cancel_left hother'
  obtain rfl := Option.some.inj (hx.symm.trans hv)
  have hdecode : b64urlDecode (front ++ [tokenLast]) = b64urlDecode (front ++ [otherLast]) := by
    obtain ⟨rfl, hxlt⟩ := alpha_of_rev hx
    obtain ⟨rfl, hwlt⟩ := alpha_of_rev hw
    exact decodeLoop_leftover 0 front x w hxlt hwlt hmasked hlen
  simp only [signatureChecks, hsplit, hsplitOther, hdecode] at htoken ⊢
  exact htoken

-- The tokens that pass with one payload are one another's but for two bits.
theorem passes_other {token other : Bytes} (hfields : payloadText token = payloadText other)
    (hpass : issuer.Passes crypto token) :
    (issuer.Passes crypto other ↔ SameButLeftover token other) ∧
      (issuer.Passes crypto other → (token = other ↔ leftoverBits token = leftoverBits other)) := by
  obtain ⟨hparses, htoken⟩ := (passes_iff crypto issuer token).mp hpass
  have hsame : issuer.Passes crypto other ↔ SameButLeftover token other := by
    rw [passes_iff]
    constructor
    · rintro ⟨_, hother⟩
      exact SameButLeftover.of_signatures crypto issuer hfields hparses htoken hother
    · intro hsame
      exact ⟨hparses.of_fields hfields,
        signatureChecks_of_same crypto issuer hfields hparses htoken hsame⟩
  refine ⟨hsame, fun hother => ⟨congrArg leftoverBits, fun hbits => ?_⟩⟩
  obtain ⟨front, last, otherLast, v, w, rfl, rfl, hv, hw, hmasked⟩ := hsame.mp hother
  simp only [leftoverBits, List.getLast?_concat, Option.bind_some, hv, hw, Option.map_some,
    Option.some.injEq] at hbits
  obtain ⟨rfl, hvlt⟩ := alpha_of_rev hv
  obtain ⟨rfl, hwlt⟩ := alpha_of_rev hw
  rw [(leftover hvlt hwlt hmasked).2 hbits]

-- The token issued at 1700000029, and the same with 'B' for its last 'A'.
def tokenA : Bytes :=
  utf8 "MDEyMzQ1Njc4OUFCQ0RFRg.1700000089.8.YlFs3nxoVoxUg7CgBnr40KK9fjIP0d5eCqSP9-F-MfA"

def tokenB : Bytes :=
  utf8 "MDEyMzQ1Njc4OUFCQ0RFRg.1700000089.8.YlFs3nxoVoxUg7CgBnr40KK9fjIP0d5eCqSP9-F-MfB"

-- Past its expiry a good token is expired, a bad one still bad.
theorem expired_tokens : (sampleIssuer.verify fips tokenA [] 1700000090).1 = .Expired ∧
    (sampleIssuer.verify fips tokenB [] 1700000090).1 = .Expired := by
  decide +kernel

theorem passes_tokens : sampleIssuer.Passes fips tokenA ∧ sampleIssuer.Passes fips tokenB := by
  obtain ⟨hA, hB⟩ := expired_tokens
  exact ⟨Passes.of_verify fips sampleIssuer hA (by decide),
    Passes.of_verify fips sampleIssuer hB (by decide)⟩

theorem passes_other_sample :
    (sampleIssuer.Passes fips tokenB ↔ SameButLeftover tokenA tokenB) ∧
      (sampleIssuer.Passes fips tokenB →
        (tokenA = tokenB ↔ leftoverBits tokenA = leftoverBits tokenB)) :=
  passes_other fips sampleIssuer (by decide +kernel) passes_tokens.1

theorem tokens_malleable : ¬∀ (issuer : ChallengeIssuer) (token other : Bytes),
    payloadText token = payloadText other → issuer.Passes fips token → issuer.Passes fips other →
      token = other := by
  intro hunique
  have hsame := hunique sampleIssuer tokenA tokenB (by decide +kernel) passes_tokens.1 passes_tokens.2
  exact absurd hsame (by decide +kernel)

end DeltaFeedback.Pow.ChallengeIssuer
