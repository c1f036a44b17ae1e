import DeltaFeedback.Main

namespace DeltaFeedback.Main

open Text App DeltaFeedback.Pow

def lower (c : UInt8) : UInt8 := if 65 ≤ c && c ≤ 90 then c + 32 else c

def upper (c : UInt8) : UInt8 := if 97 ≤ c && c ≤ 122 then c - 32 else c

-- `s` writes `bytes` in hex digits, of either case.
def Denotes (s bytes : Bytes) : Prop := s.map lower = toHex bytes

def Hexadecimal (s : Bytes) : Prop := ∀ c ∈ s, lower c ∈ kHex

instance : DecidablePred Hexadecimal := fun s =>
  inferInstanceAs (Decidable (∀ c ∈ s, lower c ∈ kHex))

section Digits

theorem hexValue_lower (c : UInt8) : hexValue (lower c) = hexValue c := by
  revert c
  exact forall_byte (by decide +kernel)

theorem hexValue_isSome_iff (c : UInt8) : (hexValue c).isSome = true ↔ lower c ∈ kHex := by
  revert c
  exact forall_byte (by decide +kernel)

-- A byte out of its two digits.
theorem hexValue_kHex (b : UInt8) :
    hexValue (kHex.getD (b >>> 4).toNat 0) = some (b >>> 4) ∧
      hexValue (kHex.getD (b &&& 0x0F).toNat 0) = some (b &&& 0x0F) ∧
      (b >>> 4) <<< 4 ||| b &&& 0x0F = b := by
  revert b
  exact forall_byte (by decide +kernel)

theorem kHex_hexValue {c hi : UInt8} (h : hexValue c = some hi) :
    hi.toNat < 16 ∧ kHex.getD hi.toNat 0 = lower c := by
  have hall : ∀ c, (hexValue c).all (fun hi => hi.toNat < 16 ∧ kHex.getD hi.toNat 0 = lower c) =
      true := forall_byte (by decide +kernel)
  simpa [h] using hall c

theorem nibbles {hi lo : UInt8} (hhi : hi.toNat < 16) (hlo : lo.toNat < 16) :
    ((hi <<< 4) ||| lo) >>> 4 = hi ∧ ((hi <<< 4) ||| lo) &&& 0x0F = lo := by
  have hall : ∀ m < 16, ∀ n < 16, let hi := UInt8.ofNat m
      let lo := UInt8.ofNat n
      ((hi <<< 4) ||| lo) >>> 4 = hi ∧ ((hi <<< 4) ||| lo) &&& 0x0F = lo := by
    decide +kernel
  have h := hall hi.toNat hhi lo.toNat hlo
  rwa [UInt8.ofNat_toNat, UInt8.ofNat_toNat] at h

end Digits

theorem toHex_cons (b : UInt8) (bytes : Bytes) :
    toHex (b :: bytes) =
      kHex.getD (b >>> 4).toNat 0 :: kHex.getD (b &&& 0x0F).toNat 0 :: toHex bytes := rfl

theorem length_toHex (bytes : Bytes) : (toHex bytes).length = 2 * bytes.length := by
  induction bytes with
  | nil => rfl
  | cons b bytes ih =>
      rw [toHex_cons, List.length_cons, List.length_cons, ih, List.length_cons]
      omega

-- The loop ends on all pairs, at a pair that is none of hex digits, or at an
-- odd character that is left.
theorem hexDecodeLoop_spec (out s : Bytes) :
    (Hexadecimal s ∧ 2 ∣ s.length ∧
        ∃ bytes, Denotes s bytes ∧ hexDecodeLoop out s = out ++ bytes) ∨
      (¬ (Hexadecimal s ∧ 2 ∣ s.length) ∧ (hexDecodeLoop out s = [] ∨
        ∃ bytes, 2 * bytes.length < s.length ∧ hexDecodeLoop out s = out ++ bytes)) := by
  induction out, s using hexDecodeLoop.induct with
  | case1 out first second rest hi lo hlo hhi ih =>
      obtain ⟨hhi16, hfirst⟩ := kHex_hexValue hhi
      obtain ⟨hlo16, hsecond⟩ := kHex_hexValue hlo
      have hfirst' := (hexValue_isSome_iff first).mp (by rw [hhi]; rfl)
      have hsecond' := (hexValue_isSome_iff second).mp (by rw [hlo]; rfl)
      have hhex : Hexadecimal (first :: second :: rest) ↔ Hexadecimal rest := by
        unfold Hexadecimal
        rw [List.forall_mem_cons, List.forall_mem_cons]
        exact ⟨fun h => h.2.2, fun h => ⟨hfirst', hsecond', h⟩⟩
      have heven : 2 ∣ (first :: second :: rest).length ↔ 2 ∣ rest.length := by
        rw [List.length_cons, List.length_cons]
        omega
      simp only [hexDecodeLoop, hhi, hlo, hhex, heven]
      rcases ih with ⟨hrest, hlen, bytes, hdenotes, hloop⟩ | ⟨hnot, hend⟩
      · refine .inl ⟨hrest, hlen, ((hi <<< 4) ||| lo) :: bytes, ?_, ?_⟩
        · obtain ⟨hup, hdown⟩ := nibbles hhi16 hlo16
          unfold Denotes at hdenotes ⊢
          rw [toHex_cons, hup, hdown, hfirst, hsecond, ← hdenotes]
          rfl
        · rw [hloop, List.append_assoc]
          rfl
      · refine .inr ⟨hnot, ?_⟩
        rcases hend with hnil | ⟨bytes, hlen, hloop⟩
        · exact .inl hnil
        · refine .inr ⟨((hi <<< 4) ||| lo) :: bytes, ?_, ?_⟩
          · rw [List.length_cons, List.length_cons, List.length_cons]
            omega
          · rw [hloop, List.append_assoc]
            rfl
  | case2 out first second rest hbad =>
      refine .inr ⟨fun h => ?_, .inl ?_⟩
      · obtain ⟨hfirst, hrest⟩ := List.forall_mem_cons.mp h.1
        obtain ⟨hsecond, -⟩ := List.forall_mem_cons.mp hrest
        obtain ⟨hi, hhi⟩ := Option.isSome_iff_exists.mp ((hexValue_isSome_iff first).mpr hfirst)
        obtain ⟨lo, hlo⟩ := Option.isSome_iff_exists.mp ((hexValue_isSome_iff second).mpr hsecond)
        exact hbad hi lo hhi hlo
      · rw [hexDecodeLoop]
        split
        next hi lo hhi hlo => exact absurd hlo (hbad hi lo hhi)
        · rfl
  | case3 s out hshort =>
      match s, hshort with
      | [], _ =>
          exact .inl ⟨fun c hc => absurd hc List.not_mem_nil, ⟨0, rfl⟩, [], rfl,
            (List.append_nil out).symm⟩
      | [c], _ =>
          refine .inr ⟨fun h => absurd h.2 (by simp), .inr ⟨[], by simp, ?_⟩⟩
          exact (List.append_nil out).symm
      | first :: second :: rest, hshort => exact absurd rfl (hshort first second rest)

theorem hexDecodeLoop_lower (out s : Bytes) :
    hexDecodeLoop out (s.map lower) = hexDecodeLoop out s := by
  induction out, s using hexDecodeLoop.induct with
  | case1 out first second rest hi lo hlo hhi ih =>
      simp only [List.map_cons, hexDecodeLoop, hexValue_lower, hhi, hlo, ih]
  | case2 out first second rest hbad =>
      simp only [List.map_cons, hexDecodeLoop, hexValue_lower]
  | case3 s out hshort =>
      match s, hshort with
      | [], _ => rfl
      | [c], _ => rfl
      | first :: second :: rest, hshort => exact absurd rfl (hshort first second rest)

theorem hexDecodeLoop_toHex (out bytes : Bytes) :
    hexDecodeLoop out (toHex bytes) = out ++ bytes := by
  induction bytes generalizing out with
  | nil => exact (List.append_nil out).symm
  | cons b bytes ih =>
      obtain ⟨hhi, hlo, hbyte⟩ := hexValue_kHex b
      simp only [toHex_cons, hexDecodeLoop, hhi, hlo, hbyte, ih, List.append_assoc]
      rfl

theorem Denotes.hexDecode {s bytes : Bytes} (h : Denotes s bytes) : hexDecode s = bytes := by
  rw [Main.hexDecode, ← hexDecodeLoop_lower, h, hexDecodeLoop_toHex, List.nil_append]

theorem hexDecode_toHex (bytes : Bytes) : hexDecode (toHex bytes) = bytes :=
  hexDecodeLoop_toHex [] bytes

theorem hexDecodeLoop_upper (out s : Bytes) (h : Hexadecimal s) :
    hexDecodeLoop out (s.map upper) = hexDecodeLoop out s := by
  have hdigit : ∀ c ∈ s, lower (upper c) = lower c := by
    have hall : ∀ c, lower c ∈ kHex → lower (upper c) = lower c := forall_byte (by decide +kernel)
    exact fun c hc => hall c (h c hc)
  have hmap : (s.map upper).map lower = s.map lower := by
    rw [List.map_map]
    exact List.map_congr_left hdigit
  rw [← hexDecodeLoop_lower, hmap, hexDecodeLoop_lower]

theorem hexadecimal_toHex (bytes : Bytes) : Hexadecimal (toHex bytes) := by
  have hdenotes := hexDecodeLoop_spec [] (toHex bytes)
  rcases hdenotes with ⟨hhex, -⟩ | ⟨-, hnil | ⟨short, hlen, hloop⟩⟩
  · exact hhex
  · rw [hexDecodeLoop_toHex, List.nil_append] at hnil
    rw [hnil]
    exact fun c hc => absurd hc List.not_mem_nil
  · rw [hexDecodeLoop_toHex, List.nil_append, List.nil_append] at hloop
    rw [length_toHex, hloop] at hlen
    omega

-- The bytes that `random_hex` writes out.
def drawn (draw : Nat → UInt64) (n : Nat) : Bytes :=
  (List.range n).map fun i => (draw i &&& 0xFF).toUInt8

theorem randomHex_eq (draw : Nat → UInt64) (n : Nat) : randomHex draw n = toHex (drawn draw n) := by
  rw [toHex, drawn, List.flatMap_map]
  rfl

section Serving

variable {host : Host} {cfg : Config} {issuer : ChallengeIssuer}

theorem runFrom_secret {s : Bytes} (hget : cfg.get (utf8 "hmac_secret") [] = s) (hs : s ≠ [])
    (hrun : runFrom host cfg = some issuer) : issuer.secret = hexDecode s := by
  have hensure : ensureHmacSecret host.draw cfg = (s, cfg) := by
    unfold ensureHmacSecret
    rw [hget]
    exact if_pos (by simpa using hs)
  unfold runFrom at hrun
  rw [hensure] at hrun
  dsimp only at hrun
  split_ifs at hrun
  rw [← Option.some.inj hrun]

-- A configuration that holds `s`, and a machine on which nothing goes wrong.
def holding (s : Bytes) : Config :=
  ((Config.empty.set (utf8 "addr") (utf8 "bot")).set (utf8 "mail_pw") (utf8 "pw")).set
    (utf8 "hmac_secret") s

def steadyHost : Host := ⟨fun _ => [], fun _ => 0, true, true, true⟩

theorem holding_kv (s key : Bytes) : (holding s).kv[key]? =
    if key = utf8 "hmac_secret" then some s else if key = utf8 "mail_pw" then some (utf8 "pw")
    else if key = utf8 "addr" then some (utf8 "bot") else none := by
  simp only [holding, Config.getElem?_set, eq_comm]
  rfl

theorem runFrom_holding {s : Bytes} (hs : s ≠ []) :
    (holding s).get (utf8 "hmac_secret") [] = s ∧
      ∃ issuer, runFrom steadyHost (holding s) = some issuer := by
  have hget : (holding s).get (utf8 "hmac_secret") [] = s := by
    simp [Config.get, holding_kv, hs]
  have haddr : (holding s).has (utf8 "addr") = true := by
    have hkey : (holding s).kv[utf8 "addr"]? = some (utf8 "bot") := by
      rw [holding_kv, if_neg (by decide +kernel), if_neg (by decide +kernel), if_pos rfl]
    rw [Config.has, hkey]
    decide +kernel
  have hpw : (holding s).has (utf8 "mail_pw") = true := by
    have hkey : (holding s).kv[utf8 "mail_pw"]? = some (utf8 "pw") := by
      rw [holding_kv, if_neg (by decide +kernel), if_pos rfl]
    rw [Config.has, hkey]
    decide +kernel
  refine ⟨hget, ?_⟩
  unfold runFrom
  simp [haddr, hpw, steadyHost]

end Serving

-- The program serves with the key that the secret denotes, or, where that is
-- not hex of whole bytes, with no shorter one and not with an empty one.
structure Kept (s : Bytes) : Prop where
  denoted : Hexadecimal s → 2 ∣ s.length → ∀ (host : Host) (cfg : Config) (issuer : ChallengeIssuer),
    cfg.get (utf8 "hmac_secret") [] = s → runFrom host cfg = some issuer →
      Denotes s issuer.secret ∧ ∀ bytes, Denotes s bytes → issuer.secret = bytes
  refused : ¬ (Hexadecimal s ∧ 2 ∣ s.length) →
    ∀ (host : Host) (cfg : Config) (issuer : ChallengeIssuer),
      cfg.get (utf8 "hmac_secret") [] = s → runFrom host cfg = some issuer →
        s.length ≤ 2 * issuer.secret.length ∧ issuer.secret ≠ []

theorem kept_iff {s : Bytes} (hs : s ≠ []) : Kept s ↔ Hexadecimal s ∧ 2 ∣ s.length := by
  constructor
  · intro hkept
    by_contra hnot
    obtain ⟨hget, issuer, hrun⟩ := runFrom_holding hs
    have hlong := hkept.refused hnot steadyHost (holding s) issuer hget hrun
    rw [runFrom_secret hget hs hrun] at hlong
    rcases hexDecodeLoop_spec [] s with ⟨hhex, heven, -⟩ | ⟨-, hnil | ⟨bytes, hlen, hloop⟩⟩
    · exact hnot ⟨hhex, heven⟩
    · exact hlong.2 hnil
    · rw [hexDecode, hloop, List.nil_append] at hlong
      omega
  · rintro ⟨hhex, heven⟩
    refine ⟨fun _ _ host cfg issuer hget hrun => ?_, fun hnot => absurd ⟨hhex, heven⟩ hnot⟩
    rw [runFrom_secret hget hs hrun]
    refine ⟨?_, fun bytes hbytes => hbytes.hexDecode⟩
    rcases hexDecodeLoop_spec [] s with ⟨-, -, bytes, hdenotes, -⟩ | ⟨hnot, -⟩
    · rwa [hdenotes.hexDecode]
    · exact absurd ⟨hhex, heven⟩ hnot

theorem secret_kept {s : Bytes} (hs : s ≠ []) :
    (Kept s ↔ Hexadecimal s ∧ 2 ∣ s.length) ∧
    (∀ bytes, hexDecode (toHex bytes) = bytes ∧ hexDecode ((toHex bytes).map upper) = bytes) ∧
    ∀ draw n, hexDecode (randomHex draw n) = drawn draw n := by
  refine ⟨kept_iff hs, fun bytes => ⟨hexDecode_toHex bytes, ?_⟩, fun draw n => ?_⟩
  · rw [hexDecode, hexDecodeLoop_upper _ _ (hexadecimal_toHex bytes), hexDecodeLoop_toHex,
      List.nil_append]
  · rw [randomHex_eq, hexDecode_toHex]

theorem secret_kept_upper :
    (Kept (utf8 "00FF") ↔ Hexadecimal (utf8 "00FF") ∧ 2 ∣ (utf8 "00FF").length) ∧
    (∀ bytes, hexDecode (toHex bytes) = bytes ∧ hexDecode ((toHex bytes).map upper) = bytes) ∧
    ∀ draw n, hexDecode (randomHex draw n) = drawn draw n :=
  secret_kept (by decide +kernel)

-- A secret with one letter that is no hex digit, as a configuration file.
def misspelt : Host := { steadyHost with
  files := fun path => if path = utf8 "config.ini" then
    utf8 "addr=bot@example.org\nmail_pw=pw\nhmac_secret = 5ecre7\n" else [] }

theorem not_kept_misspelt :
    (cmdRun misspelt (utf8 "config.ini")).map ChallengeIssuer.secret = some [] ∧
      ¬ Kept (utf8 "5ecre7") := by
  refine ⟨by decide +kernel, fun hkept => ?_⟩
  have hhex := ((kept_iff (by decide +kernel)).mp hkept).1
  exact absurd hhex (by decide +kernel)

end DeltaFeedback.Main
