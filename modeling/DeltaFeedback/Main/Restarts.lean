import DeltaFeedback.Main.Account
import DeltaFeedback.Main.Secret

namespace DeltaFeedback.Main

open Text App Config

-- The file that the main config names for the account, or else itself.
def accountPath (files : Files) (cfgPath : Bytes) : Bytes :=
  writablePath (load (files.read cfgPath)) cfgPath

-- A start gets to its secret.
def Registered (files : Files) (cfgPath : Bytes) : Prop :=
  (loadWithAccount files.read cfgPath).has (utf8 "addr") = true ∧
    (loadWithAccount files.read cfgPath).has (utf8 "mail_pw") = true

-- There is a secret, or one that is written goes where the next start reads it:
-- to the account file of the main config, or to the main config where the
-- account file says nothing of a secret.
def Lands (files : Files) (cfgPath : Bytes) : Prop :=
  let cfg := loadWithAccount files.read cfgPath
  let writable := files.named (writablePath cfg cfgPath)
  cfg.get (utf8 "hmac_secret") [] ≠ [] ∨ writable = files.named (accountPath files cfgPath) ∨
    writable = files.named cfgPath ∧
      (load (files.read (accountPath files cfgPath))).kv[utf8 "hmac_secret"]? = none

-- The secret of a start is that of all later ones, and no other setting is
-- touched by it.
structure Survives (draw : Nat → UInt64) (cfgPath : Bytes) (files : Files) : Prop where
  same : ∀ first, (startRun draw cfgPath files).1 = some first → ∀ draws,
    ∀ later ∈ (starts cfgPath draws (startRun draw cfgPath files).2).1,
      later = some ⟨first.secret, false⟩
  others : ∀ first, (startRun draw cfgPath files).1 = some first →
    ∀ key, key ≠ utf8 "hmac_secret" → ∀ fallback,
      (loadWithAccount (startRun draw cfgPath files).2.read cfgPath).get key fallback =
        (loadWithAccount files.read cfgPath).get key fallback

section Effective

variable {files : Files} {cfgPath : Bytes}

theorem get_congr {cfg other : Config} {key : Bytes} (h : cfg.kv[key]? = other.kv[key]?)
    (fallback : Bytes) : cfg.get key fallback = other.get key fallback := by
  rw [Config.get, Config.get, h]

-- Both files at once: with no account file named, that is the main one again.
theorem getElem?_loadWithAccount (files : Files) (cfgPath key : Bytes) :
    (loadWithAccount files.read cfgPath).kv[key]? =
      (load (files.read (accountPath files cfgPath))).kv[key]?.or
        (load (files.read cfgPath)).kv[key]? := by
  unfold loadWithAccount accountPath writablePath
  dsimp only
  split_ifs
  · cases (load (files.read cfgPath)).kv[key]? <;> rfl
  · exact getElem?_overlay _ _ key

end Effective

section Saved

variable {files : Files} {cfgPath writable s : Bytes}

def saved (files : Files) (writable s : Bytes) : Files :=
  saveAccount files writable [(utf8 "hmac_secret", s)]

theorem load_saved (hs : Printable (utf8 "hmac_secret") s) (path key : Bytes) :
    (load ((saved files writable s).read path)).kv[key]? =
      if files.named path = files.named writable ∧ utf8 "hmac_secret" = key then some s
      else (load (files.read path)).kv[key]? := by
  by_cases hpath : files.named path = files.named writable
  · have hread : (saved files writable s).read path = (saved files writable s).read writable := by
      rw [saved, saveAccount, Files.read_write, Files.read_write, if_pos hpath, if_pos rfl]
    have hfile : files.read path = files.read writable := by rw [Files.read, hpath, ← Files.read]
    have hkv : ∀ kv ∈ [(utf8 "hmac_secret", s)], Printable kv.1 kv.2 := by simpa using hs
    have hload := load_saveAccount files writable hkv
    rw [hread, saved, hload.getElem?_eq, setAll, List.foldl_cons, List.foldl_nil, getElem?_set, hfile]
    simp only [hpath, true_and]
  · rw [saved, saveAccount, Files.read_write, if_neg hpath, if_neg (fun h => hpath h.1)]

theorem saved_others (hs : Printable (utf8 "hmac_secret") s) {key : Bytes}
    (hkey : key ≠ utf8 "hmac_secret") (path : Bytes) :
    (load ((saved files writable s).read path)).kv[key]? = (load (files.read path)).kv[key]? := by
  rw [load_saved hs, if_neg fun h => hkey h.2.symm]

theorem accountPath_saved (hs : Printable (utf8 "hmac_secret") s) :
    accountPath (saved files writable s) cfgPath = accountPath files cfgPath := by
  have hkey : utf8 "account_path" ≠ utf8 "hmac_secret" := by decide +kernel
  have hmain : (load ((saved files writable s).read cfgPath)).kv[utf8 "account_path"]? =
      (load (files.read cfgPath)).kv[utf8 "account_path"]? := saved_others hs hkey cfgPath
  rw [accountPath, accountPath, writablePath, writablePath, get_congr hmain]

theorem effective_others (hs : Printable (utf8 "hmac_secret") s) {key : Bytes}
    (hkey : key ≠ utf8 "hmac_secret") :
    (loadWithAccount (saved files writable s).read cfgPath).kv[key]? =
      (loadWithAccount files.read cfgPath).kv[key]? := by
  rw [getElem?_loadWithAccount, getElem?_loadWithAccount, accountPath_saved hs,
    saved_others hs hkey, saved_others hs hkey]

theorem get_of_some {cfg : Config} {key value : Bytes} (h : cfg.kv[key]? = some value) :
    cfg.get key [] = value := by
  rw [Config.get, h]
  cases value <;> rfl

theorem effective_landed (hs : Printable (utf8 "hmac_secret") s)
    (h : files.named writable = files.named (accountPath files cfgPath) ∨
      files.named writable = files.named cfgPath ∧
        (load (files.read (accountPath files cfgPath))).kv[utf8 "hmac_secret"]? = none) :
    (loadWithAccount (saved files writable s).read cfgPath).get (utf8 "hmac_secret") [] = s := by
  apply get_of_some
  rw [getElem?_loadWithAccount, accountPath_saved hs, load_saved hs, load_saved hs]
  rcases h with haccount | ⟨hmain, hnone⟩
  · rw [if_pos ⟨haccount.symm, rfl⟩, Option.some_or]
  · have hwritten : files.named cfgPath = files.named writable ∧
        utf8 "hmac_secret" = utf8 "hmac_secret" := ⟨hmain.symm, rfl⟩
    rw [hnone, if_pos hwritten]
    split_ifs <;> rfl

-- A secret that is written elsewhere is not there for the next start.
theorem effective_missed (hs : Printable (utf8 "hmac_secret") s)
    (hempty : (loadWithAccount files.read cfgPath).get (utf8 "hmac_secret") [] = [])
    (haccount : files.named writable ≠ files.named (accountPath files cfgPath))
    (hmain : files.named writable = files.named cfgPath →
      (load (files.read (accountPath files cfgPath))).kv[utf8 "hmac_secret"]? ≠ none) :
    (loadWithAccount (saved files writable s).read cfgPath).get (utf8 "hmac_secret") [] = [] := by
  refine Eq.trans (get_congr ?_ []) hempty
  rw [getElem?_loadWithAccount, getElem?_loadWithAccount, accountPath_saved hs, load_saved hs,
    load_saved hs, if_neg fun hsame => haccount hsame.1.symm]
  cases hother : (load (files.read (accountPath files cfgPath))).kv[utf8 "hmac_secret"]? with
  | some value => rfl
  | none => rw [if_neg fun hsame => hmain hsame.1.symm hother]

end Saved

section Starts

variable {draw : Nat → UInt64} {cfgPath : Bytes} {files : Files}

theorem printable_randomHex (draw : Nat → UInt64) (n : Nat) :
    Printable (utf8 "hmac_secret") (randomHex draw n) := by
  have hdigit : ∀ c ∈ randomHex draw n, c ≠ 10 ∧ isBlank c = false := by
    have hall : ∀ c, lower c ∈ Pow.kHex → c ≠ 10 ∧ isBlank c = false :=
      forall_byte (by decide +kernel)
    intro c hc
    rw [randomHex_eq] at hc
    exact hall c (hexadecimal_toHex _ c hc)
  refine ⟨⟨by decide +kernel, fun hmem => (hdigit 10 hmem).1 rfl⟩, by decide +kernel,
    by decide +kernel, ?_, ?_⟩
  · rintro c (hhead | hlast)
    · obtain rfl : 104 = c := Option.some.inj hhead
      rfl
    · obtain rfl : 116 = c := Option.some.inj hlast
      rfl
  · rintro c (hhead | hlast)
    · exact (hdigit c (List.mem_of_mem_head? hhead)).2
    · exact (hdigit c (List.mem_of_getLast? hlast)).2

theorem randomHex_ne_nil (draw : Nat → UInt64) : randomHex draw 32 ≠ [] := by
  intro hnil
  have hlength := congrArg List.length hnil
  rw [randomHex_eq, length_toHex, drawn, List.length_map, List.length_range] at hlength
  cases hlength

theorem startRun_unregistered (h : ¬ Registered files cfgPath) :
    startRun draw cfgPath files = (none, files) := by
  unfold startRun
  dsimp only
  rw [if_pos]
  simpa [Registered, or_iff_not_imp_left] using h

theorem startRun_held (draw : Nat → UInt64) (hregistered : Registered files cfgPath)
    (hsecret : (loadWithAccount files.read cfgPath).get (utf8 "hmac_secret") [] ≠ []) :
    startRun draw cfgPath files =
      (some ⟨(loadWithAccount files.read cfgPath).get (utf8 "hmac_secret") [], false⟩, files) := by
  have hheld : (!((loadWithAccount files.read cfgPath).get (utf8 "hmac_secret") []).isEmpty) = true := by
    simpa using hsecret
  unfold startRun ensureHmacSecret savedSecret
  dsimp only
  rw [if_neg (by simp [hregistered.1, hregistered.2]), if_pos hheld, if_pos hheld]
  simpa using hsecret

theorem startRun_fresh (draw : Nat → UInt64) (hregistered : Registered files cfgPath)
    (hempty : (loadWithAccount files.read cfgPath).get (utf8 "hmac_secret") [] = []) :
    startRun draw cfgPath files = (some ⟨randomHex draw 32, true⟩,
      saved files (writablePath (loadWithAccount files.read cfgPath) cfgPath) (randomHex draw 32)) := by
  unfold startRun ensureHmacSecret savedSecret
  dsimp only
  rw [if_neg (by simp [hregistered.1, hregistered.2]), hempty]
  rfl

theorem registered_saved {writable s : Bytes} (hs : Printable (utf8 "hmac_secret") s)
    (h : Registered files cfgPath) : Registered (saved files writable s) cfgPath := by
  have hothers {key : Bytes} (hkey : key ≠ utf8 "hmac_secret") :
      (loadWithAccount (saved files writable s).read cfgPath).has key =
        (loadWithAccount files.read cfgPath).has key := by
    rw [Config.has, Config.has, effective_others hs hkey]
  refine ⟨?_, ?_⟩
  · rw [hothers (by decide +kernel)]
    exact h.1
  · rw [hothers (by decide +kernel)]
    exact h.2

-- A secret that is there stays: no start writes.
theorem starts_held (hregistered : Registered files cfgPath) {s : Bytes} (hs : s ≠ [])
    (hsecret : (loadWithAccount files.read cfgPath).get (utf8 "hmac_secret") [] = s)
    (draws : List (Nat → UInt64)) :
    ∀ later ∈ (starts cfgPath draws files).1, later = some ⟨s, false⟩ := by
  induction draws with
  | nil => exact fun _ hmem => absurd hmem List.not_mem_nil
  | cons draw draws ih =>
      have hstart := startRun_held draw hregistered (hsecret ▸ hs)
      rw [starts, hstart, hsecret]
      exact List.forall_mem_cons.mpr ⟨rfl, ih⟩

theorem survives_of_unregistered (h : ¬ Registered files cfgPath) :
    Survives draw cfgPath files := by
  have hnone : (startRun draw cfgPath files).1 = none := by rw [startRun_unregistered h]
  constructor
  · intro first hfirst
    rw [hnone] at hfirst
    cases hfirst
  · intro first hfirst
    rw [hnone] at hfirst
    cases hfirst

theorem survives_of_lands (hregistered : Registered files cfgPath) (h : Lands files cfgPath) :
    Survives draw cfgPath files := by
  by_cases hempty : (loadWithAccount files.read cfgPath).get (utf8 "hmac_secret") [] = []
  case neg =>
    have hstart := startRun_held draw hregistered hempty
    refine ⟨fun first hfirst draws => ?_, fun _ _ _ _ _ => by rw [hstart]⟩
    rw [hstart] at hfirst ⊢
    obtain rfl := Option.some.inj hfirst
    exact starts_held hregistered hempty rfl draws
  have hs := printable_randomHex draw 32
  have hstart := startRun_fresh draw hregistered hempty
  have hwritten := h.resolve_left (not_not.mpr hempty)
  constructor
  · intro first hfirst draws
    rw [hstart] at hfirst ⊢
    obtain rfl := Option.some.inj hfirst
    exact starts_held (registered_saved hs hregistered) (randomHex_ne_nil draw)
      (effective_landed hs hwritten) draws
  · intro _ _ key hkey fallback
    rw [hstart]
    exact get_congr (effective_others hs hkey) fallback

theorem lands_of_survives (hregistered : Registered files cfgPath)
    (h : Survives draw cfgPath files) : Lands files cfgPath := by
  by_contra hmissed
  obtain ⟨hsecret, hwritten⟩ := not_or.mp hmissed
  obtain ⟨haccount, hmain⟩ := not_or.mp hwritten
  have hempty := not_not.mp hsecret
  have hs := printable_randomHex draw 32
  have hstart := startRun_fresh draw hregistered hempty
  have hlost := effective_missed hs hempty haccount (not_and.mp hmain)
  have hagain := startRun_fresh draw (registered_saved hs hregistered) hlost
  have hlater := h.same _ (by rw [hstart]) [draw]
  rw [hstart, starts, hagain] at hlater
  have hgenerated := hlater _ List.mem_cons_self
  cases hgenerated

-- The start is the program's: the key of its server is the secret's.
theorem startRun_of_cmdRun {host : Host} {issuer : Pow.ChallengeIssuer}
    (hfiles : host.files = files.read) (h : cmdRun host cfgPath = some issuer) :
    ∃ obtained, (startRun host.draw cfgPath files).1 = some obtained ∧
      issuer.secret = hexDecode obtained.secret := by
  unfold cmdRun runFrom at h
  unfold startRun
  rw [hfiles] at h
  dsimp only at h ⊢
  by_cases hregistered : (!(loadWithAccount files.read cfgPath).has (utf8 "addr") ||
      !(loadWithAccount files.read cfgPath).has (utf8 "mail_pw")) = true
  · rw [if_pos hregistered] at h
    cases h
  · rw [if_neg hregistered] at h ⊢
    refine ⟨_, rfl, ?_⟩
    split_ifs at h
    rw [← Option.some.inj h]

-- Two servers, one started after the other, that sign with one key.
theorem cmdRun_again {host again : Host} {issuer next : Pow.ChallengeIssuer}
    (hlands : Lands files cfgPath) (hfiles : host.files = files.read)
    (hrun : cmdRun host cfgPath = some issuer)
    (hleft : again.files = (startRun host.draw cfgPath files).2.read)
    (hnext : cmdRun again cfgPath = some next) : next.secret = issuer.secret := by
  obtain ⟨first, hfirst, hkey⟩ := startRun_of_cmdRun hfiles hrun
  obtain ⟨later, hlater, hkey'⟩ := startRun_of_cmdRun hleft hnext
  have hregistered : Registered files cfgPath := by
    by_contra hnot
    rw [startRun_unregistered hnot] at hfirst
    cases hfirst
  have hsame := (survives_of_lands hregistered hlands).same first hfirst [again.draw]
  have hagain := hsame _ (by rw [starts]; exact List.mem_cons_self)
  rw [hlater] at hagain
  rw [hkey, hkey', Option.some.inj hagain]

theorem secret_survives (draw : Nat → UInt64) (cfgPath : Bytes) (files : Files) :
    Survives draw cfgPath files ↔ (Registered files cfgPath → Lands files cfgPath) := by
  constructor
  · exact fun hsurvives hregistered => lands_of_survives hregistered hsurvives
  · intro hlands
    by_cases hregistered : Registered files cfgPath
    · exact survives_of_lands hregistered (hlands hregistered)
    · exact survives_of_unregistered hregistered

-- An account file that names a third one: the secret is written there.
def redirected : Files where
  named path := if path = utf8 "config.ini" then 0 else if path = utf8 "account.ini" then 1 else 2
  text
    | 0 => utf8 "addr=bot@example.org\nmail_pw=pw\naccount_path=account.ini\n"
    | 1 => utf8 "account_path=data.ini\n"
    | _ => []

theorem not_survives_redirected :
    ¬ Survives (fun _ => 0) (utf8 "config.ini") redirected := by
  intro hsurvives
  have hlands := lands_of_survives ⟨by decide +kernel, by decide +kernel⟩ hsurvives
  unfold Lands at hlands
  revert hlands
  decide +kernel

end Starts

end DeltaFeedback.Main
