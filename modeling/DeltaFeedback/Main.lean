import DeltaFeedback.App.Config
import DeltaFeedback.Pow.Challenge
import Mathlib.Logic.Function.Basic

namespace DeltaFeedback.Main

open Text App DeltaFeedback.Pow

-- What the program finds on its machine: the files (an empty text where there
-- is none), the numbers that `random_hex` draws, and whether the database
-- opens, a Delta Chat context is made and it gets configured.
structure Host where
  files : Bytes → Bytes
  draw : Nat → UInt64
  opens : Bool
  contextNew : Bool
  configured : Bool

-- The files by themselves: which one a path names, and what each holds. No
-- write of them fails.
structure Files where
  named : Bytes → Nat
  text : Nat → Bytes

def Files.read (files : Files) (path : Bytes) : Bytes := files.text (files.named path)

def Files.write (files : Files) (path text : Bytes) : Files :=
  { files with text := Function.update files.text (files.named path) text }

def randomHex (draw : Nat → UInt64) (bytes : Nat) : Bytes :=
  let h := utf8 "0123456789abcdef"
  (List.range bytes).flatMap fun i =>
    let b := (draw i &&& 0xFF).toUInt8
    [h.getD (b >>> 4).toNat 0, h.getD (b &&& 0xF).toNat 0]

def writablePath (cfg : Config) (mainPath : Bytes) : Bytes :=
  let a := cfg.get (utf8 "account_path") []
  if a.isEmpty then mainPath else a

def loadWithAccount (files : Bytes → Bytes) (mainPath : Bytes) : Config :=
  let cfg := Config.load (files mainPath)
  let acc := cfg.get (utf8 "account_path") []
  if acc.isEmpty then cfg else cfg.overlay (Config.load (files acc))

def saveAccount (files : Files) (path : Bytes) (kv : List (Bytes × Bytes)) : Files :=
  let existing := Config.load (files.read path)
  files.write path (kv.foldl (fun cfg (k, v) => cfg.set k v) existing).save

-- The secret, and the configuration that holds it from now on. Where it cannot
-- be saved there is only a warning.
def ensureHmacSecret (draw : Nat → UInt64) (cfg : Config) : Bytes × Config :=
  let s := cfg.get (utf8 "hmac_secret") []
  if !s.isEmpty then (s, cfg)
  else
    let s := randomHex draw 32
    (s, cfg.set (utf8 "hmac_secret") s)

-- The files after `ensure_hmac_secret`, where the secret is saved.
def savedSecret (draw : Nat → UInt64) (cfg : Config) (writable : Bytes) (files : Files) : Files :=
  let s := cfg.get (utf8 "hmac_secret") []
  if !s.isEmpty then files
  else saveAccount files writable [(utf8 "hmac_secret", randomHex draw 32)]

-- The value of a hex digit, none for -1.
def hexValue (c : UInt8) : Option UInt8 :=
  if 48 ≤ c && c ≤ 57 then some (c - 48)
  else if 97 ≤ c && c ≤ 102 then some (10 + c - 97)
  else if 65 ≤ c && c ≤ 70 then some (10 + c - 65)
  else none

def hexDecodeLoop (out : Bytes) : Bytes → Bytes
  | first :: second :: rest =>
      match hexValue first, hexValue second with
      | some hi, some lo => hexDecodeLoop (out ++ [(hi <<< 4) ||| lo]) rest
      | _, _ => []
  | _ => out

def hexDecode (hex : Bytes) : Bytes := hexDecodeLoop [] hex

-- From the loaded configuration on: the issuer of the server that gets to run,
-- none where the program returns or throws before.
def runFrom (host : Host) (cfg : Config) : Option ChallengeIssuer :=
  if !cfg.has (utf8 "addr") || !cfg.has (utf8 "mail_pw") then none
  else
    let (secretHex, cfg) := ensureHmacSecret host.draw cfg
    let secret := hexDecode secretHex
    if !host.opens then none
    else
      let powIssuer : ChallengeIssuer :=
        { secret := secret
          difficultyBits := UInt32.ofInt (cfg.getInt (utf8 "pow_difficulty_bits") 18)
          ttl := cfg.getInt (utf8 "pow_challenge_ttl_seconds") 300 }
      if !host.contextNew then none
      else if !host.configured then none
      else some powIssuer

def cmdRun (host : Host) (cfgPath : Bytes) : Option ChallengeIssuer :=
  runFrom host (loadWithAccount host.files cfgPath)

-- What a start obtains, and whether it has generated it just then.
structure Obtained where
  secret : Bytes
  generated : Bool
deriving DecidableEq

-- `cmd_run` up to its secret, and the files it leaves.
def startRun (draw : Nat → UInt64) (cfgPath : Bytes) (files : Files) : Option Obtained × Files :=
  let cfg := loadWithAccount files.read cfgPath
  if !cfg.has (utf8 "addr") || !cfg.has (utf8 "mail_pw") then (none, files)
  else
    let writable := writablePath cfg cfgPath
    let generated := (cfg.get (utf8 "hmac_secret") []).isEmpty
    (some ⟨(ensureHmacSecret draw cfg).1, generated⟩, savedSecret draw cfg writable files)

-- One start after the other.
def starts (cfgPath : Bytes) : List (Nat → UInt64) → Files → List (Option Obtained) × Files
  | [], files => ([], files)
  | draw :: rest, files =>
      let (obtained, next) := startRun draw cfgPath files
      let (later, last) := starts cfgPath rest next
      (obtained :: later, last)

end DeltaFeedback.Main
