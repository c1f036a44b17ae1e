import DeltaFeedback.Main.Restarts

namespace DeltaFeedback.Main

open Text App Config

-- What Delta Chat answers while an account is made: it takes a QR text for one
-- of a new account, sets itself up from it, reports the progress of what it does
-- (none is an event of another kind), and tells the account it has got.
structure Chatmail where
  contextNew : Bool
  checkQr : Bytes → Bool
  setConfigFromQr : Bytes → Bool
  events : List (Option Int)
  configuredAddr : Option Bytes
  mailPw : Option Bytes

-- The end of the events ends the waiting.
def waitConfigure : List (Option Int) → Bool
  | [] => false
  | none :: rest => waitConfigure rest
  | some p :: rest => if p = 1000 then true else if p = 0 then false else waitConfigure rest

def dbPath (cfg : Config) : Bytes := cfg.get (utf8 "db") (utf8 "./deltafeedback.db")

-- How a text gets to its file. What is opened is emptied first; where the disk
-- does not take the text, some of it is left, and `good` only tells of what has
-- failed before the stream is closed.
inductive Saving
  | NotOpened
  | Cut (left : Bytes) (good : Bool)
  | Written

-- The exit code, and the files.
def cmdRegister (dc : Chatmail) (saving : Saving) (domain cfgPath : Bytes) (files : Files) :
    Int × Files :=
  let cfg := loadWithAccount files.read cfgPath
  let writable := writablePath cfg cfgPath
  if !dc.contextNew then (1, files)
  else
    let qr := utf8 "DCACCOUNT:https://" ++ domain ++ utf8 "/new"
    if !dc.checkQr qr then (1, files)
    else if !dc.setConfigFromQr qr then (1, files)
    else
      let ok := waitConfigure dc.events
      let addr := dc.configuredAddr.getD []
      let pw := dc.mailPw.getD []
      if !ok || addr.isEmpty || pw.isEmpty then (1, files)
      else match saving with
        | .NotOpened => (1, files)
        | .Cut left good => (if good then 0 else 1, files.write writable left)
        | .Written => (0, saveAccount files writable
            [(utf8 "addr", addr), (utf8 "mail_pw", pw), (utf8 "db", dbPath cfg)])

-- What a start opens its database and configures Delta Chat with.
structure Credentials where
  addr : Bytes
  mailPw : Bytes
  db : Bytes
deriving DecidableEq

def credentials (files : Files) (cfgPath : Bytes) : Option Credentials :=
  let cfg := loadWithAccount files.read cfgPath
  if !cfg.has (utf8 "addr") || !cfg.has (utf8 "mail_pw") then none
  else some ⟨cfg.get (utf8 "addr") [], cfg.get (utf8 "mail_pw") [], dbPath cfg⟩

-- What is written for a key is what the next start reads: it goes to the account
-- file, or to the main config where the account file says nothing of the key.
def LandsAt (files : Files) (cfgPath key : Bytes) : Prop :=
  let writable := files.named (writablePath (loadWithAccount files.read cfgPath) cfgPath)
  writable = files.named (accountPath files cfgPath) ∨
    writable = files.named cfgPath ∧ (load (files.read (accountPath files cfgPath))).kv[key]? = none

section SaveAccount

variable {files : Files} {cfgPath writable key : Bytes} {kv : List (Bytes × Bytes)}

theorem load_saveAccount_read (hkv : ∀ pair ∈ kv, Printable pair.1 pair.2) (path key : Bytes) :
    (load ((saveAccount files writable kv).read path)).kv[key]? =
      if files.named path = files.named writable then
        (kv.reverse.lookup key).or (load (files.read path)).kv[key]?
      else (load (files.read path)).kv[key]? := by
  split_ifs with hpath
  · have hread :
        (saveAccount files writable kv).read path = (saveAccount files writable kv).read writable := by
      rw [saveAccount, Files.read_write, Files.read_write, if_pos hpath, if_pos rfl]
    have hfile : files.read path = files.read writable := by rw [Files.read, hpath, ← Files.read]
    rw [hread, (load_saveAccount files writable hkv).getElem?_eq, getElem?_setAll, hfile]
  · rw [saveAccount, Files.read_write, if_neg hpath]

theorem accountPath_saveAccount (hkv : ∀ pair ∈ kv, Printable pair.1 pair.2)
    (haccount : kv.reverse.lookup (utf8 "account_path") = none) :
    accountPath (saveAccount files writable kv) cfgPath = accountPath files cfgPath := by
  have hmain : (load ((saveAccount files writable kv).read cfgPath)).kv[utf8 "account_path"]? =
      (load (files.read cfgPath)).kv[utf8 "account_path"]? := by
    rw [load_saveAccount_read hkv, haccount, Option.none_or, ite_self]
  rw [accountPath, accountPath, writablePath, writablePath, get_congr hmain]

theorem effective_saveAccount (hkv : ∀ pair ∈ kv, Printable pair.1 pair.2)
    (haccount : kv.reverse.lookup (utf8 "account_path") = none) (key : Bytes) :
    (loadWithAccount (saveAccount files writable kv).read cfgPath).kv[key]? =
      (if files.named (accountPath files cfgPath) = files.named writable then
        (kv.reverse.lookup key).or (load (files.read (accountPath files cfgPath))).kv[key]?
      else (load (files.read (accountPath files cfgPath))).kv[key]?).or
      (if files.named cfgPath = files.named writable then
        (kv.reverse.lookup key).or (load (files.read cfgPath)).kv[key]?
      else (load (files.read cfgPath)).kv[key]?) := by
  rw [getElem?_loadWithAccount, accountPath_saveAccount hkv haccount, load_saveAccount_read hkv,
    load_saveAccount_read hkv]

-- A key that is written has the new value where it has landed, and else the old.
theorem effective_written (hkv : ∀ pair ∈ kv, Printable pair.1 pair.2)
    (haccount : kv.reverse.lookup (utf8 "account_path") = none) {value : Bytes}
    (hvalue : kv.reverse.lookup key = some value)
    (hwritable : writable = writablePath (loadWithAccount files.read cfgPath) cfgPath) :
    (LandsAt files cfgPath key →
      (loadWithAccount (saveAccount files writable kv).read cfgPath).kv[key]? = some value) ∧
    (¬ LandsAt files cfgPath key →
      (loadWithAccount (saveAccount files writable kv).read cfgPath).kv[key]? =
        (loadWithAccount files.read cfgPath).kv[key]?) := by
  subst hwritable
  rw [effective_saveAccount hkv haccount, hvalue, Option.some_or]
  constructor
  · rintro (hlands | ⟨hmain, hnone⟩)
    · rw [if_pos hlands.symm, Option.some_or]
    · rw [if_pos hmain.symm, hnone, Option.some_or]
      split_ifs <;> rfl
  · intro hmissed
    obtain ⟨haccountFile, hmain⟩ := not_or.mp hmissed
    rw [getElem?_loadWithAccount, if_neg (Ne.symm haccountFile)]
    cases hother : (load (files.read (accountPath files cfgPath))).kv[key]? with
    | some other => rfl
    | none => rw [if_neg fun hsame => hmain ⟨hsame.symm, hother⟩]

end SaveAccount

section Registration

variable {cfgPath : Bytes} {files : Files}

-- A key that the starts do not write keeps its value over all of them.
theorem effective_starts (cfgPath : Bytes) {key : Bytes} (hkey : key ≠ utf8 "hmac_secret")
    (draws : List (Nat → UInt64)) (files : Files) :
    (loadWithAccount (starts cfgPath draws files).2.read cfgPath).kv[key]? =
      (loadWithAccount files.read cfgPath).kv[key]? := by
  induction draws generalizing files with
  | nil => rfl
  | cons draw draws ih =>
      rw [starts]
      refine (ih _).trans ?_
      by_cases hregistered : Registered files cfgPath
      · by_cases hempty : (loadWithAccount files.read cfgPath).get (utf8 "hmac_secret") [] = []
        · rw [startRun_fresh draw hregistered hempty]
          exact effective_others (printable_randomHex draw 32) hkey
        · rw [startRun_held draw hregistered hempty]
      · rw [startRun_unregistered hregistered]

theorem dbPath_congr {cfg other : Config} (h : cfg.kv[utf8 "db"]? = other.kv[utf8 "db"]?) :
    dbPath cfg = dbPath other := get_congr h _

theorem credentials_starts (draws : List (Nat → UInt64)) (files : Files) :
    credentials (starts cfgPath draws files).2 cfgPath = credentials files cfgPath := by
  have heffective {key : Bytes} (hkey : key ≠ utf8 "hmac_secret") :=
    effective_starts cfgPath hkey draws files
  have haddr := heffective (show utf8 "addr" ≠ utf8 "hmac_secret" by decide +kernel)
  have hpw := heffective (show utf8 "mail_pw" ≠ utf8 "hmac_secret" by decide +kernel)
  have hdb := heffective (show utf8 "db" ≠ utf8 "hmac_secret" by decide +kernel)
  unfold credentials
  dsimp only
  rw [get_congr haddr, get_congr hpw, dbPath_congr hdb, Config.has, Config.has, Config.has, Config.has,
    haddr, hpw]

theorem printable_default : Printable (utf8 "db") (utf8 "./deltafeedback.db") :=
  Storable.printable ⟨by decide +kernel, ⟨by decide +kernel, by decide +kernel, by decide +kernel⟩,
    ⟨by decide +kernel, by decide +kernel, by decide +kernel⟩⟩

-- What a start finds for a key can be printed: it was read from a line.
theorem printable_effective {key value : Bytes}
    (h : (loadWithAccount files.read cfgPath).kv[key]? = some value) : Printable key value := by
  rw [getElem?_loadWithAccount, Option.or_eq_some_iff] at h
  rcases h with haccount | ⟨-, hmain⟩
  · exact allPrintable_load _ _ _ haccount
  · exact allPrintable_load _ _ _ hmain

-- What a registration writes of the database is what it has read.
theorem printable_dbPath (files : Files) (cfgPath : Bytes) :
    Printable (utf8 "db") (dbPath (loadWithAccount files.read cfgPath)) := by
  unfold dbPath Config.get
  cases hvalue : (loadWithAccount files.read cfgPath).kv[utf8 "db"]? with
  | none => exact printable_default
  | some value =>
      dsimp only
      split_ifs
      · exact printable_default
      · exact printable_effective hvalue

abbrev written (addr pw db : Bytes) : List (Bytes × Bytes) :=
  [(utf8 "addr", addr), (utf8 "mail_pw", pw), (utf8 "db", db)]

-- The file that is written to, and what the database of the account is.
def accountFile (files : Files) (cfgPath : Bytes) : Bytes :=
  writablePath (loadWithAccount files.read cfgPath) cfgPath

-- The files of a registration that was written.
def registeredFiles (files : Files) (cfgPath addr pw : Bytes) : Files :=
  saveAccount files (accountFile files cfgPath)
    (written addr pw (dbPath (loadWithAccount files.read cfgPath)))

-- The only ways to change a file.
theorem cmdRegister_cases (dc : Chatmail) (saving : Saving) (domain cfgPath : Bytes) (files : Files) :
    cmdRegister dc saving domain cfgPath files = (1, files) ∨
      (∃ left good, saving = .Cut left good ∧ cmdRegister dc saving domain cfgPath files =
        (if good then 0 else 1, files.write (accountFile files cfgPath) left)) ∨
      ∃ addr pw, dc.configuredAddr = some addr ∧ dc.mailPw = some pw ∧ addr ≠ [] ∧ pw ≠ [] ∧
        saving = .Written ∧ cmdRegister dc saving domain cfgPath files =
          (0, registeredFiles files cfgPath addr pw) := by
  unfold cmdRegister
  dsimp only
  split_ifs with hnew hqr hset hgot
  · exact .inl rfl
  · exact .inl rfl
  · exact .inl rfl
  · exact .inl rfl
  cases saving with
  | NotOpened => exact .inl rfl
  | Cut left good => exact .inr (.inl ⟨left, good, rfl, rfl⟩)
  | Written =>
      simp only [Bool.or_eq_true, not_or, List.isEmpty_iff] at hgot
      obtain ⟨⟨-, haddr⟩, hpw⟩ := hgot
      cases hgotAddr : dc.configuredAddr with
      | none => simp [hgotAddr] at haddr
      | some addr =>
          cases hgotPw : dc.mailPw with
          | none => simp [hgotPw] at hpw
          | some pw =>
              exact .inr (.inr ⟨addr, pw, rfl, rfl, by simpa [hgotAddr] using haddr,
                by simpa [hgotPw] using hpw, rfl, rfl⟩)

-- What was registered lands where the next start reads it, or is what was there.
def Holds (files : Files) (cfgPath key value : Bytes) : Prop :=
  LandsAt files cfgPath key ∨ (loadWithAccount files.read cfgPath).kv[key]? = some value

theorem holds_iff {kv : List (Bytes × Bytes)} {key value : Bytes}
    (hkv : ∀ pair ∈ kv, Printable pair.1 pair.2)
    (haccount : kv.reverse.lookup (utf8 "account_path") = none)
    (hvalue : kv.reverse.lookup key = some value) :
    (loadWithAccount (saveAccount files (writablePath (loadWithAccount files.read cfgPath) cfgPath)
      kv).read cfgPath).kv[key]? = some value ↔ Holds files cfgPath key value := by
  obtain ⟨hlanded, hmissed⟩ := effective_written hkv haccount hvalue rfl
  by_cases hlands : LandsAt files cfgPath key
  · exact iff_of_true (hlanded hlands) (.inl hlands)
  · rw [hmissed hlands, Holds]
    exact (or_iff_right hlands).symm

theorem get_eq_iff {cfg : Config} {key value : Bytes} (hvalue : value ≠ []) :
    cfg.get key [] = value ↔ cfg.kv[key]? = some value := by
  refine ⟨fun hget => ?_, get_of_some⟩
  unfold Config.get at hget
  split at hget
  next found hfound =>
    split_ifs at hget
    · exact absurd hget.symm hvalue
    · rw [hfound, hget]
  next => exact absurd hget.symm hvalue

theorem has_of_get {cfg : Config} {key value : Bytes} (hvalue : value ≠ [])
    (h : cfg.kv[key]? = some value) : cfg.has key = true := by
  simp [Config.has, h, hvalue]

theorem credentials_eq_some_iff {addr pw : Bytes} (haddr : addr ≠ []) (hpw : pw ≠ []) (db : Bytes) :
    credentials files cfgPath = some ⟨addr, pw, db⟩ ↔
      ((loadWithAccount files.read cfgPath).kv[utf8 "addr"]? = some addr ∧
        (loadWithAccount files.read cfgPath).kv[utf8 "mail_pw"]? = some pw) ∧
      dbPath (loadWithAccount files.read cfgPath) = db := by
  unfold credentials
  dsimp only
  constructor
  · intro h
    split_ifs at h
    obtain ⟨hgotAddr, hgotPw, hgotDb⟩ := Credentials.mk.inj (Option.some.inj h)
    exact ⟨⟨(get_eq_iff haddr).mp hgotAddr, (get_eq_iff hpw).mp hgotPw⟩, hgotDb⟩
  · rintro ⟨⟨hgotAddr, hgotPw⟩, rfl⟩
    rw [if_neg (by simp [has_of_get haddr hgotAddr, has_of_get hpw hgotPw]),
      (get_eq_iff haddr).mpr hgotAddr, (get_eq_iff hpw).mpr hgotPw]

theorem dbPath_ne_nil (cfg : Config) : dbPath cfg ≠ [] := by
  have hdefault : utf8 "./deltafeedback.db" ≠ [] := by decide +kernel
  unfold dbPath Config.get
  split
  next value _ =>
    split_ifs with hempty
    · exact hdefault
    · simpa using hempty
  next => exact hdefault

theorem dbPath_of_some {cfg : Config} {db : Bytes} (hdb : db ≠ [])
    (h : cfg.kv[utf8 "db"]? = some db) : dbPath cfg = db := by
  unfold dbPath Config.get
  rw [h]
  exact if_neg (by simpa using hdb)

section Written

variable (addr pw db : Bytes)

theorem lookup_written (key : Bytes) : (written addr pw db).reverse.lookup key =
    if key = utf8 "db" then some db
    else if key = utf8 "mail_pw" then some pw
    else if key = utf8 "addr" then some addr
    else none := by
  simp only [written, List.reverse_cons, List.reverse_nil, List.nil_append, List.cons_append,
    List.lookup_cons, List.lookup_nil, beq_eq_decide]
  split_ifs with hdb hpw haddr
  · rw [decide_eq_true hdb]
  · rw [decide_eq_false hdb, decide_eq_true hpw]
  · rw [decide_eq_false hdb, decide_eq_false hpw, decide_eq_true haddr]
  · rw [decide_eq_false hdb, decide_eq_false hpw, decide_eq_false haddr]

variable {addr pw db}

theorem printable_written (haddr : Unpadded addr) (hpw : Unpadded pw)
    (hdb : Printable (utf8 "db") db) :
    ∀ pair ∈ written addr pw db, Printable pair.1 pair.2 := by
  simp only [List.forall_mem_cons]
  refine ⟨Storable.printable ⟨by decide +kernel, ?_, haddr⟩,
    Storable.printable ⟨by decide +kernel, ?_, hpw⟩, hdb, List.forall_mem_nil _⟩ <;>
    exact ⟨by decide +kernel, by decide +kernel, by decide +kernel⟩

end Written

-- A registration of texts that fit on a line of the file is the account of every
-- later start exactly where both of its values land, or were there before.
theorem credentials_registered {addr pw : Bytes} (haddr : addr ≠ []) (hpw : pw ≠ [])
    (hunpadded : Unpadded addr ∧ Unpadded pw) :
    credentials (registeredFiles files cfgPath addr pw) cfgPath =
        some ⟨addr, pw, dbPath (loadWithAccount files.read cfgPath)⟩ ↔
      Holds files cfgPath (utf8 "addr") addr ∧ Holds files cfgPath (utf8 "mail_pw") pw := by
  have hkv := printable_written hunpadded.1 hunpadded.2 (printable_dbPath files cfgPath)
  have hlookup := lookup_written addr pw (dbPath (loadWithAccount files.read cfgPath))
  have haccount := hlookup (utf8 "account_path")
  rw [if_neg (by decide +kernel), if_neg (by decide +kernel), if_neg (by decide +kernel)] at haccount
  have hdb := hlookup (utf8 "db")
  rw [if_pos rfl] at hdb
  have hpwAt := hlookup (utf8 "mail_pw")
  rw [if_neg (by decide +kernel), if_pos rfl] at hpwAt
  have haddrAt := hlookup (utf8 "addr")
  rw [if_neg (by decide +kernel), if_neg (by decide +kernel), if_pos rfl] at haddrAt
  rw [credentials_eq_some_iff haddr hpw, registeredFiles, accountFile, holds_iff hkv haccount haddrAt,
    holds_iff hkv haccount hpwAt, and_iff_left_iff_imp]
  -- the database is where it was read from, wherever it is written
  intro _
  obtain ⟨hlanded, hmissed⟩ := effective_written hkv haccount hdb rfl
  by_cases hlands : LandsAt files cfgPath (utf8 "db")
  · exact dbPath_of_some (dbPath_ne_nil _) (hlanded hlands)
  · exact dbPath_congr (hmissed hlands)

-- No start has an address or a password that does not fit on a line.
theorem unpadded_of_credentials {addr pw db : Bytes} (haddr : addr ≠ []) (hpw : pw ≠ [])
    (h : credentials files cfgPath = some ⟨addr, pw, db⟩) : Unpadded addr ∧ Unpadded pw := by
  obtain ⟨⟨hgotAddr, hgotPw⟩, -⟩ := (credentials_eq_some_iff haddr hpw db).mp h
  exact ⟨.of_printable (printable_effective hgotAddr), .of_printable (printable_effective hgotPw)⟩

-- A registration leaves every file as it was, or the account file with whatever
-- the disk took, or its account is that of every later start: exactly where both
-- values fit on a line and land, or were there before.
theorem registration_kept (dc : Chatmail) (saving : Saving) (domain cfgPath : Bytes) (files : Files) :
    cmdRegister dc saving domain cfgPath files = (1, files) ∨
      (∃ left good, saving = .Cut left good ∧ cmdRegister dc saving domain cfgPath files =
        (if good then 0 else 1, files.write (accountFile files cfgPath) left)) ∨
      ∃ addr pw later, dc.configuredAddr = some addr ∧ dc.mailPw = some pw ∧ saving = .Written ∧
        cmdRegister dc saving domain cfgPath files = (0, later) ∧
        ((∀ draws, credentials (starts cfgPath draws later).2 cfgPath =
            some ⟨addr, pw, dbPath (loadWithAccount files.read cfgPath)⟩) ↔
          (Unpadded addr ∧ Unpadded pw) ∧ Holds files cfgPath (utf8 "addr") addr ∧
            Holds files cfgPath (utf8 "mail_pw") pw) := by
  rcases cmdRegister_cases dc saving domain cfgPath files with hfailed | hcut |
    ⟨addr, pw, haddr, hpw, haddrNil, hpwNil, hwritten, hdone⟩
  · exact .inl hfailed
  · exact .inr (.inl hcut)
  refine .inr (.inr ⟨addr, pw, _, haddr, hpw, hwritten, hdone, ?_⟩)
  simp only [credentials_starts]
  rw [forall_const]
  constructor
  · intro hkept
    have hunpadded := unpadded_of_credentials haddrNil hpwNil hkept
    exact ⟨hunpadded, (credentials_registered haddrNil hpwNil hunpadded).mp hkept⟩
  · rintro ⟨hunpadded, hholds⟩
    exact (credentials_registered haddrNil hpwNil hunpadded).mpr hholds

end Registration

-- An account in the account file that the main config names.
def sampleChatmail : Chatmail where
  contextNew := true
  checkQr qr := qr == utf8 "DCACCOUNT:https://example.org/new"
  setConfigFromQr _ := true
  events := [none, some 100, none, some 1000, some 0]
  configuredAddr := some (utf8 "bot@example.org")
  mailPw := some (utf8 "p=w")

def sampleFiles : Files where
  named path := if path = utf8 "config.ini" then 0 else 1
  text
    | 0 => utf8 "port=8080\naccount_path=account.ini\n"
    | _ => []

-- It is there for the next start.
example : credentials (cmdRegister sampleChatmail .Written (utf8 "example.org") (utf8 "config.ini")
    sampleFiles).2 (utf8 "config.ini") =
      some ⟨utf8 "bot@example.org", utf8 "p=w", utf8 "./deltafeedback.db"⟩ := by decide +kernel

-- A disk that is full when the stream is closed: the exit code does not show it.
example : (cmdRegister sampleChatmail (.Cut [] true) (utf8 "example.org") (utf8 "config.ini")
      sampleFiles).1 = 0 ∧
    credentials (cmdRegister sampleChatmail (.Cut [] true) (utf8 "example.org") (utf8 "config.ini")
      sampleFiles).2 (utf8 "config.ini") = none := by decide +kernel

end DeltaFeedback.Main
