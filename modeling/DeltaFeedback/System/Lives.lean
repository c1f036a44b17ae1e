import DeltaFeedback.Server.Confidentiality
import DeltaFeedback.System.Owner

namespace DeltaFeedback.System

open Text Interleaving Db

variable {world : World} {contact : UInt32}

theorem only_bot : Dc.bot.Only fun op => op = .StateGet Dc.kOwnerKey ∨ ∃ o, op = .OwnerStore o := by
  refine ⟨.inl rfl, fun found => ?_⟩
  cases found with
  | none => trivial
  | some stored =>
      refine Prog.only_ite (fun _ => trivial) fun _ => ?_
      cases stoul stored with
      | none => trivial
      | some o => exact ⟨.inr ⟨_, rfl⟩, fun _ => trivial⟩

theorem boot_keeps (world : World) :
    (boot world).db = world.db ∧ (boot world).outbox = world.outbox := by
  refine only_bot.eval (fun later : World => later.db = world.db ∧ later.outbox = world.outbox)
    ⟨rfl, rfl⟩ ?_ fun _ _ _ _ _ hbefore hexec => refused_of_exec hexec ▸ hbefore
  rintro op (rfl | ⟨o, rfl⟩) before result later hbefore hexec <;>
    simp only [exec, Except.ok.injEq, Prod.mk.injEq] at hexec <;> obtain ⟨-, rfl⟩ := hexec <;>
    exact hbefore

theorem Saved.boot (h : Saved world contact) :
    (boot world).owner = contact ∧ Saved (boot world) contact := by
  have howned : Sequential.Owned contact { world with owner := contact } := ⟨rfl, h⟩
  exact ⟨howned.restart.2.owner, howned.restart.2.stored⟩

-- What one process leaves to the next.
structure Left (world : World) : Prop where
  number : ∀ value, world.db.stateGet Dc.kOwnerKey = some value →
    ∃ contact : UInt32, value = decimal contact.toNat
  welcomed : ∀ msg ∈ welcomes world, msg.contact ≠ 0 ∧ Saved world msg.contact
  once : (welcomes world).length ≤ 1

theorem left_empty : Left World.empty where
  number value hvalue := by simp [World.empty, Database.empty, Tables.stateGet] at hvalue
  welcomed := by simp [welcomes, World.empty]
  once := by simp [welcomes, World.empty]

section Life

variable {ι : Type} [DecidableEq ι] {Json : Type} {crow : Server.Crow Json}
variable {service : Feedback.Service} {jobs : ι → Job} {pool : SystemPool ι}

theorem OwnerInv.left {view : SystemView ι} (h : OwnerInv jobs view) : Left view.world where
  number := h.number
  welcomed msg hmsg := (h.welcomed msg hmsg).imp_right And.right
  once := h.once

theorem Left.ownerInv (h : Left world) (jobs : ι → Job) :
    OwnerInv jobs ((process crow service).start jobs world).toView := by
  obtain ⟨hdb, houtbox⟩ := boot_keeps world
  have hwelcomes : welcomes (boot world) = welcomes world := welcomes_congr houtbox
  refine ⟨fun i contact hcontact hload => ?_, fun i hi hjob => ?_, fun value hvalue => ?_,
    fun msg hmsg => ?_, ?_⟩
  · simp [Process.start, Pool.start, View.trail] at hload
  · simp only [Process.start, Pool.start, View.trail, List.filter_nil, List.map_nil]
    exact ⟨by simp, by simp, by simp⟩
  · exact h.number value (hdb ▸ hvalue)
  · obtain ⟨hcontact, hsaved⟩ := h.welcomed msg (hwelcomes ▸ hmsg)
    exact ⟨hcontact, hsaved.boot⟩
  · exact hwelcomes ▸ h.once

theorem sound_start {inv : SystemView ι → Prop}
    (h : inv ((process crow service).start jobs world).toView) :
    ((process crow service).start jobs world).Sound exec (legal jobs) anyEnd inv :=
  .start (fun _ => .Start) (fun i => rightful_prog crow service (jobs i)) h

theorem Left.life (h : Left world) (hlife : (process crow service).Life exec jobs world pool) :
    OwnerInv jobs pool.toView :=
  ((sound_start (h.ownerInv jobs)).reaches (upkeep_ownerInv jobs).preserves hlife).inv

-- Over all processes on one database, each killed at any point, one contact at
-- most is ever welcomed, and once. It is the owner from then on, in memory and
-- saved, and would be again after a restart.
theorem welcomed_once (crow : Server.Crow Json) (service : Feedback.Service) (world : World)
    (hlives : (process (ι := ι) crow service).Lives exec (fun _ => True) World.empty world)
    (jobs : ι → Job) (pool : SystemPool ι)
    (hlife : (process crow service).Life exec jobs world pool) :
    (welcomes pool.world).length ≤ 1 ∧ ∀ msg ∈ welcomes pool.world,
      pool.world.owner = msg.contact ∧ Saved pool.world msg.contact ∧
        (boot pool.world).owner = msg.contact := by
  have hleft : Left world := hlives.invariant left_empty
    (fun jobs _ _ hworld hlife => hworld.life hlife) fun jobs view hinv _ => OwnerInv.left hinv
  have hinv := hleft.life hlife
  refine ⟨hinv.once, fun msg hmsg => ?_⟩
  obtain ⟨-, howner, hsaved⟩ := hinv.welcomed msg hmsg
  exact ⟨howner, hsaved, hsaved.boot.1⟩

-- The process is not killed between the bot's two notes of a new owner.
def Persisted (view : SystemView ι) : Prop :=
  view.world.owner ≠ 0 → Saved view.world view.world.owner

structure LeftToOne (world : World) : Prop extends Left world where
  sent : ∀ msg ∈ world.outbox, msg.contact ≠ 0 ∧ Saved world msg.contact

theorem LeftToOne.life (h : LeftToOne world)
    (hlife : (process crow service).Life exec jobs world pool) :
    OwnerInv jobs pool.toView ∧ SentToOwner pool.toView := by
  refine ((sound_start ⟨h.toLeft.ownerInv jobs, fun msg hmsg => ?_⟩).reaches
    (upkeep_sentToOwner jobs).preserves hlife).inv
  obtain ⟨hcontact, hsaved⟩ := h.sent msg ((boot_keeps world).2 ▸ hmsg)
  exact ⟨hcontact, hsaved.boot.1⟩

theorem SentToOwner.left {view : SystemView ι} (hinv : OwnerInv jobs view) (h : SentToOwner view)
    (hkilled : Persisted view) : LeftToOne view.world where
  toLeft := hinv.left
  sent msg hmsg := by
    obtain ⟨hcontact, howner⟩ := h msg hmsg
    exact ⟨hcontact, howner ▸ hkilled (howner ▸ hcontact)⟩

-- Where no process is killed in that moment, all that was ever sent, in this life
-- or an earlier one, went to the one who is the owner.
theorem sent_to_one (crow : Server.Crow Json) (service : Feedback.Service) (world : World)
    (hlives : (process (ι := ι) crow service).Lives exec Persisted World.empty world)
    (jobs : ι → Job) (pool : SystemPool ι)
    (hlife : (process crow service).Life exec jobs world pool) :
    ∀ msg ∈ pool.world.outbox, pool.world.owner = msg.contact := by
  have hempty : LeftToOne World.empty := ⟨left_empty, by simp [World.empty]⟩
  have hleft : LeftToOne world := hlives.invariant hempty
    (fun jobs _ _ hworld hlife => hworld.life hlife)
    fun jobs view (hinv : OwnerInv jobs view ∧ SentToOwner view) hkilled =>
      hinv.2.left hinv.1 hkilled
  exact fun msg hmsg => ((hleft.life hlife).2 msg hmsg).2

end Life

instance {n : Nat} (jobs : Fin n → Job) (view : SystemView (Fin n)) (i : Fin n) (op : Op) :
    Decidable (BotInTurn jobs view i op) :=
  inferInstanceAs (Decidable ((jobs i).fromId?.isSome → ∀ j, j ≠ i → (jobs j).fromId?.isSome →
    view.trail j = [] ∨ (view.result j).isSome))

def hello (fromId : UInt32) : Job :=
  .Incoming ⟨12, true, true, 200⟩ 1700000000
    { msgId := 50, fromId, text := utf8 "hello", quotedMsgId := 0, quotedText := [] }

-- A contact writes to the bot, a visitor leaves feedback, another contact writes.
def sampleJobs (fromId : UInt32) : Fin 3 → Job
  | 0 => hello fromId
  | 1 => .Request (Server.sampleCall .PostFeedback)
  | 2 => hello 7

def sampleProcess : Process Op Op.Result World SqlError Answer Job (Fin 3) :=
  process Server.sampleCrow Feedback.sampleService

def sampleLife (fromId : UInt32) (schedule : List (Fin 3)) (world : World) :
    Option (SystemPool (Fin 3)) :=
  Pool.follow exec (BotInTurn (sampleJobs fromId)) schedule
    (sampleProcess.start (sampleJobs fromId) world)

structure Sight where
  owner : UInt32
  stored : Option Bytes
  contacts : List UInt32
  welcomes : Nat
deriving DecidableEq

def seeSent (pool : SystemPool (Fin 3)) : Sight where
  owner := pool.world.owner
  stored := pool.world.db.stateGet Dc.kOwnerKey
  contacts := pool.world.outbox.map fun msg => msg.contact
  welcomes := (welcomes pool.world).length

-- Two lives, one after the other.
theorem exists_lives (killed : SystemView (Fin 3) → Prop) (schedule later : List (Fin 3))
    (first second : Sight) (hkilled : ∀ pool, seeSent pool = first → killed pool.toView)
    (h : (sampleLife 7 schedule World.empty).map (fun pool =>
      (seeSent pool, (sampleLife 9 later pool.world).map seeSent)) = some (first, some second)) :
    ∃ world pool, sampleProcess.Lives exec killed World.empty world ∧
      sampleProcess.Life exec (sampleJobs 9) world pool ∧ seeSent pool = second := by
  obtain ⟨earlier, hearlier, hseen⟩ := Pool.exists_reaches_of_follow exec
    (BotInTurn (sampleJobs 7)) schedule _ _ _ h
  obtain ⟨hfirst, hsecond⟩ := Prod.mk.inj hseen
  obtain ⟨pool, hpool, hlast⟩ := Pool.exists_reaches_of_follow exec (BotInTurn (sampleJobs 9))
    later _ _ _ hsecond
  exact ⟨earlier.world, pool, .single ⟨_, earlier, hearlier, hkilled earlier hfirst, rfl⟩, hpool, hlast⟩

-- The first to write is welcomed and told to name a ticket; after a restart a
-- stranger writes.
theorem exists_sample (killed : SystemView (Fin 3) → Prop) (hkilled : ∀ view, Persisted view →
    killed view) : ∃ world pool, sampleProcess.Lives exec killed World.empty world ∧
      sampleProcess.Life exec (sampleJobs 9) world pool ∧
      seeSent pool = ⟨7, some (utf8 "7"), [7, 7], 1⟩ := by
  refine exists_lives killed [0, 0, 0, 0, 0, 2, 2, 2] [0, 0] ⟨7, some (utf8 "7"), [7, 7], 1⟩ _
    (fun pool hseen => hkilled _ fun _ => ?_) (by decide +kernel)
  simp only [seeSent, Sight.mk.injEq] at hseen
  obtain ⟨howner, hstored, -⟩ := hseen
  rw [Saved, hstored, howner]
  decide +kernel

theorem welcomed_once_sample : ∃ world, ∃ pool : SystemPool (Fin 3),
    (sampleProcess.Lives exec (fun _ => True) World.empty world ∧
      sampleProcess.Life exec (sampleJobs 9) world pool ∧
      seeSent pool = ⟨7, some (utf8 "7"), [7, 7], 1⟩) ∧
    (welcomes pool.world).length ≤ 1 ∧ ∀ msg ∈ welcomes pool.world,
      pool.world.owner = msg.contact ∧ Saved pool.world msg.contact ∧
        (boot pool.world).owner = msg.contact := by
  obtain ⟨world, pool, hlives, hlife, hseen⟩ := exists_sample (fun _ => True) fun _ _ => trivial
  exact ⟨world, pool, ⟨hlives, hlife, hseen⟩,
    welcomed_once Server.sampleCrow Feedback.sampleService world hlives (sampleJobs 9) pool hlife⟩

theorem sent_to_one_sample : ∃ world, ∃ pool : SystemPool (Fin 3),
    (sampleProcess.Lives exec Persisted World.empty world ∧
      sampleProcess.Life exec (sampleJobs 9) world pool ∧
      seeSent pool = ⟨7, some (utf8 "7"), [7, 7], 1⟩) ∧
    ∀ msg ∈ pool.world.outbox, pool.world.owner = msg.contact := by
  obtain ⟨world, pool, hlives, hlife, hseen⟩ := exists_sample Persisted fun _ h => h
  exact ⟨world, pool, ⟨hlives, hlife, hseen⟩,
    sent_to_one Server.sampleCrow Feedback.sampleService world hlives (sampleJobs 9) pool hlife⟩

-- Killed between the two notes: a notification had gone to the first contact,
-- and the next one to write becomes the owner.
theorem sent_to_two : ∃ world, ∃ pool : SystemPool (Fin 3),
    sampleProcess.Lives exec (fun _ => True) World.empty world ∧
      sampleProcess.Life exec (sampleJobs 9) world pool ∧
      seeSent pool = ⟨9, some (utf8 "9"), [7, 9], 1⟩ :=
  exists_lives (fun _ => True) [0, 0, 1, 1, 1, 1, 1, 1, 1, 1] [0, 0, 0, 0] ⟨7, none, [7], 0⟩
    ⟨9, some (utf8 "9"), [7, 9], 1⟩ (fun _ _ => trivial) (by decide +kernel)

end DeltaFeedback.System
