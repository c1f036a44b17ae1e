import DeltaFeedback.Concurrency.Inactive

namespace DeltaFeedback.Concurrency

open Text Interleaving Db
open Feedback (sampleService)

-- One round of purge_thread: the product is one of two ints.
def purgeThread (retentionDays : Int32) (now : Int) : Proc Unit := do
  let _ ← TicketsRepo.purgeInactiveOlderThan (now - (retentionDays * 86400).toInt)
  let _ ← ReplayStore.purgeExpired now

-- The tickets one round leaves.
def kept (retentionDays : Int32) (now : Int) (world : World) : List TicketRow :=
  ((purgeThread retentionDays now).eval exec world).2.db.tickets

-- No ticket with an event in the retention days goes, and none because the
-- retention is longer.
structure Honoured (retentionDays : Int32) (now : Int) (world : World) : Prop where
  recent : ∀ t ∈ world.db.tickets, now - retentionDays.toInt * 86400 ≤ world.db.latestEvent t →
    t ∈ kept retentionDays now world
  longer : ∀ shorter : Int32, 0 ≤ shorter.toInt → shorter.toInt ≤ retentionDays.toInt →
    kept shorter now world ⊆ kept retentionDays now world

-- The states of the runs from an empty database, with a clock that counts from
-- 0, in which the first message of each ticket is not dated before it.
def Reachable (world : World) : Prop :=
  ∃ (ι : Type) (_ : DecidableEq ι) (service : Feedback.Service) (owner : UInt32)
    (calls : ι → Call) (pool : CallPool ι),
    (∀ i now, clock? (calls i) = some now → 0 ≤ now) ∧
    Pool.Reaches exec FirstDated (startCalls service { World.empty with owner } calls) pool ∧
    pool.world = world

variable {retentionDays : Int32} {now : Int} {world : World}

theorem tickets_kept : kept retentionDays now world =
    (world.db.ticketPurgeInactive (now - (retentionDays * 86400).toInt)).tickets := rfl

theorem toInt_product (h0 : 0 ≤ retentionDays.toInt) (h : retentionDays.toInt ≤ 24855) :
    (retentionDays * 86400).toInt = retentionDays.toInt * 86400 := by
  rw [Int32.toInt_mul]
  have hfactor : (86400 : Int32).toInt = 86400 := by decide
  rw [hfactor]
  exact Int.bmod_eq_of_le (by omega) (by omega)

theorem toInt_product_lt (retentionDays : Int32) (h : 24855 < retentionDays.toInt) :
    (retentionDays * 86400).toInt < retentionDays.toInt * 86400 := by
  have hlt := (retentionDays * 86400).toInt_lt
  omega

theorem Reachable.dated (h : Reachable world) (id : Bytes) : world.db.Dated id := by
  obtain ⟨ι, _, service, owner, calls, pool, hclocks, hrun, rfl⟩ := h
  exact dated_of_reaches hclocks hrun id

-- A round that computes its cutoff right.
theorem Reachable.mem_kept (h : Reachable world) (h0 : 0 ≤ retentionDays.toInt)
    (hdays : retentionDays.toInt ≤ 24855) (t : TicketRow) : t ∈ kept retentionDays now world ↔
      t ∈ world.db.tickets ∧ now - retentionDays.toInt * 86400 ≤ world.db.latestEvent t := by
  have hpurges := Tables.purgesExactly h.dated world.db.constraints
    (now - (retentionDays * 86400).toInt)
  rw [tickets_kept, hpurges.tickets, List.mem_filter, decide_eq_true_iff, toInt_product h0 hdays]

theorem Reachable.honoured (h : Reachable world) (h0 : 0 ≤ retentionDays.toInt)
    (hdays : retentionDays.toInt ≤ 24855) : Honoured retentionDays now world where
  recent t ht hrecent := (h.mem_kept h0 hdays t).mpr ⟨ht, hrecent⟩
  longer shorter hshorter hle t ht := by
    obtain ⟨hmem, hrecent⟩ := (h.mem_kept hshorter (hle.trans hdays) t).mp ht
    exact (h.mem_kept h0 hdays t).mpr ⟨hmem, by omega⟩

-- A submission of the first second there was.
def firstSubmission : Fin 1 → Call
  | 0 => .SubmitNew
      { powToken := (sampleService.issuer.issue Pow.fips 0 (utf8 "first")).token
        powNonce := []
        name := utf8 "Ann"
        locale := utf8 "en"
        honeypot := []
        message := utf8 "hello"
        fillTimeMs := 5000
        visitorIp := utf8 "192.0.2.1" }
      { verifyClock := 0
        consumeClock := 0
        writeClock := 0
        draw := fun _ => 0
        delivery := ⟨12, true, true, 100⟩ }

theorem exists_firstSubmission : ∃ world, Reachable world ∧
    ∃ t ∈ world.db.tickets, world.db.latestEvent t = 0 := by
  obtain ⟨pool, hrun, hseen⟩ := Pool.exists_reaches_of_follow exec FirstDated [0, 0, 0, 0, 0]
    (startCalls sampleService { World.empty with owner := 7 } firstSubmission)
    (fun pool => pool.world.db.tickets.map pool.world.db.latestEvent) [0] (by decide +kernel)
  have hzero : (0 : Int) ∈ pool.world.db.tickets.map pool.world.db.latestEvent := by simp [hseen]
  obtain ⟨t, ht, hlatest⟩ := List.mem_map.mp hzero
  refine ⟨pool.world, ⟨Fin 1, inferInstance, sampleService, 7, firstSubmission, pool,
    fun i now hclock => ?_, hrun, rfl⟩, t, ht, hlatest⟩
  obtain rfl : i = 0 := Subsingleton.elim i 0
  exact Option.some.inj hclock ▸ le_rfl

-- The retention is honoured in every such state exactly where the seconds of
-- its days are an int.
theorem retention_honoured (retentionDays : Int32) (h0 : 0 ≤ retentionDays.toInt) :
    (∀ world, Reachable world → ∀ now, 0 ≤ now → Honoured retentionDays now world) ↔
      retentionDays.toInt ≤ 24855 := by
  constructor
  · intro hclaim
    by_contra hdays
    obtain ⟨world, hreachable, t, ht, hlatest⟩ := exists_firstSubmission
    have hhonoured := hclaim world hreachable (retentionDays.toInt * 86400) (by omega)
    have hkept := hhonoured.recent t ht (by omega)
    have hpurges := Tables.purgesExactly hreachable.dated world.db.constraints
      (retentionDays.toInt * 86400 - (retentionDays * 86400).toInt)
    rw [tickets_kept, hpurges.tickets, List.mem_filter, decide_eq_true_iff, hlatest] at hkept
    have hwraps := toInt_product_lt retentionDays (by omega)
    omega
  · intro hdays world hreachable now _
    exact hreachable.honoured h0 hdays

theorem retention_honoured_sample : ∃ world, (∃ t ∈ world.db.tickets, world.db.latestEvent t = 0) ∧
    Honoured 7 604800 world := by
  obtain ⟨world, hreachable, hticket⟩ := exists_firstSubmission
  exact ⟨world, hticket,
    (retention_honoured 7 (by decide)).mpr (by decide) world hreachable 604800 (by decide)⟩

-- A retention of 68 years: every ticket goes within the hour.
theorem retention_wraps : ¬ ∀ retentionDays : Int32, 0 ≤ retentionDays.toInt →
    ∀ pool : CallPool (Fin 2), Pool.Reaches exec (fun _ _ _ => True)
      (startCalls sampleService { World.empty with owner := 7 } datedCalls) pool →
    ∀ now, 0 ≤ now → Honoured retentionDays now pool.world := by
  intro hclaim
  obtain ⟨pool, hrun, hseen⟩ := Pool.exists_reaches_of_follow exec (fun _ _ _ => True)
    [0, 0, 0, 0, 0] (startCalls sampleService { World.empty with owner := 7 } datedCalls)
    (fun pool => (pool.world.db.tickets.map pool.world.db.latestEvent,
      kept 24856 1700003600 pool.world)) ([1700000010], []) (by decide +kernel)
  obtain ⟨htickets, hkept⟩ := Prod.mk.inj hseen
  have hlatest : (1700000010 : Int) ∈ pool.world.db.tickets.map pool.world.db.latestEvent := by
    simp [htickets]
  obtain ⟨t, ht, hlatest⟩ := List.mem_map.mp hlatest
  have hrecent := (hclaim 24856 (by decide) pool hrun 1700003600 (by decide)).recent t ht (by
    rw [hlatest]
    decide)
  rw [hkept] at hrecent
  simp at hrecent

end DeltaFeedback.Concurrency
