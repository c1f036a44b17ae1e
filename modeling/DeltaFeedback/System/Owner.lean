import DeltaFeedback.Sequential.Owner
import DeltaFeedback.System.Trails

namespace DeltaFeedback.System

open Text Interleaving Db

def Saved (world : World) (contact : UInt32) : Prop :=
  world.db.stateGet Dc.kOwnerKey = some (decimal contact.toNat)

def welcomes (world : World) : List DcMsg := world.outbox.filter fun msg => msg.text = Dc.kWelcome

-- How far the bot has come with a contact that found no owner, and what holds
-- until it goes on.
structure Registering (world : World) (trail : Trail) : Prop where
  found : trail = [⟨.OwnerLoad, (0 : UInt32)⟩] → world.owner = 0
  claimed : ∀ contact, trail = claimed contact → world.owner = contact ∧ welcomes world = []
  registered : ∀ contact, trail = registered contact →
    world.owner = contact ∧ Saved world contact ∧ welcomes world = []

-- What an operation makes of the owner, of what is saved and of what was sent.
inductive OwnerStep (job : Job) (trail : Trail) (before world : World) : Prop
  | Kept (howner : world.owner = before.owner) (hstate : world.db.state = before.db.state)
      (houtbox : world.outbox = before.outbox)
  | Claimed (contact : UInt32) (hjob : job.fromId?.isSome)
      (htrail : trail = [⟨.OwnerLoad, (0 : UInt32)⟩]) (howner : world.owner = contact)
      (hstate : world.db.state = before.db.state) (houtbox : world.outbox = before.outbox)
  | Registered (contact : UInt32) (hjob : job.fromId?.isSome) (htrail : trail = claimed contact)
      (howner : world.owner = before.owner) (hsaved : Saved world contact)
      (houtbox : world.outbox = before.outbox)
  | Welcomed (msg : DcMsg) (hjob : job.fromId?.isSome) (htrail : trail = registered msg.contact)
      (hcontact : msg.contact ≠ 0) (howner : world.owner = before.owner)
      (hstate : world.db.state = before.db.state) (houtbox : world.outbox = before.outbox ++ [msg])
  | Told (msg : DcMsg) (hload : ⟨.OwnerLoad, msg.contact⟩ ∈ trail) (hcontact : msg.contact ≠ 0)
      (htext : msg.text ≠ Dc.kWelcome) (howner : world.owner = before.owner)
      (hstate : world.db.state = before.db.state) (houtbox : world.outbox = before.outbox ++ [msg])

section Step

variable {op : Op} {result : op.Result} {before world : World} {job : Job} {trail : Trail}

theorem Saved.congr {contact : UInt32} (h : Saved before contact)
    (hstate : world.db.state = before.db.state) : Saved world contact :=
  (Sequential.stateGet_congr hstate _).trans h

theorem steady_of_quiet (hop : quiet op = true) (tables : Tables) (owner : UInt32) :
    (op.write tables).state = tables.state ∧ op.ownerAfter owner = owner ∧ op.sends = [] := by
  cases op with
  | OwnerStore => simp [quiet] at hop
  | StateSet => simp [quiet] at hop
  | StateDel => simp [quiet] at hop
  | DcSend => simp [quiet] at hop
  | ReplayInsert challengeId expiresAt =>
      refine ⟨?_, rfl, rfl⟩
      simp only [Op.write]
      split <;> rfl
  | _ => exact ⟨rfl, rfl, rfl⟩

theorem ownerStep_of_exec (hlegal : OwnerTrail job (⟨op, result⟩ :: trail))
    (hexec : exec op before = .ok (result, world)) : OwnerStep job trail before world := by
  obtain ⟨htables, howner, houtbox⟩ := effect_of_exec hexec
  cases hlegal with
  | Quiet _ _ _ hop =>
      obtain ⟨hstate, hkept, hsends⟩ := steady_of_quiet hop before.db.toTables before.owner
      rw [hsends, List.append_nil] at houtbox
      exact .Kept (howner.trans hkept) (by rw [htables, hstate]) houtbox
  | Claimed contact hjob =>
      exact .Claimed contact (by simp [hjob]) rfl howner (by rw [htables]; rfl)
        (houtbox.trans (List.append_nil _))
  | Registered contact hjob =>
      refine .Registered contact (by simp [hjob]) rfl howner ?_ (houtbox.trans (List.append_nil _))
      rw [Saved, htables]
      exact Tables.stateGet_stateSet before.db.toTables Dc.kOwnerKey _
  | Welcomed contact quote id hjob hcontact =>
      have hstate : world.db.state = before.db.state := by rw [htables]; rfl
      by_cases hid : id = 0
      · exact .Kept howner hstate (by simpa [Op.sends, hid] using houtbox)
      · exact .Welcomed ⟨contact, cStr Dc.kWelcome, quote, id⟩ (by simp [hjob]) rfl hcontact howner
          hstate (by simpa [Op.sends, hid] using houtbox)
  | Told contact text quote id _ hcontact htext hload =>
      have hstate : world.db.state = before.db.state := by rw [htables]; rfl
      by_cases hid : id = 0
      · exact .Kept howner hstate (by simpa [Op.sends, hid] using houtbox)
      · exact .Told ⟨contact, text, quote, id⟩ hload hcontact htext howner hstate
          (by simpa [Op.sends, hid] using houtbox)

theorem welcomes_congr (houtbox : world.outbox = before.outbox) : welcomes world = welcomes before := by
  rw [welcomes, welcomes, houtbox]

-- Only the bot's own step can add a welcome.
theorem OwnerStep.welcomes (h : OwnerStep job trail before world) :
    welcomes world = welcomes before ∨ job.fromId?.isSome ∧ ∃ msg, trail = registered msg.contact ∧
      msg.contact ≠ 0 ∧ world.owner = before.owner ∧ world.db.state = before.db.state ∧
      welcomes world = welcomes before ++ [msg] := by
  cases h with
  | Kept howner hstate houtbox => exact .inl (welcomes_congr houtbox)
  | Claimed contact hjob htrail howner hstate houtbox => exact .inl (welcomes_congr houtbox)
  | Registered contact hjob htrail howner hsaved houtbox => exact .inl (welcomes_congr houtbox)
  | Told msg hload hcontact htext howner hstate houtbox =>
      refine .inl ?_
      rw [System.welcomes, houtbox, List.filter_append, List.filter_singleton]
      simp [System.welcomes, htext]
  | Welcomed msg hjob htrail hcontact howner hstate houtbox =>
      by_cases htext : msg.text = Dc.kWelcome
      · refine .inr ⟨hjob, msg, htrail, hcontact, howner, hstate, ?_⟩
        rw [System.welcomes, houtbox, List.filter_append, List.filter_singleton]
        simp [System.welcomes, htext]
      · refine .inl ?_
        rw [System.welcomes, houtbox, List.filter_append, List.filter_singleton]
        simp [System.welcomes, htext]

theorem Registering.congr (h : Registering before trail) (howner : world.owner = before.owner)
    (hstate : world.db.state = before.db.state) (hwelcomes : welcomes world = welcomes before) :
    Registering world trail where
  found htrail := howner.trans (h.found htrail)
  claimed contact htrail := (h.claimed contact htrail).imp (howner.trans ·) (hwelcomes.trans ·)
  registered contact htrail := by
    obtain ⟨hfound, hsaved, hnone⟩ := h.registered contact htrail
    exact ⟨howner.trans hfound, hsaved.congr hstate, hwelcomes.trans hnone⟩

end Step

section Invariant

variable {ι : Type} [DecidableEq ι] {jobs : ι → Job} {view : SystemView ι} {i : ι} {op : Op}
variable {result : op.Result} {world : World}

-- The owner is found or made once, welcomed at most once, and saved by then.
structure OwnerInv (jobs : ι → Job) (view : SystemView ι) : Prop where
  loaded : ∀ i contact, contact ≠ 0 → ⟨.OwnerLoad, contact⟩ ∈ view.trail i →
    view.world.owner = contact
  registering : ∀ i, view.result i = none → (jobs i).fromId?.isSome →
    Registering view.world (view.trail i)
  number : ∀ value, view.world.db.stateGet Dc.kOwnerKey = some value →
    ∃ contact : UInt32, value = decimal contact.toNat
  welcomed : ∀ msg ∈ welcomes view.world, msg.contact ≠ 0 ∧ view.world.owner = msg.contact ∧
    Saved view.world msg.contact
  once : (welcomes view.world).length ≤ 1

-- Nobody else is appointed while the bot is at it.
theorem BotInTurn.alone {j : ι} (hadmits : BotInTurn jobs view i op) (hi : (jobs i).fromId?.isSome)
    (hj : (jobs j).fromId?.isSome) (hresult : view.result j = none) (htrail : view.trail j ≠ []) :
    j = i := by
  by_contra hne
  rcases hadmits hi j hne hj with hnil | hsome
  · exact htrail hnil
  · simp [hresult] at hsome

-- An owner stays the owner.
theorem OwnerInv.owner_kept (h : OwnerInv jobs view) (hresult : view.result i = none)
    (hstep : OwnerStep (jobs i) (view.trail i) view.world world) (howner : view.world.owner ≠ 0) :
    world.owner = view.world.owner := by
  cases hstep with
  | Claimed contact hjob htrail => exact absurd ((h.registering i hresult hjob).found htrail) howner
  | Kept hkept => exact hkept
  | Registered contact hjob htrail hkept => exact hkept
  | Welcomed msg hjob htrail hcontact hkept => exact hkept
  | Told msg hload hcontact htext hkept => exact hkept

theorem OwnerInv.no_welcome (h : OwnerInv jobs view) (howner : view.world.owner = 0) :
    welcomes view.world = [] := by
  refine List.eq_nil_iff_forall_not_mem.mpr fun msg hmsg => ?_
  obtain ⟨hcontact, hfound, -⟩ := h.welcomed msg hmsg
  exact hcontact (hfound.symm.trans howner)

theorem OwnerInv.loaded_advance (h : OwnerInv jobs view) (hresult : view.result i = none)
    (hstep : OwnerStep (jobs i) (view.trail i) view.world world)
    (hexec : exec op view.world = .ok (result, world)) (j : ι) (contact : UInt32)
    (hcontact : contact ≠ 0)
    (hload : ⟨.OwnerLoad, contact⟩ ∈ (view.advance i op result world).trail j) :
    world.owner = contact := by
  rcases (view.mem_trail_advance _ _ _ _).mp hload with ⟨rfl, hnew⟩ | hold
  · cases hnew
    simp only [exec, Except.ok.injEq, Prod.mk.injEq] at hexec
    exact hexec.2 ▸ hexec.1
  · have howner := h.loaded j contact hcontact hold
    exact (h.owner_kept hresult hstep (howner ▸ hcontact)).trans howner

-- The job's own registration, one step on.
theorem OwnerInv.registering_self (h : OwnerInv jobs view) (hresult : view.result i = none)
    (hlegal : OwnerTrail (jobs i) (⟨op, result⟩ :: view.trail i))
    (hexec : exec op view.world = .ok (result, world)) :
    Registering world (⟨op, result⟩ :: view.trail i) := by
  obtain ⟨htables, howner, houtbox⟩ := effect_of_exec hexec
  refine ⟨fun htrail => ?_, fun contact htrail => ?_, fun contact htrail => ?_⟩ <;>
    obtain ⟨hhead, hrest⟩ := List.cons.inj htrail <;> cases hhead
  · simp only [exec, Except.ok.injEq, Prod.mk.injEq] at hexec
    exact hexec.2 ▸ hexec.1
  · have hfound := (h.registering i hresult (hlegal.byBot rfl)).found hrest
    exact ⟨howner, (welcomes_congr (houtbox.trans (List.append_nil _))).trans (h.no_welcome hfound)⟩
  · obtain ⟨hclaimed, hnone⟩ := (h.registering i hresult (hlegal.byBot rfl)).claimed contact hrest
    refine ⟨howner.trans hclaimed, ?_,
      (welcomes_congr (houtbox.trans (List.append_nil _))).trans hnone⟩
    rw [Saved, htables]
    exact Tables.stateGet_stateSet view.world.db.toTables Dc.kOwnerKey _

theorem OwnerInv.registering_advance (h : OwnerInv jobs view) (hresult : view.result i = none)
    (hadmits : BotInTurn jobs view i op)
    (hlegal : OwnerTrail (jobs i) (⟨op, result⟩ :: view.trail i))
    (hexec : exec op view.world = .ok (result, world)) (j : ι) (hj : view.result j = none)
    (hjob : (jobs j).fromId?.isSome) :
    Registering world ((view.advance i op result world).trail j) := by
  by_cases hji : j = i
  · subst j
    rw [View.advance_trail_self]
    exact h.registering_self hresult hlegal hexec
  rw [View.advance_trail_of_ne _ _ _ _ _ hji]
  by_cases hnil : view.trail j = []
  · rw [hnil]
    exact ⟨by simp, by simp, by simp⟩
  have halone (hi : (jobs i).fromId?.isSome) : False := hji (hadmits.alone hi hjob hj hnil)
  have hstep := ownerStep_of_exec hlegal hexec
  have hwelcomes : welcomes world = welcomes view.world :=
    hstep.welcomes.resolve_right fun hbot => halone hbot.1
  have hother := h.registering j hj hjob
  cases hstep with
  | Claimed contact hi => exact (halone hi).elim
  | Registered contact hi => exact (halone hi).elim
  | Welcomed msg hi => exact (halone hi).elim
  | Kept howner hstate => exact hother.congr howner hstate hwelcomes
  | Told msg hload hcontact htext howner hstate => exact hother.congr howner hstate hwelcomes

theorem OwnerInv.number_advance (h : OwnerInv jobs view)
    (hstep : OwnerStep (jobs i) (view.trail i) view.world world) (value : Bytes)
    (hvalue : world.db.stateGet Dc.kOwnerKey = some value) :
    ∃ contact : UInt32, value = decimal contact.toNat := by
  have hkept (hstate : world.db.state = view.world.db.state) :=
    h.number value ((Sequential.stateGet_congr hstate _).symm.trans hvalue)
  cases hstep with
  | Kept howner hstate => exact hkept hstate
  | Claimed contact hjob htrail howner hstate => exact hkept hstate
  | Welcomed msg hjob htrail hcontact howner hstate => exact hkept hstate
  | Told msg hload hcontact htext howner hstate => exact hkept hstate
  | Registered contact hjob htrail howner hsaved =>
      exact ⟨contact, Option.some.inj (hvalue.symm.trans hsaved)⟩

-- Who has been welcomed stays saved.
theorem OwnerInv.saved_kept (h : OwnerInv jobs view) (hresult : view.result i = none)
    (hstep : OwnerStep (jobs i) (view.trail i) view.world world) {contact : UInt32}
    (howner : view.world.owner = contact) (hsaved : Saved view.world contact) :
    Saved world contact := by
  cases hstep with
  | Kept howner hstate => exact hsaved.congr hstate
  | Claimed other hjob htrail howner hstate => exact hsaved.congr hstate
  | Welcomed msg hjob htrail hcontact howner hstate => exact hsaved.congr hstate
  | Told msg hload hcontact htext howner hstate => exact hsaved.congr hstate
  | Registered other hjob htrail hkept hstored =>
      obtain ⟨hclaimed, -⟩ := (h.registering i hresult hjob).claimed other htrail
      rwa [← howner, hclaimed]

theorem OwnerInv.advance (h : OwnerInv jobs view) (hresult : view.result i = none)
    (hadmits : BotInTurn jobs view i op)
    (hlegal : OwnerTrail (jobs i) (⟨op, result⟩ :: view.trail i))
    (hexec : exec op view.world = .ok (result, world)) :
    OwnerInv jobs (view.advance i op result world) := by
  have hstep := ownerStep_of_exec hlegal hexec
  have hold (msg : DcMsg) (hmsg : msg ∈ welcomes view.world) : msg.contact ≠ 0 ∧
      world.owner = msg.contact ∧ Saved world msg.contact := by
    obtain ⟨hcontact, howner, hsaved⟩ := h.welcomed msg hmsg
    exact ⟨hcontact, (h.owner_kept hresult hstep (howner ▸ hcontact)).trans howner,
      h.saved_kept hresult hstep howner hsaved⟩
  refine ⟨h.loaded_advance hresult hstep hexec,
    h.registering_advance hresult hadmits hlegal hexec, h.number_advance hstep, ?_, ?_⟩ <;>
    rw [View.advance_world] <;>
    rcases hstep.welcomes with hsame | ⟨hjob, msg, htrail, hcontact, howner, hstate, hnew⟩
  · rwa [hsame]
  · obtain ⟨hfound, hsaved, hnone⟩ := (h.registering i hresult hjob).registered _ htrail
    rw [hnew, hnone, List.nil_append, List.forall_mem_singleton]
    exact ⟨hcontact, howner.trans hfound, hsaved.congr hstate⟩
  · rw [hsame]
    exact h.once
  · obtain ⟨-, -, hnone⟩ := (h.registering i hresult hjob).registered _ htrail
    rw [hnew, hnone]
    exact le_rfl

theorem OwnerInv.finish (h : OwnerInv jobs view) (i : ι) (outcome : Except SqlError Answer) :
    OwnerInv jobs (view.finish i outcome) where
  loaded := h.loaded
  registering j hj := by
    by_cases hji : j = i
    · subst j
      simp at hj
    · rw [View.finish_result_of_ne _ _ _ hji] at hj
      exact h.registering j hj
  number := h.number
  welcomed := h.welcomed
  once := h.once

theorem OwnerInv.uncounted (h : OwnerInv jobs view) (attempts : List (Interleaving.Attempt Op ι)) :
    OwnerInv jobs { view with world := view.world.refused, attempts } where
  loaded := h.loaded
  registering j hj hbot :=
    let hfar := h.registering j hj hbot
    ⟨hfar.found, hfar.claimed, hfar.registered⟩
  number := h.number
  welcomed := h.welcomed
  once := h.once

abbrev legal (jobs : ι → Job) (i : ι) : Trail → Prop := OwnerTrail (jobs i)

abbrev anyEnd : ι → Trail → Except SqlError Answer → Prop := fun _ _ _ => True

theorem upkeep_ownerInv (jobs : ι → Job) :
    Upkeep (legal jobs) anyEnd (BotInTurn jobs) (OwnerInv jobs) where
  advance _ _ _ _ _ _ hinv hresult hlegal hadmits hexec := hinv.advance hresult hadmits hlegal hexec
  ends _ i outcome _ hinv _ _ := hinv.finish i outcome
  uncounted _ _ hinv := hinv.uncounted _

-- Everything that was ever sent went to the owner.
def SentToOwner (view : SystemView ι) : Prop :=
  ∀ msg ∈ view.world.outbox, msg.contact ≠ 0 ∧ view.world.owner = msg.contact

theorem OwnerInv.sent_advance (h : OwnerInv jobs view) (hsent : SentToOwner view)
    (hresult : view.result i = none)
    (hstep : OwnerStep (jobs i) (view.trail i) view.world world) (msg : DcMsg)
    (hmsg : msg ∈ world.outbox) : msg.contact ≠ 0 ∧ world.owner = msg.contact := by
  have hold (hmsg : msg ∈ view.world.outbox) : msg.contact ≠ 0 ∧ world.owner = msg.contact := by
    obtain ⟨hcontact, howner⟩ := hsent msg hmsg
    exact ⟨hcontact, (h.owner_kept hresult hstep (howner ▸ hcontact)).trans howner⟩
  cases hstep with
  | Kept howner hstate houtbox => exact hold (houtbox ▸ hmsg)
  | Claimed contact hjob htrail howner hstate houtbox => exact hold (houtbox ▸ hmsg)
  | Registered contact hjob htrail howner hsaved houtbox => exact hold (houtbox ▸ hmsg)
  | Welcomed new hjob htrail hcontact howner hstate houtbox =>
      rcases List.mem_append.mp (houtbox ▸ hmsg) with hmsg | hnew
      · exact hold hmsg
      · obtain rfl := List.mem_singleton.mp hnew
        exact ⟨hcontact, howner.trans ((h.registering i hresult hjob).registered _ htrail).1⟩
  | Told new hload hcontact htext howner hstate houtbox =>
      rcases List.mem_append.mp (houtbox ▸ hmsg) with hmsg | hnew
      · exact hold hmsg
      · obtain rfl := List.mem_singleton.mp hnew
        exact ⟨hcontact, howner.trans (h.loaded i _ hcontact hload)⟩

theorem upkeep_sentToOwner (jobs : ι → Job) : Upkeep (legal jobs) anyEnd (BotInTurn jobs)
    (fun view => OwnerInv jobs view ∧ SentToOwner view) where
  advance _ _ _ _ _ _ hinv hresult hlegal hadmits hexec :=
    ⟨hinv.1.advance hresult hadmits hlegal hexec,
      hinv.1.sent_advance hinv.2 hresult (ownerStep_of_exec hlegal hexec)⟩
  ends _ i outcome _ hinv _ _ := ⟨hinv.1.finish i outcome, hinv.2⟩
  uncounted _ _ hinv := ⟨hinv.1.uncounted _, hinv.2⟩

end Invariant

end DeltaFeedback.System
