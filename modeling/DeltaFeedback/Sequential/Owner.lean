import DeltaFeedback.Calls.Steady

namespace DeltaFeedback.Sequential

open Text Interleaving Db

-- What can happen to the bot: a message comes in, or the program is started
-- again.
inductive BotEvent
  | Incoming (dc : Dc.Delivery) (now : Int) (msg : Dc.IncomingMsg)
  | Restart

namespace BotEvent

-- A new process keeps the database and nothing else.
def reopen : BotEvent → World → World
  | .Incoming .., world => world
  | .Restart, world => { world with lastInsertRowid := 0, changes := 0, owner := 0 }

def prog : BotEvent → Proc Unit
  | .Incoming dc now msg => Dc.incomingMsg dc now msg
  | .Restart => Dc.bot

def eval (event : BotEvent) (world : World) : Except SqlError Unit × World :=
  event.prog.eval exec (event.reopen world)

def run (events : List BotEvent) (world : World) : World :=
  events.foldl (fun world event => (event.eval world).2) world

-- A restart, or a message of the contact.
def isOf (o : UInt32) : BotEvent → Bool
  | .Incoming _ _ msg => msg.fromId == o
  | .Restart => true

end BotEvent

open BotEvent (run)

-- A contact is the owner, in memory and in the state table.
structure Owned (o : UInt32) (world : World) : Prop where
  owner : world.owner = o
  stored : world.db.stateGet Dc.kOwnerKey = some (decimal o.toNat)

def textsTo (o : UInt32) (world : World) : List Bytes :=
  (world.outbox.filter fun msg => msg.contact = o).map fun msg => msg.text

variable {o : UInt32} {world : World} {dc : Dc.Delivery} {now : Int} {msg : Dc.IncomingMsg}

theorem stateGet_congr {tables other : Tables} (h : tables.state = other.state) (key : Bytes) :
    tables.stateGet key = other.stateGet key := by
  simp only [Tables.stateGet, h]

theorem Owned.steady {last : World} (h : Owned o world) (hsteady : Steady world last) :
    Owned o last :=
  ⟨hsteady.owner.trans h.owner, (stateGet_congr hsteady.state _).trans h.stored⟩

-- The owner that is stored is the owner after a restart.
theorem Owned.restart (h : Owned o world) : (BotEvent.Restart.eval world).1 = .ok () ∧
    Owned o (BotEvent.Restart.eval world).2 := by
  have hread : exec (.StateGet Dc.kOwnerKey) (BotEvent.Restart.reopen world) =
      .ok (some (decimal o.toNat), BotEvent.Restart.reopen world) := by
    simp only [exec, BotEvent.reopen, h.stored]
  have hnumber : stoul (decimal o.toNat) = some o.toNat := by
    refine stoul_decimal ?_
    have ho := o.toNat_lt
    omega
  have hstore : exec (.OwnerStore o.toNat.toUInt32) (BotEvent.Restart.reopen world) =
      .ok ((), { BotEvent.Restart.reopen world with owner := o }) := by
    simp only [exec, UInt32.ofNat_toNat, Nat.toUInt32_eq]
  have heval : BotEvent.Restart.eval world =
      (.ok (), { BotEvent.Restart.reopen world with owner := o }) := by
    refine Prog.eval_call hread ?_
    change Prog.eval _ (ite _ _ _) _ = _
    rw [if_neg (by simp [decimal_ne_nil]), hnumber]
    exact Prog.eval_call hstore rfl
  rw [heval]
  exact ⟨rfl, rfl, h.stored⟩

theorem eval_ok_of_only {α : Type} {prog : Proc α} (h : prog.Only fun op => op.mayFail = false)
    (world : World) : ∃ value, (prog.eval exec world).1 = .ok value := by
  induction prog generalizing world with
  | ret value => exact ⟨value, rfl⟩
  | call op next ih =>
      simp only [Prog.eval]
      cases hexec : exec op world with
      | ok taken => exact ih taken.1 (h.2 taken.1) taken.2
      | error failed => exact absurd hexec (exec_ne_error h.1 world failed)

theorem sendTo_ok (dc : Dc.Delivery) (contact : UInt32) (text : Bytes) (quoteMsgId : UInt32)
    (world : World) : ((Dc.sendTo dc contact text quoteMsgId).eval exec world).1 = .ok () := by
  obtain ⟨_, h⟩ := eval_ok_of_only (only_sendTo dc contact text quoteMsgId fun _ => rfl) world
  exact h

theorem eval_lookup (quotedMsgId : UInt32) (world : World) :
    ∃ quoted, (Dc.lookup quotedMsgId).eval exec world = (.ok quoted, world) := by
  unfold Dc.lookup
  split_ifs
  · exact ⟨none, rfl⟩
  · exact ⟨_, Prog.eval_call rfl rfl⟩

-- A ticket that has just been read can be written to.
theorem route_ok {ended : Except SqlError Unit × World}
    (h : (Dc.routeAdminMsg dc now o msg).eval exec world = ended) : ended.1 = .ok () := by
  obtain ⟨quoted, hlookup⟩ := eval_lookup msg.quotedMsgId world
  have hsent {text : Bytes} {quote : UInt32} {world : World}
      (h : (Dc.sendTo dc o text quote).eval exec world = ended) : ended.1 = .ok () :=
    h ▸ sendTo_ok dc o text quote world
  simp only [Dc.routeAdminMsg, bind_pure_unit] at h
  rw [Prog.eval_bind, hlookup] at h
  dsimp only at h
  generalize Dc.routeAdminMessage msg.text quoted msg.quotedText = route at h
  by_cases hkind : route.kind = .NoTicketId
  · rw [if_pos hkind] at h
    exact hsent h
  rw [if_neg hkind] at h
  have hread : exec (.TicketGetById route.ticketId) world =
      .ok ((world.db.ticket? route.ticketId).map fun t => t.toTicket, world) := rfl
  have hfound := Prog.eval_of_call hread h
  cases ht : world.db.ticket? route.ticketId with
  | none =>
      rw [ht] at hfound
      exact hsent hfound
  | some t =>
      rw [ht] at hfound
      change Prog.eval _ (ite _ _ _) _ = _ at hfound
      by_cases hstatus : t.status = .Closed
      · rw [if_pos hstatus] at hfound
        exact hsent hfound
      rw [if_neg hstatus] at hfound
      by_cases hclose : route.kind = .Close
      · rw [if_pos hclose] at hfound
        exact hsent (Prog.eval_of_call rfl hfound)
      rw [if_neg hclose] at hfound
      by_cases hbody : route.body.isEmpty
      · rw [if_pos hbody] at hfound
        exact hsent hfound
      rw [if_neg hbody] at hfound
      obtain ⟨stored, hstore⟩ := exec_messageInsert_known
        (m := MessagesRepo.newMessage route.ticketId .Admin route.body now [] none) ht
      have hstored := Prog.eval_of_call rfl (Prog.eval_of_call rfl (Prog.eval_of_call hstore hfound))
      exact hstored ▸ rfl

-- Whatever happens, the owner is kept; a stranger's message changes nothing.
theorem Owned.step (h : Owned o world) (ho : o ≠ 0) (event : BotEvent) :
    (event.eval world).1 = .ok () ∧ Owned o (event.eval world).2 ∧
      (event.isOf o = false → (event.eval world).2 = world) := by
  cases event with
  | Restart =>
      obtain ⟨hok, howned⟩ := h.restart
      exact ⟨hok, howned, fun hof => by simp [BotEvent.isOf] at hof⟩
  | Incoming dc now msg =>
      change ((Dc.incomingMsg dc now msg).eval exec world).1 = .ok () ∧
        Owned o ((Dc.incomingMsg dc now msg).eval exec world).2 ∧
        (_ → ((Dc.incomingMsg dc now msg).eval exec world).2 = world)
      by_cases hfrom : msg.fromId = o
      · rw [eval_owner dc now msg (h.owner ▸ ho) (hfrom.trans h.owner.symm), h.owner]
        refine ⟨route_ok rfl, h.steady (.eval (noNewTicketOrOwner_routeAdminMsg dc now o msg) world),
          fun hof => ?_⟩
        simp [BotEvent.isOf, hfrom] at hof
      · rw [eval_stranger dc now msg (h.owner ▸ ho) (h.owner ▸ hfrom)]
        exact ⟨rfl, h, fun _ => rfl⟩

theorem Owned.run (h : Owned o world) (ho : o ≠ 0) (events : List BotEvent) :
    Owned o (run events world) := by
  induction events generalizing world with
  | nil => exact h
  | cons event events ih => exact ih (h.step ho event).2.1

-- Without the strangers' messages the same comes out.
theorem run_filter (h : Owned o world) (ho : o ≠ 0) (events : List BotEvent) :
    run (events.filter fun event => event.isOf o) world = run events world := by
  induction events generalizing world with
  | nil => rfl
  | cons event events ih =>
      obtain ⟨-, howned, hstranger⟩ := h.step ho event
      cases hof : event.isOf o with
      | true =>
          rw [List.filter_cons_of_pos hof]
          exact ih howned
      | false =>
          rw [List.filter_cons_of_neg (by simp [hof]), ih h]
          exact congrArg (BotEvent.run events) (hstranger hof).symm

-- What the owner can expect of the bot, whoever writes to it.
structure StrangersIgnored (o : UInt32) (world : World) (events : List BotEvent) : Prop where
  safe : ∀ earlier event, earlier ++ [event] <+: events →
    (event.eval (run earlier world)).1 = .ok ()
  owner : ∀ earlier, earlier <+: events → (run earlier world).owner = o
  state : (run (events.filter fun event => event.isOf o) world).db.state =
    (run events world).db.state
  tickets : (run (events.filter fun event => event.isOf o) world).db.tickets =
    (run events world).db.tickets
  messages : (run (events.filter fun event => event.isOf o) world).db.messages =
    (run events world).db.messages
  texts : textsTo o (run (events.filter fun event => event.isOf o) world) =
    textsTo o (run events world)

theorem Owned.ignores (h : Owned o world) (ho : o ≠ 0) (events : List BotEvent) :
    StrangersIgnored o world events := by
  have hfilter := run_filter h ho events
  refine ⟨fun earlier event _ => ((h.run ho earlier).step ho event).1,
    fun earlier _ => (h.run ho earlier).owner, ?_, ?_, ?_, ?_⟩ <;> rw [hfilter]

-- Nobody is the owner, in memory or in the state table.
structure Ownerless (world : World) : Prop where
  owner : world.owner = 0
  stored : world.db.stateGet Dc.kOwnerKey = none

theorem Ownerless.restart (h : Ownerless world) : Ownerless (BotEvent.Restart.eval world).2 := by
  have hread : exec (.StateGet Dc.kOwnerKey) (BotEvent.Restart.reopen world) =
      .ok (none, BotEvent.Restart.reopen world) := by
    simp only [exec, BotEvent.reopen, h.stored]
  have heval : BotEvent.Restart.eval world = (.ok (), BotEvent.Restart.reopen world) :=
    Prog.eval_call hread rfl
  rw [heval]
  exact ⟨rfl, h.stored⟩

-- The first to write becomes the owner.
theorem Ownerless.first (h : Ownerless world) :
    ((Dc.incomingMsg dc now msg).eval exec world).1 = .ok () ∧
      Owned msg.fromId ((Dc.incomingMsg dc now msg).eval exec world).2 := by
  obtain ⟨registered, hset, heval⟩ := eval_first dc now msg h.owner
  obtain ⟨htables, howner, -⟩ := effect_of_exec hset
  have howned : Owned msg.fromId registered := by
    refine ⟨howner, ?_⟩
    rw [htables]
    exact Tables.stateGet_stateSet world.db.toTables Dc.kOwnerKey _
  rw [heval]
  exact ⟨sendTo_ok .., howned.steady (.eval (noNewTicketOrOwner_sendTo ..) registered)⟩

theorem Ownerless.restarts (h : Ownerless world) {events : List BotEvent}
    (hevents : ∀ event ∈ events, event = .Restart) : Ownerless (run events world) := by
  induction events generalizing world with
  | nil => exact h
  | cons event events ih =>
      obtain ⟨rfl, hrest⟩ := List.forall_mem_cons.mp hevents
      exact ih h.restart hrest

-- An owner stays the owner, unmoved by strangers; where there is none, the
-- first to write becomes it.
theorem strangers_ignored (world : World) :
    (∀ o, o ≠ 0 → Owned o world → ∀ events, StrangersIgnored o world events) ∧
    (Ownerless world → ∀ restarts dc now (msg : Dc.IncomingMsg),
      (∀ event ∈ restarts, event = .Restart) → msg.fromId ≠ 0 →
      Owned msg.fromId (run (restarts ++ [.Incoming dc now msg]) world) ∧
      ∀ events, StrangersIgnored msg.fromId
        (run (restarts ++ [.Incoming dc now msg]) world) events) := by
  refine ⟨fun o ho h events => h.ignores ho events, fun h restarts dc now msg hrestarts hfrom => ?_⟩
  have howned : Owned msg.fromId (run (restarts ++ [.Incoming dc now msg]) world) := by
    rw [BotEvent.run, List.foldl_append]
    exact (h.restarts hrestarts).first.2
  exact ⟨howned, fun events => howned.ignores hfrom events⟩

def sampleMessage (fromId : UInt32) (text : Bytes) : BotEvent :=
  .Incoming ⟨12, true, true, 100⟩ 1700000000
    { msgId := 50, fromId, text, quotedMsgId := 0, quotedText := [] }

def registered : World :=
  run ([.Restart] ++ [sampleMessage 7 (utf8 "hello")]) World.empty

def disturbed : List BotEvent :=
  [sampleMessage 9 (utf8 "hello"), .Restart, sampleMessage 7 (utf8 "hello"), sampleMessage 9 []]

-- The first to write is welcomed and then told to name a ticket; the second
-- gets nothing, also after a restart.
theorem strangers_ignored_sample :
    textsTo 7 (run disturbed registered) = [Dc.kWelcome, Dc.kNoTicketId] ∧
      textsTo 9 (run disturbed registered) = [] ∧
    (Owned 7 registered ∧ ∀ events, StrangersIgnored 7 registered events) ∧
    ∀ events, StrangersIgnored 7 registered events := by
  have hfirst := (strangers_ignored World.empty).2 ⟨rfl, rfl⟩ [.Restart] ⟨12, true, true, 100⟩
    1700000000 { msgId := 50, fromId := 7, text := utf8 "hello", quotedMsgId := 0, quotedText := [] }
    (by simp) (by decide)
  exact ⟨by decide +kernel, by decide +kernel, hfirst,
    fun events => (strangers_ignored registered).1 7 (by decide) hfirst.1 events⟩

end DeltaFeedback.Sequential
