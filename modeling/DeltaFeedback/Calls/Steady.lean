import DeltaFeedback.Calls

namespace DeltaFeedback

open Text Interleaving Db

-- The operations that open no ticket and appoint no owner.
def Op.noNewTicketOrOwner : Op → Bool
  | .TicketInsert _ => false
  | .OwnerStore _ => false
  | .StateSet .. => false
  | .StateDel _ => false
  | _ => true

abbrev NoNewTicketOrOwner {α : Type} (prog : Proc α) : Prop :=
  prog.Only fun op => op.noNewTicketOrOwner = true

-- What is still as it was after such operations: the owner, in memory and
-- stored, and what tickets there can be; what was sent stays sent.
structure Steady (first last : World) : Prop where
  owner : last.owner = first.owner
  state : last.db.state = first.db.state
  tickets : ∀ t ∈ last.db.tickets, ∃ old ∈ first.db.tickets, old.id = t.id
  outbox : first.outbox <+: last.outbox

theorem Steady.refl (world : World) : Steady world world :=
  ⟨rfl, rfl, fun t ht => ⟨t, ht, rfl⟩, List.prefix_rfl⟩

theorem Steady.trans {first middle last : World} (h : Steady first middle)
    (hlast : Steady middle last) : Steady first last where
  owner := hlast.owner.trans h.owner
  state := hlast.state.trans h.state
  tickets t ht := by
    obtain ⟨old, hold, hid⟩ := hlast.tickets t ht
    obtain ⟨older, holder, holderId⟩ := h.tickets old hold
    exact ⟨older, holder, holderId.trans hid⟩
  outbox := h.outbox.trans hlast.outbox

theorem state_of_write {op : Op} (hop : op.noNewTicketOrOwner = true) (tables : Tables) :
    (op.write tables).state = tables.state := by
  cases op with
  | StateSet key value => simp [Op.noNewTicketOrOwner] at hop
  | StateDel key => simp [Op.noNewTicketOrOwner] at hop
  | ReplayInsert challengeId expiresAt =>
      rw [Op.write]
      split <;> rfl
  | _ => rfl

theorem steady_of_exec {op : Op} {result : op.Result} {world later : World}
    (hop : op.noNewTicketOrOwner = true) (h : exec op world = .ok (result, later)) :
    Steady world later := by
  have heffect := effect_of_exec h
  refine ⟨?_, ?_, fun t ht => ?_, heffect.outbox ▸ List.prefix_append _ _⟩
  · rw [heffect.owner]
    cases op with
    | OwnerStore contact => simp [Op.noNewTicketOrOwner] at hop
    | _ => rfl
  · rw [heffect.tables]
    exact state_of_write hop world.db.toTables
  · rw [heffect.tables] at ht
    rcases ticket_of_write ht with hold | ⟨new, rfl, -⟩
    · exact hold
    · simp [Op.noNewTicketOrOwner] at hop

theorem steady_of_refused {op : Op} {exn : SqlError} {world later : World}
    (h : exec op world = .error (exn, later)) : Steady world later := by
  rw [refused_of_exec h]
  exact ⟨rfl, rfl, fun t ht => ⟨t, ht, rfl⟩, List.prefix_rfl⟩

theorem Steady.eval {α : Type} {prog : Proc α} (h : NoNewTicketOrOwner prog) (world : World) :
    Steady world (prog.eval exec world).2 :=
  Prog.Only.eval h (Steady world) (.refl world)
    (fun _ hop _ _ _ hbefore hexec => hbefore.trans (steady_of_exec hop hexec))
    fun _ _ _ _ _ hbefore hexec => hbefore.trans (steady_of_refused hexec)

theorem only_sendTo {allowed : Op → Prop} (dc : Dc.Delivery) (contact : UInt32) (text : Bytes)
    (quoteMsgId : UInt32) (h : ∀ quote, allowed (.DcSend contact (cStr text) quote dc.id)) :
    (Dc.sendTo dc contact text quoteMsgId).Only allowed := by
  refine Prog.only_ite (fun _ => trivial) fun _ => ?_
  refine Prog.only_ite (fun _ => trivial) fun _ => ?_
  refine Prog.only_ite (fun _ => ⟨h 0, fun _ => trivial⟩) fun _ => ?_
  exact Prog.only_ite (fun _ => trivial) fun _ => ⟨h _, fun _ => trivial⟩

theorem noNewTicketOrOwner_sendTo (dc : Dc.Delivery) (contact : UInt32) (text : Bytes)
    (quoteMsgId : UInt32) : NoNewTicketOrOwner (Dc.sendTo dc contact text quoteMsgId) :=
  only_sendTo dc contact text quoteMsgId fun _ => rfl

theorem noNewTicketOrOwner_sendToOwner (dc : Dc.Delivery) (text : Bytes) (quoteMsgId : UInt32) :
    NoNewTicketOrOwner (Dc.sendToOwner dc text quoteMsgId) := by
  refine ⟨rfl, fun owner => ?_⟩
  refine Prog.only_ite (fun _ => trivial) fun _ => ?_
  refine Prog.only_ite (fun _ => trivial) fun _ => ?_
  refine Prog.only_ite (fun _ => ⟨rfl, fun _ => trivial⟩) fun _ => ?_
  exact Prog.only_ite (fun _ => trivial) fun _ => ⟨rfl, fun _ => trivial⟩

theorem noNewTicketOrOwner_routeAdminMsg (dc : Dc.Delivery) (now : Int) (owner : UInt32)
    (msg : Dc.IncomingMsg) : NoNewTicketOrOwner (Dc.routeAdminMsg dc now owner msg) := by
  have hlookup : NoNewTicketOrOwner (Dc.lookup msg.quotedMsgId) :=
    Prog.only_ite (fun _ => trivial) fun _ => ⟨rfl, fun _ => trivial⟩
  refine hlookup.bind fun quoted => ?_
  dsimp only
  refine Prog.only_ite (fun _ => (noNewTicketOrOwner_sendTo ..).bind fun _ => trivial) fun _ => ?_
  refine ⟨rfl, fun found => ?_⟩
  cases found with
  | none => exact noNewTicketOrOwner_sendTo ..
  | some t =>
      refine Prog.only_ite (fun _ => (noNewTicketOrOwner_sendTo ..).bind fun _ => trivial)
        fun _ => ?_
      refine Prog.only_ite
        (fun _ => ⟨rfl, fun _ => (noNewTicketOrOwner_sendTo ..).bind fun _ => trivial⟩) fun _ => ?_
      refine Prog.only_ite (fun _ => (noNewTicketOrOwner_sendTo ..).bind fun _ => trivial)
        fun _ => ?_
      exact ⟨rfl, fun _ => ⟨rfl, fun _ => ⟨rfl, fun _ => trivial⟩⟩⟩

theorem noNewTicketOrOwner_submitReply (service : Feedback.Service) (input : Feedback.ReplyInput)
    (env : Feedback.Env) : NoNewTicketOrOwner (service.submitReply input env) := by
  refine ⟨rfl, fun found => ?_⟩
  cases found with
  | none => trivial
  | some t =>
      refine Prog.only_ite (fun _ => trivial) fun _ => ?_
      refine Prog.only_ite (fun _ => trivial) fun _ => ?_
      refine Prog.only_ite (fun _ => trivial) fun _ => ?_
      refine Prog.only_ite (fun _ => trivial) fun _ => ?_
      dsimp only
      cases Feedback.replyPowError (service.verify input.powToken input.powNonce env).1 with
      | some error => trivial
      | none =>
          refine ⟨rfl, fun _ => ⟨rfl, fun changes => ?_⟩⟩
          refine Prog.only_ite (fun _ => trivial) fun _ => ?_
          refine Prog.only_ite (fun _ => trivial) fun _ => ?_
          refine ⟨rfl, fun quoteId => ⟨rfl, fun _ => ⟨rfl, fun rowId => ⟨rfl, fun _ => ?_⟩⟩⟩⟩
          refine (noNewTicketOrOwner_sendToOwner ..).bind fun sent => ?_
          cases sent with
          | none => trivial
          | some dcMsgId => exact ⟨rfl, fun _ => trivial⟩

theorem noNewTicketOrOwner_purgeInactiveOlderThan (cutoff : Int) :
    NoNewTicketOrOwner (TicketsRepo.purgeInactiveOlderThan cutoff) :=
  ⟨rfl, fun _ => ⟨rfl, fun _ => trivial⟩⟩

theorem noNewTicketOrOwner_purgeExpired (now : Int) :
    NoNewTicketOrOwner (ReplayStore.purgeExpired now) :=
  ⟨rfl, fun _ => ⟨rfl, fun _ => trivial⟩⟩

section Incoming

variable (dc : Dc.Delivery) (now : Int) (msg : Dc.IncomingMsg) {world : World}

theorem eval_stranger (howner : world.owner ≠ 0) (hfrom : msg.fromId ≠ world.owner) :
    (Dc.incomingMsg dc now msg).eval exec world = (.ok (), world) := by
  refine Prog.eval_call rfl ?_
  change Prog.eval _ (ite _ _ _) _ = _
  rw [if_neg howner, if_neg hfrom, Prog.pure_eq_ret, Prog.eval_ret]

theorem eval_owner (howner : world.owner ≠ 0) (hfrom : msg.fromId = world.owner) :
    (Dc.incomingMsg dc now msg).eval exec world =
      (Dc.routeAdminMsg dc now world.owner msg).eval exec world := by
  refine Prog.eval_call rfl ?_
  change Prog.eval _ (ite _ _ _) _ = _
  rw [if_neg howner, if_pos hfrom]

-- Where there is no owner, the sender is stored and greeted.
theorem eval_first (howner : world.owner = 0) : ∃ registered,
    exec (.StateSet Dc.kOwnerKey (decimal msg.fromId.toNat)) { world with owner := msg.fromId } =
        .ok ((), registered) ∧
      (Dc.incomingMsg dc now msg).eval exec world =
        (Dc.sendTo dc msg.fromId Dc.kWelcome 0).eval exec registered := by
  obtain ⟨registered, hset⟩ : ∃ registered, exec
      (.StateSet Dc.kOwnerKey (decimal msg.fromId.toNat)) { world with owner := msg.fromId } =
        .ok ((), registered) := by
    simp only [exec]
    split_ifs <;> exact ⟨_, rfl⟩
  refine ⟨registered, hset, Prog.eval_call rfl ?_⟩
  change Prog.eval _ (ite _ _ _) _ = _
  rw [if_pos howner]
  exact Prog.eval_call rfl (Prog.eval_call hset rfl)

end Incoming

end DeltaFeedback
