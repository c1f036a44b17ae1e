import DeltaFeedback.Dc.Sender
import DeltaFeedback.World.Theorems

namespace DeltaFeedback.Dc

open Text Interleaving

theorem exec_dcSend {contact quote id : UInt32} {text : Bytes} {world world' : World}
    {result : UInt32} (h : exec (.DcSend contact text quote id) world = .ok (result, world')) :
    result = id := by
  simp only [exec, Except.ok.injEq, Prod.mk.injEq] at h
  exact h.1.symm

-- A send asks for the owner, then hands one message over or none.
theorem follows_sendToOwner {legal : Trail → Prop}
    {done : Trail → Except SqlError (Option UInt32) → Prop} {trail : Trail} {dc : Delivery}
    {text : Bytes} {quoteMsgId : UInt32}
    (howner : ∀ owner : UInt32, legal (⟨.OwnerLoad, owner⟩ :: trail))
    (hsend : ∀ owner quote : UInt32, legal
      (⟨.DcSend owner (cStr text) quote dc.id, dc.id⟩ :: ⟨.OwnerLoad, owner⟩ :: trail))
    (hunsent : ∀ owner : UInt32, done (⟨.OwnerLoad, owner⟩ :: trail) (.ok none))
    (hsent : ∀ owner quote : UInt32,
      done (⟨.DcSend owner (cStr text) quote dc.id, dc.id⟩ :: ⟨.OwnerLoad, owner⟩ :: trail)
        (.ok (if dc.id = 0 then none else some dc.id))) :
    Follows exec legal done (sendToOwner dc text quoteMsgId) trail := by
  simp only [sendToOwner, Prog.perform_bind, Prog.pure_eq_ret]
  refine follows_call rfl fun _ owner _ _ => ⟨howner owner, ?_⟩
  split_ifs with hnone hchat hquote
  · exact hunsent owner
  · exact hunsent owner
  · refine follows_call rfl fun _ result _ h => ?_
    obtain rfl := exec_dcSend h
    exact ⟨hsend owner 0, hsent owner 0⟩
  · exact hunsent owner
  · refine follows_call rfl fun _ result _ h => ?_
    obtain rfl := exec_dcSend h
    exact ⟨hsend owner _, hsent owner _⟩

-- Delta Chat takes the message: there is an owner and a chat with it, a
-- message object where one is quoted, and an id for what is sent.
structure Delivery.Takes (dc : Delivery) (owner quoteMsgId : UInt32) : Prop where
  owner : owner ≠ 0
  chat : dc.chat ≠ 0
  msgNew : quoteMsgId = 0 ∨ dc.msgNew = true
  id : dc.id ≠ 0

instance (dc : Delivery) (owner quoteMsgId : UInt32) : Decidable (dc.Takes owner quoteMsgId) :=
  decidable_of_iff (owner ≠ 0 ∧ dc.chat ≠ 0 ∧ (quoteMsgId = 0 ∨ dc.msgNew = true) ∧ dc.id ≠ 0)
    ⟨fun h => ⟨h.1, h.2.1, h.2.2.1, h.2.2.2⟩, fun h => ⟨h.owner, h.chat, h.msgNew, h.id⟩⟩

theorem send_of_refused (world : World) {contact quote id : UInt32} {text : Bytes} (hid : id = 0) :
    world.send ⟨contact, text, quote, id⟩ = world :=
  if_pos hid

theorem eval_sendToOwner (dc : Delivery) (text : Bytes) (quoteMsgId : UInt32) (world : World) :
    (sendToOwner dc text quoteMsgId).eval exec world =
      if dc.Takes world.owner quoteMsgId then
        (.ok (some dc.id), world.send ⟨world.owner, cStr text, dc.quote quoteMsgId, dc.id⟩)
      else (.ok none, world) := by
  simp only [sendToOwner, Prog.perform_bind, Prog.pure_eq_ret]
  refine Prog.eval_call rfl ?_
  by_cases howner : world.owner = 0
  · rw [if_pos howner, if_neg fun h => h.owner howner, Prog.eval_ret]
  rw [if_neg howner]
  by_cases hchat : dc.chat = 0
  · rw [if_pos hchat, if_neg fun h => h.chat hchat, Prog.eval_ret]
  rw [if_neg hchat]
  have hsent (quote : UInt32) (hnew : quoteMsgId = 0 ∨ dc.msgNew = true)
      (hquote : dc.quote quoteMsgId = quote) :
      (Prog.call (.DcSend world.owner (cStr text) quote dc.id) fun id : UInt32 =>
        (.ret (if id = 0 then none else some id) : Proc (Option UInt32))).eval exec world =
      if dc.Takes world.owner quoteMsgId then
        (.ok (some dc.id), world.send ⟨world.owner, cStr text, dc.quote quoteMsgId, dc.id⟩)
      else (.ok none, world) := by
    refine Prog.eval_call rfl ?_
    rw [Prog.eval_ret, hquote]
    by_cases hid : dc.id = 0
    · rw [if_pos hid, if_neg fun h => h.id hid, send_of_refused world hid]
    · rw [if_neg hid, if_pos ⟨howner, hchat, hnew, hid⟩]
  by_cases hquote : quoteMsgId = 0
  · rw [if_pos hquote]
    refine hsent 0 (.inl hquote) ?_
    simp [Delivery.quote, hquote]
  rw [if_neg hquote]
  cases hnew : dc.msgNew with
  | false =>
      have htakes : ¬ dc.Takes world.owner quoteMsgId := by
        intro h
        simpa [hquote, hnew] using h.msgNew
      rw [if_neg htakes]
      rfl
  | true => exact hsent _ (.inr hnew) rfl

end DeltaFeedback.Dc
