import DeltaFeedback.Db.Turns

namespace DeltaFeedback

open Text Db

-- What a ticket is for: a visitor and the admin who take turns until the admin
-- closes it.
structure Conversation where
  original : Bytes
  later : List (Sender × Bytes)
  closedAt : Option Int

namespace Conversation

variable (c : Conversation)

def words : List (Sender × Bytes) := (.Visitor, c.original) :: c.later

def lastSpeaker : Sender := ((c.words.getLast?).map fun word => word.1).getD .Visitor

def status : TicketStatus := if c.closedAt.isSome then .Closed else c.lastSpeaker.statusAfter

def say (side : Sender) (text : Bytes) : Conversation := { c with later := c.later ++ [(side, text)] }

def close (closedAt : Int) : Conversation := { c with closedAt := some closedAt }

-- The visitor never speaks twice in a row.
def TurnsKept : Prop :=
  (c.words.map fun word => word.1).IsChain fun first second =>
    ¬ (first = .Visitor ∧ second = .Visitor)

@[simp] theorem words_say (side : Sender) (text : Bytes) :
    (c.say side text).words = c.words ++ [(side, text)] := rfl

@[simp] theorem words_close (closedAt : Int) : (c.close closedAt).words = c.words := rfl

@[simp] theorem lastSpeaker_say (side : Sender) (text : Bytes) :
    (c.say side text).lastSpeaker = side := by
  simp [lastSpeaker]

theorem getLast?_words : (c.words.map fun word => word.1).getLast? = some c.lastSpeaker := by
  cases h : c.words.getLast? with
  | none => simp [words] at h
  | some word => simp [lastSpeaker, h]

variable {c}

theorem TurnsKept.say {side : Sender} {text : Bytes} (h : c.TurnsKept)
    (hturn : side = .Visitor → c.lastSpeaker = .Admin) : (c.say side text).TurnsKept := by
  unfold TurnsKept
  rw [words_say, List.map_append, List.isChain_append]
  refine ⟨h, List.IsChain.singleton _, fun first hfirst second hsecond => ?_⟩
  rintro ⟨rfl, rfl⟩
  rw [getLast?_words] at hfirst
  have hside : side = .Visitor := by simpa using hsecond
  simp [hturn hside] at hfirst

end Conversation

abbrev Conversations := Bytes → Option Conversation

-- What happens to conversations.
inductive Happening
  | Nothing
  | Opened (ticketId text : Bytes)
  | Said (ticketId : Bytes) (side : Sender) (text : Bytes)
  | Closed (ticketId : Bytes) (closedAt : Int)
  | Purged (gone : Bytes → Bool)

namespace Happening

def apply (conversations : Conversations) : Happening → Conversations
  | .Nothing => conversations
  | .Opened ticketId text => Function.update conversations ticketId (some ⟨text, [], none⟩)
  | .Said ticketId side text =>
      Function.update conversations ticketId ((conversations ticketId).map fun c => c.say side text)
  | .Closed ticketId closedAt =>
      Function.update conversations ticketId ((conversations ticketId).map fun c => c.close closedAt)
  | .Purged gone => fun ticketId => if gone ticketId then none else conversations ticketId

-- An id is opened once; the visitor only speaks after the admin; a closed
-- conversation stays as it is.
def Allowed (conversations : Conversations) : Happening → Prop
  | .Nothing => True
  | .Opened ticketId _ => conversations ticketId = none
  | .Said ticketId side _ => ∃ c, conversations ticketId = some c ∧ c.closedAt = none ∧
      (side = .Visitor → c.lastSpeaker = .Admin)
  | .Closed ticketId _ => ∃ c, conversations ticketId = some c ∧ c.closedAt = none
  | .Purged _ => True

def Concerns (ticketId : Bytes) : Happening → Prop
  | .Nothing => False
  | .Opened opened _ => opened = ticketId
  | .Said said _ _ => said = ticketId
  | .Closed closed _ => closed = ticketId
  | .Purged gone => gone ticketId = true

variable {conversations : Conversations} {happening : Happening} {ticketId : Bytes}
  {c : Conversation}

theorem turnsKept_apply (h : happening.Allowed conversations)
    (hkept : ∀ ticketId c, conversations ticketId = some c → c.TurnsKept)
    (hc : happening.apply conversations ticketId = some c) : c.TurnsKept := by
  cases happening with
  | Nothing => exact hkept ticketId c hc
  | Opened opened text =>
      by_cases hid : ticketId = opened
      · subst hid
        simp only [apply, Function.update_self, Option.some.injEq] at hc
        subst hc
        exact List.IsChain.singleton _
      · rw [apply, Function.update_of_ne hid] at hc
        exact hkept ticketId c hc
  | Said said side text =>
      by_cases hid : ticketId = said
      · subst hid
        obtain ⟨old, hold, -, hturn⟩ := h
        simp only [apply, Function.update_self, hold, Option.map_some, Option.some.injEq] at hc
        subst hc
        exact (hkept ticketId old hold).say hturn
      · rw [apply, Function.update_of_ne hid] at hc
        exact hkept ticketId c hc
  | Closed closed closedAt =>
      by_cases hid : ticketId = closed
      · subst hid
        obtain ⟨old, hold, -⟩ := h
        simp only [apply, Function.update_self, hold, Option.map_some, Option.some.injEq] at hc
        subst hc
        exact hkept ticketId old hold
      · rw [apply, Function.update_of_ne hid] at hc
        exact hkept ticketId c hc
  | Purged gone =>
      simp only [apply] at hc
      split at hc
      · simp at hc
      · exact hkept ticketId c hc

-- A closed conversation can only be purged.
theorem purged_of_closed {closedAt : Int} (h : happening.Allowed conversations)
    (hc : conversations ticketId = some c) (hclosed : c.closedAt = some closedAt)
    (hconcerns : happening.Concerns ticketId) :
    happening.apply conversations ticketId = none := by
  cases happening with
  | Nothing => exact hconcerns.elim
  | Opened opened text =>
      obtain rfl : opened = ticketId := hconcerns
      exact absurd (hc.symm.trans h) (by simp)
  | Said said side text =>
      obtain rfl : said = ticketId := hconcerns
      obtain ⟨old, hold, hopen, -⟩ := h
      rw [hc, Option.some.injEq] at hold
      simp [← hold, hclosed] at hopen
  | Closed closed at' =>
      obtain rfl : closed = ticketId := hconcerns
      obtain ⟨old, hold, hopen⟩ := h
      rw [hc, Option.some.injEq] at hold
      simp [← hold, hclosed] at hopen
  | Purged gone =>
      have hgone : gone ticketId = true := hconcerns
      simp only [apply, hgone, ite_true]

end Happening

end DeltaFeedback
