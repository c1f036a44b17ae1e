import DeltaFeedback.Sequential.Conversation
import Mathlib.Logic.Relation

namespace DeltaFeedback.Sequential

open Text Interleaving Db
open Feedback (sampleService)

-- A run of whole calls, and what has been said in it.
structure Chronicle where
  world : World
  conversations : Conversations

namespace Chronicle

variable (service : Feedback.Service)

def after (chronicle : Chronicle) (call : Call) : Chronicle where
  world := (call.run service chronicle.world).2.2
  conversations :=
    (happening chronicle.world call (call.run service chronicle.world).1).apply
      chronicle.conversations

def Runs : Chronicle → Chronicle → Prop :=
  Relation.ReflTransGen fun chronicle later => ∃ call, later = chronicle.after service call

def start (owner : UInt32) : Chronicle where
  world := { World.empty with owner }
  conversations := fun _ => none

structure Kept (chronicle : Chronicle) : Prop where
  shows : chronicle.world.db.Shows chronicle.conversations
  turns : ∀ id c, chronicle.conversations id = some c → c.TurnsKept

variable {service} {chronicle later : Chronicle} {id : Bytes} {t : TicketRow} {c : Conversation}

theorem Kept.after (h : Kept chronicle) (call : Call) : Kept (chronicle.after service call) :=
  have hdoes := does_call service call h.shows
  ⟨hdoes.shows, fun _ _ hc => Happening.turnsKept_apply hdoes.allowed h.turns hc⟩

theorem Kept.runs (h : Kept chronicle) (hrun : Runs service chronicle later) : Kept later := by
  induction hrun with
  | refl => exact h
  | tail _ hstep ih =>
      obtain ⟨call, rfl⟩ := hstep
      exact ih.after call

theorem kept_start (owner : UInt32) : Kept (start owner) :=
  ⟨fun _ => rfl, fun _ _ hc => by simp [start] at hc⟩

-- What a ticket must be like.
structure Consistent (chronicle : Chronicle) (id : Bytes) (t : TicketRow) : Prop where
  messages : ∃ c, chronicle.conversations id = some c ∧
    (chronicle.world.db.messagesByTicket id).map (fun m => (m.sender, m.body)) =
      (.Visitor, c.original) :: c.later
  apart : chronicle.world.db.VisitorsApart id
  turn : t.status ≠ .Closed →
    (t.status = .AwaitingVisitor ↔ chronicle.world.db.lastSender id = some .Admin)
  closedAt : t.closedAt.isSome ↔ t.status = .Closed

theorem lastSender_eq {tables : Tables}
    (h : (tables.messagesByTicket id).map (fun m => (m.sender, m.body)) = c.words) :
    tables.lastSender id = some c.lastSpeaker := by
  rw [← Conversation.getLast?_words, ← h, List.map_map, List.getLast?_map]
  rfl

theorem Kept.consistent (h : Kept chronicle) (ht : chronicle.world.db.ticket? id = some t) :
    Consistent chronicle id t := by
  obtain ⟨c, hc, hstatus, hclosed, hwords⟩ := h.shows.exists_conversation ht
  refine ⟨⟨c, hc, hwords⟩, ?_, fun hopen => ?_, ?_⟩
  · have hturns := h.turns id c hc
    rw [Conversation.TurnsKept, ← hwords, List.map_map] at hturns
    exact hturns
  · have hcOpen := Tables.status_ne_closed_iff.mp (hstatus ▸ hopen)
    rw [hstatus, Tables.status_open hcOpen, lastSender_eq hwords]
    cases c.lastSpeaker <;> simp [Sender.statusAfter]
  · rw [hclosed, hstatus, ← not_iff_not, Option.not_isSome_iff_eq_none]
    exact Tables.status_ne_closed_iff.symm

-- A closed ticket stays as it is until it is purged.
theorem Kept.closed (h : Kept chronicle) (hrun : Runs service chronicle later)
    (ht : chronicle.world.db.ticket? id = some t) (hclosed : t.status = .Closed) :
    (later.world.db.ticket? id = some t ∧
      later.world.db.messagesByTicket id = chronicle.world.db.messagesByTicket id) ∨
    ∃ purged, Runs service chronicle purged ∧ Runs service purged later ∧
      purged.world.db.ticket? id = none := by
  induction hrun with
  | refl => exact .inl ⟨ht, rfl⟩
  | @tail middle _ hmiddle hstep ih =>
      rcases ih with ⟨hticket, hmessages⟩ | ⟨purged, hpurged, hrest, hgone⟩
      · obtain ⟨call, rfl⟩ := hstep
        have hkept := h.runs hmiddle
        have hdoes := does_call service call hkept.shows
        obtain ⟨c, hc, hstatus, -⟩ := hkept.shows.exists_conversation hticket
        obtain ⟨closedAt, hcClosed⟩ : ∃ closedAt, c.closedAt = some closedAt := by
          rw [← Option.ne_none_iff_exists']
          exact fun hopen => Tables.status_ne_closed_iff.mpr hopen (hstatus ▸ hclosed)
        by_cases hconcerns : (happening middle.world call
            (call.run service middle.world).1).Concerns id
        · have hgone := Happening.purged_of_closed hdoes.allowed hc hcClosed hconcerns
          have hnone := hdoes.shows id
          rw [hgone] at hnone
          exact .inr ⟨_, hmiddle.tail ⟨call, rfl⟩, .refl, hnone⟩
        · obtain ⟨hsame, hsameMessages⟩ := hdoes.frame id hconcerns
          exact .inl ⟨hsame.trans hticket, hsameMessages.trans hmessages⟩
      · exact .inr ⟨purged, hpurged, hrest.tail hstep, hgone⟩

-- Every run of whole calls from an empty database: what is stored is what was
-- said, in turn, up to the close.
theorem conversations_kept (service : Feedback.Service) (owner : UInt32) (chronicle later : Chronicle)
    (hrun : Runs service (start owner) chronicle) (hlater : Runs service chronicle later) :
    (∀ id t, chronicle.world.db.ticket? id = some t → Consistent chronicle id t) ∧
    (∀ m ∈ chronicle.world.db.messages, (chronicle.world.db.ticket? m.ticketId).isSome) ∧
    ∀ id t, chronicle.world.db.ticket? id = some t → t.status = .Closed →
      (later.world.db.ticket? id = some t ∧
        later.world.db.messagesByTicket id = chronicle.world.db.messagesByTicket id) ∨
      ∃ purged, Runs service chronicle purged ∧ Runs service purged later ∧
        purged.world.db.ticket? id = none := by
  have hkept := (kept_start owner).runs hrun
  refine ⟨fun id t ht => hkept.consistent ht, fun m hm => ?_,
    fun id t ht hclosed => hkept.closed hlater ht hclosed⟩
  have hticket := chronicle.world.db.constraints.foreignKey m hm
  rw [← Option.ne_none_iff_isSome, ne_eq, Tables.ticket?_eq_none_iff, not_not]
  exact hticket

def submission : Call :=
  .SubmitNew
    { powToken := (sampleService.issuer.issue Pow.fips 1700000000 (utf8 "first")).token
      powNonce := []
      name := utf8 "Ann"
      locale := utf8 "en"
      honeypot := []
      message := utf8 "hello"
      fillTimeMs := 2000
      visitorIp := utf8 "192.0.2.1" }
    { verifyClock := 1700000010
      consumeClock := 1700000010
      writeClock := 1700000010
      draw := fun _ => 0
      delivery := ⟨12, true, true, 100⟩ }

def answer (text : Bytes) : Call :=
  .IncomingMsg ⟨12, true, true, 101⟩ 1700000020
    { msgId := 50, fromId := 7, text, quotedMsgId := 100, quotedText := [] }

def closed : Chronicle :=
  [submission, answer (utf8 "hi"), answer (utf8 "/close")].foldl
    (fun chronicle call => chronicle.after sampleService call) (start 7)

-- An answered and closed ticket, before and after an answer that comes too late.
theorem conversations_kept_sample :
    (closed.world.db.ticket? (utf8 "000000")).map (fun t => (t.status, t.closedAt)) =
      some (.Closed, some 1700000020) ∧
    ((∀ id t, closed.world.db.ticket? id = some t → Consistent closed id t) ∧
      (∀ m ∈ closed.world.db.messages, (closed.world.db.ticket? m.ticketId).isSome) ∧
      ∀ id t, closed.world.db.ticket? id = some t → t.status = .Closed →
        ((closed.after sampleService (answer (utf8 "late"))).world.db.ticket? id = some t ∧
          (closed.after sampleService (answer (utf8 "late"))).world.db.messagesByTicket id =
            closed.world.db.messagesByTicket id) ∨
        ∃ purged, Runs sampleService closed purged ∧
          Runs sampleService purged (closed.after sampleService (answer (utf8 "late"))) ∧
          purged.world.db.ticket? id = none) :=
  ⟨by decide +kernel, conversations_kept sampleService 7 closed _
    (((Relation.ReflTransGen.refl.tail ⟨submission, rfl⟩).tail ⟨answer (utf8 "hi"), rfl⟩).tail
      ⟨answer (utf8 "/close"), rfl⟩) (.single ⟨answer (utf8 "late"), rfl⟩)⟩

end Chronicle

end DeltaFeedback.Sequential
