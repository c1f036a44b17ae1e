import DeltaFeedback.Web.Page

namespace DeltaFeedback.Web

open Text

namespace Poll

variable (poll : Poll)

theorem haveCount_request :
    poll.request.urlParam (utf8 "have_count") = poll.had.map fun (count, _) => decimal count := by
  rw [request]
  dsimp only
  rw [if_pos rfl]

theorem haveStatus_request :
    poll.request.urlParam (utf8 "have_status") = poll.had.map fun (_, status) => status := by
  have hother : utf8 "have_status" ≠ utf8 "have_count" := by decide +kernel
  rw [request]
  dsimp only
  rw [if_neg hother, if_pos rfl]

end Poll

namespace Page

variable (page : Page) (data : TicketData) (t : Stored)

-- What the page takes to be rendered of the ticket shown.
def has (page : Page) : Option TicketData :=
  if page.lastMsgCount ≥ 0 then page.rendered else none

-- The count and the status are those of what is rendered.
structure Kept (page : Page) : Prop where
  current : page.currentTicket = page.rendered
  counted : page.lastMsgCount ≥ 0 → ∃ data, page.rendered = some data ∧
    page.lastMsgCount = data.messages.length ∧ page.lastStatus = data.status

@[simp] theorem renderTicket_rendered : (page.renderTicket data t).rendered = some data := by
  unfold renderTicket
  dsimp only
  split <;> rfl

@[simp] theorem renderTicket_currentTicket :
    (page.renderTicket data t).currentTicket = page.currentTicket := by
  unfold renderTicket
  dsimp only
  split <;> rfl

@[simp] theorem renderTicket_lastMsgCount :
    (page.renderTicket data t).lastMsgCount = data.messages.length := by
  unfold renderTicket
  dsimp only
  split <;> rfl

@[simp] theorem renderTicket_lastStatus :
    (page.renderTicket data t).lastStatus = data.status := by
  unfold renderTicket
  dsimp only
  split <;> rfl

@[simp] theorem renderTicket_shown : (page.renderTicket data t).shown = page.shown := by
  unfold renderTicket
  dsimp only
  split <;> rfl

@[simp] theorem renderTicket_has : (page.renderTicket data t).has = some data := by
  simp [has]

theorem renderTicket_kept (h : page.currentTicket = some data) :
    (page.renderTicket data t).Kept :=
  ⟨by simp [h], fun _ => ⟨data, by simp⟩⟩

variable {page data t}

theorem rendered_of_has (h : page.has = some data) : page.rendered = some data := by
  rw [has] at h
  split at h
  · exact h
  · cases h

-- A poll says what the page has.
theorem Kept.poll {count : Nat} {status : Bytes} (h : page.Kept)
    (hhad : (page.poll t).had = some (count, status)) :
    ∃ data, page.has = some data ∧ count = data.messages.length ∧ status = data.status := by
  rw [Page.poll] at hhad
  dsimp only at hhad
  split at hhad
  next hcond =>
    obtain ⟨data, hrendered, hcount, hstatus⟩ := h.counted hcond.1
    obtain ⟨rfl, rfl⟩ := Prod.mk.inj (Option.some.inj hhad)
    refine ⟨data, ?_, by omega, hstatus⟩
    rw [has, if_pos hcond.1, hrendered]
  · cases hhad

-- All a response can do to the page: nothing, back to the form, or a ticket
-- rendered.
theorem receive_cases (page : Page) (t : Stored) (resp : Server.Response) :
    page.receive t resp = page ∨
    page.receive t resp = showForm { page.stopPoll with ticketHidden := true } ∨
    ∃ data, json resp.body = some data ∧
      page.receive t resp = renderTicket { page with currentTicket := some data } data t := by
  unfold receive
  by_cases h304 : resp.code = 304
  · exact .inl (if_pos h304)
  by_cases h404 : resp.code = 404
  · rw [if_neg h304, if_pos h404]
    exact .inr (.inl rfl)
  by_cases hok : 200 ≤ resp.code ∧ resp.code < 300
  · rw [if_neg h304, if_neg h404, if_neg (not_not.mpr hok)]
    cases hjson : json resp.body with
    | none => exact .inl rfl
    | some data => exact .inr (.inr ⟨data, rfl, rfl⟩)
  · rw [if_neg h304, if_neg h404, if_pos hok]
    exact .inl rfl

theorem refreshI18n_cases (page : Page) : page.refreshI18n = page ∨
    ∃ data t, page.currentTicket = some data ∧ page.refreshI18n = page.renderTicket data t := by
  unfold refreshI18n
  split
  next data t hdata hstored => exact .inr ⟨data, t, hdata, rfl⟩
  · exact .inl rfl

-- A ticket that is shown anew has nothing rendered, and its first poll asks for all.
theorem showTicketView_has (page : Page) (t : Stored) : (page.showTicketView t).1.has = none :=
  if_neg (by decide : ¬ (-1 : Int) ≥ 0)

theorem showTicketView_poll (page : Page) (t : Stored) :
    (page.showTicketView t).2 = ⟨t, none⟩ := rfl

theorem showTicketView_kept (t : Stored) (h : page.currentTicket = page.rendered) :
    (page.showTicketView t).1.Kept :=
  ⟨h, fun hcount => absurd hcount (by decide : ¬ (-1 : Int) ≥ 0)⟩

theorem load_cases (stored : Option Stored) :
    load stored = ((initial stored).showForm, none) ∨
    ∃ t, load stored =
      (((initial stored).showTicketView t).1, some ((initial stored).showTicketView t).2) := by
  cases stored with
  | none => exact .inl rfl
  | some t =>
      rw [load]
      dsimp only
      split
      · exact .inr ⟨t, rfl⟩
      · exact .inl rfl

end Page

end DeltaFeedback.Web
