import DeltaFeedback.Polling.Answers
import DeltaFeedback.Server.Confidentiality

namespace DeltaFeedback.Polling

open Text Interleaving Db
open Web (Stored TicketData Page)
open Feedback (sampleService)
open Server (sampleCrow openWorld)

section Runs

variable {Json : Type} (crow : Server.Crow Json) (service : Feedback.Service)

-- The server has answered the poll 304, or may yet do so.
def Sent.May304 (world : World) (sent : Sent) : Prop :=
  match sent.response with
  | some (response, _) => response.code = 304
  | none => ∃ later, Grows world later ∧ (answer crow service sent.poll false later).code = 304

-- A ticket is rendered in time: it is the one shown, and no poll of it that
-- says otherwise is left to be answered 304. A change of the language renders
-- again what has been rendered of the ticket shown.
def Timely (system : System) : Event → Prop
  | .Deliver i =>
      ∀ poll response world data id,
        system.polls[i]? = some ⟨poll, some (response, world)⟩ →
        Web.json response.body = some data → system.page.shown = some id →
        poll.ticket.id = id ∧
        ∀ sent ∈ system.polls.eraseIdx i, sent.poll.ticket.id = id →
          sent.May304 crow service system.world →
          sent.poll.had = some (data.messages.length, data.status)
  | .RefreshI18n =>
      system.page.shown ≠ none → system.page.currentTicket ≠ none → system.page.lastMsgCount ≥ 0
  | _ => True

def Runs (admits : System → Event → Prop) : System → System → Prop :=
  Relation.ReflTransGen fun system later =>
    ∃ event, admits system event ∧ step crow service system event = some later

-- Whichever poll of the ticket shown is told 304, what is rendered is what the
-- server had when it said so.
def NothingHidden (system : System) : Prop :=
  ∀ (i : Nat) (poll : Web.Poll) (response : Server.Response) (world : World),
    system.polls[i]? = some ⟨poll, some (response, world)⟩ →
    response.code = 304 → system.page.shown = some poll.ticket.id →
    system.page.rendered = ticketData world poll.ticket.id

-- The page has what a poll says it has, and what the poll was answered of.
def Agrees (page : Page) (sent : Sent) : Prop :=
  ∃ data, page.has = some data ∧ sent.poll.had = some (data.messages.length, data.status) ∧
    ∀ response world, sent.response = some (response, world) →
      ticketData world sent.poll.ticket.id = some data

structure Sound (system : System) : Prop where
  page : system.page.Kept
  shown : ∀ id data, system.page.shown = some id → system.page.has = some data →
    data.messages <+: ticketMessages system.world id
  answered : ∀ sent ∈ system.polls, ∀ response world, sent.response = some (response, world) →
    Grows world system.world ∧ ∃ limited, response = answer crow service sent.poll limited world
  agrees : ∀ sent ∈ system.polls, system.page.shown = some sent.poll.ticket.id →
    sent.May304 crow service system.world → Agrees system.page sent

variable {crow service} {system later : System} {world : World} {sent : Sent}

theorem Sent.May304.of_grows (hgrows : Grows system.world world)
    (h : sent.May304 crow service world) : sent.May304 crow service system.world := by
  unfold May304 at h ⊢
  split at h
  · exact h
  · obtain ⟨last, hlast, h304⟩ := h
    exact ⟨last, hgrows.trans hlast, h304⟩

-- Only a poll that says what the page has can be told 304.
theorem had_of_may304 {poll : Web.Poll} (h : (⟨poll, none⟩ : Sent).May304 crow service world) :
    poll.had ≠ none := by
  obtain ⟨last, -, h304⟩ := h
  obtain ⟨data, -, hhad⟩ := had_of_304 h304
  intro hnone
  rw [hnone] at hhad
  cases hhad

-- What stays of the polls when the page and the world stay.
theorem Sound.sublist {polls : List Sent} (h : Sound crow service system)
    (hpolls : polls.Sublist system.polls) : Sound crow service { system with polls } :=
  ⟨h.page, h.shown, fun sent hsent => h.answered sent (hpolls.subset hsent),
    fun sent hsent => h.agrees sent (hpolls.subset hsent)⟩

theorem Sound.write (h : Sound crow service system) (hgrows : Grows system.world world) :
    Sound crow service { system with world } := by
  refine ⟨h.page, fun id data hid hdata => (h.shown id data hid hdata).trans (hgrows.messages id),
    fun sent hsent response before htold => ?_, fun sent hsent hshown hmay => ?_⟩
  · obtain ⟨hbefore, hresponse⟩ := h.answered sent hsent response before htold
    exact ⟨hbefore.trans hgrows, hresponse⟩
  · exact h.agrees sent hsent hshown (hmay.of_grows hgrows)

-- A poll of the ticket shown says what the page has of it.
theorem Sound.asked (h : Sound crow service system) (t : Stored)
    (hmay : (⟨system.page.poll t, none⟩ : Sent).May304 crow service system.world) :
    Agrees system.page ⟨system.page.poll t, none⟩ := by
  obtain ⟨⟨count, status⟩, hhad⟩ := Option.ne_none_iff_exists'.mp (had_of_may304 hmay)
  obtain ⟨data, hhas, hcount, hstatus⟩ := h.page.poll hhad
  refine ⟨data, hhas, ?_, by simp⟩
  rw [← hcount, ← hstatus]
  exact hhad

theorem Sound.ask (h : Sound crow service system) (t : Stored) :
    Sound crow service (system.ask t) := by
  refine ⟨h.page, h.shown, fun sent hsent response before htold => ?_,
    fun sent hsent hshown hmay => ?_⟩
  · rcases List.mem_append.mp hsent with hold | hnew
    · exact h.answered sent hold response before htold
    · rw [List.mem_singleton.mp hnew] at htold
      cases htold
  · rcases List.mem_append.mp hsent with hold | hnew
    · exact h.agrees sent hold hshown hmay
    · rw [List.mem_singleton.mp hnew] at hmay ⊢
      exact h.asked t hmay

-- A poll that is told 304 said what the server has; the page has that too.
theorem Sound.answer (h : Sound crow service system) {i : Nat} {poll : Web.Poll} (limited : Bool)
    (hpoll : system.polls[i]? = some ⟨poll, none⟩) :
    Sound crow service { system with
      polls := system.polls.set i
        ⟨poll, some (Polling.answer crow service poll limited system.world, system.world)⟩ } := by
  have hmem := List.mem_of_getElem? hpoll
  refine ⟨h.page, h.shown, fun sent hsent response before htold => ?_,
    fun sent hsent hshown hmay => ?_⟩
  · rcases List.mem_or_eq_of_mem_set hsent with hold | rfl
    · exact h.answered sent hold response before htold
    · obtain ⟨rfl, rfl⟩ := Prod.mk.inj (Option.some.inj htold)
      exact ⟨.refl, limited, rfl⟩
  · rcases List.mem_or_eq_of_mem_set hsent with hold | rfl
    · exact h.agrees sent hold hshown hmay
    · obtain ⟨data, hdata, hhad⟩ := had_of_304 hmay
      have hmayBefore : (⟨poll, none⟩ : Sent).May304 crow service system.world := by
        cases limited with
        | true => exact absurd hmay (by simp [Polling.answer, Server.Response.error,
            Server.Response.text, Sent.May304])
        | false => exact ⟨system.world, .refl, hmay⟩
      obtain ⟨had, hhas, hsaid, -⟩ := h.agrees _ hmem hshown hmayBefore
      have hprefix := h.shown _ had hshown hhas
      rw [← messages_of_ticketData hdata] at hprefix
      obtain rfl := eq_of_count hprefix List.prefix_rfl (Option.some.inj (hsaid.symm.trans hhad))
      refine ⟨had, hhas, hsaid, fun response before htold => ?_⟩
      obtain ⟨-, rfl⟩ := Prod.mk.inj (Option.some.inj htold)
      exact hdata

-- A page that shows no other ticket, and has of it what it had.
theorem Sound.turn {page : Page} (h : Sound crow service system) (hkept : page.Kept)
    (hpage : ∀ id, page.shown = some id → system.page.shown = some id ∧
      page.has = system.page.has) : Sound crow service { system with page } := by
  refine ⟨hkept, fun id data hid hdata => ?_, h.answered, fun sent hsent hshown hmay => ?_⟩
  · obtain ⟨hsame, hhas⟩ := hpage id hid
    exact h.shown id data hsame (hhas ▸ hdata)
  · obtain ⟨hsame, hhas⟩ := hpage _ hshown
    obtain ⟨data, hdata, hrest⟩ := h.agrees sent hsent hsame hmay
    exact ⟨data, hhas.trans hdata, hrest⟩

theorem Sound.deliver {i : Nat} {poll : Web.Poll} {response : Server.Response}
    (h : Sound crow service system)
    (hpoll : system.polls[i]? = some ⟨poll, some (response, world)⟩)
    (htimely : Timely crow service system (.Deliver i)) :
    Sound crow service { system with
      page := system.page.receive poll.ticket response
      polls := system.polls.eraseIdx i } := by
  have hrest := h.sublist (List.eraseIdx_sublist system.polls i)
  rcases system.page.receive_cases poll.ticket response with
    hsame | hform | ⟨data, hjson, hrendered⟩
  · rw [hsame]
    exact hrest
  · rw [hform]
    exact hrest.turn ⟨h.page.current, h.page.counted⟩ fun id hid => by cases hid
  · rw [hrendered]
    obtain ⟨hbefore, limited, hresponse⟩ :=
      h.answered _ (List.mem_of_getElem? hpoll) response world rfl
    rw [hresponse] at hjson
    have hdata := data_of_json hjson
    have hprefix : data.messages <+: ticketMessages system.world poll.ticket.id :=
      messages_of_ticketData hdata ▸ hbefore.messages poll.ticket.id
    refine ⟨Page.renderTicket_kept _ _ _ rfl, fun id other hid hhas => ?_, hrest.answered,
      fun sent hsent hshown hmay => ?_⟩
    · rw [Page.renderTicket_shown] at hid
      rw [Page.renderTicket_has] at hhas
      obtain ⟨hticket, -⟩ := htimely poll response world data id hpoll (hresponse ▸ hjson) hid
      obtain rfl := Option.some.inj hhas
      exact hticket ▸ hprefix
    · rw [Page.renderTicket_shown] at hshown
      obtain ⟨hticket, hothers⟩ :=
        htimely poll response world data _ hpoll (hresponse ▸ hjson) hshown
      have hhad := hothers sent hsent rfl hmay
      refine ⟨data, Page.renderTicket_has _ _ _, hhad, fun later before htold => ?_⟩
      -- It was answered 304, so it is the same ticket at the same count.
      obtain ⟨hgrows, othersLimited, hlater⟩ := hrest.answered sent hsent later before htold
      have h304 : later.code = 304 := by
        simpa only [Sent.May304, htold] using hmay
      rw [hlater] at h304
      obtain ⟨seen, hseen, hsaid⟩ := had_of_304 h304
      have hseenPrefix := messages_of_ticketData hseen ▸ hgrows.messages sent.poll.ticket.id
      rw [hticket] at hprefix
      rw [hseen, eq_of_count hprefix hseenPrefix (Option.some.inj (hhad.symm.trans hsaid))]

theorem Sound.submitted {t : Stored} (h : Sound crow service system)
    (hnew : ¬ ∃ sent ∈ system.polls, sent.poll.ticket.id = t.id) :
    Sound crow service { system with
      page := (system.page.submitted t).1
      polls := system.polls ++ [⟨(system.page.submitted t).2, none⟩] } := by
  refine ⟨Page.showTicketView_kept t h.page.current, fun id data hid hdata => ?_,
    fun sent hsent response before htold => ?_, fun sent hsent hshown hmay => ?_⟩
  · rw [Page.submitted, Page.showTicketView_has] at hdata
    cases hdata
  · rcases List.mem_append.mp hsent with hold | hadded
    · exact h.answered sent hold response before htold
    · rw [List.mem_singleton.mp hadded] at htold
      cases htold
  · rcases List.mem_append.mp hsent with hold | hadded
    · exact absurd ⟨sent, hold, (Option.some.inj hshown).symm⟩ hnew
    · rw [List.mem_singleton.mp hadded, Page.submitted, Page.showTicketView_poll] at hmay
      exact absurd rfl (had_of_may304 hmay)

theorem Sound.refreshI18n (h : Sound crow service system)
    (htimely : Timely crow service system .RefreshI18n) :
    Sound crow service { system with page := system.page.refreshI18n } := by
  rcases system.page.refreshI18n_cases with hsame | ⟨data, t, hdata, hrendered⟩
  · rw [hsame]
    exact h
  · rw [hrendered]
    refine h.turn (Page.renderTicket_kept _ _ _ hdata) fun id hid => ?_
    rw [Page.renderTicket_shown] at hid
    have hcount := htimely (by simp [hid]) (by simp [hdata])
    rw [Page.renderTicket_has, Page.has, if_pos hcount, ← h.page.current, hdata]
    exact ⟨hid, rfl⟩

-- What a step preserves, whichever it is.
theorem Sound.step {event : Event} (h : Sound crow service system)
    (htimely : Timely crow service system event)
    (hstep : step crow service system event = some later) : Sound crow service later := by
  cases event with
  | Write op =>
      simp only [Polling.step] at hstep
      split_ifs at hstep with hop
      cases hexec : exec op system.world with
      | error exn => simp [hexec] at hstep
      | ok taken =>
          simp only [hexec, Option.some.injEq] at hstep
          subst hstep
          exact h.write (.single ⟨op, taken.1, hop, hexec⟩)
  | Answer i limited =>
      simp only [Polling.step] at hstep
      split at hstep
      next poll hpoll =>
        obtain rfl := Option.some.inj hstep
        exact h.answer limited hpoll
      · cases hstep
  | Deliver i =>
      simp only [Polling.step] at hstep
      split at hstep
      next poll response world hpoll =>
        obtain rfl := Option.some.inj hstep
        exact h.deliver hpoll htimely
      · cases hstep
  | Lose i =>
      obtain rfl := Option.some.inj hstep
      exact h.sublist (List.eraseIdx_sublist _ _)
  | Tick =>
      obtain ⟨t, -, rfl⟩ := Option.map_eq_some_iff.mp hstep
      exact h.ask t
  | Reply =>
      simp only [Polling.step] at hstep
      split_ifs at hstep
      obtain ⟨t, -, rfl⟩ := Option.map_eq_some_iff.mp hstep
      exact ⟨h.page, h.shown, h.answered, h.agrees⟩
  | Replied i ok =>
      obtain ⟨t, -, rfl⟩ := Option.map_eq_some_iff.mp hstep
      have hreplies : Sound crow service { system with replies := system.replies.eraseIdx i } :=
        ⟨h.page, h.shown, h.answered, h.agrees⟩
      cases ok with
      | true => exact hreplies.ask t
      | false => exact hreplies
  | NewTicket =>
      simp only [Polling.step] at hstep
      split_ifs at hstep
      obtain rfl := Option.some.inj hstep
      exact h.turn ⟨h.page.current, h.page.counted⟩ fun id hid => by cases hid
  | Submitted t =>
      simp only [Polling.step] at hstep
      split_ifs at hstep with hguard
      obtain rfl := Option.some.inj hstep
      exact h.submitted fun hpolled => hguard (.inr hpolled)
  | RefreshI18n =>
      obtain rfl := Option.some.inj hstep
      exact h.refreshI18n htimely

theorem sound_start (world : World) (stored : Option Stored) :
    Sound crow service (.start world stored) := by
  rcases Page.load_cases stored with hform | ⟨t, hview⟩
  · rw [System.start, hform]
    refine ⟨⟨rfl, fun hcount => absurd hcount (by decide : ¬ (-1 : Int) ≥ 0)⟩,
      fun id data hid => ?_, by simp, by simp⟩
    cases hid
  · rw [System.start, hview]
    refine ⟨Page.showTicketView_kept t rfl, fun id data hid hdata => ?_,
      fun sent hsent response before htold => ?_, fun sent hsent hshown hmay => ?_⟩
    · rw [Page.showTicketView_has] at hdata
      cases hdata
    · obtain rfl := List.mem_singleton.mp hsent
      cases htold
    · obtain rfl := List.mem_singleton.mp hsent
      exact absurd rfl (had_of_may304 hmay)

theorem Sound.nothingHidden (h : Sound crow service system) : NothingHidden system := by
  intro i poll response world hpoll h304 hshown
  obtain ⟨data, hhas, -, hdata⟩ := h.agrees _ (List.mem_of_getElem? hpoll) hshown h304
  rw [Page.rendered_of_has hhas, hdata response world rfl]

theorem sound_of_runs {stored : Option Stored}
    (hrun : Runs crow service (Timely crow service) (.start world stored) system) :
    Sound crow service system := by
  induction hrun with
  | refl => exact sound_start world stored
  | tail _ hstep ih =>
      obtain ⟨event, htimely, hstep⟩ := hstep
      exact ih.step htimely hstep

-- Every run in which tickets are rendered in time: a 304 hides no news.
theorem nothing_hidden (crow : Server.Crow Json) (service : Feedback.Service) (world : World)
    (stored : Option Stored) (system : System)
    (hrun : Runs crow service (Timely crow service) (.start world stored) system) :
    NothingHidden system :=
  (sound_of_runs hrun).nothingHidden

theorem runs_write {admits : System → Event → Prop}
    (hadmits : ∀ system op, admits system (.Write op)) (hgrows : Grows system.world world) :
    Runs crow service admits system { system with world } := by
  induction hgrows with
  | refl => exact .refl
  | @tail before last _ hstep ih =>
      obtain ⟨op, result, hop, hexec⟩ := hstep
      refine ih.tail ⟨.Write op, hadmits _ op, ?_⟩
      simp only [Polling.step, if_pos hop, hexec]

-- A poll of the ticket shown that says otherwise than what is rendered: where
-- it may be told 304, it may come to hide news.
theorem hides_of_may304 {admits : System → Event → Prop} {data : TicketData}
    (hwrites : ∀ system op, admits system (.Write op))
    (hanswers : ∀ system i, admits system (.Answer i false)) (hsent : sent ∈ system.polls)
    (hanswered : ∀ response before, sent.response = some (response, before) →
      ∃ limited, response = answer crow service sent.poll limited before)
    (hshown : system.page.shown = some sent.poll.ticket.id)
    (hrendered : system.page.rendered = some data)
    (hmay : sent.May304 crow service system.world)
    (hhad : sent.poll.had ≠ some (data.messages.length, data.status)) :
    ∃ later, Runs crow service admits system later ∧ ¬ NothingHidden later := by
  obtain ⟨i, hi, hget⟩ := List.getElem_of_mem hsent
  have hpoll : system.polls[i]? = some sent := hget ▸ List.getElem?_eq_getElem hi
  obtain ⟨poll, response⟩ := sent
  have hdiffers {limited : Bool} {before : World}
      (h304 : (answer crow service poll limited before).code = 304) :
      system.page.rendered ≠ ticketData before poll.ticket.id := by
    intro hsame
    obtain ⟨seen, hseen, hsaid⟩ := had_of_304 h304
    obtain rfl := Option.some.inj (hrendered.symm.trans (hsame.trans hseen))
    exact hhad hsaid
  cases response with
  | some told =>
      obtain ⟨response, before⟩ := told
      obtain ⟨limited, hresponse⟩ := hanswered response before rfl
      have h304 : response.code = 304 := hmay
      refine ⟨system, .refl, fun hclaim => ?_⟩
      exact hdiffers (hresponse ▸ h304) (hclaim i poll response before hpoll h304 hshown)
  | none =>
      obtain ⟨last, hlast, h304⟩ := hmay
      have hwritten : Runs crow service admits system { system with world := last } :=
        runs_write hwrites hlast
      have hanswer : step crow service { system with world := last } (.Answer i false) =
          some { system with
            world := last
            polls := system.polls.set i ⟨poll, some (answer crow service poll false last, last)⟩ } := by
        simp only [Polling.step, hpoll]
      refine ⟨_, hwritten.tail ⟨.Answer i false, hanswers _ i, hanswer⟩, fun hclaim => ?_⟩
      refine hdiffers h304 (hclaim i poll _ last ?_ h304 hshown)
      simp [hi]

theorem receive_of_json {page : Page} {poll : Web.Poll} {data : TicketData} {limited : Bool}
    (h : Web.json (answer crow service poll limited world).body = some data) :
    page.receive poll.ticket (answer crow service poll limited world) =
      Page.renderTicket { page with currentTicket := some data } data poll.ticket := by
  rcases answer_cases crow service poll limited world with ⟨code, text, hcode, heq⟩ | ⟨t, ht, heq⟩
  · rw [heq] at h
    cases h
  · rw [heq] at h ⊢
    split at h
    · cases h
    next hchanged =>
      rw [if_neg hchanged]
      obtain rfl := Option.some.inj h
      rfl

-- Of the ticket shown, nothing less will do: a ticket that is rendered too late
-- can be followed by a 304 that hides news.
theorem hides_of_late (crow : Server.Crow Json) (service : Feedback.Service) (world : World)
    (stored : Option Stored) (system : System)
    (hrun : Runs crow service (Timely crow service) (.start world stored) system) (i : Nat)
    (poll : Web.Poll) (response : Server.Response) (before : World) (data : TicketData) (sent : Sent)
    (hpoll : system.polls[i]? = some ⟨poll, some (response, before)⟩)
    (hjson : Web.json response.body = some data)
    (hsent : sent ∈ system.polls.eraseIdx i)
    (hshown : system.page.shown = some sent.poll.ticket.id)
    (hmay : sent.May304 crow service system.world)
    (hhad : sent.poll.had ≠ some (data.messages.length, data.status)) :
    ∃ later, Runs crow service (fun _ event => event ≠ .RefreshI18n) system later ∧
      ¬ NothingHidden later := by
  have hsound := sound_of_runs hrun
  obtain ⟨-, limited, hresponse⟩ :=
    hsound.answered _ (List.mem_of_getElem? hpoll) response before rfl
  have hpage : system.page.receive poll.ticket response =
      Page.renderTicket { system.page with currentTicket := some data } data poll.ticket := by
    rw [hresponse] at hjson ⊢
    exact receive_of_json hjson
  have hdeliver : step crow service system (.Deliver i) = some { system with
      page := Page.renderTicket { system.page with currentTicket := some data } data poll.ticket
      polls := system.polls.eraseIdx i } := by
    simp only [Polling.step, hpoll, hpage]
  have hmem := (List.eraseIdx_sublist system.polls i).subset hsent
  obtain ⟨later, hlater, hhides⟩ : ∃ later, Runs crow service (fun _ event => event ≠ .RefreshI18n)
      { system with
        page := Page.renderTicket { system.page with currentTicket := some data } data poll.ticket
        polls := system.polls.eraseIdx i } later ∧ ¬ NothingHidden later :=
    hides_of_may304 (fun _ _ => by simp) (fun _ _ => by simp) hsent
      (fun response before htold => (hsound.answered sent hmem response before htold).2)
      ((Page.renderTicket_shown _ _ _).trans hshown) (Page.renderTicket_rendered _ _ _) hmay hhad
  exact ⟨later, .head ⟨.Deliver i, by simp, hdeliver⟩ hlater, hhides⟩

-- The answer to the only poll there is.
theorem timely_of_single {id : Bytes}
    (hpolls : system.polls.map (fun sent => sent.poll.ticket.id) = [id])
    (hshown : system.page.shown = some id) : Timely crow service system (.Deliver 0) := by
  intro poll response world data other hpoll hjson hother
  obtain ⟨sent, hsingle, hid⟩ := List.map_eq_singleton_iff.mp hpolls
  rw [hsingle] at hpoll ⊢
  obtain rfl := Option.some.inj hpoll
  refine ⟨?_, by simp⟩
  exact hid.trans (Option.some.inj (hshown.symm.trans hother))

end Runs

def after (system : System) (event : Event) : System :=
  (step sampleCrow sampleService system event).getD system

theorem runs_after {admits : System → Event → Prop} {system later : System} (event : Event)
    (h : Runs sampleCrow sampleService admits system later) (hadmits : admits later event)
    (hstep : (step sampleCrow sampleService later event).isSome) :
    Runs sampleCrow sampleService admits system (after later event) := by
  obtain ⟨last, hlast⟩ := Option.isSome_iff_exists.mp hstep
  refine h.tail ⟨event, hadmits, ?_⟩
  rw [after, hlast]
  rfl

-- Events that can all be taken, one after another.
def takes (system : System) : List Event → Bool
  | [] => true
  | event :: events =>
      (step sampleCrow sampleService system event).isSome && takes (after system event) events

theorem runs_foldl {admits : System → Event → Prop} {system later : System} {events : List Event}
    (h : Runs sampleCrow sampleService admits system later)
    (hadmits : ∀ between, ∀ event ∈ events, admits between event)
    (htakes : takes later events) :
    Runs sampleCrow sampleService admits system (events.foldl after later) := by
  induction events generalizing later with
  | nil => exact h
  | cons event events ih =>
      obtain ⟨hstep, hrest⟩ := Bool.and_eq_true_iff.mp htakes
      have hevents := fun between => List.forall_mem_cons.mp (hadmits between)
      exact ih (runs_after event h (hevents later).1 hstep) (fun between => (hevents between).2) hrest

-- A ticket is rendered, and the next poll is told that nothing has changed.
def loaded : System := .start openWorld (some ⟨utf8 "A3F2K9", utf8 "read-token"⟩)

def rendered : System := after (after loaded (.Answer 0 false)) (.Deliver 0)

def polled : System := after (after rendered .Tick) (.Answer 0 false)

theorem nothing_hidden_polled :
    polled.polls.map (fun sent => sent.response.map fun told => told.1.code) = [some 304] ∧
    polled.page.shown = some (utf8 "A3F2K9") ∧
    polled.page.rendered.map (fun data => data.messages.length) = some 2 ∧
    NothingHidden polled := by
  have hanswered := runs_after (.Answer 0 false)
    (.refl : Runs sampleCrow sampleService (Timely sampleCrow sampleService) loaded loaded) trivial
    (by decide +kernel)
  have hids : (after loaded (.Answer 0 false)).polls.map (fun sent => sent.poll.ticket.id) =
      [utf8 "A3F2K9"] := by decide +kernel
  have hrendered := runs_after (.Deliver 0) hanswered
    (timely_of_single hids (by decide +kernel)) (by decide +kernel)
  have hpolled := runs_after (.Answer 0 false)
    (runs_after .Tick hrendered trivial (by decide +kernel)) trivial (by decide +kernel)
  exact ⟨by decide +kernel, by decide +kernel, by decide +kernel,
    nothing_hidden sampleCrow sampleService openWorld
      (some ⟨utf8 "A3F2K9", utf8 "read-token"⟩) polled hpolled⟩

-- A ticket the page remembers, and a second one.
def first : Stored := ⟨utf8 "A3F2K9", utf8 "first-token"⟩

def second : Stored := ⟨utf8 "B7XYZ2", utf8 "second-token"⟩

def opens (t : Stored) (text : Bytes) : List Event :=
  [.Write (.TicketInsert ⟨t.id, (sampleService.crypto.sha256 t.token).val, utf8 "Ann", utf8 "en",
      .AwaitingAdmin, 1700000000, none⟩),
    .Write (.MessageInsert ⟨t.id, .Visitor, text, 1700000000, none, none⟩)]

-- The answer to the first poll of the first ticket is late: the ticket has been
-- closed and another one is shown when it comes.
def late : List Event :=
  opens first (utf8 "hello") ++
    [.Answer 0 false, .Write (.TicketClose first.id 1700000100), .Tick, .Answer 1 false,
      .Deliver 1, .NewTicket] ++
    opens second (utf8 "another matter") ++
    [.Submitted second, .Answer 1 false, .Deliver 1, .Deliver 0, .Tick, .Answer 0 false]

def misled : System := late.foldl after (.start World.empty (some first))

-- It is rendered in the view of the second ticket, has as many messages and the
-- same status, and the polls of the second ticket are told 304.
theorem hidden_by_late : ¬ ∀ (world : World) (stored : Option Stored) (system : System),
    Runs sampleCrow sampleService (fun _ event => event ≠ .RefreshI18n) (.start world stored)
      system → NothingHidden system := by
  intro hclaim
  have hrun := runs_foldl
    (.refl : Runs sampleCrow sampleService (fun _ event => event ≠ .RefreshI18n)
      (.start World.empty (some first)) (.start World.empty (some first)))
    (fun _ event hevent => by rintro rfl; simp [late, opens] at hevent)
    (by decide +kernel : takes _ late = true)
  have htold : (misled.polls[0]?.map fun sent => (sent.poll.ticket.id,
      sent.response.map fun told => (told.1.code,
        (ticketData told.2 second.id).map fun data => data.messages.map fun m => m.body))) =
      some (second.id, some (304, some [utf8 "another matter"])) := by decide +kernel
  have hshown : misled.page.shown = some second.id := by decide +kernel
  have hrendered : misled.page.rendered.map (fun data => data.messages.map fun m => m.body) =
      some [utf8 "hello"] := by decide +kernel
  obtain ⟨⟨poll, response⟩, hpoll, hsent⟩ := Option.map_eq_some_iff.mp htold
  obtain ⟨hid, hresponse⟩ := Prod.mk.inj hsent
  obtain ⟨⟨response, world⟩, rfl, htold⟩ := Option.map_eq_some_iff.mp hresponse
  obtain ⟨h304, hdata⟩ := Prod.mk.inj htold
  have hsame := hclaim World.empty (some first) misled hrun 0 poll response world hpoll h304
    (hshown.trans (congrArg some hid.symm))
  rw [hsame, hid, hdata] at hrendered
  revert hrendered
  decide +kernel

end DeltaFeedback.Polling
