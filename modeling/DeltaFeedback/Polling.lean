import DeltaFeedback.Server.Handlers
import DeltaFeedback.Web.Page
import Mathlib.Logic.Relation

namespace DeltaFeedback

open Text Interleaving Db
open Web (Stored TicketData Page)

def ticketMessages (world : World) (id : Bytes) : List Server.TicketMessage :=
  (world.db.messagesByTicket id).map Server.ticketMessage

-- A ticket on the server, as a poll returns it.
def ticketData (world : World) (id : Bytes) : Option TicketData :=
  (world.db.ticket? id).map fun t => ⟨t.status.toString, ticketMessages world id⟩

-- The statements that open tickets, append messages or write a status: all but
-- the purge of tickets.
def Op.appends : Op → Bool
  | .TicketPurgeInactive _ => false
  | _ => true

-- What the server's other threads can make of the world.
def Grows : World → World → Prop :=
  Relation.ReflTransGen fun world later =>
    ∃ op result, op.appends ∧ exec op world = .ok (result, later)

namespace Polling

-- A poll on its way, and the response, with the world it was given in, once
-- the server has answered.
structure Sent where
  poll : Web.Poll
  response : Option (Server.Response × World)

-- The page, the server, the page's polls and the replies it has posted.
structure System where
  page : Page
  world : World
  polls : List Sent
  replies : List Stored

inductive Event
  | Write (op : Op)
  | Answer (i : Nat) (limited : Bool)
  | Deliver (i : Nat)
  | Lose (i : Nat)
  | Tick
  | Reply
  | Replied (i : Nat) (ok : Bool)
  | NewTicket
  | Submitted (t : Stored)
  | RefreshI18n

namespace System

def start (world : World) (stored : Option Stored) : System :=
  let (page, poll) := Page.load stored
  ⟨page, world, poll.toList.map fun poll => ⟨poll, none⟩, []⟩

def ask (system : System) (t : Stored) : System :=
  { system with polls := system.polls ++ [⟨system.page.poll t, none⟩] }

end System

section Steps

variable {Json : Type} (crow : Server.Crow Json) (service : Feedback.Service)

-- The server's answer to a poll, given in one step.
def answer (poll : Web.Poll) (limited : Bool) (world : World) : Server.Response :=
  if limited then .error 429 "rate_limited"
  else Server.respond crow
    ((Server.getTicket service poll.request poll.ticket.id).eval exec world).1

-- A step of the system, where it can take it. The responses come in any order,
-- or not at all; a ticket that is shown for the first time is not being polled yet.
def step (system : System) : Event → Option System
  | .Write op =>
      if op.appends then
        match exec op system.world with
        | .ok (_, world) => some { system with world }
        | .error _ => none
      else none
  | .Answer i limited =>
      match system.polls[i]? with
      | some ⟨poll, none⟩ =>
          let response := answer crow service poll limited system.world
          some { system with polls := system.polls.set i ⟨poll, some (response, system.world)⟩ }
      | _ => none
  | .Deliver i =>
      match system.polls[i]? with
      | some ⟨poll, some (response, _)⟩ =>
          some { system with
            page := system.page.receive poll.ticket response
            polls := system.polls.eraseIdx i }
      | _ => none
  | .Lose i => some { system with polls := system.polls.eraseIdx i }
  | .Tick => system.page.pollTimer.map system.ask
  | .Reply =>
      if system.page.ticketHidden then none
      else system.page.replyForm.map fun t => { system with replies := system.replies ++ [t] }
  | .Replied i ok =>
      system.replies[i]?.map fun t =>
        let system := { system with replies := system.replies.eraseIdx i }
        if ok then system.ask t else system
  | .NewTicket =>
      if system.page.ticketHidden ∨ system.page.newBtnHidden then none
      else some { system with page := system.page.newTicket }
  | .Submitted t =>
      if system.page.formHidden ∨ ∃ sent ∈ system.polls, sent.poll.ticket.id = t.id then none
      else
        let (page, poll) := system.page.submitted t
        some { system with page, polls := system.polls ++ [⟨poll, none⟩] }
  | .RefreshI18n => some { system with page := system.page.refreshI18n }

end Steps

end Polling

end DeltaFeedback
