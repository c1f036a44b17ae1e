import DeltaFeedback.Server.Http

namespace DeltaFeedback.Web

open Text
open Server (Request Response TicketMessage)

-- A ticket and its read token, as the page keeps them in the browser's storage.
structure Stored where
  id : Bytes
  token : Bytes
deriving DecidableEq

@[ext] structure TicketData where
  status : Bytes
  messages : List TicketMessage
deriving DecidableEq

-- `resp.json()`, where the response has a ticket.
def json : Server.Body → Option TicketData
  | .Ticket status messages => some ⟨status, messages⟩
  | _ => none

-- A request for a ticket's state, with the count and the status the page already has.
structure Poll where
  ticket : Stored
  had : Option (Nat × Bytes)
deriving DecidableEq

def Poll.request (poll : Poll) : Request where
  header name := if name = utf8 "Authorization" then utf8 "Bearer " ++ poll.ticket.token else []
  remoteIpAddress := []
  urlParam name :=
    if name = utf8 "have_count" then poll.had.map fun (count, _) => decimal count
    else if name = utf8 "have_status" then poll.had.map fun (_, status) => status
    else none
  body := []

-- The variables of the script and what it has made of the document. `rendered`
-- is the badge and the list of messages; `replyForm` is none while the form is
-- hidden, and else the ticket it was last shown for.
structure Page where
  stored : Option Stored
  pollTimer : Option Stored
  currentTicket : Option TicketData
  lastMsgCount : Int
  lastStatus : Bytes
  formHidden : Bool
  ticketHidden : Bool
  ticketId : Bytes
  rendered : Option TicketData
  replyForm : Option Stored
  newBtnHidden : Bool
deriving DecidableEq

namespace Page

def stopPoll (page : Page) : Page := { page with pollTimer := none }

def showForm (page : Page) : Page := { page with formHidden := false }

-- The request of `poll`; what it does with the response is `receive`.
def poll (page : Page) (t : Stored) : Poll where
  ticket := t
  had :=
    if page.lastMsgCount ≥ 0 ∧ page.lastStatus ≠ [] then
      some (page.lastMsgCount.toNat, page.lastStatus)
    else none

-- The first tick comes at once.
def startPoll (page : Page) (t : Stored) : Page × Poll :=
  ({ page.stopPoll with pollTimer := some t }, page.stopPoll.poll t)

def showTicketView (page : Page) (t : Stored) : Page × Poll :=
  startPoll { page with
    lastMsgCount := -1
    lastStatus := []
    ticketHidden := false
    ticketId := t.id } t

def renderTicket (page : Page) (data : TicketData) (t : Stored) : Page :=
  let page := { page with
    rendered := some data
    lastMsgCount := data.messages.length
    lastStatus := data.status
    replyForm := if data.status = utf8 "awaiting_visitor" then some t else none }
  if data.status = utf8 "closed" then { page.stopPoll with newBtnHidden := false }
  else { page with newBtnHidden := true }

def receive (page : Page) (t : Stored) (resp : Response) : Page :=
  if resp.code = 304 then page
  else if resp.code = 404 then showForm { page.stopPoll with ticketHidden := true }
  else if ¬ (200 ≤ resp.code ∧ resp.code < 300) then page
  else
    match json resp.body with
    | some data => renderTicket { page with currentTicket := some data } data t
    | none => page

def refreshI18n (page : Page) : Page :=
  match page.currentTicket, page.stored with
  | some data, some t => page.renderTicket data t
  | _, _ => page

-- A click on `newBtn`.
def newTicket (page : Page) : Page := showForm { page.stopPoll with ticketHidden := true }

-- The end of `onSubmit` where the server has opened a ticket.
def submitted (page : Page) (t : Stored) : Page × Poll :=
  showTicketView { page with stored := some t, formHidden := true } t

-- The document as it is loaded.
def initial (stored : Option Stored) : Page where
  stored := stored
  pollTimer := none
  currentTicket := none
  lastMsgCount := -1
  lastStatus := []
  formHidden := true
  ticketHidden := true
  ticketId := []
  rendered := none
  replyForm := none
  newBtnHidden := true

-- The page after the script's first run, and the poll that leaves, if one does.
def load (stored : Option Stored) : Page × Option Poll :=
  match stored with
  | some t =>
      if t.id ≠ [] ∧ t.token ≠ [] then
        let (page, poll) := (initial stored).showTicketView t
        (page, some poll)
      else ((initial stored).showForm, none)
  | none => ((initial stored).showForm, none)

-- The ticket shown.
def shown (page : Page) : Option Bytes := if page.ticketHidden then none else some page.ticketId

end Page

end DeltaFeedback.Web
