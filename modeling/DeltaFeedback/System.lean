import DeltaFeedback.Concurrency.Retention
import DeltaFeedback.Interleaving.Lives
import DeltaFeedback.Server.Handlers

namespace DeltaFeedback.System

open Text Interleaving Db

-- What the threads of a running program do: the Crow workers answer requests,
-- the bot takes a message, the purge thread makes a round.
inductive Job
  | Request (call : Server.ApiCall)
  | Incoming (dc : Dc.Delivery) (now : Int) (msg : Dc.IncomingMsg)
  | Purge (retentionDays : Int32) (now : Int)

-- A request past its rate limit is answered, or Crow's JSON reader throws.
abbrev Answer := Option (Except Bytes Server.Response)

namespace Job

-- Whose message it is.
def fromId? : Job → Option UInt32
  | .Incoming _ _ msg => some msg.fromId
  | _ => none

variable {Json : Type} (crow : Server.Crow Json) (service : Feedback.Service)

def prog : Job → Proc Answer
  | .Request call => some <$> Server.handler crow service call
  | .Incoming dc now msg => (fun _ => none) <$> Dc.incomingMsg dc now msg
  | .Purge retentionDays now => (fun _ => none) <$> Concurrency.purgeThread retentionDays now

end Job

abbrev SystemView (ι : Type) := View Op Op.Result World SqlError Answer ι

abbrev SystemPool (ι : Type) := Pool Op Op.Result World SqlError Answer ι

-- A new process keeps the database, and Delta Chat has what it was handed.
def reopen (world : World) : World :=
  { world with lastInsertRowid := 0, changes := 0, owner := 0 }

-- Before the threads are started, Bot::Bot restores the owner.
def boot (world : World) : World := (Dc.bot.eval exec (reopen world)).2

-- The bot's thread takes one message after the other.
def BotInTurn {ι : Type} [DecidableEq ι] (jobs : ι → Job) :
    Pool.Condition Op Op.Result World SqlError Answer ι :=
  fun view i _ => (jobs i).fromId?.isSome → ∀ j, j ≠ i → (jobs j).fromId?.isSome →
    view.trail j = [] ∨ (view.result j).isSome

-- The program as it runs: cmd_run from Bot::Bot on.
def process {ι : Type} [DecidableEq ι] {Json : Type} (crow : Server.Crow Json)
    (service : Feedback.Service) : Process Op Op.Result World SqlError Answer Job ι where
  boot := boot
  prog job := job.prog crow service
  admits := BotInTurn

end DeltaFeedback.System
