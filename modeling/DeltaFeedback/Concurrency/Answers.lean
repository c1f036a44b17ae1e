import DeltaFeedback.Concurrency.Turn
import DeltaFeedback.Pow.Challenge.Theorems

namespace DeltaFeedback.Concurrency

open Text Interleaving Db
open Feedback (sampleService)

variable {ι : Type} [DecidableEq ι]

-- A reply with the right read token and a challenge that is valid and fresh.
structure Ready (service : Feedback.Service) (world : World) (id : Bytes)
    (input : Feedback.ReplyInput) (env : Feedback.Env) : Prop where
  ticket : input.ticketId = id
  token : ∃ t ∈ world.db.ticket? id, (service.crypto.sha256 input.readToken).val = t.readTokenHash
  pow : (service.replyVerdict input env).1 = .Ok
  fresh : ¬ world.db.consumed (service.replyVerdict input env).2

def challenge? (service : Feedback.Service) : Call → Option Bytes
  | .SubmitReply input env => some (service.replyVerdict input env).2
  | _ => none

-- Nobody writes between a reply's claim of its challenge and its sqlite3_changes.
def ClaimsApart : Pool.Condition Op Op.Result World SqlError Outcome ι :=
  fun view i op => op = .Changes → ∀ event ∈ view.since i, event.op.isWrite = false

-- What a reply that was ready can be told.
inductive Answer (service : Feedback.Service) (id : Bytes) (input : Feedback.ReplyInput)
    (view : CallView ι) (i : ι) : Except SqlError Outcome → Prop
  | Stored (error : Feedback.ReplyError) (herror : error = .Ok ∨ error = .SendFailed)
      (h : ∃ taken ∈ view.trail i, taken.1.stores id .Visitor = true) :
      Answer service id input view i (.ok (.Replied error))
  | NotAwaitingVisitor : Answer service id input view i (.ok (.Replied .NotAwaitingVisitor))
  | Closed (h : ∃ t ∈ view.world.db.ticket? id, t.status = .Closed) :
      Answer service id input view i (.ok (.Replied .Closed))
  | BadField (h : service.limits.validateReply input.body ≠ .Ok) :
      Answer service id input view i (.ok (.Replied .BadField))

structure AnswerInv (service : Feedback.Service) (calls : ι → Call) (id hash : Bytes)
    (view : CallView ι) : Prop where
  ticket : ∃ t, view.world.db.ticket? id = some t ∧ t.readTokenHash = hash
  reads : ∀ i found, ⟨.TicketGetById id, found⟩ ∈ view.trail i →
    ∃ t : Ticket, found = some t ∧ t.readTokenHash = hash ∧
      (t.status = .Closed → ∃ t ∈ view.world.db.ticket? id, t.status = .Closed)
  consumed : ∀ i challengeId, challenge? service (calls i) = some challengeId →
    view.world.db.consumed challengeId →
    ∃ expiresAt, ⟨.ReplayInsert challengeId expiresAt, ()⟩ ∈ view.trail i
  claimed : ∀ i challengeId expiresAt rest,
    view.trail i = ⟨.ReplayInsert challengeId expiresAt, ()⟩ :: rest →
    (∀ event ∈ view.since i, event.op.isWrite = false) → view.world.changes = 1
  counted : ∀ i n, ⟨.Changes, n⟩ ∈ view.trail i → n = 1
  found : ∀ i other t, ⟨.TicketGetById other, some t⟩ ∈ view.trail i →
    (view.world.db.ticket? other).isSome
  returned : ∀ i exn, view.result i ≠ some (.error exn)

variable {service : Feedback.Service} {call : Call} {side : Sender} {trail : Trail}

theorem challenge_of_legal {challengeId : Bytes} {expiresAt : Int} (hside : call.side? = some side)
    (h : call.Legal service (⟨.ReplayInsert challengeId expiresAt, ()⟩ :: trail)) :
    challenge? service call = some challengeId ∧
      ∀ other at', ⟨.ReplayInsert other at', ()⟩ ∉ trail := by
  cases call with
  | SubmitReply input env =>
      cases h with
      | Consumed t h => exact ⟨rfl, by simp⟩
  | RouteAdminMsg dc now owner msg =>
      cases h with
      | LookedUp quoted _ hlookup => cases hlookup
  | _ => simp [Call.side?] at hside

theorem claim_of_legal {n : Nat} (hside : call.side? = some side)
    (h : call.Legal service (⟨.Changes, n⟩ :: trail)) :
    ∃ challengeId expiresAt rest, trail = ⟨.ReplayInsert challengeId expiresAt, ()⟩ :: rest := by
  cases call with
  | SubmitReply input env =>
      cases h with
      | Counted t _ h => exact ⟨_, _, _, rfl⟩
  | RouteAdminMsg dc now owner msg =>
      cases h with
      | LookedUp quoted _ hlookup => cases hlookup
  | _ => simp [Call.side?] at hside

theorem onReplay_of_legal {op : Op} {result : op.Result} (hside : call.side? = some side)
    (h : call.Legal service (⟨op, result⟩ :: trail)) (hop : op.onReplay = true) :
    ∃ challengeId expiresAt, op = .ReplayInsert challengeId expiresAt := by
  cases op with
  | ReplayInsert challengeId expiresAt => exact ⟨challengeId, expiresAt, rfl⟩
  | ReplayPurge now =>
      cases call with
      | SubmitReply input env => cases h
      | RouteAdminMsg dc now owner msg =>
          cases h with
          | LookedUp quoted _ hlookup => cases hlookup
      | _ => simp [Call.side?] at hside
  | _ => simp [Op.onReplay] at hop

-- A conversation keeps a ticket, its token and its end.
theorem token_of_exec {op : Op} {result : op.Result} {before world : World} {id : Bytes}
    {t : TicketRow} (hside : call.side? = some side) (hlegal : call.Legal service (⟨op, result⟩ :: trail))
    (hexec : exec op before = .ok (result, world)) (ht : before.db.ticket? id = some t) :
    ∃ now, world.db.ticket? id = some now ∧ now.readTokenHash = t.readTokenHash ∧
      (t.status = .Closed → now.status = .Closed) := by
  obtain ⟨now, hnow, hstep⟩ := Call.ticket_of_exec hside hlegal hexec ht
  refine ⟨now, hnow, ?_⟩
  rcases hstep with rfl | ⟨hopen, rfl | ⟨closedAt, -, rfl⟩⟩
  · exact ⟨rfl, fun hclosed => hclosed⟩
  · exact ⟨rfl, fun hclosed => absurd hclosed hopen⟩
  · exact ⟨rfl, fun _ => rfl⟩

variable {calls : ι → Call} {id hash : Bytes} {view : CallView ι} {i : ι} {op : Op}
  {result : op.Result} {world : World}

theorem AnswerInv.reads_advance (h : AnswerInv service calls id hash view)
    (hside : (calls i).side? = some side)
    (hlegal : (calls i).Legal service (⟨op, result⟩ :: view.trail i))
    (hexec : exec op view.world = .ok (result, world)) (j : ι) (found : Option Ticket)
    (hread : ⟨.TicketGetById id, found⟩ ∈ (view.advance i op result world).trail j) :
    ∃ t : Ticket, found = some t ∧ t.readTokenHash = hash ∧
      (t.status = .Closed → ∃ t ∈ world.db.ticket? id, t.status = .Closed) := by
  have hearlier : ⟨.TicketGetById id, found⟩ ∈ view.trail j → ∃ t : Ticket, found = some t ∧
      t.readTokenHash = hash ∧ (t.status = .Closed → ∃ t ∈ world.db.ticket? id, t.status = .Closed) := by
    intro hmem
    obtain ⟨t, rfl, hhash, hclosed⟩ := h.reads j found hmem
    refine ⟨t, rfl, hhash, fun hstatus => ?_⟩
    obtain ⟨row, hrow, hrowClosed⟩ := hclosed hstatus
    obtain ⟨now, hnow, -, hstill⟩ := token_of_exec hside hlegal hexec hrow
    exact ⟨now, hnow, hstill hrowClosed⟩
  rcases (view.mem_trail_advance _ _ _ _).mp hread with ⟨-, hhead⟩ | hbefore
  · obtain rfl : op = .TicketGetById id := (congrArg Sigma.fst hhead).symm
    obtain rfl : found = result := by simpa using hhead
    obtain ⟨t, ht, hhash⟩ := h.ticket
    simp only [exec, Except.ok.injEq, Prod.mk.injEq] at hexec
    obtain ⟨rfl, rfl⟩ := hexec
    exact ⟨t.toTicket, by simp [ht], hhash, fun hstatus => ⟨t, ht, hstatus⟩⟩
  · exact hearlier hbefore

-- A challenge in pow_replay was claimed by the reply it belongs to.
theorem AnswerInv.consumed_advance (h : AnswerInv service calls id hash view)
    (hown : ∀ i j challengeId, challenge? service (calls i) = some challengeId →
      challenge? service (calls j) = some challengeId → i = j)
    (hside : (calls i).side? = some side)
    (hlegal : (calls i).Legal service (⟨op, result⟩ :: view.trail i))
    (hexec : exec op view.world = .ok (result, world)) (j : ι) (challengeId : Bytes)
    (hj : challenge? service (calls j) = some challengeId)
    (hconsumed : world.db.consumed challengeId) : ∃ expiresAt,
      ⟨.ReplayInsert challengeId expiresAt, ()⟩ ∈ (view.advance i op result world).trail j := by
  have hearlier : view.world.db.consumed challengeId → ∃ expiresAt,
      ⟨.ReplayInsert challengeId expiresAt, ()⟩ ∈ (view.advance i op result world).trail j := by
    intro hbefore
    obtain ⟨expiresAt, hmem⟩ := h.consumed j challengeId hj hbefore
    exact ⟨expiresAt, (view.mem_trail_advance _ _ _ _).mpr (.inr hmem)⟩
  cases hop : op.onReplay with
  | false => exact hearlier (by simpa only [Tables.consumed, replay_of_exec hop hexec] using hconsumed)
  | true =>
      obtain ⟨inserted, expiresAt, rfl⟩ := onReplay_of_legal hside hlegal hop
      rcases ((exec_replayInsert hexec).2 challengeId).mp hconsumed with hbefore | rfl
      · exact hearlier hbefore
      · obtain rfl := hown i j challengeId (challenge_of_legal hside hlegal).1 hj
        exact ⟨expiresAt, by simp⟩

theorem AnswerInv.claimed_advance (h : AnswerInv service calls id hash view)
    (hside : (calls i).side? = some side)
    (hlegal : (calls i).Legal service (⟨op, result⟩ :: view.trail i))
    (hexec : exec op view.world = .ok (result, world)) (j : ι) (challengeId : Bytes)
    (expiresAt : Int) (rest : Trail) (hj : (view.advance i op result world).trail j =
      ⟨.ReplayInsert challengeId expiresAt, ()⟩ :: rest)
    (hapart : ∀ event ∈ (view.advance i op result world).since j, event.op.isWrite = false) :
    world.changes = 1 := by
  by_cases hji : j = i
  · subst j
    rw [View.advance_trail_self] at hj
    obtain ⟨hhead, rfl⟩ := List.cons.inj hj
    obtain rfl : op = .ReplayInsert challengeId expiresAt := congrArg Sigma.fst hhead
    obtain ⟨hchallenge, hfirst⟩ := challenge_of_legal hside hlegal
    have hfresh : ¬ view.world.db.consumed challengeId := by
      intro hconsumed
      obtain ⟨other, hmem⟩ := h.consumed i challengeId hchallenge hconsumed
      exact hfirst _ _ hmem
    rw [(exec_replayInsert hexec).1, if_neg hfresh]
  · rw [View.advance_trail_of_ne _ _ _ _ _ hji] at hj
    rw [View.advance_since_of_ne _ _ _ _ _ hji, List.forall_mem_cons] at hapart
    rw [(exec_of_not_write hapart.1 hexec).2.1]
    exact h.claimed j challengeId expiresAt rest hj hapart.2

theorem AnswerInv.counted_advance (h : AnswerInv service calls id hash view)
    (hside : (calls i).side? = some side)
    (hlegal : (calls i).Legal service (⟨op, result⟩ :: view.trail i))
    (hadmits : ClaimsApart view i op) (hexec : exec op view.world = .ok (result, world)) (j : ι)
    (n : Nat) (hn : ⟨.Changes, n⟩ ∈ (view.advance i op result world).trail j) : n = 1 := by
  rcases (view.mem_trail_advance _ _ _ _).mp hn with ⟨-, hhead⟩ | hearlier
  · obtain rfl : op = .Changes := (congrArg Sigma.fst hhead).symm
    obtain rfl : n = result := by simpa using hhead
    obtain ⟨challengeId, expiresAt, rest, htrail⟩ := claim_of_legal hside hlegal
    simp only [exec, Except.ok.injEq, Prod.mk.injEq] at hexec
    rw [← hexec.1]
    exact h.claimed i challengeId expiresAt rest htrail (hadmits rfl)
  · exact h.counted j n hearlier

-- A conversation deletes no ticket.
theorem AnswerInv.found_advance (h : AnswerInv service calls id hash view)
    (hside : (calls i).side? = some side)
    (hlegal : (calls i).Legal service (⟨op, result⟩ :: view.trail i))
    (hexec : exec op view.world = .ok (result, world)) (j : ι) (other : Bytes) (t : Ticket)
    (hfound : ⟨.TicketGetById other, some t⟩ ∈ (view.advance i op result world).trail j) :
    (world.db.ticket? other).isSome := by
  have hkept : (view.world.db.ticket? other).isSome → (world.db.ticket? other).isSome := by
    intro hsome
    obtain ⟨row, hrow⟩ := Option.isSome_iff_exists.mp hsome
    obtain ⟨now, hnow, -⟩ := token_of_exec hside hlegal hexec hrow
    exact Option.isSome_iff_exists.mpr ⟨now, hnow⟩
  rcases (view.mem_trail_advance _ _ _ _).mp hfound with ⟨-, hhead⟩ | hearlier
  · obtain rfl : op = .TicketGetById other := (congrArg Sigma.fst hhead).symm
    obtain rfl : some t = result := by simpa using hhead
    obtain ⟨-, hread⟩ := ticketGetById_of_exec hexec
    refine hkept ?_
    rw [← Option.isSome_map, ← hread]
    rfl
  · exact hkept (h.found j other t hearlier)

-- No statement of a conversation breaks a constraint: the ticket has been read.
theorem AnswerInv.exec_ne_error (h : AnswerInv service calls id hash view)
    (hside : (calls i).side? = some side) (hlegal : ∀ before result later,
      exec op before = .ok (result, later) → (calls i).Legal service (⟨op, result⟩ :: view.trail i))
    (failed : SqlError × World) : exec op view.world ≠ .error failed := by
  intro hexec
  obtain ⟨before, result, later, hok⟩ := exists_exec op
  have hop := hlegal before result later hok
  cases op with
  | MessageInsert m =>
      obtain ⟨t, hread, -⟩ := (Call.storesAfter_of_legal hside hop).read
      have hticket := h.found i m.ticketId t hread
      rw [exec_messageInsert_error hexec] at hticket
      simp at hticket
  | TicketInsert t =>
      obtain ⟨input, env, owner, hcall, -⟩ := Call.submission_of_legal hop
      simp [hcall, Call.side?] at hside
  | _ => exact DeltaFeedback.exec_ne_error rfl _ _ hexec

theorem preserves_answerInv (service : Feedback.Service) (calls : ι → Call) (id hash : Bytes)
    (hcalls : ∀ i, (calls i).side?.isSome)
    (hown : ∀ i j challengeId, challenge? service (calls i) = some challengeId →
      challenge? service (calls j) = some challengeId → i = j) :
    Preserves exec (fun i => (calls i).Legal service) (fun i => (calls i).Ends service)
      ClaimsApart (AnswerInv service calls id hash) where
  advance view i op result world _ hinv _ hlegal hadmits hexec := by
    obtain ⟨side, hside⟩ := Option.isSome_iff_exists.mp (hcalls i)
    obtain ⟨t, ht, hhash⟩ := hinv.ticket
    obtain ⟨now, hnow, hsame, -⟩ := token_of_exec hside hlegal hexec ht
    exact ⟨⟨now, hnow, hsame.trans hhash⟩, hinv.reads_advance hside hlegal hexec,
      hinv.consumed_advance hown hside hlegal hexec, hinv.claimed_advance hside hlegal hexec,
      hinv.counted_advance hside hlegal hadmits hexec, hinv.found_advance hside hlegal hexec,
      hinv.returned⟩
  finish view i value _ hinv _ _ := by
    refine ⟨hinv.ticket, hinv.reads, hinv.consumed, hinv.claimed, hinv.counted, hinv.found,
      fun j exn hresult => ?_⟩
    by_cases hji : j = i
    · subst j
      simp at hresult
    · rw [View.finish_result_of_ne _ _ _ hji] at hresult
      exact hinv.returned j exn hresult
  fail view i op exn world _ hinv _ _ hlegal hexec := by
    obtain ⟨side, hside⟩ := Option.isSome_iff_exists.mp (hcalls i)
    exact absurd hexec (hinv.exec_ne_error hside hlegal _)

theorem AnswerInv.start {world : World} {t : TicketRow} (ht : world.db.ticket? id = some t)
    (hfresh : ∀ i challengeId, challenge? service (calls i) = some challengeId →
      ¬ world.db.consumed challengeId) :
    AnswerInv service calls id t.readTokenHash (startCalls service world calls).toView where
  ticket := ⟨t, ht, rfl⟩
  reads i found hread := by simp [startCalls, Pool.start, View.trail] at hread
  consumed i challengeId hi hconsumed := absurd hconsumed (hfresh i challengeId hi)
  claimed i challengeId expiresAt rest hi := by simp [startCalls, Pool.start, View.trail] at hi
  counted i n hn := by simp [startCalls, Pool.start, View.trail] at hn
  found i other found hread := by simp [startCalls, Pool.start, View.trail] at hread
  returned i exn := by simp [startCalls, Pool.start]

-- What is left for a reply that was ready.
theorem AnswerInv.answer (h : AnswerInv service calls id hash view) {input : Feedback.ReplyInput}
    {env : Feedback.Env} {outcome : Except SqlError Outcome} (hi : calls i = .SubmitReply input env)
    (hticket : input.ticketId = id) (htoken : (service.crypto.sha256 input.readToken).val = hash)
    (hpow : (service.replyVerdict input env).1 = .Ok)
    (hends : (calls i).Ends service (view.trail i) outcome)
    (hresult : view.result i = some outcome) : Answer service id input view i outcome := by
  have hreads := h.reads i
  have hcounted := h.counted i
  have hreturned := h.returned i
  have hstored : ⟨.MessageInsert (Feedback.Service.replyMessage input env), ()⟩ ∈ view.trail i →
      ∃ taken ∈ view.trail i, taken.1.stores id .Visitor = true := fun hmem =>
    ⟨_, hmem, by
      simp [Op.stores, Feedback.Service.replyMessage, MessagesRepo.newMessage, hticket]⟩
  rw [hi] at hends
  subst hticket
  generalize htrail : view.trail i = trail at *
  cases hends with
  | SubmitReply _ _ _ outcome hend =>
      cases hend with
      | NotFound =>
          obtain ⟨t, hnone, -⟩ := hreads none (by simp)
          simp at hnone
      | BadToken t hbad =>
          obtain ⟨_, ⟨⟩, hhash, -⟩ := hreads (some t) (by simp)
          exact absurd (htoken.trans hhash.symm) hbad
      | Closed t hstatus =>
          obtain ⟨_, ⟨⟩, -, hclosed⟩ := hreads (some t) (by simp)
          exact .Closed (hclosed hstatus)
      | NotAwaitingVisitor t hstatus => exact .NotAwaitingVisitor
      | Pow t error hstatus herror => simp [hpow, Feedback.replyPowError] at herror
      | Replayed t n hmay hn => exact absurd (hcounted n (by simp)) hn
      | BadField t hmay hbody => exact .BadField hbody
      | Gone t quoteId exn hmay => exact absurd hresult (hreturned exn)
      | Unsent t quoteId rowId owner hmay =>
          exact .Stored .SendFailed (.inr rfl) (htrail ▸ hstored (by simp))
      | Refused t quoteId rowId owner quote hmay hid =>
          exact .Stored .SendFailed (.inr rfl) (htrail ▸ hstored (by simp))
      | Ok t quoteId rowId owner quote hmay hid =>
          exact .Stored .Ok (.inl rfl) (htrail ▸ hstored (by simp))

-- Replies that are ready, with answers and closes of the admin, in every run in
-- which they do not overlap: no two of them stand next to each other, and a
-- reply that is not stored is told that it was not the visitor's turn.
theorem replies_inTurn (service : Feedback.Service) (world : World) (calls : ι → Call) (id : Bytes)
    (hcalls : ∀ i, (calls i).side?.isSome)
    (hready : ∀ i input env, calls i = .SubmitReply input env → Ready service world id input env)
    (hown : ∀ i j challengeId, challenge? service (calls i) = some challengeId →
      challenge? service (calls j) = some challengeId → i = j)
    (hturn : world.db.InTurn id) (hapart : world.db.VisitorsApart id) (pool : CallPool ι)
    (hrun : Pool.Reaches exec (fun view i op => RepliesInTurn id view i op ∧ ClaimsApart view i op)
      (startCalls service world calls) pool) :
    pool.world.db.VisitorsApart id ∧ ∀ i input env outcome, calls i = .SubmitReply input env →
      pool.result i = some outcome → Answer service id input pool.toView i outcome := by
  have hapartInv : (startCalls service world calls).Sound exec (fun i => (calls i).Legal service)
      (fun i => (calls i).Ends service) (TurnInv calls id) :=
    .start (fun i => Call.legal_start service (calls i)) (fun i => (calls i).follows service)
      (.start hturn hapart)
  refine ⟨(hapartInv.reaches (upkeep_turnInv service calls id hcalls).preserves
    (hrun.mono fun _ _ _ h => h.1)).inv.apart, fun i input env outcome hi hresult => ?_⟩
  obtain ⟨t, ht, htoken⟩ := (hready i input env hi).token
  have hanswerInv : (startCalls service world calls).Sound exec (fun i => (calls i).Legal service)
      (fun i => (calls i).Ends service) (AnswerInv service calls id t.readTokenHash) :=
    .start (fun i => Call.legal_start service (calls i)) (fun i => (calls i).follows service)
      (.start ht fun j challengeId hj => ?_)
  · have hsound := hanswerInv.reaches (preserves_answerInv service calls id t.readTokenHash hcalls
      hown) (hrun.mono fun _ _ _ h => h.2)
    exact hsound.inv.answer hi (hready i input env hi).ticket htoken (hready i input env hi).pow
      (hsound.lawful.done i outcome hresult) hresult
  · cases hcall : calls j with
    | SubmitReply input env =>
        obtain rfl : (service.replyVerdict input env).2 = challengeId := by
          simpa [hcall, challenge?] using hj
        exact (hready j input env hcall).fresh
    | _ => simp [hcall, challenge?] at hj

instance (view : CallView ι) (i : ι) : (op : Op) → Decidable (RepliesInTurn id view i op)
  | .MessageInsert m => inferInstanceAs (Decidable (m.ticketId = id → m.sender = .Visitor →
      ∀ event ∈ sinceWord id view, event.op.stores id .Visitor = true →
        ∃ other ∈ view.upToOp i (.TicketGetById id), other.actor = event.actor ∧
          other.op.writesStatus id = true))
  | .TicketSetStatus other status => inferInstanceAs (Decidable (other = id →
      status = .AwaitingVisitor → ∀ event ∈ sinceWord id view, event.op.stores id .Visitor = true →
        ∀ taken ∈ view.trail event.actor, taken.1.writesStatus id = false))
  | .TicketInsert .. | .TicketGetById .. | .TicketClose .. | .TicketPurgeInactive .. | .MessageSetDcMsgId ..
  | .MessagesByTicket .. | .FindTicketByDcMsgId .. | .LatestDcMsgIdForTicket .. | .ReplayInsert ..
  | .ReplayPurge .. | .StateGet .. | .StateSet .. | .StateDel .. | .LastInsertRowid | .Changes
  | .OwnerLoad | .OwnerStore .. | .DcSend .. => isTrue trivial

instance (view : CallView ι) (i : ι) (op : Op) : Decidable (ClaimsApart view i op) :=
  inferInstanceAs (Decidable (op = .Changes → ∀ event ∈ view.since i, event.op.isWrite = false))

def racingCalls : Fin 2 → Call
  | 0 => sampleReply (utf8 "first") 100
  | 1 => sampleReply (utf8 "second") 101

def seeSenders (pool : CallPool (Fin 2)) : List (Option (Except SqlError Outcome)) × List Sender :=
  (List.ofFn pool.result, (pool.world.db.messagesByTicket sampleTicket.id).map fun m => m.sender)

theorem verdict_sampleReply (challengeId : Bytes) (dcMsgId : UInt32) :
    sampleService.replyVerdict (sampleReplyInput challengeId) (sampleEnv dcMsgId) =
      (.Ok, challengeId) := by
  have hverify := Pow.ChallengeIssuer.verify_issue Pow.fips sampleService.issuer 1700000000
    1700000010 challengeId [] (by decide)
  have hwork (n : Nat) : ¬ n < sampleService.issuer.difficultyBits.toNat := Nat.not_lt_zero n
  rw [if_neg (by decide), if_neg (hwork _)] at hverify
  exact congrArg (fun pv => (pv.1, pv.2.getD [])) hverify

theorem challenge_sampleReply (challengeId : Bytes) (dcMsgId : UInt32) :
    challenge? sampleService (sampleReply challengeId dcMsgId) = some challengeId :=
  congrArg (fun pv : Pow.VerifyResult × Bytes => some pv.2) (verdict_sampleReply challengeId dcMsgId)

theorem token_sampleReply : ∃ t ∈ sampleWorld.db.ticket? sampleTicket.id,
    (sampleService.crypto.sha256 (utf8 "read-token")).val = t.readTokenHash := by decide +kernel

theorem ready_sampleReply (challengeId : Bytes) (dcMsgId : UInt32)
    (hfresh : ¬ sampleWorld.db.consumed challengeId) : Ready sampleService sampleWorld
      sampleTicket.id (sampleReplyInput challengeId) (sampleEnv dcMsgId) where
  ticket := rfl
  token := token_sampleReply
  pow := by rw [verdict_sampleReply]
  fresh := by rwa [verdict_sampleReply]

theorem ready_racingCalls (i : Fin 2) (input : Feedback.ReplyInput) (env : Feedback.Env)
    (h : racingCalls i = .SubmitReply input env) :
    Ready sampleService sampleWorld sampleTicket.id input env := by
  match i with
  | 0 =>
      obtain ⟨rfl, rfl⟩ := Call.SubmitReply.inj h
      exact ready_sampleReply _ _ (by decide +kernel)
  | 1 =>
      obtain ⟨rfl, rfl⟩ := Call.SubmitReply.inj h
      exact ready_sampleReply _ _ (by decide +kernel)

theorem challenge_racingCalls (i j : Fin 2) (challengeId : Bytes)
    (hi : challenge? sampleService (racingCalls i) = some challengeId)
    (hj : challenge? sampleService (racingCalls j) = some challengeId) : i = j := by
  have hchallenge : ∀ k, challenge? sampleService (racingCalls k) =
      some (if k = 0 then utf8 "first" else utf8 "second")
    | 0 => challenge_sampleReply _ _
    | 1 => challenge_sampleReply _ _
  rw [hchallenge, Option.some.injEq] at hi hj
  exact (show ∀ i j : Fin 2, (if i = 0 then utf8 "first" else utf8 "second") =
    (if j = 0 then utf8 "first" else utf8 "second") → i = j by decide +kernel) i j (hi.trans hj.symm)

-- What is seen of the two schedules below; one evaluation computes each token once.
theorem follow_racingCalls :
    (Pool.follow exec
        (fun view i op => RepliesInTurn sampleTicket.id view i op ∧ ClaimsApart view i op)
        [0, 0, 0, 0, 0, 0, 0, 1, 0, 1, 0, 0, 0]
        (startCalls sampleService sampleWorld racingCalls)).map (fun pool => List.ofFn pool.result) =
      some [some (.ok (.Replied .Ok)), some (.ok (.Replied .NotAwaitingVisitor))] ∧
    (Pool.follow exec (fun _ _ _ => True)
        [0, 1, 0, 0, 0, 0, 0, 0, 0, 0, 0, 0, 1, 1, 1, 1, 1, 1, 1, 1, 1, 1]
        (startCalls sampleService sampleWorld racingCalls)).map seeSenders =
      some ([some (.ok (.Replied .Ok)), some (.ok (.Replied .Ok))],
        [.Visitor, .Admin, .Visitor, .Visitor]) := by
  decide +kernel

-- The second reply comes when the first has been stored but not yet sent.
theorem replies_inTurn_sample : ∃ pool : CallPool (Fin 2),
    (Pool.Reaches exec
        (fun view i op => RepliesInTurn sampleTicket.id view i op ∧ ClaimsApart view i op)
        (startCalls sampleService sampleWorld racingCalls) pool ∧
      List.ofFn pool.result =
        [some (.ok (.Replied .Ok)), some (.ok (.Replied .NotAwaitingVisitor))]) ∧
    pool.world.db.VisitorsApart sampleTicket.id ∧
    ∀ i input env outcome, racingCalls i = .SubmitReply input env →
      pool.result i = some outcome →
      Answer sampleService sampleTicket.id input pool.toView i outcome := by
  obtain ⟨pool, hrun, hresult⟩ := Pool.exists_reaches_of_follow _ _ _ _ _ _ follow_racingCalls.1
  exact ⟨pool, ⟨hrun, hresult⟩, replies_inTurn sampleService sampleWorld racingCalls sampleTicket.id
    (by decide) ready_racingCalls challenge_racingCalls (by decide +kernel) (by decide +kernel) pool hrun⟩

-- Both replies read the ticket before either is stored: both are stored, and
-- both visitors are told that their message was sent.
theorem replies_overlap : ¬ ∀ pool : CallPool (Fin 2),
    Pool.Reaches exec (fun _ _ _ => True) (startCalls sampleService sampleWorld racingCalls) pool →
    pool.world.db.VisitorsApart sampleTicket.id ∧
    ∀ i input env outcome, racingCalls i = .SubmitReply input env →
      pool.result i = some outcome →
      Answer sampleService sampleTicket.id input pool.toView i outcome := by
  intro hclaim
  obtain ⟨pool, hrun, hseen⟩ := Pool.exists_reaches_of_follow _ _ _ _ _ _ follow_racingCalls.2
  have hapart := (hclaim pool hrun).1
  unfold Tables.VisitorsApart at hapart
  rw [(Prod.mk.inj hseen).2] at hapart
  simp at hapart

end DeltaFeedback.Concurrency
