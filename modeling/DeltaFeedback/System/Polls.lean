import DeltaFeedback.Concurrency.Keys
import DeltaFeedback.System.Lives
import DeltaFeedback.System.Requests

namespace DeltaFeedback.System

open Text Interleaving Db

-- The operations that say nothing about the messages of a ticket.
def neitherAwaitsNorLists : Op → Bool
  | .TicketSetStatus _ status => status ≠ .AwaitingVisitor
  | .MessagesByTicket _ => false
  | _ => true

-- The trails of a job, as far as a ticket's answers go: the status that says that
-- there is one is written only after one was stored, and a poll reads the status
-- before the messages.
inductive PollTrail : Trail → Prop
  | Start : PollTrail []
  | Other (op : Op) (result : op.Result) (trail : Trail) (h : neitherAwaitsNorLists op = true) :
      PollTrail (⟨op, result⟩ :: trail)
  | Answered (m : NewMessage) (trail : Trail) (hsender : m.sender = .Admin)
      (hstored : ⟨.MessageInsert m, ()⟩ ∈ trail) :
      PollTrail (⟨.TicketSetStatus m.ticketId .AwaitingVisitor, ()⟩ :: trail)
  | Listed (id : Bytes) (t : Ticket) (msgs : List Message) :
      PollTrail [⟨.MessagesByTicket id, msgs⟩, ⟨.TicketGetById id, some t⟩]

-- The ticket a job polls.
def Job.polls? : Job → Option Bytes
  | .Request call => match call.route with
    | .GetTicket id => some id
    | _ => none
  | _ => none

def shownTicket (status : Bytes) (shown : List Server.TicketMessage) : Except SqlError Answer :=
  .ok (some (.ok (.json 200 (.Ticket status shown))))

-- What a poll that was answered with the ticket has read.
def PollEnd (job : Job) (trail : Trail) (outcome : Except SqlError Answer) : Prop :=
  ∀ id status shown, job.polls? = some id → outcome = shownTicket status shown → ∃ t msgs,
    trail = [⟨.MessagesByTicket id, msgs⟩, ⟨.TicketGetById id, some t⟩] ∧
      status = t.status.toString ∧ shown = msgs.map Server.ticketMessage

section Legal

variable {Json : Type} (crow : Server.Crow Json) (service : Feedback.Service) {trail : Trail}

theorem pollTrail_of_routeTrail {dc : Dc.Delivery} {now : Int} {owner : UInt32}
    {msg : Dc.IncomingMsg} {base : Trail} (hbase : PollTrail base)
    (h : Dc.RouteTrail dc now owner msg base trail) : PollTrail trail := by
  have hlooked {quoted : Option Bytes} {looked : Trail}
      (hlookup : Dc.LookupTrail msg base quoted looked) : PollTrail looked := by
    cases hlookup with
    | Unquoted => exact hbase
    | Quoted => exact .Other _ _ _ rfl
  cases h with
  | Start => exact hbase
  | LookedUp quoted _ hlookup => exact hlooked hlookup
  | Updated quoted t rowId rest hlookup hanswer =>
      exact .Answered (Dc.adminMessage now (Dc.adminRoute msg quoted)) _ rfl (by simp)
  | _ => exact .Other _ _ _ rfl

theorem pollTrail_of_purges (h : ∀ taken ∈ trail, purges taken.1) : PollTrail trail := by
  cases trail with
  | nil => exact .Start
  | cons taken trail =>
      obtain ⟨op, result⟩ := taken
      have hop : purges op := h _ List.mem_cons_self
      exact .Other op result trail (by cases op <;> first | rfl | exact hop.elim)

theorem pollTrail_of_legal {call : Call} (h : call.Legal service trail) : PollTrail trail := by
  cases call with
  | SubmitNew input env =>
      cases h with
      | Start => exact .Start
      | _ => exact .Other _ _ _ rfl
  | SubmitReply input env =>
      cases h with
      | Start => exact .Start
      | _ => exact .Other _ _ _ rfl
  | IncomingMsg dc now msg =>
      cases h with
      | Start => exact .Start
      | Routed _ _ h => exact pollTrail_of_routeTrail (.Other _ _ _ rfl) h
      | Registered _ h => cases h <;> exact .Other _ _ _ rfl
      | _ => exact .Other _ _ _ rfl
  | RouteAdminMsg dc now owner msg => exact pollTrail_of_routeTrail .Start h
  | PurgeInactive cutoff =>
      cases h with
      | Start => exact .Start
      | _ => exact .Other _ _ _ rfl
  | PurgeExpired now =>
      cases h with
      | Start => exact .Start
      | _ => exact .Other _ _ _ rfl

theorem pollEnd_of_code {job : Job} {response : Server.Response} (h : response.code ≠ 200) :
    PollEnd job trail (.ok (some (.ok response))) := by
  rintro id status shown - heq
  obtain rfl : response = .json 200 (.Ticket status shown) := by simpa [shownTicket] using heq
  exact absurd rfl h

theorem follows_getTicket (call : Server.ApiCall) (id : Bytes) (hroute : call.route = .GetTicket id) :
    Follows exec PollTrail (fun trail outcome => PollEnd (.Request call) trail (outcome.map some))
      (Server.getTicket service call.req id) [] := by
  refine follows_ite (fun _ => pollEnd_of_code (by decide)) fun _ => ?_
  refine follows_call rfl fun _ found _ _ => ⟨.Other _ _ _ rfl, ?_⟩
  cases found with
  | none => exact pollEnd_of_code (by decide)
  | some t =>
      refine follows_ite (fun _ => pollEnd_of_code (by decide)) fun _ => ?_
      refine follows_call rfl fun _ msgs _ _ => ⟨.Listed id t msgs, ?_⟩
      refine follows_ite (fun _ => pollEnd_of_code (by decide)) fun _ => ?_
      intro polled status shown hid heq
      obtain rfl : id = polled := by simpa [Job.polls?, hroute] using hid
      obtain ⟨rfl, rfl⟩ : t.status.toString = status ∧ msgs.map Server.ticketMessage = shown := by
        simpa [Except.map, shownTicket, Server.Response.json] using heq
      exact ⟨t, msgs, rfl, rfl, rfl⟩

theorem follows_poll (job : Job) :
    Follows exec PollTrail (PollEnd job) (job.prog crow service) [] := by
  have hother {job : Job} (hpolls : job.polls? = none)
      (h : Within exec PollTrail (job.prog crow service) []) :
      Follows exec PollTrail (PollEnd job) (job.prog crow service) [] :=
    h.mono (fun _ htrail => htrail) fun _ _ _ id _ _ hid => by simp [hpolls] at hid
  cases job with
  | Incoming dc now msg =>
      refine hother rfl (Follows.map (within_incomingMsg dc now msg fun trail h => ?_))
      exact pollTrail_of_legal service (show (Call.IncomingMsg dc now msg).Legal service trail from h)
  | Purge retentionDays now =>
      refine hother rfl (Follows.map (within_purgeThread retentionDays now fun trail h => ?_))
      exact pollTrail_of_purges h
  | Request call =>
      cases hpolls : (Job.Request call).polls? with
      | none =>
          refine hother hpolls (Follows.map (within_handler crow service call
            (fun made _ trail h => pollTrail_of_legal service h) fun id hroute => ?_))
          simp [Job.polls?, hroute] at hpolls
      | some id =>
          have hroute : call.route = .GetTicket id := by
            cases hroute : call.route <;> simp_all [Job.polls?]
          simp only [Job.prog, Server.handler, hroute]
          exact (follows_getTicket service call id hroute).map

end Legal

section Ticket

variable {id : Bytes} {before world : World} {op : Op} {result : op.Result}

-- There is an answer of the admin.
def HasAnswer (msgs : List Message) : Prop := ∃ m ∈ msgs, m.sender = .Admin

def IsClosed (id : Bytes) (world : World) : Prop :=
  ∃ t, world.db.ticket? id = some t ∧ t.status = .Closed

theorem HasAnswer.grow {msgs more : List Message} (h : HasAnswer msgs) (hmore : msgs <+: more) :
    HasAnswer more := by
  obtain ⟨m, hm, hsender⟩ := h
  exact ⟨m, hmore.subset hm, hsender⟩

-- Until it is deleted, a ticket only gains messages.
theorem messages_grow (hspared : Concurrency.deletes id before op = false)
    (hexec : exec op before = .ok (result, world)) :
    before.db.messagesByTicket id <+: world.db.messagesByTicket id := by
  rw [tables_of_exec hexec]
  cases htouches : op.touches id with
  | false => exact (write_of_not_touches htouches _).2 ▸ List.prefix_rfl
  | true =>
      cases op with
      | MessageInsert m =>
          rw [Op.write, Tables.messagesByTicket_messageInsert]
          exact List.prefix_append _ _
      | TicketPurgeInactive cutoff =>
          exact (Tables.kept_of_not_gone before.db.constraints hspared).2 ▸ List.prefix_rfl
      | TicketInsert t => exact List.prefix_rfl
      | TicketSetStatus other status => exact List.prefix_rfl
      | TicketClose other closedAt => exact List.prefix_rfl
      | _ => simp [Op.touches] at htouches

-- It keeps its token, and once closed it stays closed.
theorem ticket_stays (hspared : Concurrency.deletes id before op = false)
    (hexec : exec op before = .ok (result, world)) {t : TicketRow}
    (ht : before.db.ticket? id = some t) : ∃ now, world.db.ticket? id = some now ∧
      now.readTokenHash = t.readTokenHash ∧ (t.status = .Closed → now.status = .Closed) := by
  rw [tables_of_exec hexec]
  cases htouches : op.touches id with
  | false => exact ⟨t, (write_of_not_touches htouches _).1.trans ht, rfl, fun h => h⟩
  | true =>
      cases op with
      | TicketInsert new =>
          refine ⟨t, ?_, rfl, fun h => h⟩
          rw [Op.write, Tables.ticket?_ticketInsert, ht, Option.some_or]
      | TicketSetStatus other status =>
          rw [Op.write, Tables.ticket?_ticketSetStatus, ht]
          refine ⟨_, rfl, ?_, fun hclosed => ?_⟩
          · dsimp only
            split_ifs <;> rfl
          · simp [hclosed]
      | TicketClose other closedAt =>
          rw [Op.write, Tables.ticket?_ticketClose, ht]
          refine ⟨_, rfl, ?_, fun hclosed => ?_⟩
          · dsimp only
            split_ifs <;> rfl
          · simp [hclosed]
      | TicketPurgeInactive cutoff =>
          exact ⟨t, (Tables.kept_of_not_gone before.db.constraints hspared).1.trans ht, rfl, fun h => h⟩
      | MessageInsert m => exact ⟨t, ht, rfl, fun h => h⟩
      | _ => simp [Op.touches] at htouches

theorem IsClosed.exec (h : IsClosed id before) (hspared : Concurrency.deletes id before op = false)
    (hexec : exec op before = .ok (result, world)) : IsClosed id world := by
  obtain ⟨t, ht, hclosed⟩ := h
  obtain ⟨now, hnow, -, hstays⟩ := ticket_stays hspared hexec ht
  exact ⟨now, hnow, hstays hclosed⟩

-- How a ticket comes to wait for the visitor.
theorem awaits_of_exec (hexec : exec op before = .ok (result, world)) {t : TicketRow}
    (ht : world.db.ticket? id = some t) (hstatus : t.status = .AwaitingVisitor) :
    (∃ old, before.db.ticket? id = some old ∧ old.status = .AwaitingVisitor) ∨
      op = .TicketSetStatus id .AwaitingVisitor := by
  rw [tables_of_exec hexec] at ht
  cases htouches : op.touches id with
  | false => exact .inl ⟨t, (write_of_not_touches htouches _).1.symm.trans ht, hstatus⟩
  | true =>
      cases op with
      | TicketInsert new =>
          rw [Op.write, Tables.ticket?_ticketInsert, Option.or_eq_some_iff] at ht
          rcases ht with hold | ⟨-, hnew⟩
          · exact .inl ⟨t, hold, hstatus⟩
          · obtain ⟨-, hrow⟩ := Option.ite_none_right_eq_some.mp hnew
            simp [← Option.some.inj hrow, Tables.newTicketRow] at hstatus
      | TicketSetStatus other status =>
          rw [Op.write, Tables.ticket?_ticketSetStatus, Option.map_eq_some_iff] at ht
          obtain ⟨old, hold, rfl⟩ := ht
          split_ifs at hstatus with hset
          · obtain ⟨rfl, -⟩ := hset
            obtain rfl : status = .AwaitingVisitor := hstatus
            exact .inr rfl
          · exact .inl ⟨old, hold, hstatus⟩
      | TicketClose other closedAt =>
          rw [Op.write, Tables.ticket?_ticketClose, Option.map_eq_some_iff] at ht
          obtain ⟨old, hold, rfl⟩ := ht
          split_ifs at hstatus with hset
          · simp [Tables.closeRow] at hstatus
          · exact .inl ⟨old, hold, hstatus⟩
      | TicketPurgeInactive cutoff =>
          rw [Op.write, Tables.ticket?_ticketPurgeInactive id before.db.constraints,
            Option.filter_eq_some_iff] at ht
          exact .inl ⟨t, ht.1, hstatus⟩
      | MessageInsert m => exact .inl ⟨t, ht, hstatus⟩
      | _ => simp [Op.touches] at htouches

end Ticket

section Polls

variable {ι : Type} [DecidableEq ι] {Json : Type} {crow : Server.Crow Json}
variable {service : Feedback.Service} {jobs : ι → Job} {id : Bytes} {view before : SystemView ι}
variable {i : ι} {op : Op} {result : op.Result} {world : World} {msgs : List Message} {ended : Prop}

-- No purge deletes the ticket.
def Spares (id : Bytes) : Pool.Condition Op Op.Result World SqlError Answer ι :=
  fun view _ op => Concurrency.deletes id view.world op = false

-- A ticket that waits for the visitor has an answer, and a poll that saw it wait
-- has seen one.
structure PollInv (id : Bytes) (view : SystemView ι) : Prop where
  waiting : ∀ t, view.world.db.ticket? id = some t → t.status = .AwaitingVisitor →
    HasAnswer (view.world.db.messagesByTicket id)
  stored : ∀ i m, ⟨.MessageInsert m, ()⟩ ∈ view.trail i → m.ticketId = id → m.sender = .Admin →
    HasAnswer (view.world.db.messagesByTicket id)
  read : ∀ i t, ⟨.TicketGetById id, some t⟩ ∈ view.trail i → t.status = .AwaitingVisitor →
    HasAnswer (view.world.db.messagesByTicket id)
  closed : ∀ i t, ⟨.TicketGetById id, some t⟩ ∈ view.trail i → t.status = .Closed →
    IsClosed id view.world
  listed : ∀ i msgs, ⟨.MessagesByTicket id, msgs⟩ ∈ view.trail i →
    msgs <+: view.world.db.messagesByTicket id
  shown : ∀ i msgs rest t, view.trail i = ⟨.MessagesByTicket id, msgs⟩ :: rest →
    ⟨.TicketGetById id, some t⟩ ∈ rest → t.status = .AwaitingVisitor → HasAnswer msgs

theorem PollInv.stored_advance (h : PollInv id view)
    (hgrow : view.world.db.messagesByTicket id <+: world.db.messagesByTicket id)
    (hexec : exec op view.world = .ok (result, world)) (j : ι) (m : NewMessage)
    (hm : ⟨.MessageInsert m, ()⟩ ∈ (view.advance i op result world).trail j)
    (hid : m.ticketId = id) (hsender : m.sender = .Admin) :
    HasAnswer (world.db.messagesByTicket id) := by
  rcases (view.mem_trail_advance _ _ _ _).mp hm with ⟨-, hnew⟩ | hold
  · cases hnew
    rw [tables_of_exec hexec, Op.write, Tables.messagesByTicket_messageInsert, if_pos hid]
    exact ⟨_, List.mem_append_right _ List.mem_cons_self, hsender⟩
  · exact (h.stored j m hold hid hsender).grow hgrow

theorem PollInv.waiting_advance (h : PollInv id view)
    (hgrow : view.world.db.messagesByTicket id <+: world.db.messagesByTicket id)
    (hlegal : PollTrail (⟨op, result⟩ :: view.trail i))
    (hexec : exec op view.world = .ok (result, world)) (t : TicketRow)
    (ht : world.db.ticket? id = some t) (hstatus : t.status = .AwaitingVisitor) :
    HasAnswer (world.db.messagesByTicket id) := by
  rcases awaits_of_exec hexec ht hstatus with ⟨old, hold, hwaits⟩ | rfl
  · exact (h.waiting old hold hwaits).grow hgrow
  · cases hlegal with
    | Other _ _ _ hop => simp [neitherAwaitsNorLists] at hop
    | Answered m _ hsender hstored => exact (h.stored i m hstored rfl hsender).grow hgrow

-- What a read finds is there.
theorem found_of_exec {before : World} {t : Ticket}
    (hexec : exec (.TicketGetById id) before = .ok (some t, world)) :
    world = before ∧ ∃ row, before.db.ticket? id = some row ∧ row.toTicket = t := by
  simp only [exec, Except.ok.injEq, Prod.mk.injEq, Option.map_eq_some_iff] at hexec
  exact ⟨hexec.2.symm, hexec.1⟩

theorem listed_of_exec {before : World} {msgs : List Message}
    (hexec : exec (.MessagesByTicket id) before = .ok (msgs, world)) :
    world = before ∧ msgs = before.db.messagesByTicket id := by
  simp only [exec, Except.ok.injEq, Prod.mk.injEq] at hexec
  exact ⟨hexec.2.symm, hexec.1.symm⟩

theorem PollInv.advance (h : PollInv id view) (hspared : Spares id view i op)
    (hlegal : PollTrail (⟨op, result⟩ :: view.trail i))
    (hexec : exec op view.world = .ok (result, world)) :
    PollInv id (view.advance i op result world) := by
  have hgrow := messages_grow hspared hexec
  refine ⟨h.waiting_advance hgrow hlegal hexec, h.stored_advance hgrow hexec,
    fun j t hread hstatus => ?_, fun j t hread hstatus => ?_, fun j msgs hlist => ?_,
    fun j msgs rest t htrail hread hstatus => ?_⟩
  · rcases (view.mem_trail_advance _ _ _ _).mp hread with ⟨-, hnew⟩ | hold
    · cases hnew
      obtain ⟨rfl, row, hrow, rfl⟩ := found_of_exec hexec
      exact h.waiting row hrow hstatus
    · exact (h.read j t hold hstatus).grow hgrow
  · rcases (view.mem_trail_advance _ _ _ _).mp hread with ⟨-, hnew⟩ | hold
    · cases hnew
      obtain ⟨rfl, row, hrow, rfl⟩ := found_of_exec hexec
      exact ⟨row, hrow, hstatus⟩
    · exact (h.closed j t hold hstatus).exec hspared hexec
  · rcases (view.mem_trail_advance _ _ _ _).mp hlist with ⟨-, hnew⟩ | hold
    · cases hnew
      obtain ⟨rfl, rfl⟩ := listed_of_exec hexec
      exact List.prefix_rfl
    · exact (h.listed j msgs hold).trans hgrow
  · by_cases hji : j = i
    · subst j
      rw [View.advance_trail_self] at htrail
      obtain ⟨hhead, rfl⟩ := List.cons.inj htrail
      cases hhead
      obtain ⟨-, rfl⟩ := listed_of_exec hexec
      exact h.read i t hread hstatus
    · rw [View.advance_trail_of_ne _ _ _ _ _ hji] at htrail
      exact h.shown j msgs rest t htrail hread hstatus

-- Once there are these messages, and the ticket is closed or not, everything that
-- is read by whoever begins later is at least that.
structure LaterInv (id : Bytes) (msgs : List Message) (ended : Prop) (before view : SystemView ι) :
    Prop where
  grown : msgs <+: view.world.db.messagesByTicket id
  closed : ended → IsClosed id view.world
  listed : ∀ j more, before.trail j = [] → ⟨.MessagesByTicket id, more⟩ ∈ view.trail j → msgs <+: more
  read : ended → ∀ j t, before.trail j = [] → ⟨.TicketGetById id, some t⟩ ∈ view.trail j →
    t.status = .Closed

theorem laterInv_rfl (hgrown : msgs <+: view.world.db.messagesByTicket id)
    (hclosed : ended → IsClosed id view.world) : LaterInv id msgs ended view view where
  grown := hgrown
  closed := hclosed
  listed j more hnil hlist := by simp [hnil] at hlist
  read _ j t hnil hread := by simp [hnil] at hread

theorem LaterInv.advance (h : LaterInv id msgs ended before view) (hspared : Spares id view i op)
    (hexec : exec op view.world = .ok (result, world)) :
    LaterInv id msgs ended before (view.advance i op result world) := by
  refine ⟨h.grown.trans (messages_grow hspared hexec), fun hclosed =>
    (h.closed hclosed).exec hspared hexec, fun j more hnil hlist => ?_,
    fun hclosed j t hnil hread => ?_⟩
  · rcases (view.mem_trail_advance _ _ _ _).mp hlist with ⟨-, hnew⟩ | hold
    · cases hnew
      obtain ⟨-, rfl⟩ := listed_of_exec hexec
      exact h.grown
    · exact h.listed j more hnil hold
  · rcases (view.mem_trail_advance _ _ _ _).mp hread with ⟨-, hnew⟩ | hold
    · cases hnew
      obtain ⟨-, row, hrow, rfl⟩ := found_of_exec hexec
      obtain ⟨now, hnow, hstatus⟩ := h.closed hclosed
      rw [hrow, Option.some.injEq] at hnow
      exact hnow ▸ hstatus
    · exact h.read hclosed j t hnil hold

theorem upkeep_pollInv (jobs : ι → Job) (id : Bytes) : Upkeep (fun _ => PollTrail)
    (fun i => PollEnd (jobs i)) (Spares id) (PollInv id) where
  advance _ _ _ _ _ _ hinv _ hlegal hspared hexec := hinv.advance hspared hlegal hexec
  ends _ _ _ _ hinv _ _ := ⟨hinv.waiting, hinv.stored, hinv.read, hinv.closed, hinv.listed,
    hinv.shown⟩
  uncounted _ _ hinv := ⟨hinv.waiting, hinv.stored, hinv.read, hinv.closed, hinv.listed, hinv.shown⟩

theorem upkeep_laterInv (jobs : ι → Job) (before : SystemView ι) : Upkeep (fun _ => PollTrail)
    (fun i => PollEnd (jobs i)) (Spares id) (LaterInv id msgs ended before) where
  advance _ _ _ _ _ _ hinv _ _ hspared hexec := hinv.advance hspared hexec
  ends _ _ _ _ hinv _ _ := ⟨hinv.grown, hinv.closed, hinv.listed, hinv.read⟩
  uncounted _ _ hinv := ⟨hinv.grown, hinv.closed, hinv.listed, hinv.read⟩

-- The program while the ticket is not purged.
def sparing (id : Bytes) (crow : Server.Crow Json) (service : Feedback.Service) :
    Process Op Op.Result World SqlError Answer Job ι :=
  { process (ι := ι) crow service with admits := fun _ => Spares id }

-- The answer of a poll, if it is the ticket.
def Shows (id : Bytes) (jobs : ι → Job) (view : SystemView ι) (i : ι) (status : Bytes)
    (shown : List Server.TicketMessage) : Prop :=
  (jobs i).polls? = some id ∧ view.result i = some (shownTicket status shown)

def Waiting (id : Bytes) (world : World) : Prop :=
  ∀ t, world.db.ticket? id = some t → t.status = .AwaitingVisitor →
    HasAnswer (world.db.messagesByTicket id)

theorem polls_start {inv : SystemView ι → Prop}
    (h : inv ((sparing id crow service).start jobs world).toView) :
    ((sparing id crow service).start jobs world).Sound exec (fun _ => PollTrail)
      (fun i => PollEnd (jobs i)) inv :=
  .start (fun _ => .Start) (fun i => follows_poll crow service (jobs i)) h

theorem sound_sparing {pool : SystemPool ι} (hworld : Waiting id world)
    (hlife : (sparing id crow service).Life exec jobs world pool) :
    pool.Sound exec (fun _ => PollTrail) (fun i => PollEnd (jobs i)) (PollInv id) := by
  have hboot : Waiting id (boot world) := by
    rw [Waiting, (boot_keeps world).1]
    exact hworld
  refine (polls_start ⟨hboot, ?_, ?_, ?_, ?_, ?_⟩).reaches (upkeep_pollInv jobs id).preserves hlife <;>
    simp [Interleaving.Process.start, Pool.start, View.trail]

-- What of it a process leaves to the next.
structure Remains (id : Bytes) (msgs : List Message) (ended : Prop) (world : World) : Prop where
  grown : msgs <+: world.db.messagesByTicket id
  closed : ended → IsClosed id world

theorem Remains.laterInv (h : Remains id msgs ended world) :
    LaterInv id msgs ended ((sparing id crow service).start jobs world).toView
      ((sparing id crow service).start jobs world).toView := by
  have hdb : (boot world).db = world.db := (boot_keeps world).1
  refine laterInv_rfl ?_ fun hclosed => ?_
  · change msgs <+: (boot world).db.messagesByTicket id
    exact hdb ▸ h.grown
  · change ∃ t, (boot world).db.ticket? id = some t ∧ _
    exact hdb ▸ h.closed hclosed

theorem Remains.lives {last : World} (h : Remains id msgs ended world)
    (hlives : (sparing (ι := ι) id crow service).Lives exec (fun _ => True) world last) :
    Remains id msgs ended last := by
  refine hlives.invariant h (fun jobs before pool hbefore hlife => ?_)
    fun _ (view : SystemView ι) (hremains : Remains id msgs ended view.world) _ => hremains
  have hinv := ((polls_start hbefore.laterInv).reaches (upkeep_laterInv jobs _).preserves hlife).inv
  exact ⟨hinv.grown, hinv.closed⟩

theorem shown_of_shows {pool : SystemPool ι} {status : Bytes} {shown : List Server.TicketMessage}
    (hpool : pool.toView.Lawful (fun _ => PollTrail) fun i => PollEnd (jobs i))
    (h : Shows id jobs pool.toView i status shown) : ∃ t msgs,
      pool.trail i = [⟨.MessagesByTicket id, msgs⟩, ⟨.TicketGetById id, some t⟩] ∧
        status = t.status.toString ∧ shown = msgs.map Server.ticketMessage :=
  hpool.done i _ h.2 id status shown h.1 rfl

theorem toString_injective {status other : TicketStatus} (h : status.toString = other.toString) :
    status = other := by
  revert h
  cases status <;> cases other <;> decide +kernel

-- A poll that shows all that another one showed, and no closed ticket open again.
def NoLess (status : Bytes) (shown : List Server.TicketMessage) (later : Bytes)
    (more : List Server.TicketMessage) : Prop :=
  shown <+: more ∧
    (status = TicketStatus.Closed.toString → later = TicketStatus.Closed.toString)

-- So does every poll that begins later, in the same process or in a later one.
def ShowsNoLess (crow : Server.Crow Json) (service : Feedback.Service) (id status : Bytes)
    (shown : List Server.TicketMessage) (jobs : ι → Job) (pool : SystemPool ι) : Prop :=
  (∀ later, Pool.Reaches exec (Spares id) pool later → ∀ j status' more, pool.trail j = [] →
    Shows id jobs later.toView j status' more → NoLess status shown status' more) ∧
  ∀ last, (sparing (ι := ι) id crow service).Lives exec (fun _ => True) pool.world last →
    ∀ (jobs : ι → Job) later, (sparing id crow service).Life exec jobs last later →
      ∀ j status' more, Shows id jobs later.toView j status' more → NoLess status shown status' more

theorem noLess_of_later {t : Ticket} {pool later : SystemPool ι}
    (hpool : pool.Sound exec (fun _ => PollTrail) (fun i => PollEnd (jobs i))
      (LaterInv id msgs (t.status = .Closed) pool.toView))
    (hlater : Pool.Reaches exec (Spares id) pool later) (j : ι) (status' : Bytes)
    (more : List Server.TicketMessage) (hnil : pool.trail j = [])
    (hj : Shows id jobs later.toView j status' more) :
    NoLess t.status.toString (msgs.map Server.ticketMessage) status' more := by
  have hend := hpool.reaches (upkeep_laterInv jobs pool.toView).preserves hlater
  obtain ⟨t', msgs', htrail, rfl, rfl⟩ := shown_of_shows hend.lawful hj
  refine ⟨(hend.inv.listed j msgs' hnil (by simp [htrail])).map _, fun hstatus => ?_⟩
  rw [hend.inv.read (toString_injective hstatus) j t' hnil (by simp [htrail])]

-- From before a ticket is opened until it is purged, over processes killed at any
-- point: a poll that says that the visitor may answer shows an answer of the
-- admin; and a poll begun after another was answered, by the same process or by a
-- later one, shows no less than that one, and never a closed ticket open again.
theorem polls_agree (crow : Server.Crow Json) (service : Feedback.Service) (id : Bytes)
    (first world : World) (habsent : first.db.ticket? id = none)
    (hlives : (sparing (ι := ι) id crow service).Lives exec (fun _ => True) first world)
    (jobs : ι → Job) (pool : SystemPool ι)
    (hlife : (sparing id crow service).Life exec jobs world pool) (i : ι) (status : Bytes)
    (shown : List Server.TicketMessage) (hi : Shows id jobs pool.toView i status shown) :
    (status = TicketStatus.AwaitingVisitor.toString → ∃ m ∈ shown, m.sender = utf8 "admin") ∧
      ShowsNoLess crow service id status shown jobs pool := by
  have hworld : Waiting id world := hlives.invariant (fun t ht => by simp [habsent] at ht)
    (fun jobs _ pool hworld hlife => (sound_sparing hworld hlife).inv.waiting)
    fun jobs (view : SystemView ι) (hinv : Waiting id view.world) _ => hinv
  have hpool := sound_sparing hworld hlife
  obtain ⟨t, msgs, htrail, rfl, rfl⟩ := shown_of_shows hpool.lawful hi
  have hgrown := hpool.inv.listed i msgs (by simp [htrail])
  have hclosed := hpool.inv.closed i t (by simp [htrail])
  refine ⟨fun hstatus => ?_, fun later hlater j status' more hnil hj => ?_,
    fun last hlast jobs later hlater j status' more hj => ?_⟩
  · obtain ⟨m, hm, hsender⟩ := hpool.inv.shown i msgs _ t htrail List.mem_cons_self
      (toString_injective hstatus)
    exact ⟨_, List.mem_map.mpr ⟨m, hm, rfl⟩, by simp [Server.ticketMessage, hsender]⟩
  · exact noLess_of_later ⟨hpool.lawful, laterInv_rfl hgrown hclosed, hpool.follows⟩ hlater j status'
      more hnil hj
  · have hremains : Remains id msgs (t.status = .Closed) last := Remains.lives ⟨hgrown, hclosed⟩ hlast
    exact noLess_of_later (polls_start hremains.laterInv) hlater j status' more rfl hj

end Polls

def samplePoll : Server.ApiCall :=
  { Server.sampleCall (.GetTicket (utf8 "000000")) with
    req := { (Server.sampleCall .Captcha).req with
      header := fun name => if name = utf8 "Authorization" then
        utf8 "Bearer " ++ Feedback.Service.readToken (Server.sampleCall .Captcha).env else [] } }

def answerText (text : Bytes) : Job :=
  .Incoming ⟨12, true, true, 200⟩ 1700000020
    { msgId := 51, fromId := 7, text, quotedMsgId := 0, quotedText := [] }

-- A visitor leaves feedback, the admin answers, the visitor polls, the admin
-- closes the ticket, the visitor polls again.
def pollJobs : Fin 5 → Job
  | 0 => .Request (Server.sampleCall .PostFeedback)
  | 1 => answerText (utf8 "[000000] hi")
  | 2 => .Request samplePoll
  | 3 => answerText (utf8 "[000000] /close")
  | 4 => .Request samplePoll

instance (id : Bytes) (view : SystemView (Fin 5)) (i : Fin 5) (op : Op) :
    Decidable (Spares id view i op) :=
  inferInstanceAs (Decidable (_ = _))

def samplePolls : SystemPool (Fin 5) :=
  (sparing (utf8 "000000") Server.sampleCrow Feedback.sampleService).start pollJobs
    Sequential.registered

def sampleShown : List Server.TicketMessage :=
  [⟨utf8 "visitor", utf8 "hello", 1700000010⟩, ⟨utf8 "admin", utf8 "hi", 1700000020⟩]

def seeShown (i : Fin 5) (status : TicketStatus) (pool : SystemPool (Fin 5)) : Bool :=
  decide (pool.result i = some (shownTicket status.toString sampleShown))

theorem polls_agree_sample : ∃ pool later : SystemPool (Fin 5),
    ((sparing (utf8 "000000") Server.sampleCrow Feedback.sampleService).Life exec pollJobs
        Sequential.registered pool ∧
      Pool.Reaches exec (Spares (utf8 "000000")) pool later ∧
      Shows (utf8 "000000") pollJobs later.toView 4 TicketStatus.Closed.toString sampleShown) ∧
    (TicketStatus.AwaitingVisitor.toString = TicketStatus.AwaitingVisitor.toString →
      ∃ m ∈ sampleShown, m.sender = utf8 "admin") ∧
    ShowsNoLess Server.sampleCrow Feedback.sampleService (utf8 "000000")
      TicketStatus.AwaitingVisitor.toString sampleShown pollJobs pool := by
  obtain ⟨pool, hrun, hseen⟩ := Pool.exists_reaches_of_follow exec (Spares (utf8 "000000"))
    [0, 0, 0, 0, 0, 0, 0, 0, 0, 0, 1, 1, 1, 1, 1, 2, 1, 2, 2] samplePolls
    (fun pool => (seeShown 2 .AwaitingVisitor pool, (Pool.follow exec (Spares (utf8 "000000"))
      [3, 3, 3, 3, 3, 4, 4, 4] pool).map (seeShown 4 .Closed))) (true, some true) (by decide +kernel)
  obtain ⟨hshown, hfollow⟩ := Prod.mk.inj hseen
  obtain ⟨later, hlater, hlast⟩ := Pool.exists_reaches_of_follow _ _ _ _ _ _ hfollow
  exact ⟨pool, later, ⟨hrun, hlater, rfl, of_decide_eq_true hlast⟩, polls_agree Server.sampleCrow
    Feedback.sampleService (utf8 "000000") Sequential.registered Sequential.registered
    (by decide +kernel) .refl pollJobs pool hrun 2 _ _ ⟨rfl, of_decide_eq_true hshown⟩⟩

end DeltaFeedback.System
