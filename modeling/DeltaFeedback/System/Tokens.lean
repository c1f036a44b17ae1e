import DeltaFeedback.System.Polls

namespace DeltaFeedback.System

open Text Interleaving Db

-- The ends of a request for a ticket.
inductive ReadEnd (service : Feedback.Service) (req : Server.Request) (id : Bytes) :
    Trail → Except SqlError (Except Bytes Server.Response) → Prop
  | MissingAuth (h : Server.bearer req = []) :
      ReadEnd service req id [] (.ok (.ok (.error 401 "missing_auth")))
  | NotFound : ReadEnd service req id [⟨.TicketGetById id, none⟩] (.ok (.ok (.error 404 "not_found")))
  | BadToken (t : Ticket) (h : (service.crypto.sha256 (Server.bearer req)).val ≠ t.readTokenHash) :
      ReadEnd service req id [⟨.TicketGetById id, some t⟩] (.ok (.ok (.error 403 "bad_token")))
  | Unchanged (t : Ticket) (msgs : List Message) :
      ReadEnd service req id [⟨.MessagesByTicket id, msgs⟩, ⟨.TicketGetById id, some t⟩]
        (.ok (.ok (.text 304 [])))
  | Ticket (t : Ticket) (msgs : List Message) :
      ReadEnd service req id [⟨.MessagesByTicket id, msgs⟩, ⟨.TicketGetById id, some t⟩]
        (.ok (.ok (.json 200 (.Ticket t.status.toString (msgs.map Server.ticketMessage)))))

def openedTicket (id token : Bytes) : Except SqlError Answer :=
  .ok (some (.ok (.json 200 (.Submitted (utf8 "ok") id token))))

-- What a submission that was told of its ticket has done.
structure Opened (service : Feedback.Service) (input : Feedback.SubmitInput) (env : Feedback.Env)
    (id token : Bytes) (trail : Trail) : Prop where
  id : id = (service.newTicket input env).id
  token : token = Feedback.Service.readToken env
  stored : ∃ upper lower, trail = upper ++ ⟨.TicketInsert (service.newTicket input env), ()⟩ :: lower ∧
    ⟨.MessageInsert (service.firstMessage input env), ()⟩ ∈ upper

structure TokenEnd {Json : Type} (crow : Server.Crow Json) (service : Feedback.Service) (job : Job)
    (trail : Trail) (outcome : Except SqlError Answer) : Prop where
  opened : ∀ call id token, job = .Request call → outcome = openedTicket id token →
    ∃ input, Makes crow call (.SubmitNew input call.env) ∧
      Opened service input call.env id token trail
  read : ∀ call id, job = .Request call → call.route = .GetTicket id →
    ∃ ended, ReadEnd service call.req id trail ended ∧ outcome = ended.map some

section Ends

variable {Json : Type} (crow : Server.Crow Json) (service : Feedback.Service)

theorem follows_read (req : Server.Request) (id : Bytes) :
    Follows exec (fun _ => True) (ReadEnd service req id) (Server.getTicket service req id) [] := by
  refine follows_ite (fun hbearer => .MissingAuth (by simpa using hbearer)) fun _ => ?_
  refine follows_call rfl fun _ found _ _ => ⟨trivial, ?_⟩
  cases found with
  | none => exact .NotFound
  | some t =>
      refine follows_ite (fun hdiff => .BadToken t ((xorDiff_lengths_iff _ _).mp hdiff)) fun _ => ?_
      refine follows_call rfl fun _ msgs _ _ => ⟨trivial, ?_⟩
      exact follows_ite (fun _ => .Unchanged t msgs) fun _ => .Ticket t msgs

theorem opened_of_submitEnd {input : Feedback.SubmitInput} {env : Feedback.Env} {trail : Trail}
    {result : Feedback.SubmitResult} (hok : result.error = .Ok)
    (h : service.SubmitEnd input env trail (.ok result)) :
    Opened service input env result.ticketId result.readToken trail := by
  cases h with
  | Ok owner rowId contact quote =>
      exact ⟨rfl, rfl, [_, _, _, _, _], service.submitAsked input env owner, rfl, by simp⟩
  | BadReport =>
      simp only [Feedback.SubmitResult.failed, Feedback.reportError] at hok
      split_ifs at hok
  | Pow error h =>
      obtain rfl : error = .Ok := hok
      cases hverdict : (service.submitVerdict input env).1 <;>
        simp [hverdict, Feedback.submitPowError] at h
  | _ => cases hok

theorem opened_of_submitResponse {result : Feedback.SubmitResult} {id token : Bytes}
    (h : Server.submitResponse result = .json 200 (.Submitted (utf8 "ok") id token)) :
    result.error = .Ok ∧ result.ticketId = id ∧ result.readToken = token := by
  unfold Server.submitResponse at h
  by_cases hok : result.error = .Ok <;> simp [Server.Response.json, hok] at h
  exact ⟨hok, h.2.2⟩

theorem readToken_ne_nil (env : Feedback.Env) : Feedback.Service.readToken env ≠ [] :=
  List.cons_ne_nil _ _

variable {crow service} {job : Job} {trail : Trail} {outcome : Except SqlError Answer}

theorem tokenEnd_of_ne (hpolls : job.polls? = none) (h : ∀ id token, outcome ≠ openedTicket id token) :
    TokenEnd crow service job trail outcome where
  opened _ id token _ houtcome := absurd houtcome (h id token)
  read call id hjob hget := by simp [Job.polls?, hjob, hget] at hpolls

variable (crow service)

theorem follows_postFeedback (call : Server.ApiCall) (hroute : call.route = .PostFeedback) :
    Follows exec (fun _ => True)
      (fun trail outcome => TokenEnd crow service (.Request call) trail (outcome.map some))
      (Server.postFeedback crow service call.req call.env) [] := by
  have hother : (Job.Request call).polls? = none := by simp [Job.polls?, hroute]
  unfold Server.postFeedback
  cases hload : crow.load call.req.body with
  | none => exact tokenEnd_of_ne hother fun _ _ h => by cases h
  | some body =>
      dsimp only
      cases hinput : Server.submitInput crow call.req body with
      | error what => exact tokenEnd_of_ne hother fun _ _ h => by cases h
      | ok input =>
          refine Follows.bind ((service.follows_submitNew input call.env).mono (fun _ _ => trivial)
            fun trail outcome hend => ?_)
          cases outcome with
          | error exn => exact tokenEnd_of_ne hother fun _ _ h => by cases h
          | ok result =>
              refine ⟨fun other id token heq hopened => ?_, fun other id heq hget => ?_⟩
              case refine_2 => cases heq; simp [hroute] at hget
              cases heq
              obtain ⟨hok, rfl, rfl⟩ := opened_of_submitResponse
                (Except.ok.inj (Option.some.inj (Except.ok.inj hopened)))
              exact ⟨input, .SubmitNew body input hroute hload hinput,
                opened_of_submitEnd service hok hend⟩

theorem follows_postTicket (call : Server.ApiCall) (id : Bytes) (hroute : call.route = .PostTicket id) :
    Follows exec (fun _ => True)
      (fun trail outcome => TokenEnd crow service (.Request call) trail (outcome.map some))
      (Server.postTicket crow service call.req id call.env) [] := by
  have hother : (Job.Request call).polls? = none := by simp [Job.polls?, hroute]
  refine follows_ite (fun _ => tokenEnd_of_ne hother fun _ _ h => by cases h) fun _ => ?_
  cases hload : crow.load call.req.body with
  | none => exact tokenEnd_of_ne hother fun _ _ h => by cases h
  | some body =>
      dsimp only
      cases hinput : Server.replyInput crow call.req id (Server.bearer call.req) body with
      | error what => exact tokenEnd_of_ne hother fun _ _ h => by cases h
      | ok input =>
          refine Follows.bind ((service.follows_submitReply input call.env).mono (fun _ _ => trivial)
            fun trail outcome _ => ?_)
          cases outcome with
          | error exn => exact tokenEnd_of_ne hother fun _ _ h => by cases h
          | ok error =>
              refine tokenEnd_of_ne hother fun _ _ h => ?_
              simp [Except.map, openedTicket, Server.replyResponse, Server.Response.json] at h

theorem follows_token (job : Job) : Follows exec (fun _ => True) (TokenEnd crow service job)
    (job.prog crow service) [] := by
  cases job with
  | Incoming dc now msg =>
      refine Follows.map ((Dc.follows_incomingMsg dc now msg).mono (fun _ _ => trivial)
        fun _ outcome _ => tokenEnd_of_ne rfl fun _ _ h => ?_)
      cases outcome <;> cases h
  | Purge retentionDays now =>
      refine Follows.map ((within_purgeThread retentionDays now fun _ _ => trivial).mono
        (fun _ _ => trivial) fun _ outcome _ => tokenEnd_of_ne rfl fun _ _ h => ?_)
      cases outcome <;> cases h
  | Request call =>
      refine Follows.map ?_
      unfold Server.handler
      cases hroute : call.route with
      | Captcha =>
          exact tokenEnd_of_ne (by simp [Job.polls?, hroute]) fun _ _ h => by cases h
      | PostFeedback => exact follows_postFeedback crow service call hroute
      | PostTicket id => exact follows_postTicket crow service call id hroute
      | GetTicket id =>
          refine (follows_read service call.req id).mono (fun _ _ => trivial)
            fun trail outcome hend => ⟨fun other opened token heq hopened => ?_,
              fun other asked heq hget => ?_⟩
          · cases hend <;> cases hopened
          · cases heq
            obtain rfl : id = asked := by simpa [hroute] using hget
            exact ⟨outcome, hend, rfl⟩

end Ends

section Tokens

variable {ι : Type} [DecidableEq ι] {Json : Type} {crow : Server.Crow Json}
variable {service : Feedback.Service} {jobs : ι → Job} {id hash : Bytes}
variable {shown : Server.TicketMessage} {view before : SystemView ι}
variable {i : ι} {op : Op} {result : op.Result} {world : World}

def HasToken (id hash : Bytes) (world : World) : Prop :=
  ∃ t, world.db.ticket? id = some t ∧ t.readTokenHash = hash

def Lists (shown : Server.TicketMessage) (msgs : List Message) : Prop :=
  ∃ m ∈ msgs, Server.ticketMessage m = shown

theorem Lists.grow {msgs more : List Message} (h : Lists shown msgs) (hmore : msgs <+: more) :
    Lists shown more := by
  obtain ⟨m, hm, hshown⟩ := h
  exact ⟨m, hmore.subset hm, hshown⟩

theorem HasToken.exec {before : World} (h : HasToken id hash before)
    (hspared : Concurrency.deletes id before op = false)
    (hexec : exec op before = .ok (result, world)) : HasToken id hash world := by
  obtain ⟨t, ht, hhash⟩ := h
  obtain ⟨now, hnow, hkept, -⟩ := ticket_stays hspared hexec ht
  exact ⟨now, hnow, hkept.trans hhash⟩

def inserts (id : Bytes) : Op → Bool
  | .TicketInsert t => t.id == id
  | _ => false

-- What a message inserted by a job looks like in a poll.
def shownMessage (m : NewMessage) : Server.TicketMessage :=
  ⟨if m.sender = .Visitor then utf8 "visitor" else utf8 "admin", m.body, m.createdAt⟩

-- Once the job has inserted the ticket, no purge deletes it.
def SparesOpened (i : ι) (id : Bytes) : Pool.Condition Op Op.Result World SqlError Answer ι :=
  fun view _ op => (∃ taken ∈ view.trail i, inserts id taken.1 = true) →
    Concurrency.deletes id view.world op = false

-- What the job has inserted is there: its ticket, and the message it has stored
-- since.
structure KeptInv (i : ι) (id : Bytes) (view : SystemView ι) : Prop where
  ticket : ∀ t, ⟨.TicketInsert t, ()⟩ ∈ view.trail i → t.id = id →
    HasToken id t.readTokenHash view.world
  message : ∀ upper t lower m, view.trail i = upper ++ ⟨.TicketInsert t, ()⟩ :: lower → t.id = id →
    ⟨.MessageInsert m, ()⟩ ∈ upper → m.ticketId = id →
    Lists (shownMessage m) (view.world.db.messagesByTicket id)

theorem inserted_of_exec {before : World} {t : Ticket}
    (hexec : exec (.TicketInsert t) before = .ok ((), world)) :
    HasToken t.id t.readTokenHash world := by
  by_cases hmem : t.id ∈ before.db.tickets.map fun t => t.id
  · simp [exec, hmem] at hexec
  · have hnone := (before.db.ticket?_eq_none_iff t.id).mpr hmem
    refine ⟨before.db.newTicketRow t, ?_, rfl⟩
    rw [tables_of_exec hexec, Op.write, Tables.ticket?_ticketInsert, hnone, Option.none_or, if_pos rfl]

theorem KeptInv.ticket_advance {j : ι} (h : KeptInv i id view) (hspared : SparesOpened i id view j op)
    (hexec : exec op view.world = .ok (result, world)) (t : Ticket)
    (hinsert : ⟨.TicketInsert t, ()⟩ ∈ (view.advance j op result world).trail i) (hid : t.id = id) :
    HasToken id t.readTokenHash world := by
  rcases (view.mem_trail_advance _ _ _ _).mp hinsert with ⟨-, hnew⟩ | hold
  · cases hnew
    exact hid ▸ inserted_of_exec hexec
  · exact (h.ticket t hold hid).exec (hspared ⟨_, hold, beq_iff_eq.mpr hid⟩) hexec

theorem KeptInv.message_advance {j : ι} (h : KeptInv i id view)
    (hspared : SparesOpened i id view j op) (hexec : exec op view.world = .ok (result, world))
    (upper : Trail) (t : Ticket) (lower : Trail) (m : NewMessage)
    (htrail : (view.advance j op result world).trail i = upper ++ ⟨.TicketInsert t, ()⟩ :: lower)
    (hid : t.id = id) (hstored : ⟨.MessageInsert m, ()⟩ ∈ upper) (hm : m.ticketId = id) :
    Lists (shownMessage m) (world.db.messagesByTicket id) := by
  have hgrow {earlier : Trail} (hview : view.trail i = earlier ++ ⟨.TicketInsert t, ()⟩ :: lower) :
      view.world.db.messagesByTicket id <+: world.db.messagesByTicket id :=
    messages_grow (hspared ⟨⟨.TicketInsert t, ()⟩, by simp [hview], beq_iff_eq.mpr hid⟩) hexec
  by_cases hij : i = j
  · subst j
    rw [View.advance_trail_self] at htrail
    cases upper with
    | nil => simp at hstored
    | cons taken upper =>
        obtain ⟨rfl, hview⟩ := List.cons.inj htrail
        rcases List.mem_cons.mp hstored with hnew | hold
        · cases hnew
          rw [Lists, tables_of_exec hexec, Op.write, Tables.messagesByTicket_messageInsert, if_pos hm]
          exact ⟨_, List.mem_append_right _ List.mem_cons_self, rfl⟩
        · exact (h.message upper t lower m hview hid hold hm).grow (hgrow hview)
  · rw [View.advance_trail_of_ne _ _ _ _ _ hij] at htrail
    exact (h.message upper t lower m htrail hid hstored hm).grow (hgrow htrail)

-- What is there from a moment on is read by whoever begins later.
structure HeldInv (id hash : Bytes) (shown : Server.TicketMessage) (before view : SystemView ι) :
    Prop where
  ticket : HasToken id hash view.world
  message : Lists shown (view.world.db.messagesByTicket id)
  read : ∀ j found, before.trail j = [] → ⟨.TicketGetById id, found⟩ ∈ view.trail j →
    ∃ t, found = some t ∧ t.readTokenHash = hash
  listed : ∀ j msgs, before.trail j = [] → ⟨.MessagesByTicket id, msgs⟩ ∈ view.trail j →
    Lists shown msgs

theorem heldInv_rfl (hticket : HasToken id hash view.world)
    (hmessage : Lists shown (view.world.db.messagesByTicket id)) : HeldInv id hash shown view view where
  ticket := hticket
  message := hmessage
  read j found hnil hread := by simp [hnil] at hread
  listed j msgs hnil hlist := by simp [hnil] at hlist

theorem HeldInv.advance (h : HeldInv id hash shown before view) (hspared : Spares id view i op)
    (hexec : exec op view.world = .ok (result, world)) :
    HeldInv id hash shown before (view.advance i op result world) := by
  refine ⟨h.ticket.exec hspared hexec, h.message.grow (messages_grow hspared hexec),
    fun j found hnil hread => ?_, fun j msgs hnil hlist => ?_⟩
  · rcases (view.mem_trail_advance _ _ _ _).mp hread with ⟨-, hnew⟩ | hold
    · cases hnew
      obtain ⟨t, ht, hhash⟩ := h.ticket
      simp only [exec, ht, Option.map_some, Except.ok.injEq, Prod.mk.injEq] at hexec
      exact ⟨_, hexec.1.symm, hhash⟩
    · exact h.read j found hnil hold
  · rcases (view.mem_trail_advance _ _ _ _).mp hlist with ⟨-, hnew⟩ | hold
    · cases hnew
      obtain ⟨-, rfl⟩ := listed_of_exec hexec
      exact h.message
    · exact h.listed j msgs hnil hold

theorem upkeep_keptInv (jobs : ι → Job) (i : ι) (id : Bytes) : Upkeep (fun _ _ => True)
    (fun i => TokenEnd crow service (jobs i)) (SparesOpened i id) (KeptInv i id) where
  advance _ _ _ _ _ _ hinv _ _ hspared hexec :=
    ⟨hinv.ticket_advance hspared hexec, hinv.message_advance hspared hexec⟩
  ends _ _ _ _ hinv _ _ := ⟨hinv.ticket, hinv.message⟩
  uncounted _ _ hinv := ⟨hinv.ticket, hinv.message⟩

theorem upkeep_heldInv (jobs : ι → Job) (before : SystemView ι) : Upkeep (fun _ _ => True)
    (fun i => TokenEnd crow service (jobs i)) (Spares id) (HeldInv id hash shown before) where
  advance _ _ _ _ _ _ hinv _ _ hspared hexec := hinv.advance hspared hexec
  ends _ _ _ _ hinv _ _ := ⟨hinv.ticket, hinv.message, hinv.read, hinv.listed⟩
  uncounted _ _ hinv := ⟨hinv.ticket, hinv.message, hinv.read, hinv.listed⟩

theorem tokens_start {inv : SystemView ι → Prop}
    (h : inv ((sparing id crow service).start jobs world).toView) :
    ((sparing id crow service).start jobs world).Sound exec (fun _ _ => True)
      (fun i => TokenEnd crow service (jobs i)) inv :=
  .start (fun _ => trivial) (fun i => follows_token crow service (jobs i)) h

-- What of it a process leaves to the next.
structure Kept (id hash : Bytes) (shown : Server.TicketMessage) (world : World) : Prop where
  ticket : HasToken id hash world
  message : Lists shown (world.db.messagesByTicket id)

theorem HeldInv.kept (h : HeldInv id hash shown before view) : Kept id hash shown view.world :=
  ⟨h.ticket, h.message⟩

theorem Kept.heldInv (h : Kept id hash shown world) :
    HeldInv id hash shown ((sparing id crow service).start jobs world).toView
      ((sparing id crow service).start jobs world).toView := by
  have hdb : (boot world).db = world.db := (boot_keeps world).1
  refine heldInv_rfl ?_ ?_
  · change ∃ t, (boot world).db.ticket? id = some t ∧ _
    exact hdb ▸ h.ticket
  · change Lists shown ((boot world).db.messagesByTicket id)
    exact hdb ▸ h.message

theorem Kept.held {pool : SystemPool ι} (h : Kept id hash shown world)
    (hlife : (sparing id crow service).Life exec jobs world pool) :
    HeldInv id hash shown ((sparing id crow service).start jobs world).toView pool.toView :=
  ((tokens_start h.heldInv).reaches (upkeep_heldInv jobs _).preserves hlife).inv

-- A poll with the token is answered with the ticket, or with nothing new.
def LetsIn (id token : Bytes) (shown : Server.TicketMessage) (job : Job)
    (answer : Option (Except SqlError Answer)) : Prop :=
  ∀ call outcome, job = .Request call → call.route = .GetTicket id → Server.bearer call.req = token →
    answer = some outcome → outcome = .ok (some (.ok (.text 304 []))) ∨
      ∃ status list, outcome = shownTicket status list ∧ shown ∈ list

theorem letsIn_of_readEnd {req : Server.Request} {trail : Trail} {token : Bytes}
    {ended : Except SqlError (Except Bytes Server.Response)} (hne : token ≠ [])
    (hbearer : Server.bearer req = token) (h : ReadEnd service req id trail ended)
    (hread : ∀ found, ⟨.TicketGetById id, found⟩ ∈ trail → ∃ t, found = some t ∧
      t.readTokenHash = (service.crypto.sha256 token).val)
    (hlisted : ∀ msgs, ⟨.MessagesByTicket id, msgs⟩ ∈ trail → Lists shown msgs) :
    ended = .ok (.ok (.text 304 [])) ∨
      ∃ status list, ended = .ok (.ok (.json 200 (.Ticket status list))) ∧ shown ∈ list := by
  cases h with
  | MissingAuth hnil => exact absurd (hbearer.symm.trans hnil) hne
  | NotFound =>
      obtain ⟨t, ht, -⟩ := hread none List.mem_cons_self
      cases ht
  | BadToken t hbad =>
      obtain ⟨found, hfound, hhash⟩ := hread (some t) List.mem_cons_self
      cases hfound
      exact absurd (hbearer ▸ hhash.symm) hbad
  | Unchanged t msgs => exact .inl rfl
  | Ticket t msgs =>
      obtain ⟨m, hm, hshown⟩ := hlisted msgs List.mem_cons_self
      exact .inr ⟨_, _, rfl, List.mem_map.mpr ⟨m, hm, hshown⟩⟩

theorem letsIn_of_held {pool later : SystemPool ι} {token : Bytes} (hne : token ≠ [])
    (hpool : pool.Sound exec (fun _ _ => True) (fun i => TokenEnd crow service (jobs i))
      (HeldInv id (service.crypto.sha256 token).val shown pool.toView))
    (hlater : Pool.Reaches exec (Spares id) pool later) (j : ι) (hnil : pool.trail j = []) :
    LetsIn id token shown (jobs j) (later.result j) := by
  rintro call outcome hjob hget hbearer hresult
  have hend := hpool.reaches (upkeep_heldInv jobs pool.toView).preserves hlater
  obtain ⟨ended, hended, rfl⟩ := (hend.lawful.done j outcome hresult).read call id hjob hget
  rcases letsIn_of_readEnd hne hbearer hended (fun found => hend.inv.read j found hnil)
    (fun msgs => hend.inv.listed j msgs hnil) with rfl | ⟨status, list, rfl, hmem⟩
  · exact .inl rfl
  · exact .inr ⟨status, list, rfl, hmem⟩

-- Whoever polls with the token is let in from a moment on, by the same process and
-- by every later one.
def Opens (crow : Server.Crow Json) (service : Feedback.Service) (id token : Bytes)
    (shown : Server.TicketMessage) (jobs : ι → Job) (pool : SystemPool ι) : Prop :=
  (∀ later, Pool.Reaches exec (Spares id) pool later → ∀ j, pool.trail j = [] →
    LetsIn id token shown (jobs j) (later.result j)) ∧
  ∀ last, (sparing (ι := ι) id crow service).Lives exec (fun _ => True) pool.world last →
    ∀ (jobs : ι → Job) later, (sparing id crow service).Life exec jobs last later → ∀ j,
      LetsIn id token shown (jobs j) (later.result j)

-- A visitor who was told of a ticket and its token is let in with it until the
-- ticket is purged, and sees the message that was left.
theorem token_opens (crow : Server.Crow Json) (service : Feedback.Service) (id token : Bytes)
    (world : World) (jobs : ι → Job) (i : ι) (pool : SystemPool ι)
    (hlife : Pool.Reaches exec (SparesOpened i id) ((process crow service).start jobs world) pool)
    (call : Server.ApiCall) (hcall : jobs i = .Request call)
    (hopened : pool.result i = some (openedTicket id token)) :
    ∃ input, Makes crow call (.SubmitNew input call.env) ∧ Opens crow service id token
      ⟨utf8 "visitor", input.message, call.env.writeClock⟩ jobs pool := by
  have hstart : ((process crow service).start jobs world).Sound exec (fun _ _ => True)
      (fun i => TokenEnd crow service (jobs i)) (KeptInv i id) := by
    refine .start (fun _ => trivial) (fun i => follows_token crow service (jobs i)) ⟨?_, ?_⟩ <;>
      simp [Pool.start, View.trail]
  have hpool := hstart.reaches (upkeep_keptInv jobs i id).preserves hlife
  obtain ⟨input, hmakes, hid, htoken, upper, lower, htrail, hstored⟩ :=
    (hpool.lawful.done i _ hopened).opened call id token hcall rfl
  have hne : token ≠ [] := htoken ▸ readToken_ne_nil call.env
  have hticket : HasToken id (service.crypto.sha256 token).val pool.world := by
    have hkept := hpool.inv.ticket (service.newTicket input call.env) (by simp [htrail]) hid.symm
    rwa [htoken]
  have hmessage := hpool.inv.message upper _ lower _ htrail hid.symm hstored hid.symm
  refine ⟨input, hmakes, fun later hlater j hnil => ?_, fun last hlives jobs later hlater j => ?_⟩
  · exact letsIn_of_held hne ⟨hpool.lawful, heldInv_rfl hticket hmessage, hpool.follows⟩ hlater j hnil
  · have hlast : Kept id (service.crypto.sha256 token).val _ last := hlives.invariant
      ⟨hticket, hmessage⟩ (fun jobs world later hworld hlife => (hworld.held hlife).kept)
      fun jobs (view : SystemView ι) (hkept : Kept _ _ _ view.world) _ => hkept
    exact letsIn_of_held hne (tokens_start hlast.heldInv) hlater j rfl

end Tokens

def sampleToken : Bytes := Feedback.Service.readToken (Server.sampleCall .Captcha).env

def sampleFirst : Server.TicketMessage := ⟨utf8 "visitor", utf8 "hello", 1700000010⟩

def seeAnswer (i : Fin 5) (answer : Except SqlError Answer) (pool : SystemPool (Fin 5)) : Bool :=
  decide (pool.result i = some answer)

instance (i : Fin 5) (id : Bytes) (view : SystemView (Fin 5)) (j : Fin 5) (op : Op) :
    Decidable (SparesOpened i id view j op) :=
  inferInstanceAs (Decidable (_ → _))

theorem token_opens_sample : ∃ pool later : SystemPool (Fin 5),
    (Pool.Reaches exec (SparesOpened 0 (utf8 "000000")) samplePolls pool ∧
      Pool.Reaches exec (Spares (utf8 "000000")) pool later ∧
      later.result 2 = some (shownTicket TicketStatus.AwaitingAdmin.toString [sampleFirst])) ∧
    ∃ input, Makes Server.sampleCrow (Server.sampleCall .PostFeedback)
        (.SubmitNew input (Server.sampleCall .PostFeedback).env) ∧
      Opens Server.sampleCrow Feedback.sampleService (utf8 "000000") sampleToken
        ⟨utf8 "visitor", input.message, (Server.sampleCall .PostFeedback).env.writeClock⟩ pollJobs
        pool := by
  obtain ⟨pool, hrun, hseen⟩ := Pool.exists_reaches_of_follow exec
    (SparesOpened 0 (utf8 "000000")) [0, 0, 0, 0, 0, 0, 0, 0, 0, 0] samplePolls
    (fun pool => (seeAnswer 0 (openedTicket (utf8 "000000") sampleToken) pool,
      (Pool.follow exec (Spares (utf8 "000000")) [2, 2, 2] pool).map (seeAnswer 2
        (shownTicket TicketStatus.AwaitingAdmin.toString [sampleFirst])))) (true, some true)
    (by decide +kernel)
  obtain ⟨hopened, hfollow⟩ := Prod.mk.inj hseen
  obtain ⟨later, hlater, hlast⟩ := Pool.exists_reaches_of_follow _ _ _ _ _ _ hfollow
  exact ⟨pool, later, ⟨hrun, hlater, of_decide_eq_true hlast⟩, token_opens Server.sampleCrow
    Feedback.sampleService (utf8 "000000") sampleToken Sequential.registered pollJobs 0 pool hrun _
    rfl (of_decide_eq_true hopened)⟩

end DeltaFeedback.System
