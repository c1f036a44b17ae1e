import DeltaFeedback.Calls
import DeltaFeedback.Db.Shows

namespace DeltaFeedback.Sequential

open Text Interleaving Db

variable {first last between : World} {trail told base : Trail} {conversations : Conversations}

theorem alike_of_leads (h : Leads exec first trail last)
    (htrail : ∀ taken ∈ trail, ∀ id, taken.1.touches id = false) :
    first.db.Alike last.db.toTables := by
  refine h.invariant (fun world => first.db.Alike world.db.toTables) (fun _ => ⟨rfl, rfl⟩)
    fun taken htaken before world hbefore hexec id => ?_
  have hframe := write_of_not_touches (htrail taken htaken id) before.db.toTables
  rw [tables_of_exec hexec]
  exact ⟨hframe.1.trans (hbefore id).1, hframe.2.trans (hbefore id).2⟩

-- What an admin's message does to the conversations, as the world is.
def adminHappening (world : World) (now : Int) (msg : Dc.IncomingMsg) : Happening :=
  let quoted :=
    if msg.quotedMsgId = 0 then none else world.db.findTicketByDcMsgId msg.quotedMsgId
  let route := Dc.adminRoute msg quoted
  if route.kind = .NoTicketId then .Nothing
  else match world.db.ticket? route.ticketId with
    | none => .Nothing
    | some t =>
        if t.status = .Closed then .Nothing
        else if route.kind = .Close then .Closed route.ticketId now
        else if route.body = [] then .Nothing
        else .Said route.ticketId .Admin route.body

-- What a call has done, as its caller is told. A text whose notification could
-- not be sent has been accepted all the same.
def happening (world : World) : Call → Except SqlError Outcome → Happening
  | .SubmitNew input _, .ok (.Submitted result) =>
      if result.error = .Ok ∨ result.error = .SendFailed then .Opened result.ticketId input.message
      else .Nothing
  | .SubmitReply input _, .ok (.Replied error) =>
      if error = .Ok ∨ error = .SendFailed then .Said input.ticketId .Visitor input.body
      else .Nothing
  | .IncomingMsg _ now msg, _ =>
      if world.owner ≠ 0 ∧ msg.fromId = world.owner then adminHappening world now msg else .Nothing
  | .RouteAdminMsg _ now _ msg, _ => adminHappening world now msg
  | .PurgeInactive cutoff, _ => .Purged (world.db.gone cutoff)
  | _, _ => .Nothing

-- A call that does to the tables what happens to the conversations they show,
-- and nothing to the other tickets.
structure Does (conversations : Conversations) (first last : World) (happening : Happening) :
    Prop where
  allowed : happening.Allowed conversations
  shows : last.db.Shows (happening.apply conversations)
  frame : ∀ id, ¬ happening.Concerns id → last.db.ticket? id = first.db.ticket? id ∧
    last.db.messagesByTicket id = first.db.messagesByTicket id

theorem Does.before {happening : Happening} (hsame : first.db.Alike between.db.toTables)
    (h : Does conversations between last happening) : Does conversations first last happening where
  allowed := h.allowed
  shows := h.shows
  frame id hid := ⟨(h.frame id hid).1.trans (hsame id).1, (h.frame id hid).2.trans (hsame id).2⟩

theorem Does.after {happening : Happening} (h : Does conversations first between happening)
    (hsame : between.db.Alike last.db.toTables) : Does conversations first last happening where
  allowed := h.allowed
  shows := h.shows.alike hsame
  frame id hid := ⟨(hsame id).1.trans (h.frame id hid).1, (hsame id).2.trans (h.frame id hid).2⟩

theorem does_nothing (h : first.db.Shows conversations) (hleads : Leads exec first trail last)
    (htrail : ∀ taken ∈ trail, ∀ id, taken.1.touches id = false) :
    Does conversations first last .Nothing where
  allowed := trivial
  shows := h.alike (alike_of_leads hleads htrail)
  frame id _ := alike_of_leads hleads htrail id

-- What the statements on one ticket leave of the others.
theorem frame_of_leads {id : Bytes} (h : Leads exec first trail last)
    (htrail : ∀ taken ∈ trail, taken.1.touches id = false) :
    last.db.ticket? id = first.db.ticket? id ∧
      last.db.messagesByTicket id = first.db.messagesByTicket id := by
  refine h.invariant (fun world => world.db.ticket? id = first.db.ticket? id ∧
    world.db.messagesByTicket id = first.db.messagesByTicket id) ⟨rfl, rfl⟩
    fun taken htaken before world hbefore hexec => ?_
  have hframe := write_of_not_touches (htrail taken htaken) before.db.toTables
  rw [tables_of_exec hexec]
  exact ⟨hframe.1.trans hbefore.1, hframe.2.trans hbefore.2⟩

-- A new ticket and its first message.
theorem does_open {t : Ticket} {m : NewMessage} (h : first.db.Shows conversations)
    (hm : m.ticketId = t.id) (hsender : m.sender = .Visitor)
    (hleads : Leads exec first [⟨.MessageInsert m, ()⟩, ⟨.TicketInsert t, ()⟩] last) :
    Does conversations first last (.Opened t.id m.body) := by
  obtain ⟨opened, hopened, hmessage⟩ := hleads.of_cons
  obtain ⟨before, hbefore, hticket⟩ := hopened.of_cons
  obtain rfl := hbefore.of_nil
  have habsent : before.db.ticket? t.id = none := by
    rw [Tables.ticket?_eq_none_iff]
    intro hmem
    simp [exec, hmem] at hticket
  refine ⟨h.absent habsent, ?_, fun id hid => frame_of_leads hleads ?_⟩
  · rw [tables_of_exec hmessage, tables_of_exec hticket]
    exact h.opened before.db.constraints habsent hm hsender
  · have hother : t.id ≠ id := hid
    simp [Op.touches, hm, hother]

-- A message on an open ticket and the status it leads to.
theorem does_say {m : NewMessage} {id : Bytes} {rowId : Nat} {t : TicketRow}
    (h : first.db.Shows conversations) (hm : m.ticketId = id)
    (ht : first.db.ticket? id = some t) (hopen : t.status ≠ .Closed)
    (hturn : m.sender = .Visitor → t.status = .AwaitingVisitor)
    (hleads : Leads exec first [⟨.TicketSetStatus id m.sender.statusAfter, ()⟩,
      ⟨.LastInsertRowid, rowId⟩, ⟨.MessageInsert m, ()⟩] last) :
    Does conversations first last (.Said id m.sender m.body) := by
  obtain ⟨numbered, hnumbered, hstatus⟩ := hleads.of_cons
  obtain ⟨stored, hstored, hnumber⟩ := hnumbered.of_cons
  obtain ⟨before, hbefore, hmessage⟩ := hstored.of_cons
  obtain rfl := hbefore.of_nil
  obtain ⟨c, hc, hcStatus, hcClosed, -⟩ := h.exists_conversation ht
  have hcOpen : c.closedAt = none := Tables.status_ne_closed_iff.mp (hcStatus ▸ hopen)
  refine ⟨⟨c, hc, hcOpen, fun hvisitor => ?_⟩, ?_, fun other hid => frame_of_leads hleads ?_⟩
  · have hwaiting := hturn hvisitor
    rw [hcStatus, Tables.status_open hcOpen] at hwaiting
    cases hspeaker : c.lastSpeaker with
    | Admin => rfl
    | Visitor => simp [hspeaker, Sender.statusAfter] at hwaiting
  · rw [tables_of_exec hstatus, tables_of_exec hnumber, tables_of_exec hmessage]
    exact h.said hm hc hcOpen
  · have hother : id ≠ other := hid
    simp [Op.touches, hm, hother]

theorem does_close {id : Bytes} {closedAt : Int} {t : TicketRow} (h : first.db.Shows conversations)
    (ht : first.db.ticket? id = some t) (hopen : t.status ≠ .Closed)
    (hexec : exec (.TicketClose id closedAt) first = .ok ((), last)) :
    Does conversations first last (.Closed id closedAt) := by
  obtain ⟨c, hc, hcStatus, -⟩ := h.exists_conversation ht
  have hcOpen : c.closedAt = none := Tables.status_ne_closed_iff.mp (hcStatus ▸ hopen)
  refine ⟨⟨c, hc, hcOpen⟩, ?_, fun other hid => ?_⟩
  · rw [tables_of_exec hexec]
    exact h.closed hc hcOpen
  · have hother : id ≠ other := hid
    rw [tables_of_exec hexec]
    exact write_of_not_touches (by simp [Op.touches, hother]) _

theorem does_purge {cutoff : Int} (h : first.db.Shows conversations)
    (hexec : exec (.TicketPurgeInactive cutoff) first = .ok ((), last)) :
    Does conversations first last (.Purged (first.db.gone cutoff)) := by
  refine ⟨trivial, ?_, fun id hid => ?_⟩
  · rw [tables_of_exec hexec]
    exact h.purged first.db.constraints cutoff
  · rw [tables_of_exec hexec]
    exact Tables.kept_of_not_gone first.db.constraints (Bool.eq_false_iff.mpr hid)

variable {service : Feedback.Service}

-- The last statements of a call leave the conversations alone.
theorem Does.leads (upper : Trail) {lower : Trail} {happening : Happening}
    (h : ∀ world, Leads exec first lower world → Does conversations first world happening)
    (hleads : Leads exec first (upper ++ lower) last)
    (hupper : ∀ taken ∈ upper, ∀ id, taken.1.touches id = false) :
    Does conversations first last happening := by
  obtain ⟨between, hlower, hrest⟩ := hleads.of_append
  exact (h between hlower).after (alike_of_leads hrest hupper)

theorem does_submitStored {input : Feedback.SubmitInput} {env : Feedback.Env} {owner : UInt32}
    (h : first.db.Shows conversations)
    (hleads : Leads exec first (service.submitStored input env owner) last) :
    Does conversations first last (.Opened (service.newTicket input env).id input.message) := by
  have hopening : Leads exec first ([⟨.MessageInsert (service.firstMessage input env), ()⟩,
    ⟨.TicketInsert (service.newTicket input env), ()⟩] ++ service.submitAsked input env owner) last :=
    hleads
  obtain ⟨between, hasked, hopened⟩ := hopening.of_append
  have hsame := alike_of_leads hasked (by simp [Op.touches])
  exact .before hsame (does_open (h.alike hsame) rfl rfl hopened)

theorem does_submitEnd {input : Feedback.SubmitInput} {env : Feedback.Env}
    {outcome : Except SqlError Feedback.SubmitResult} (h : first.db.Shows conversations)
    (hend : service.SubmitEnd input env trail outcome) (hleads : Leads exec first trail last)
    (hfails : ∀ exn, outcome = .error exn →
      ∃ failed, Fails exec (service.SubmitTrail input env) trail last exn failed) :
    Does conversations first last (happening first (.SubmitNew input env) (outcome.map .Submitted)) := by
  cases hend with
  | Pow error herror =>
      have hpow : ¬ (error = .Ok ∨ error = .SendFailed) := by
        cases hverdict : (service.submitVerdict input env).1 <;>
          simp [hverdict, Feedback.submitPowError] at herror <;> simp [← herror]
      simp only [happening, Except.map, Feedback.SubmitResult.failed, if_neg hpow]
      exact does_nothing h hleads (by simp)
  | Replayed n hmay _ => exact does_nothing h hleads (by simp [Op.touches])
  | BadReport hmay hrep =>
      have hreport : ¬ (Feedback.reportError (service.limits.validate
          (Feedback.Service.submissionInput input)) = .Ok ∨ Feedback.reportError
            (service.limits.validate (Feedback.Service.submissionInput input)) = .SendFailed) := by
        unfold Feedback.reportError
        split
        · simp
        · split <;> simp
      simp only [happening, Except.map, Feedback.SubmitResult.failed, if_neg hreport]
      exact does_nothing h hleads (by simp [Op.touches])
  | NoOwner hmay => exact does_nothing h hleads (by simp [Op.touches])
  | Taken owner exn hmay => exact does_nothing h hleads (by simp [Op.touches])
  | Gone owner exn hmay =>
      -- the message of a ticket just opened can be stored
      obtain ⟨failed, hfails⟩ := hfails exn rfl
      obtain ⟨op, result, hexec, hlegal⟩ := hfails.exists_legal exists_exec
      cases hlegal with
      | Stored =>
          obtain ⟨before, -, hticket⟩ := hleads.of_cons
          have habsent : last.db.ticket? (service.newTicket input env).id = none :=
            exec_messageInsert_error hexec
          rw [tables_of_exec hticket] at habsent
          simp [Op.write, Tables.ticket?_ticketInsert] at habsent
  | Unsent owner rowId contact hmay =>
      exact Does.leads [_, _] (fun _ hstored => does_submitStored h hstored) hleads
        (by simp [Op.touches])
  | Refused owner rowId contact quote hmay _ =>
      exact Does.leads [_, _, _] (fun _ hstored => does_submitStored h hstored) hleads
        (by simp [Op.touches])
  | Ok owner rowId contact quote hmay _ =>
      exact Does.leads [_, _, _, _] (fun _ hstored => does_submitStored h hstored) hleads
        (by simp [Op.touches])

-- The ticket a reply has read is there until it stores its message.
theorem ticket_of_replyQuoted {input : Feedback.ReplyInput} {env : Feedback.Env} {t : Ticket}
    {quoteId : Option UInt32}
    (hleads : Leads exec first (service.replyQuoted input env t quoteId) last) :
    ∃ row, last.db.ticket? input.ticketId = some row ∧ row.toTicket = t := by
  have hsame := (alike_of_leads hleads (by simp [Op.touches]) input.ticketId).1
  have hread : Leads exec first ([⟨.LatestDcMsgIdForTicket input.ticketId, quoteId⟩,
    ⟨.Changes, (1 : Nat)⟩, ⟨.ReplayInsert (service.replyVerdict input env).2
      (env.consumeClock + Feedback.kReplayTtl), ()⟩] ++
        Feedback.Service.replyRead input (some t)) last := hleads
  obtain ⟨between, hbetween, -⟩ := hread.of_append
  obtain ⟨before, hbefore, hget⟩ := hbetween.of_cons
  obtain rfl := hbefore.of_nil
  obtain ⟨-, hfound⟩ := ticketGetById_of_exec hget
  obtain ⟨row, hrow, hrowTicket⟩ := Option.map_eq_some_iff.mp hfound.symm
  exact ⟨row, hsame.trans hrow, hrowTicket⟩

theorem does_replyUpdated {input : Feedback.ReplyInput} {env : Feedback.Env} {t : Ticket}
    {quoteId : Option UInt32} {rowId : Nat} (h : first.db.Shows conversations)
    (hmay : service.MayReply input env t)
    (hleads : Leads exec first (service.replyUpdated input env t quoteId rowId) last) :
    Does conversations first last (.Said input.ticketId .Visitor input.body) := by
  have hsaying : Leads exec first ([⟨.TicketSetStatus input.ticketId Sender.Visitor.statusAfter, ()⟩,
    ⟨.LastInsertRowid, rowId⟩, ⟨.MessageInsert (Feedback.Service.replyMessage input env), ()⟩] ++
      service.replyQuoted input env t quoteId) last := hleads
  obtain ⟨between, hquoted, hsaid⟩ := hsaying.of_append
  obtain ⟨row, hrow, rfl⟩ := ticket_of_replyQuoted hquoted
  have hwaiting : row.status = .AwaitingVisitor := hmay.status
  have hsame := alike_of_leads hquoted (by simp [Op.touches])
  exact .before hsame (does_say (m := Feedback.Service.replyMessage input env) (h.alike hsame) rfl
    hrow (by simp [hwaiting]) (fun _ => hwaiting) hsaid)

theorem does_replyEnd {input : Feedback.ReplyInput} {env : Feedback.Env}
    {outcome : Except SqlError Feedback.ReplyError} (h : first.db.Shows conversations)
    (hend : service.ReplyEnd input env trail outcome) (hleads : Leads exec first trail last)
    (hfails : ∀ exn, outcome = .error exn →
      ∃ failed, Fails exec (service.ReplyTrail input env) trail last exn failed) :
    Does conversations first last (happening first (.SubmitReply input env) (outcome.map .Replied)) := by
  cases hend with
  | NotFound => exact does_nothing h hleads (by simp [Op.touches])
  | BadToken t _ => exact does_nothing h hleads (by simp [Op.touches])
  | Closed t _ => exact does_nothing h hleads (by simp [Op.touches])
  | NotAwaitingVisitor t _ => exact does_nothing h hleads (by simp [Op.touches])
  | Pow t error _ herror =>
      have hpow : ¬ (error = .Ok ∨ error = .SendFailed) := by
        cases hverdict : (service.replyVerdict input env).1 <;>
          simp [hverdict, Feedback.replyPowError] at herror <;> simp [← herror]
      simp only [happening, Except.map, if_neg hpow]
      exact does_nothing h hleads (by simp [Op.touches])
  | Replayed t n _ _ => exact does_nothing h hleads (by simp [Op.touches])
  | BadField t _ _ => exact does_nothing h hleads (by simp [Op.touches])
  | Gone t quoteId exn hmay =>
      obtain ⟨failed, hfails⟩ := hfails exn rfl
      obtain ⟨op, result, hexec, hlegal⟩ := hfails.exists_legal exists_exec
      obtain ⟨row, hrow, -⟩ := ticket_of_replyQuoted hleads
      cases hlegal with
      | Stored =>
          have habsent : last.db.ticket? input.ticketId = none := exec_messageInsert_error hexec
          simp [hrow] at habsent
  | Unsent t quoteId rowId owner hmay =>
      exact Does.leads [_] (fun _ hupdated => does_replyUpdated h hmay hupdated) hleads
        (by simp [Op.touches])
  | Refused t quoteId rowId owner quote hmay _ =>
      exact Does.leads [_, _] (fun _ hupdated => does_replyUpdated h hmay hupdated) hleads
        (by simp [Op.touches])
  | Ok t quoteId rowId owner quote hmay _ =>
      exact Does.leads [_, _, _] (fun _ hupdated => does_replyUpdated h hmay hupdated) hleads
        (by simp [Op.touches])

variable {dc : Dc.Delivery} {now : Int} {owner : UInt32} {msg : Dc.IncomingMsg}

-- The lookups of an admin's message change nothing.
theorem leads_lookup {quoted : Option Bytes}
    (hbase : ∀ world, Leads exec first base world → world = first)
    (h : Dc.LookupTrail msg base quoted trail) (hleads : Leads exec first trail last) :
    last = first ∧ quoted =
      if msg.quotedMsgId = 0 then none else first.db.findTicketByDcMsgId msg.quotedMsgId := by
  cases h with
  | Unquoted hquoted => exact ⟨hbase last hleads, by rw [if_pos hquoted]⟩
  | Quoted quoted hquoted =>
      obtain ⟨before, hbefore, hfind⟩ := hleads.of_cons
      obtain rfl := hbase before hbefore
      simp only [exec, Except.ok.injEq, Prod.mk.injEq] at hfind
      exact ⟨hfind.2.symm, by rw [if_neg hquoted, hfind.1]⟩

theorem leads_routeRead {quoted : Option Bytes} {found : Option Ticket}
    (hbase : ∀ world, Leads exec first base world → world = first)
    (h : Dc.LookupTrail msg base quoted trail)
    (hleads : Leads exec first (Dc.routeRead (Dc.adminRoute msg quoted) found trail) last) :
    last = first ∧ (quoted =
        if msg.quotedMsgId = 0 then none else first.db.findTicketByDcMsgId msg.quotedMsgId) ∧
      found = (first.db.ticket? (Dc.adminRoute msg quoted).ticketId).map fun t => t.toTicket := by
  obtain ⟨before, hbefore, hget⟩ := hleads.of_cons
  obtain ⟨rfl, hquoted⟩ := leads_lookup hbase h hbefore
  obtain ⟨rfl, hfound⟩ := ticketGetById_of_exec hget
  exact ⟨rfl, hquoted, hfound⟩

theorem does_told {contact : UInt32} {text : Bytes} {happening : Happening}
    (h : ∀ world, Leads exec first trail world → Does conversations first world happening)
    (htold : Dc.SendTrail dc contact text trail told) (hleads : Leads exec first told last) :
    Does conversations first last happening := by
  cases htold with
  | Unsent => exact h last hleads
  | Sent quote => exact Does.leads [_] h hleads (by simp [Op.touches])

-- The one statement of the bot that can break a constraint.
theorem message_of_fails {legal : Trail → Prop} {exn : SqlError} {failed : World}
    (hfails : Fails exec legal trail last exn failed)
    (hbot : ∀ op result, legal (⟨op, result⟩ :: trail) → Dc.ByBot op) :
    ∃ m, exec (.MessageInsert m) last = .error (exn, failed) ∧
      legal (⟨.MessageInsert m, ()⟩ :: trail) := by
  obtain ⟨op, result, hexec, hlegal⟩ := hfails.exists_legal exists_exec
  cases hop : op.mayFail with
  | false => exact absurd hexec (exec_ne_error hop _ _)
  | true =>
      cases op with
      | MessageInsert m => exact ⟨m, hexec, hlegal⟩
      | TicketInsert t => exact (hbot _ _ hlegal).elim
      | _ => simp [Op.mayFail] at hop

theorem does_routeEnd {outcome : Except SqlError Unit} (h : first.db.Shows conversations)
    (hbase : ∀ world, Leads exec first base world → world = first)
    (hempty : ∀ m, ⟨.MessageInsert m, ()⟩ ∉ base)
    (hend : Dc.RouteEnd dc now owner msg base trail outcome) (hleads : Leads exec first trail last)
    (hfails : ∀ exn, outcome = .error exn → ∃ m failed,
      exec (.MessageInsert m) last = .error (exn, failed) ∧
      Dc.RouteTrail dc now owner msg base (⟨.MessageInsert m, ()⟩ :: trail)) :
    Does conversations first last (adminHappening first now msg) := by
  cases hend with
  | NoTicketId quoted trail _ hlookup hkind htold =>
      refine does_told (fun world hworld => ?_) htold hleads
      obtain ⟨rfl, hquoted⟩ := leads_lookup hbase hlookup hworld
      simp only [adminHappening, ← hquoted, if_pos hkind]
      exact does_nothing h .refl (by simp)
  | NotFound quoted trail _ hlookup htold =>
      refine does_told (fun world hworld => ?_) htold hleads
      obtain ⟨rfl, hquoted, hfound⟩ := leads_routeRead hbase hlookup hworld
      have hnone : world.db.ticket? (Dc.adminRoute msg quoted).ticketId = none :=
        Option.map_eq_none_iff.mp hfound.symm
      simp only [adminHappening, ← hquoted, hnone, ite_self]
      exact does_nothing h .refl (by simp)
  | AlreadyClosed quoted t trail _ hlookup hstatus htold =>
      refine does_told (fun world hworld => ?_) htold hleads
      obtain ⟨rfl, hquoted, hfound⟩ := leads_routeRead hbase hlookup hworld
      obtain ⟨row, hrow, rfl⟩ := Option.map_eq_some_iff.mp hfound.symm
      have hclosed : row.status = .Closed := hstatus
      simp only [adminHappening, ← hquoted, hrow, if_pos hclosed, ite_self]
      exact does_nothing h .refl (by simp)
  | Closed quoted t trail _ hlookup hkind hstatus htold =>
      refine does_told (fun world hworld => ?_) htold hleads
      obtain ⟨before, hbefore, hclose⟩ := hworld.of_cons
      obtain ⟨rfl, hquoted, hfound⟩ := leads_routeRead hbase hlookup hbefore
      obtain ⟨row, hrow, rfl⟩ := Option.map_eq_some_iff.mp hfound.symm
      have hopen : row.status ≠ .Closed := hstatus
      simp only [adminHappening, ← hquoted, hrow, hkind, if_neg hopen, reduceCtorEq, ite_true,
        ite_false]
      exact does_close h hrow hopen hclose
  | EmptyReply quoted t trail _ hlookup hkind hstatus hbody htold =>
      refine does_told (fun world hworld => ?_) htold hleads
      obtain ⟨rfl, hquoted, hfound⟩ := leads_routeRead hbase hlookup hworld
      obtain ⟨row, hrow, rfl⟩ := Option.map_eq_some_iff.mp hfound.symm
      have hopen : row.status ≠ .Closed := hstatus
      simp only [adminHappening, ← hquoted, hrow, if_neg hopen, if_neg hkind, if_pos hbody, ite_self]
      exact does_nothing h .refl (by simp)
  | Gone quoted t trail exn hlookup hanswer =>
      obtain ⟨m, failed, hexec, hlegal⟩ := hfails exn rfl
      obtain ⟨rfl, -, hfound⟩ := leads_routeRead hbase hlookup hleads
      obtain ⟨row, hrow, -⟩ := Option.map_eq_some_iff.mp hfound.symm
      obtain ⟨quoted', t', rest, rfl, htrail⟩ :=
        Dc.message_of_routeTrail dc now owner msg hlegal hempty
      have hsame : (Dc.adminRoute msg quoted).ticketId = (Dc.adminRoute msg quoted').ticketId := by
        simpa using congrArg (fun taken : Taken Op Op.Result => taken.1) (List.cons.inj htrail).1
      have habsent : last.db.ticket? (Dc.adminRoute msg quoted').ticketId = none :=
        exec_messageInsert_error hexec
      rw [← hsame, hrow] at habsent
      simp at habsent
  | Stored quoted t rowId trail hlookup hanswer =>
      have hsaying : Leads exec first ([⟨.TicketSetStatus (Dc.adminRoute msg quoted).ticketId
        Sender.Admin.statusAfter, ()⟩, ⟨.LastInsertRowid, rowId⟩,
        ⟨.MessageInsert (Dc.adminMessage now (Dc.adminRoute msg quoted)), ()⟩] ++
          Dc.routeRead (Dc.adminRoute msg quoted) (some t) trail) last := hleads
      obtain ⟨between, hread, hsaid⟩ := hsaying.of_append
      obtain ⟨rfl, hquoted, hfound⟩ := leads_routeRead hbase hlookup hread
      obtain ⟨row, hrow, rfl⟩ := Option.map_eq_some_iff.mp hfound.symm
      have hopen : row.status ≠ .Closed := hanswer.status
      simp only [adminHappening, ← hquoted, hrow, hanswer.kind, if_neg hopen, if_neg hanswer.body,
        reduceCtorEq, ite_false]
      exact does_say (m := Dc.adminMessage now (Dc.adminRoute msg quoted)) h rfl hrow hopen
        (by simp [Dc.adminMessage, MessagesRepo.newMessage]) hsaid

theorem owner_of_loaded {loaded : UInt32}
    (h : Leads exec first (Dc.incomingLoaded loaded) last) : last = first ∧ loaded = first.owner := by
  obtain ⟨before, hbefore, hload⟩ := h.of_cons
  obtain rfl := hbefore.of_nil
  simp only [exec, Except.ok.injEq, Prod.mk.injEq] at hload
  exact ⟨hload.2.symm, hload.1.symm⟩

theorem does_incomingEnd {outcome : Except SqlError Unit} (h : first.db.Shows conversations)
    (hend : Dc.IncomingEnd dc now msg trail outcome) (hleads : Leads exec first trail last)
    (hfails : ∀ exn, outcome = .error exn →
      ∃ failed, Fails exec (Dc.IncomingTrail dc now msg) trail last exn failed) :
    Does conversations first last (happening first (.IncomingMsg dc now msg)
      (outcome.map fun _ => .Handled)) := by
  cases hend with
  | Registered _ htold =>
      refine does_told (fun world hworld => ?_) htold hleads
      have hregistered : Leads exec first ([⟨.StateSet Dc.kOwnerKey (decimal msg.fromId.toNat), ()⟩,
        ⟨.OwnerStore msg.fromId, ()⟩] ++ Dc.incomingLoaded 0) world := hworld
      obtain ⟨between, hloaded, -⟩ := hregistered.of_append
      have howner := (owner_of_loaded hloaded).2
      simp only [happening, ← howner, ne_eq, not_true_eq_false, false_and, ite_false]
      exact does_nothing h hworld (by simp [Op.touches])
  | Routed _ outcome howner hroute =>
      have hbase (world : World) (hworld : Leads exec first (Dc.incomingLoaded msg.fromId) world) :
          world = first := (owner_of_loaded hworld).1
      have hroutes := does_routeEnd h hbase (by simp) hroute hleads fun exn hexn => by
        obtain ⟨failed, hfailed⟩ := hfails exn hexn
        obtain ⟨m, hexec, hlegal⟩ := message_of_fails hfailed fun op result hlegal =>
          Dc.byBot_incomingTrail dc now msg hlegal _ List.mem_cons_self
        exact ⟨m, failed, hexec, Dc.message_of_incomingTrail dc now msg hlegal⟩
      obtain ⟨upper, hupper⟩ := Dc.suffix_routeEnd dc now msg.fromId msg hroute
      rw [← hupper] at hleads
      obtain ⟨between, hloaded, -⟩ := hleads.of_append
      have howner := (owner_of_loaded hloaded).2
      have hmine : first.owner ≠ 0 ∧ msg.fromId = first.owner := ⟨by rwa [← howner], howner⟩
      simp only [happening, if_pos hmine]
      exact hroutes
  | Stranger loaded howner hfrom =>
      have hloaded := (owner_of_loaded hleads).2
      rw [hloaded] at hfrom
      simp only [happening, hfrom, and_false, ite_false]
      exact does_nothing h hleads (by simp [Op.touches])

-- Every call, alone: what it does to the tables is what happens to the
-- conversations they show.
theorem does_call (service : Feedback.Service) (call : Call) {world : World}
    (h : world.db.Shows conversations) : Does conversations world (call.run service world).2.2
      (happening world call (call.run service world).1) := by
  obtain ⟨reached, ⟨-, hfails, hleads, hlegal, hends⟩, hdb, -⟩ := call.run_alone service world
  suffices hdoes : Does conversations world reached (happening world call (call.run service world).1) from
    hdoes.after fun id => by rw [hdb]; exact ⟨rfl, rfl⟩
  clear hdb
  generalize (call.run service world).1 = outcome at hfails hends ⊢
  generalize (call.run service world).2.1 = trail at hfails hleads hlegal hends
  cases hends with
  | SubmitNew input env _ outcome hend =>
      exact does_submitEnd h hend hleads fun exn hexn => ⟨_, hfails exn (by rw [hexn]; rfl)⟩
  | SubmitReply input env _ outcome hend =>
      exact does_replyEnd h hend hleads fun exn hexn => ⟨_, hfails exn (by rw [hexn]; rfl)⟩
  | IncomingMsg dc now msg _ outcome hend =>
      exact does_incomingEnd h hend hleads fun exn hexn => ⟨_, hfails exn (by rw [hexn]; rfl)⟩
  | RouteAdminMsg dc now owner msg _ outcome hend =>
      refine does_routeEnd h (fun world hworld => hworld.of_nil) (by simp) hend hleads
        fun exn hexn => ?_
      obtain ⟨m, hexec, hlegal⟩ := message_of_fails (hfails exn (by rw [hexn]; rfl)) fun op result hop =>
        Dc.byBot_routeTrail dc now owner msg hop (by simp) _ List.mem_cons_self
      exact ⟨m, _, hexec, hlegal⟩
  | PurgeInactive cutoff rows =>
      obtain ⟨purged, hpurged, hcount⟩ := hleads.of_cons
      obtain ⟨before, hbefore, hpurge⟩ := hpurged.of_cons
      obtain rfl := hbefore.of_nil
      exact (does_purge h hpurge).after (alike_of_leads (Leads.refl.step hcount) (by simp [Op.touches]))
  | PurgeExpired now rows => exact does_nothing h hleads (by simp [Op.touches])

end DeltaFeedback.Sequential
