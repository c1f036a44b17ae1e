import DeltaFeedback.Dc.Bot
import DeltaFeedback.Dc.Sender.Theorems

namespace DeltaFeedback.Dc

open Text Interleaving Db

variable (dc : Delivery) (now : Int) (owner : UInt32) (msg : IncomingMsg)

-- The message of the bot to one contact that may have been handed over.
inductive SendTrail (contact : UInt32) (text : Bytes) (trail : Trail) : Trail → Prop
  | Unsent : SendTrail contact text trail trail
  | Sent (quote : UInt32) : SendTrail contact text trail
      (⟨.DcSend contact (cStr text) quote dc.id, dc.id⟩ :: trail)

-- The quoted message is looked up before the route is known, if there is one.
inductive LookupTrail (base : Trail) : Option Bytes → Trail → Prop
  | Unquoted (h : msg.quotedMsgId = 0) : LookupTrail base none base
  | Quoted (quoted : Option Bytes) (h : msg.quotedMsgId ≠ 0) :
      LookupTrail base quoted (⟨.FindTicketByDcMsgId msg.quotedMsgId, quoted⟩ :: base)

def adminRoute (quoted : Option Bytes) : AdminRoute :=
  routeAdminMessage msg.text quoted msg.quotedText

def adminMessage (route : AdminRoute) : NewMessage :=
  MessagesRepo.newMessage route.ticketId .Admin route.body now [] none

abbrev routeRead (route : AdminRoute) (found : Option Ticket) (trail : Trail) : Trail :=
  ⟨.TicketGetById route.ticketId, found⟩ :: trail

abbrev routeClosed (route : AdminRoute) (t : Ticket) (trail : Trail) : Trail :=
  ⟨.TicketClose route.ticketId now, ()⟩ :: routeRead route (some t) trail

abbrev routeStored (route : AdminRoute) (t : Ticket) (trail : Trail) : Trail :=
  ⟨.MessageInsert (adminMessage now route), ()⟩ :: routeRead route (some t) trail

abbrev routeUpdated (route : AdminRoute) (t : Ticket) (rowId : Nat) (trail : Trail) : Trail :=
  ⟨.TicketSetStatus route.ticketId .AwaitingVisitor, ()⟩ :: ⟨.LastInsertRowid, rowId⟩ ::
    routeStored now route t trail

-- An admin's answer that will be stored.
structure MayAnswer (route : AdminRoute) (t : Ticket) : Prop where
  kind : route.kind = .Reply
  status : t.status ≠ .Closed
  body : route.body ≠ []

-- The trails of a route_admin_msg that starts after `base`.
inductive RouteTrail (base : Trail) : Trail → Prop
  | Start : RouteTrail base base
  | LookedUp (quoted : Option Bytes) (trail : Trail) (h : LookupTrail msg base quoted trail) :
      RouteTrail base trail
  | Read (quoted : Option Bytes) (found : Option Ticket) (trail : Trail)
      (h : LookupTrail msg base quoted trail) :
      RouteTrail base (routeRead (adminRoute msg quoted) found trail)
  | Closed (quoted : Option Bytes) (t : Ticket) (trail : Trail)
      (h : LookupTrail msg base quoted trail) (hstatus : t.status ≠ .Closed) :
      RouteTrail base (routeClosed now (adminRoute msg quoted) t trail)
  | Stored (quoted : Option Bytes) (t : Ticket) (trail : Trail)
      (h : LookupTrail msg base quoted trail) (hanswer : MayAnswer (adminRoute msg quoted) t) :
      RouteTrail base (routeStored now (adminRoute msg quoted) t trail)
  | Numbered (quoted : Option Bytes) (t : Ticket) (rowId : Nat) (trail : Trail)
      (h : LookupTrail msg base quoted trail) (hanswer : MayAnswer (adminRoute msg quoted) t) :
      RouteTrail base (⟨.LastInsertRowid, rowId⟩ :: routeStored now (adminRoute msg quoted) t trail)
  | Updated (quoted : Option Bytes) (t : Ticket) (rowId : Nat) (trail : Trail)
      (h : LookupTrail msg base quoted trail) (hanswer : MayAnswer (adminRoute msg quoted) t) :
      RouteTrail base (routeUpdated now (adminRoute msg quoted) t rowId trail)
  | Told (text : Bytes) (quote : UInt32) (trail : Trail) (h : RouteTrail base trail) :
      RouteTrail base (⟨.DcSend owner (cStr text) quote dc.id, dc.id⟩ :: trail)

-- The ends of a route_admin_msg.
inductive RouteEnd (base : Trail) : Trail → Except SqlError Unit → Prop
  | NoTicketId (quoted : Option Bytes) (trail told : Trail) (h : LookupTrail msg base quoted trail)
      (hkind : (adminRoute msg quoted).kind = .NoTicketId)
      (htold : SendTrail dc owner kNoTicketId trail told) : RouteEnd base told (.ok ())
  | NotFound (quoted : Option Bytes) (trail told : Trail) (h : LookupTrail msg base quoted trail)
      (htold : SendTrail dc owner (notFoundText (adminRoute msg quoted).ticketId)
        (routeRead (adminRoute msg quoted) none trail) told) : RouteEnd base told (.ok ())
  | AlreadyClosed (quoted : Option Bytes) (t : Ticket) (trail told : Trail)
      (h : LookupTrail msg base quoted trail) (hstatus : t.status = .Closed)
      (htold : SendTrail dc owner (alreadyClosedText (adminRoute msg quoted).ticketId)
        (routeRead (adminRoute msg quoted) (some t) trail) told) : RouteEnd base told (.ok ())
  | Closed (quoted : Option Bytes) (t : Ticket) (trail told : Trail)
      (h : LookupTrail msg base quoted trail) (hkind : (adminRoute msg quoted).kind = .Close)
      (hstatus : t.status ≠ .Closed)
      (htold : SendTrail dc owner (closedText (adminRoute msg quoted).ticketId)
        (routeClosed now (adminRoute msg quoted) t trail) told) : RouteEnd base told (.ok ())
  | EmptyReply (quoted : Option Bytes) (t : Ticket) (trail told : Trail)
      (h : LookupTrail msg base quoted trail) (hkind : (adminRoute msg quoted).kind ≠ .Close)
      (hstatus : t.status ≠ .Closed) (hbody : (adminRoute msg quoted).body = [])
      (htold : SendTrail dc owner kEmptyReply (routeRead (adminRoute msg quoted) (some t) trail)
        told) : RouteEnd base told (.ok ())
  | Gone (quoted : Option Bytes) (t : Ticket) (trail : Trail) (exn : SqlError)
      (h : LookupTrail msg base quoted trail) (hanswer : MayAnswer (adminRoute msg quoted) t) :
      RouteEnd base (routeRead (adminRoute msg quoted) (some t) trail) (.error exn)
  | Stored (quoted : Option Bytes) (t : Ticket) (rowId : Nat) (trail : Trail)
      (h : LookupTrail msg base quoted trail) (hanswer : MayAnswer (adminRoute msg quoted) t) :
      RouteEnd base (routeUpdated now (adminRoute msg quoted) t rowId trail) (.ok ())

-- What the bot's handler does: it never opens a ticket or binds a message, and
-- what it stores is the admin's.
def ByBot : Op → Prop
  | .FindTicketByDcMsgId _ => True
  | .TicketGetById _ => True
  | .TicketClose .. => True
  | .MessageInsert m => m.sender = .Admin ∧ m.dcMsgId = none
  | .LastInsertRowid => True
  | .TicketSetStatus .. => True
  | .DcSend .. => True
  | .OwnerLoad => True
  | .OwnerStore _ => True
  | .StateSet .. => True
  | _ => False

theorem byBot_lookupTrail {base trail : Trail} {quoted : Option Bytes}
    (h : LookupTrail msg base quoted trail) (hbase : ∀ taken ∈ base, ByBot taken.1) :
    ∀ taken ∈ trail, ByBot taken.1 := by
  cases h with
  | Unquoted => exact hbase
  | Quoted quoted _ => exact List.forall_mem_cons.mpr ⟨trivial, hbase⟩

theorem byBot_routeTrail {base trail : Trail} (h : RouteTrail dc now owner msg base trail)
    (hbase : ∀ taken ∈ base, ByBot taken.1) : ∀ taken ∈ trail, ByBot taken.1 := by
  induction h with
  | Start => exact hbase
  | LookedUp quoted trail h => exact byBot_lookupTrail msg h hbase
  | Read quoted found trail h =>
      exact List.forall_mem_cons.mpr ⟨trivial, byBot_lookupTrail msg h hbase⟩
  | Closed quoted t trail h =>
      simp only [List.forall_mem_cons]
      exact ⟨trivial, trivial, byBot_lookupTrail msg h hbase⟩
  | Stored quoted t trail h =>
      simp only [List.forall_mem_cons]
      exact ⟨⟨rfl, rfl⟩, trivial, byBot_lookupTrail msg h hbase⟩
  | Numbered quoted t rowId trail h =>
      simp only [List.forall_mem_cons]
      exact ⟨trivial, ⟨rfl, rfl⟩, trivial, byBot_lookupTrail msg h hbase⟩
  | Updated quoted t rowId trail h =>
      simp only [List.forall_mem_cons]
      exact ⟨trivial, trivial, ⟨rfl, rfl⟩, trivial, byBot_lookupTrail msg h hbase⟩
  | Told text quote trail _ ih => exact List.forall_mem_cons.mpr ⟨trivial, ih⟩

-- The one message a route_admin_msg stores: on the ticket it has just read.
theorem message_of_routeTrail {base trail : Trail} {m : NewMessage}
    (h : RouteTrail dc now owner msg base (⟨.MessageInsert m, ()⟩ :: trail))
    (hbase : ∀ m, ⟨.MessageInsert m, ()⟩ ∉ base) : ∃ quoted t rest,
      m = adminMessage now (adminRoute msg quoted) ∧
        trail = routeRead (adminRoute msg quoted) (some t) rest := by
  cases h with
  | Start => exact absurd List.mem_cons_self (hbase m)
  | LookedUp quoted _ hlookup =>
      cases hlookup with
      | Unquoted => exact absurd List.mem_cons_self (hbase m)
  | Stored quoted t rest => exact ⟨quoted, t, rest, rfl, rfl⟩

theorem suffix_lookupTrail {base trail : Trail} {quoted : Option Bytes}
    (h : LookupTrail msg base quoted trail) : base <:+ trail := by
  cases h with
  | Unquoted => exact List.suffix_rfl
  | Quoted => exact List.suffix_cons _ _

theorem suffix_sendTrail {contact : UInt32} {text : Bytes} {trail told : Trail}
    (h : SendTrail dc contact text trail told) : trail <:+ told := by
  cases h with
  | Unsent => exact List.suffix_rfl
  | Sent => exact List.suffix_cons _ _

theorem suffix_routeEnd {base trail : Trail} {outcome : Except SqlError Unit}
    (h : RouteEnd dc now owner msg base trail outcome) : base <:+ trail := by
  have hread {quoted : Option Bytes} {looked : Trail} (hlookup : LookupTrail msg base quoted looked)
      (route : AdminRoute) (found : Option Ticket) : base <:+ routeRead route found looked :=
    (suffix_lookupTrail msg hlookup).trans (List.suffix_cons _ _)
  cases h with
  | NoTicketId quoted trail _ hlookup hkind htold =>
      exact (suffix_lookupTrail msg hlookup).trans (suffix_sendTrail dc htold)
  | NotFound quoted trail _ hlookup htold =>
      exact (hread hlookup _ _).trans (suffix_sendTrail dc htold)
  | AlreadyClosed quoted t trail _ hlookup hstatus htold =>
      exact (hread hlookup _ _).trans (suffix_sendTrail dc htold)
  | Closed quoted t trail _ hlookup hkind hstatus htold =>
      exact ((hread hlookup _ _).trans (List.suffix_cons _ _)).trans (suffix_sendTrail dc htold)
  | EmptyReply quoted t trail _ hlookup hkind hstatus hbody htold =>
      exact (hread hlookup _ _).trans (suffix_sendTrail dc htold)
  | Gone quoted t trail exn hlookup hanswer => exact hread hlookup _ _
  | Stored quoted t rowId trail hlookup hanswer =>
      exact (hread hlookup _ _).trans (List.suffix_append [_, _, _] _)

theorem follows_sendTo {legal : Trail → Prop} {done : Trail → Except SqlError Unit → Prop}
    {trail : Trail} {contact : UInt32} {text : Bytes} {quoteMsgId : UInt32}
    (hlegal : ∀ quote : UInt32, legal (⟨.DcSend contact (cStr text) quote dc.id, dc.id⟩ :: trail))
    (hdone : ∀ told, SendTrail dc contact text trail told → done told (.ok ())) :
    Follows exec legal done (sendTo dc contact text quoteMsgId) trail := by
  simp only [sendTo, Prog.perform_bind, Prog.pure_eq_ret]
  split_ifs with hcontact hchat hquote hnew
  · exact hdone _ .Unsent
  · exact hdone _ .Unsent
  · refine follows_call rfl fun _ result _ h => ?_
    obtain rfl := exec_dcSend h
    exact ⟨hlegal 0, hdone _ (.Sent 0)⟩
  · exact hdone _ .Unsent
  · refine follows_call rfl fun _ result _ h => ?_
    obtain rfl := exec_dcSend h
    exact ⟨hlegal _, hdone _ (.Sent _)⟩

theorem follows_lookup {legal : Trail → Prop} {done : Trail → Except SqlError (Option Bytes) → Prop}
    {base : Trail} (h : ∀ quoted trail, LookupTrail msg base quoted trail →
      legal trail ∧ done trail (.ok quoted)) :
    Follows exec legal done (lookup msg.quotedMsgId) base := by
  unfold lookup
  by_cases hquoted : msg.quotedMsgId = 0
  · rw [if_pos hquoted]
    exact (h none base (.Unquoted hquoted)).2
  · rw [if_neg hquoted]
    exact follows_call rfl fun _ quoted _ _ => h quoted _ (.Quoted quoted hquoted)

-- From the ticket on, for a message that names one.
theorem follows_routeTicket (base trail : Trail) (quoted : Option Bytes)
    (h : LookupTrail msg base quoted trail) (t : Ticket)
    (hkind : (adminRoute msg quoted).kind ≠ .NoTicketId) (hstatus : t.status ≠ .Closed) :
    Follows exec (RouteTrail dc now owner msg base) (RouteEnd dc now owner msg base)
      (if (adminRoute msg quoted).kind = .Close then do
        TicketsRepo.close (adminRoute msg quoted).ticketId now
        sendTo dc owner (closedText (adminRoute msg quoted).ticketId) msg.msgId
      else if (adminRoute msg quoted).body.isEmpty then sendTo dc owner kEmptyReply 0
      else do
        let _ ← MessagesRepo.append (adminRoute msg quoted).ticketId .Admin
          (adminRoute msg quoted).body now []
        TicketsRepo.setStatus (adminRoute msg quoted).ticketId .AwaitingVisitor)
      (routeRead (adminRoute msg quoted) (some t) trail) := by
  split_ifs with hclose hbody
  · refine follows_call rfl fun _ _ _ _ => ⟨.Closed quoted t trail h hstatus, ?_⟩
    exact follows_sendTo dc (fun quote => .Told _ quote _ (.Closed quoted t trail h hstatus))
      fun told htold => .Closed quoted t trail told h hclose hstatus htold
  · exact follows_sendTo dc (fun quote => .Told _ quote _ (.Read quoted (some t) trail h))
      fun told htold => .EmptyReply quoted t trail told h hclose hstatus (List.isEmpty_iff.mp hbody) htold
  · have hanswer : MayAnswer (adminRoute msg quoted) t := by
      refine ⟨?_, hstatus, fun hnil => hbody (List.isEmpty_iff.mpr hnil)⟩
      cases hk : (adminRoute msg quoted).kind <;> simp_all
    refine ⟨fun _ _ _ _ => ⟨.Stored quoted t trail h hanswer, ?_⟩,
      fun _ exn _ _ => .Gone quoted t trail exn h hanswer⟩
    refine follows_call rfl fun _ rowId _ _ => ⟨.Numbered quoted t rowId trail h hanswer, ?_⟩
    exact follows_call rfl fun _ _ _ _ => ⟨.Updated quoted t rowId trail h hanswer,
      .Stored quoted t rowId trail h hanswer⟩

theorem follows_routeAdminMsg (base : Trail) :
    Follows exec (RouteTrail dc now owner msg base) (RouteEnd dc now owner msg base)
      (routeAdminMsg dc now owner msg) base := by
  refine Follows.bind (follows_lookup msg fun quoted trail h => ⟨.LookedUp quoted trail h, ?_⟩)
  simp only [← adminRoute.eq_def, bind_pure_unit]
  by_cases hkind : (adminRoute msg quoted).kind = .NoTicketId
  · rw [if_pos hkind]
    exact follows_sendTo dc (fun quote => .Told _ quote _ (.LookedUp quoted trail h))
      fun told htold => .NoTicketId quoted trail told h hkind htold
  rw [if_neg hkind]
  refine follows_call rfl fun _ found _ _ => ⟨.Read quoted found trail h, ?_⟩
  cases found with
  | none =>
      exact follows_sendTo dc (fun quote => .Told _ quote _ (.Read quoted none trail h))
        fun told htold => .NotFound quoted trail told h htold
  | some t =>
      change Follows _ _ _ (ite _ _ _) _
      by_cases hstatus : t.status = .Closed
      · rw [if_pos hstatus]
        exact follows_sendTo dc (fun quote => .Told _ quote _ (.Read quoted (some t) trail h))
          fun told htold => .AlreadyClosed quoted t trail told h hstatus htold
      · rw [if_neg hstatus]
        exact follows_routeTicket dc now owner msg base trail quoted h t hkind hstatus

abbrev incomingLoaded : Trail := [⟨.OwnerLoad, owner⟩]

abbrev incomingRegistered : Trail :=
  ⟨.StateSet kOwnerKey (decimal msg.fromId.toNat), ()⟩ :: ⟨.OwnerStore msg.fromId, ()⟩ ::
    incomingLoaded 0

-- The trails of an incoming message: a registration or the owner's message.
inductive IncomingTrail : Trail → Prop
  | Start : IncomingTrail []
  | Loaded (owner : UInt32) : IncomingTrail (incomingLoaded owner)
  | Claimed : IncomingTrail (⟨.OwnerStore msg.fromId, ()⟩ :: incomingLoaded 0)
  | Registered (trail : Trail) (h : SendTrail dc msg.fromId kWelcome (incomingRegistered msg) trail) :
      IncomingTrail trail
  | Routed (trail : Trail) (howner : msg.fromId ≠ 0)
      (h : RouteTrail dc now msg.fromId msg (incomingLoaded msg.fromId) trail) : IncomingTrail trail

theorem byBot_incomingTrail {trail : Trail} (h : IncomingTrail dc now msg trail) :
    ∀ taken ∈ trail, ByBot taken.1 := by
  have hloaded (owner : UInt32) : ∀ taken ∈ incomingLoaded owner, ByBot taken.1 :=
    List.forall_mem_cons.mpr ⟨trivial, by simp⟩
  cases h with
  | Start => simp
  | Loaded owner => exact hloaded owner
  | Claimed => exact List.forall_mem_cons.mpr ⟨trivial, hloaded 0⟩
  | Registered _ h =>
      have hregistered : ∀ taken ∈ incomingRegistered msg, ByBot taken.1 := by
        simp only [List.forall_mem_cons]
        exact ⟨trivial, trivial, trivial, by simp⟩
      cases h with
      | Unsent => exact hregistered
      | Sent quote => exact List.forall_mem_cons.mpr ⟨trivial, hregistered⟩
  | Routed _ _ h => exact byBot_routeTrail dc now _ msg h (hloaded _)

theorem message_of_incomingTrail {trail : Trail} {m : NewMessage}
    (h : IncomingTrail dc now msg (⟨.MessageInsert m, ()⟩ :: trail)) :
    RouteTrail dc now msg.fromId msg (incomingLoaded msg.fromId) (⟨.MessageInsert m, ()⟩ :: trail) := by
  cases h with
  | Registered _ h => cases h
  | Routed _ _ h => exact h

-- The ends of an incoming message.
inductive IncomingEnd : Trail → Except SqlError Unit → Prop
  | Registered (trail : Trail) (h : SendTrail dc msg.fromId kWelcome (incomingRegistered msg) trail) :
      IncomingEnd trail (.ok ())
  | Routed (trail : Trail) (outcome : Except SqlError Unit) (howner : msg.fromId ≠ 0)
      (h : RouteEnd dc now msg.fromId msg (incomingLoaded msg.fromId) trail outcome) :
      IncomingEnd trail outcome
  | Stranger (owner : UInt32) (howner : owner ≠ 0) (h : msg.fromId ≠ owner) :
      IncomingEnd (incomingLoaded owner) (.ok ())

theorem follows_incomingMsg :
    Follows exec (IncomingTrail dc now msg) (IncomingEnd dc now msg) (incomingMsg dc now msg) [] := by
  refine follows_call rfl fun _ owner _ _ => ⟨.Loaded owner, ?_⟩
  change Follows _ _ _ (ite _ _ _) _
  by_cases howner : owner = 0
  · subst howner
    rw [if_pos rfl]
    refine follows_call rfl fun _ _ _ _ => ⟨.Claimed, ?_⟩
    refine follows_call rfl fun _ _ _ _ => ⟨.Registered _ .Unsent, ?_⟩
    exact follows_sendTo dc (fun quote => .Registered _ (.Sent quote))
      fun told htold => .Registered told htold
  rw [if_neg howner]
  by_cases hfrom : msg.fromId = owner
  · subst hfrom
    rw [if_pos rfl]
    exact (follows_routeAdminMsg dc now msg.fromId msg _).mono
      (fun trail h => .Routed trail howner h) fun trail outcome h => .Routed trail outcome howner h
  · rw [if_neg hfrom]
    exact .Stranger owner howner hfrom

end DeltaFeedback.Dc
