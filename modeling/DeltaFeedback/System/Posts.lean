import DeltaFeedback.Sequential.Owner
import DeltaFeedback.Server.RateLimit.Window
import DeltaFeedback.System.Requests

namespace DeltaFeedback

open Text Interleaving Db

-- The visitor's messages that came from an address.
def Db.Tables.countFrom (tables : Tables) (key : Bytes) : Nat :=
  tables.messages.countP fun m => m.visitorIp == some key

namespace System

open Server (TokenBucket)
open Server.TokenBucket (Attempt InWindow after allowedOn log)

-- A request that rl_submit counts.
def Job.post? : Job → Option Attempt
  | .Request call => match call.route with
    | .PostFeedback => some ⟨Server.visitorIp call.req, call.steadyClock⟩
    | .PostTicket _ => some ⟨Server.visitorIp call.req, call.steadyClock⟩
    | _ => none
  | _ => none

def Job.postsFrom (key : Bytes) (job : Job) : Bool := job.post?.any fun a => a.key == key

-- The posts of a list that pass, when they take the limiter's lock in its order.
def passed {ι : Type} (jobs : ι → Job) (limiter : TokenBucket) : List ι → List ι
  | [] => []
  | i :: rest =>
      match (jobs i).post? with
      | none => passed jobs limiter rest
      | some a =>
          let (allowed, next) := limiter.allow a.now a.key
          if allowed then i :: passed jobs next rest else passed jobs next rest

-- The operation that stores one.
def storesFrom (key : Bytes) : Op → Bool
  | .MessageInsert m => m.visitorIp == some key
  | _ => false

def stored (key : Bytes) (trail : Trail) : Nat := trail.countP fun taken => storesFrom key taken.1

theorem stored_nil (key : Bytes) : stored key [] = 0 := rfl

theorem stored_cons (key : Bytes) (op : Op) (result : op.Result) (trail : Trail) :
    stored key (⟨op, result⟩ :: trail) = stored key trail + if storesFrom key op then 1 else 0 :=
  List.countP_cons ..

-- A job stores at most one, and only its own visitor's.
def PostTrail (key : Bytes) (job : Job) (trail : Trail) : Prop :=
  stored key trail ≤ if job.postsFrom key then 1 else 0

section Trails

variable {key : Bytes} {trail : Trail}

theorem storesFrom_newMessage {ticketId body visitorIp : Bytes} {sender : Sender} {createdAt : Int}
    (h : storesFrom key (.MessageInsert
      (MessagesRepo.newMessage ticketId sender body createdAt visitorIp none)) = true) :
    visitorIp = key := by
  simp only [storesFrom, MessagesRepo.newMessage, beq_iff_eq] at h
  split at h
  · exact Option.some.inj h
  · cases h

-- A visitor's message counts for the visitor's own address.
theorem count_newMessage (key ticketId : Bytes) (sender : Sender) (body : Bytes) (createdAt : Int)
    (visitorIp : Bytes) :
    (if storesFrom key (.MessageInsert
      (MessagesRepo.newMessage ticketId sender body createdAt visitorIp none)) then 1 else 0) ≤
      if visitorIp = key then 1 else 0 := by
  split_ifs with hstores hkey
  · exact le_rfl
  · exact absurd (storesFrom_newMessage hstores) hkey
  · exact Nat.zero_le _
  · exact le_rfl

theorem stored_submitTrail (key : Bytes) {service : Feedback.Service} {input : Feedback.SubmitInput}
    {env : Feedback.Env} (h : service.SubmitTrail input env trail) :
    stored key trail ≤ if input.visitorIp = key then 1 else 0 := by
  have hmessage : (if storesFrom key (.MessageInsert (service.firstMessage input env)) then 1 else 0) ≤
      if input.visitorIp = key then 1 else 0 := count_newMessage ..
  cases h <;> simp [stored_cons, stored_nil, storesFrom] at hmessage ⊢ <;> exact hmessage

theorem stored_replyTrail (key : Bytes) {service : Feedback.Service} {input : Feedback.ReplyInput}
    {env : Feedback.Env} (h : service.ReplyTrail input env trail) :
    stored key trail ≤ if input.visitorIp = key then 1 else 0 := by
  have hmessage : (if storesFrom key (.MessageInsert (Feedback.Service.replyMessage input env))
      then 1 else 0) ≤ if input.visitorIp = key then 1 else 0 := count_newMessage ..
  cases h <;> simp [stored_cons, stored_nil, storesFrom] at hmessage ⊢ <;> exact hmessage

theorem stored_routeTrail {dc : Dc.Delivery} {now : Int} {owner : UInt32} {msg : Dc.IncomingMsg}
    {base : Trail} (h : Dc.RouteTrail dc now owner msg base trail) :
    stored key trail = stored key base := by
  have hlooked {quoted : Option Bytes} {looked : Trail}
      (hlookup : Dc.LookupTrail msg base quoted looked) : stored key looked = stored key base := by
    cases hlookup with
    | Unquoted => rfl
    | Quoted => simp [stored_cons, storesFrom]
  have hadmin (route : Dc.AdminRoute) :
      storesFrom key (.MessageInsert (Dc.adminMessage now route)) = false := by
    simp [storesFrom, Dc.adminMessage, MessagesRepo.newMessage]
  induction h with
  | Start => rfl
  | Told text quote trail h ih => rw [stored_cons, ih]; rfl
  | LookedUp quoted trail h => exact hlooked h
  | Read quoted found trail h => rw [stored_cons, hlooked h]; rfl
  | Closed quoted t trail h => rw [stored_cons, stored_cons, hlooked h]; rfl
  | Stored quoted t trail h => rw [stored_cons, stored_cons, hadmin, hlooked h]; rfl
  | Numbered quoted t rowId trail h => rw [stored_cons, stored_cons, stored_cons, hadmin, hlooked h]; rfl
  | Updated quoted t rowId trail h =>
      rw [stored_cons, stored_cons, stored_cons, stored_cons, hadmin, hlooked h]
      rfl

theorem stored_incomingTrail {dc : Dc.Delivery} {now : Int} {msg : Dc.IncomingMsg}
    (h : Dc.IncomingTrail dc now msg trail) : stored key trail = 0 := by
  cases h with
  | Routed _ _ h => rw [stored_routeTrail h]; rfl
  | Registered _ h => cases h <;> rfl
  | _ => rfl

-- The programs that store no message at all.
theorem stored_of_forall (h : ∀ taken ∈ trail, storesFrom key taken.1 = false) :
    stored key trail = 0 := by
  rw [stored, List.countP_eq_zero]
  exact fun taken htaken => by simp [h taken htaken]

variable {Json : Type} (crow : Server.Crow Json) (service : Feedback.Service)

theorem within_getTicket (req : Server.Request) (id : Bytes) : Within exec
    (fun trail => ∀ taken ∈ trail, storesFrom key taken.1 = false)
    (Server.getTicket service req id) [] := by
  have honly : (Server.getTicket service req id).Only fun op => storesFrom key op = false := by
    refine Prog.only_ite (fun _ => trivial) fun _ => ⟨rfl, fun found => ?_⟩
    cases found with
    | none => trivial
    | some t =>
        refine Prog.only_ite (fun _ => trivial) fun _ => ⟨rfl, fun msgs => ?_⟩
        exact Prog.only_ite (fun _ => trivial) fun _ => trivial
  exact follows_of_only honly (List.forall_mem_nil _)

theorem within_post (key : Bytes) (job : Job) :
    Within exec (PostTrail key job) (job.prog crow service) [] := by
  have hsilent {trail : Trail} (h : stored key trail = 0) : PostTrail key job trail := by
    rw [PostTrail, h]
    exact Nat.zero_le _
  cases job with
  | Incoming dc now msg =>
      exact Follows.map (within_incomingMsg dc now msg fun trail h =>
        hsilent (stored_incomingTrail h))
  | Purge retentionDays now =>
      refine Follows.map (within_purgeThread retentionDays now fun trail h =>
        hsilent (stored_of_forall fun taken htaken => ?_))
      have hpurges := h taken htaken
      cases hop : taken.1 <;> first | rfl | exact (hop ▸ hpurges).elim
  | Request call =>
      refine Follows.map (within_handler crow service call (fun made hmade trail h => ?_)
        fun id hroute => ?_)
      · cases hmade with
        | SubmitNew body input hroute hload hinput =>
            have hstored := stored_submitTrail key h
            rw [visitorIp_of_submitInput crow hinput] at hstored
            simpa [PostTrail, Job.postsFrom, Job.post?, hroute] using hstored
        | SubmitReply id body input hroute hload hinput =>
            have hstored := stored_replyTrail key h
            rw [visitorIp_of_replyInput crow hinput] at hstored
            simpa [PostTrail, Job.postsFrom, Job.post?, hroute] using hstored
      · exact within_of_follows (within_getTicket service call.req id) fun trail h =>
          hsilent (stored_of_forall h)

end Trails

section Count

variable {key : Bytes} {op : Op} {result : op.Result} {before world : World}

theorem countFrom_write (key : Bytes) (tables : Tables) (op : Op) : (op.write tables).countFrom key ≤
    tables.countFrom key + if storesFrom key op then 1 else 0 := by
  cases op with
  | MessageInsert m =>
      simp [Op.write, Tables.countFrom, Tables.messageInsert, Tables.newMessageRow, storesFrom,
        List.countP_append, List.countP_cons]
  | MessageSetDcMsgId rowId dcMsgId =>
      simp only [Op.write, Tables.countFrom, Tables.messageSetDcMsgId, List.countP_map]
      refine le_of_eq ?_
      simp only [storesFrom, Bool.false_eq_true, if_false, add_zero]
      refine List.countP_congr fun m _ => ?_
      simp only [Function.comp]
      split <;> exact Iff.rfl
  | TicketPurgeInactive cutoff =>
      simp only [Op.write, Tables.countFrom, Tables.ticketPurgeInactive]
      exact (List.Sublist.countP_le List.filter_sublist).trans (Nat.le_add_right _ _)
  | ReplayInsert challengeId expiresAt =>
      simp only [Op.write]
      split <;> exact Nat.le_add_right _ _
  | _ => exact Nat.le_add_right _ _

end Count

section Pool

variable {ι : Type} [DecidableEq ι] {jobs : ι → Job} {key : Bytes} {pass : List ι}
variable {first view : SystemView ι} {i : ι} {op : Op} {result : op.Result} {world : World}

-- Only the posts that passed the limiter are served.
def Passing (jobs : ι → Job) (pass : List ι) : Pool.Condition Op Op.Result World SqlError Answer ι :=
  fun _ i _ => (jobs i).post?.isSome → i ∈ pass

-- The posts from a key that have stored their message since.
def storedSince (jobs : ι → Job) (key : Bytes) (pass : List ι) (first view : SystemView ι) : Nat :=
  pass.countP fun i => (jobs i).postsFrom key &&
    (stored key (first.trail i) < stored key (view.trail i))

-- Every message there is more than at first is one that such a post has stored.
structure PostInv (jobs : ι → Job) (key : Bytes) (pass : List ι) (first view : SystemView ι) :
    Prop where
  later : ∀ i, stored key (first.trail i) ≤ stored key (view.trail i)
  bounded : view.world.db.countFrom key ≤
    first.world.db.countFrom key + storedSince jobs key pass first view

theorem stored_advance (j : ι) : stored key ((view.advance i op result world).trail j) =
    stored key (view.trail j) + if j = i ∧ storesFrom key op = true then 1 else 0 := by
  by_cases hji : j = i
  · subst hji
    simp [stored_cons]
  · simp [View.advance_trail_of_ne _ _ _ _ _ hji, hji]

theorem countP_lt_countP {α : Type} {p q : α → Bool} {l : List α} {a : α}
    (h : ∀ x ∈ l, p x = true → q x = true) (ha : a ∈ l) (hp : p a = false) (hq : q a = true) :
    l.countP p + 1 ≤ l.countP q := by
  obtain ⟨front, back, rfl⟩ := List.append_of_mem ha
  have hfront : front.countP p ≤ front.countP q :=
    List.countP_mono_left fun x hx => h x (List.mem_append_left _ hx)
  have hback : back.countP p ≤ back.countP q :=
    List.countP_mono_left fun x hx => h x (List.mem_append_right _ (List.mem_cons_of_mem _ hx))
  simp only [List.countP_append, List.countP_cons, hp, hq, Bool.false_eq_true, if_false, if_true]
  omega

-- A message is stored by a post that has passed and has not stored one before.
theorem storedSince_advance (hpass : Passing jobs pass view i op)
    (hlater : ∀ i, stored key (first.trail i) ≤ stored key (view.trail i))
    (hlegal : PostTrail key (jobs i) (⟨op, result⟩ :: view.trail i)) :
    storedSince jobs key pass first view + (if storesFrom key op then 1 else 0) ≤
      storedSince jobs key pass first (view.advance i op result world) := by
  have hgrows : ∀ j ∈ pass, ((jobs j).postsFrom key &&
      (stored key (first.trail j) < stored key (view.trail j))) = true →
      ((jobs j).postsFrom key && (stored key (first.trail j) <
        stored key ((view.advance i op result world).trail j))) = true := by
    intro j _ hj
    simp only [Bool.and_eq_true, decide_eq_true_eq, stored_advance] at hj ⊢
    exact ⟨hj.1, by omega⟩
  by_cases hop : storesFrom key op = true
  · rw [if_pos hop]
    rw [PostTrail, stored_cons, if_pos hop] at hlegal
    have hposts : (jobs i).postsFrom key = true := by
      by_contra hposts
      rw [if_neg hposts] at hlegal
      omega
    rw [if_pos hposts] at hlegal
    have hsome : (jobs i).post?.isSome := by
      unfold Job.postsFrom at hposts
      cases hpost : (jobs i).post? with
      | none => simp [hpost] at hposts
      | some a => rfl
    have hlate := hlater i
    refine countP_lt_countP hgrows (hpass hsome) ?_ ?_
    · simp only [Bool.and_eq_false_iff, decide_eq_false_iff_not, not_lt]
      exact .inr (by omega)
    · simp only [Bool.and_eq_true, decide_eq_true_eq, stored_advance, hop, and_self, if_true]
      exact ⟨hposts, by omega⟩
  · rw [if_neg hop]
    exact List.countP_mono_left hgrows

theorem PostInv.advance (h : PostInv jobs key pass first view)
    (hpass : Passing jobs pass view i op)
    (hlegal : PostTrail key (jobs i) (⟨op, result⟩ :: view.trail i))
    (hexec : exec op view.world = .ok (result, world)) :
    PostInv jobs key pass first (view.advance i op result world) where
  later j := (h.later j).trans (le_of_le_of_eq (Nat.le_add_right _ _) (stored_advance j).symm)
  bounded := by
    have hwrite := countFrom_write key view.world.db.toTables op
    have hsince : storedSince jobs key pass first view + (if storesFrom key op then 1 else 0) ≤
        storedSince jobs key pass first (view.advance i op result world) :=
      storedSince_advance hpass h.later hlegal
    have hbounded := h.bounded
    rw [View.advance_world, tables_of_exec hexec]
    omega

theorem upkeep_postInv (jobs : ι → Job) (key : Bytes) (pass : List ι) (first : SystemView ι) :
    Upkeep (fun i => PostTrail key (jobs i)) (fun _ _ _ => True) (Passing jobs pass)
      (PostInv jobs key pass first) where
  advance _ _ _ _ _ _ hinv _ hlegal hpass hexec := hinv.advance hpass hlegal hexec
  ends _ _ _ _ hinv _ _ := ⟨hinv.later, hinv.bounded⟩
  uncounted _ _ hinv := ⟨hinv.later, hinv.bounded⟩

theorem upkeep_true (jobs : ι → Job) (key : Bytes)
    (admits : Pool.Condition Op Op.Result World SqlError Answer ι) :
    Upkeep (fun i => PostTrail key (jobs i)) (fun _ _ _ => True) admits fun _ => True where
  advance _ _ _ _ _ _ _ _ _ _ _ := trivial
  ends _ _ _ _ _ _ _ := trivial
  uncounted _ _ _ := trivial

theorem rlSubmit_after (world : World) (earlier : List Attempt) :
    (after (Server.State.start world).rlSubmit earlier).rate = 1 / 10 ∧
      (after (Server.State.start world).rlSubmit earlier).burst = 6 := by
  rw [Server.TokenBucket.after_rate, Server.TokenBucket.after_burst]
  exact ⟨rfl, rfl⟩

omit [DecidableEq ι] in
-- What passes on a key is what its bucket allows.
theorem count_passed (key : Bytes) (limiter : TokenBucket) (order : List ι) :
    (passed jobs limiter order).countP (fun i => (jobs i).postsFrom key) =
      allowedOn key (log limiter (order.filterMap fun i => (jobs i).post?)) := by
  induction order generalizing limiter with
  | nil => rfl
  | cons i rest ih =>
      cases hpost : (jobs i).post? with
      | none => simp [passed, hpost, ih]
      | some a =>
          have hposts : (jobs i).postsFrom key = decide (a.key = key) := by
            simp [Job.postsFrom, hpost, beq_eq_decide]
          simp only [allowedOn] at ih
          by_cases hallowed : (limiter.allow a.now a.key).1 = true
          · simp [passed, hpost, log, allowedOn, List.countP_cons, hallowed, hposts, ih]
          · simp [passed, hpost, log, allowedOn, hallowed, ih]

theorem storedSince_le (jobs : ι → Job) (key : Bytes) (pass : List ι)
    (first view : SystemView ι) :
    storedSince jobs key pass first view ≤ pass.countP fun i => (jobs i).postsFrom key :=
  List.countP_mono_left fun _ _ h => (Bool.and_eq_true_iff.mp h).1

-- While the program runs, in any window of the limiter's clock, an address gets
-- the burst and 6 messages a minute stored, besides those whose requests had
-- passed before; in any interleaving of the requests, and whatever the bot and
-- the purge thread do.
theorem posts_bounded {Json : Type} (crow : Server.Crow Json) (service : Feedback.Service)
    (jobs : ι → Job) (world : World) (pool later : SystemPool ι)
    (hlife : (process crow service).Life exec jobs world pool) (earlier : List Attempt)
    (busy order : List ι) (hlater : Pool.Reaches exec (Passing jobs (busy ++
      passed jobs (after (Server.State.start world).rlSubmit earlier) order)) pool later)
    (key : Bytes) (opens length : Int) (hlength : 0 ≤ length)
    (hwindow : InWindow key opens length (order.filterMap fun i => (jobs i).post?)) :
    (later.world.db.countFrom key : ℚ) ≤ pool.world.db.countFrom key +
      busy.countP (fun i => (jobs i).postsFrom key) +
      (6 + TokenBucket.seconds length / 10) := by
  obtain ⟨hrate, hburst⟩ := rlSubmit_after world earlier
  generalize after (Server.State.start world).rlSubmit earlier = limiter at hlater hrate hburst
  have hpool : pool.Sound exec (fun i => PostTrail key (jobs i)) (fun _ _ _ => True) fun _ => True := by
    have hstart : ((process crow service).start jobs world).Sound exec
        (fun i => PostTrail key (jobs i)) (fun _ _ _ => True) fun _ => True :=
      .start (fun i => Nat.zero_le _) (fun i => within_post crow service key (jobs i)) trivial
    exact hstart.reaches (upkeep_true jobs key _).preserves hlife
  have hfirst : pool.Sound exec (fun i => PostTrail key (jobs i)) (fun _ _ _ => True)
      (PostInv jobs key (busy ++ passed jobs limiter order) pool.toView) :=
    ⟨hpool.lawful, ⟨fun _ => le_rfl, Nat.le_add_right _ _⟩, hpool.follows⟩
  have hbounded := (hfirst.reaches (upkeep_postInv jobs key _ pool.toView).preserves hlater).inv.bounded
  have hsince := storedSince_le jobs key (busy ++ passed jobs limiter order) pool.toView later.toView
  rw [List.countP_append, count_passed] at hsince
  have hallowed := Server.TokenBucket.allowed_in_window
    (show 0 ≤ limiter.rate by simp [hrate]) (by simp [hburst]) hlength hwindow
  rw [hrate, hburst] at hallowed
  have htotal : (later.world.db.countFrom key : ℚ) ≤ pool.world.db.countFrom key +
      (busy.countP (fun i => (jobs i).postsFrom key) +
        allowedOn key (log limiter (order.filterMap fun i => (jobs i).post?))) := by
    exact_mod_cast hbounded.trans (Nat.add_le_add_left hsince _)
  linarith

end Pool

instance (pass : List (Fin 2)) (view : SystemView (Fin 2)) (i : Fin 2) (op : Op) :
    Decidable (Passing jobs pass view i op) :=
  inferInstanceAs (Decidable (_ → _))

-- A visitor leaves feedback, and polls.
def postJobs : Fin 2 → Job
  | 0 => .Request (Server.sampleCall .PostFeedback)
  | 1 => .Request (Server.sampleCall (.GetTicket (utf8 "000000")))

def samplePosts : SystemPool (Fin 2) :=
  (process Server.sampleCrow Feedback.sampleService).start postJobs Sequential.registered

theorem posts_bounded_sample : ∃ later : SystemPool (Fin 2),
    (Pool.Reaches exec (Passing postJobs [0]) samplePosts later ∧
      later.world.db.countFrom (utf8 "192.0.2.1") = 1) ∧
    (later.world.db.countFrom (utf8 "192.0.2.1") : ℚ) ≤
      samplePosts.world.db.countFrom (utf8 "192.0.2.1") +
      ([] : List (Fin 2)).countP (fun i => (postJobs i).postsFrom (utf8 "192.0.2.1")) +
      (6 + TokenBucket.seconds 60000000000 / 10) := by
  obtain ⟨later, hrun, hseen⟩ := Pool.exists_reaches_of_follow exec (Passing postJobs [0])
    [0, 0, 0, 0, 0, 0] samplePosts (fun pool => pool.world.db.countFrom (utf8 "192.0.2.1")) 1
    (by decide +kernel)
  have hpassed : ([] : List (Fin 2)) ++ passed postJobs
      (after (Server.State.start Sequential.registered).rlSubmit []) [0, 1] = [0] := by decide +kernel
  exact ⟨later, ⟨hrun, hseen⟩, posts_bounded Server.sampleCrow Feedback.sampleService postJobs
    Sequential.registered samplePosts later .refl [] [] [0, 1] (hpassed ▸ hrun) (utf8 "192.0.2.1") 1
    60000000000 (by decide) (by unfold InWindow; decide +kernel)⟩

end System

end DeltaFeedback
