import Ticketing.AppServer.Listings
import Ticketing.Commands.QueueRuns

namespace Ticketing.AppServer

open Python JsonText Interaction Commands Server
open Interaction.Program (Calls Sat onOk)

/-! ### Queues behind the app server -/

structure QueueJoinResult where
  joined : Bool
  position : Int
  queueLength : Int
  deriving DecidableEq

structure QueuePositionResult where
  position : Int
  queueLength : Int

structure QueueFrontResult where
  userId : Option String
  queueLength : Int

structure QueueLeaveResult where
  removed : Bool
  previousPosition : Int
  queueLength : Int

def decodeQueueJoin (value : Reply) : Except Error QueueJoinResult := do
  match ← expectArray value 3 with
  | [joined, position, length] =>
    return ⟨(← expectInt joined "joined flag") ≠ 0, ← expectInt position "queue position",
      ← expectInt length "queue length"⟩
  | _ => throw ⟨.upstreamError, "Redis array reply must contain 3 items"⟩

def decodeQueuePosition (value : Reply) : Except Error QueuePositionResult := do
  match ← expectArray value 2 with
  | [position, length] => return ⟨← expectInt position "queue position", ← expectInt length "queue length"⟩
  | _ => throw ⟨.upstreamError, "Redis array reply must contain 2 items"⟩

def decodeQueueLeave (value : Reply) : Except Error QueueLeaveResult := do
  match ← expectArray value 3 with
  | [removed, position, length] =>
    return ⟨(← expectInt removed "removed flag") ≠ 0, ← expectInt position "previous position",
      ← expectInt length "queue length"⟩
  | _ => throw ⟨.upstreamError, "Redis array reply must contain 3 items"⟩

def decodeQueueFront (value : Reply) : Except Error QueueFrontResult := do
  match ← expectArray value 2 with
  | [userId, length] =>
    return ⟨← expectOptionalString userId "queue user_id", ← expectInt length "queue length"⟩
  | _ => throw ⟨.upstreamError, "Redis array reply must contain 2 items"⟩

namespace Orchestrator

def joinQueue (eventId userId : String) : Flow QueueJoinResult := do
  Program.ofExcept (decodeQueueJoin (← execute ["JOIN_QUEUE", eventId, userId]))

def queuePosition (eventId userId : String) : Flow QueuePositionResult := do
  Program.ofExcept (decodeQueuePosition (← execute ["QUEUE_POSITION", eventId, userId]))

def leaveQueue (eventId userId : String) : Flow QueueLeaveResult := do
  Program.ofExcept (decodeQueueLeave (← execute ["LEAVE_QUEUE", eventId, userId]))

def peekQueue (eventId : String) : Flow QueueFrontResult := do
  Program.ofExcept (decodeQueueFront (← execute ["PEEK_QUEUE", eventId]))

end Orchestrator

/-! ### The place of a user -/

/-- The command takes the user out of the queue of the event, as it stands. -/
def TakesOut (eventId userId : String) (redis : Storage.Store) (tokens : List String) : Prop :=
  match queueMove eventId tokens, readQueue (redis.lookup (Storage.queueKey eventId)) with
  | some (.leave v), .ok queue => v = userId ∧ Str.ofString userId ∈ queue
  | some .pop, .ok queue => queue.head? = some (Str.ofString userId)
  | _, _ => False

instance (eventId userId : String) (redis : Storage.Store) (tokens : List String) :
    Decidable (TakesOut eventId userId redis tokens) := by
  unfold TakesOut
  split <;> infer_instance

/-- The command neither takes the user out of the queue nor writes over the key of a queue. -/
def Spares (eventId userId : String) (redis : Storage.Store) (tokens : List String) : Prop :=
  SparesQueues tokens ∧ ¬ TakesOut eventId userId redis tokens

instance (eventId userId : String) (redis : Storage.Store) (tokens : List String) :
    Decidable (Spares eventId userId redis tokens) :=
  inferInstanceAs (Decidable (_ ∧ _))

def SparesOp (eventId userId : String) (w : World) : AppOp → Prop
  | .redis tokens => Spares eventId userId w.redis tokens
  | _ => True

/-- The command takes nobody out of the queue of the event, however it stands, nor writes over the key of a queue. -/
def Calm (eventId : String) (tokens : List String) : Prop :=
  SparesQueues tokens ∧ (∀ v, queueMove eventId tokens ≠ some (.leave v)) ∧ queueMove eventId tokens ≠ some .pop

def CalmOp (eventId : String) : AppOp → Prop
  | .redis tokens => Calm eventId tokens
  | _ => True

/-- The key of the queue holds a line of which `R` is true. -/
def Lined (eventId : String) (R : Line String → Prop) (w : World) : Prop := ∃ l, Holds w.redis eventId l ∧ R l

/-- The user stands in the line, at the place `p` or before it. -/
def StandsBy (userId : String) (p : Int) (l : Line String) : Prop :=
  userId ∈ l.members ∧ (l.members.idxOf userId + 1 : Int) ≤ p

/-- What may become of the line: it stays one, and the user keeps the place or comes nearer. -/
structure Advances (eventId userId : String) (w w' : World) : Prop where
  lined : Lined eventId (fun _ => True) w → Lined eventId (fun _ => True) w'
  place : ∀ p, Lined eventId (StandsBy userId p) w → Lined eventId (StandsBy userId p) w'

variable {e u : String} {w w' : World} {l : Line String}

theorem Advances.refl (w : World) : Advances e u w w := ⟨id, fun _ => id⟩

theorem Advances.trans (a b c : World) (h : Advances e u a b) (h' : Advances e u b c) : Advances e u a c :=
  ⟨h'.lined ∘ h.lined, fun p => h'.place p ∘ h.place p⟩

theorem StandsBy.act {p : Int} (h : StandsBy u p l) {m : Line.Move String} (hgone : Line.gone (m, (l.act m).1) ≠ some u) :
    StandsBy u p (l.act m).2 := by
  obtain ⟨hmem, hidx⟩ := Line.place_act h.1 hgone
  exact ⟨hmem, by have := h.2; omega⟩

theorem Calm.spares {tokens : List String} (h : Calm e tokens) (redis : Storage.Store) : Spares e u redis tokens := by
  refine ⟨h.1, fun htakes => ?_⟩
  unfold TakesOut at htakes
  split at htakes
  next v _ hm _ => exact h.2.1 v hm
  next hm _ => exact h.2.2 hm
  next => exact htakes

theorem CalmOp.spares {op : AppOp} (h : CalmOp e op) (w : World) : SparesOp e u w op := by
  cases op with
  | redis tokens => exact Calm.spares h w.redis
  | uuid4 | now | db call => trivial

/-- The line loses the user to no command that spares it. -/
theorem Spares.not_gone {redis : Storage.Store} {tokens : List String} {m : Line.Move String}
    (h : Spares e u redis tokens) (hl : Holds redis e l) (hm : queueMove e tokens = some m) :
    Line.gone (m, (l.act m).1) ≠ some u := by
  have hread : readQueue (redis.lookup (Storage.queueKey e)) = .ok (l.members.map Str.ofString) := by
    rw [hl]
    exact readQueue_members l
  have hstays := h.2
  simp only [TakesOut, hm, hread] at hstays
  cases m with
  | join v => simp only [Line.act]; split <;> simp [Line.gone]
  | position v => simp [Line.gone]
  | peek => simp [Line.gone]
  | pop =>
      simp only [Line.act]
      cases hhead : l.members.head? with
      | none => simp [Line.gone]
      | some v =>
          rintro hv
          cases hv
          refine hstays (show (l.members.map Str.ofString).head? = some (Str.ofString u) from ?_)
          rw [List.head?_map, hhead]
          rfl
  | leave v =>
      simp only [Line.act]
      split
      next hv =>
        intro hgone
        obtain rfl : v = u := by simpa [Line.gone, Line.rank, hv] using hgone
        exact hstays ⟨rfl, mem_members.mpr hv⟩
      next => simp [Line.gone]

/-- A command that spares the user keeps the line. -/
theorem lined_step {R : Line String → Prop} {tokens : List String} (hs : Spares e u w.redis tokens)
    (hR : ∀ l m, Line.gone (m, (l.act m).1) ≠ some u → R l → R (l.act m).2) (h : Lined e R w) (now : ℚ) :
    Lined e R { w with redis := step w.redis (now, tokens) } := by
  obtain ⟨l, hl, hr⟩ := h
  cases hm : queueMove e tokens with
  | none => exact ⟨l, hl.other hm hs.1, hr⟩
  | some m => exact ⟨_, (hl.move now hm).2, hR l m (hs.not_gone hl hm) hr⟩

theorem appStep_advances (env : Env) (w : World) {op : AppOp} (h : SparesOp e u w op) :
    Advances e u w (appStep env w op).2 := by
  cases op with
  | uuid4 => exact Advances.refl w
  | now => exact Advances.refl w
  | db call =>
      rcases appStep_db env w call with hw | hw <;> rw [hw]
      · exact ⟨fun h => h, fun _ h => h⟩
      · exact Advances.refl w
  | redis tokens =>
      rcases appStep_redis env w tokens with hw | hw <;> rw [hw]
      · exact ⟨fun hl => lined_step h (fun _ _ _ _ => trivial) hl env.now,
          fun p hl => lined_step h (fun l m hgone hs => hs.act hgone) hl env.now⟩
      · exact Advances.refl w

/-! ### What is told -/

theorem scalarReply_int {n : Int} {reply : Reply} (h : scalarReply (.int n) = .ok reply) : reply = .int n := by
  rw [scalarReply] at h
  cases hn : strInt n with
  | error x => rw [hn] at h; cases h
  | ok text => rw [hn] at h; cases h; rfl

theorem resultReply_list {xs : List RespScalar} {reply : Reply} (h : resultReply (.list xs) = .ok reply) :
    ∃ replies, reply = .list replies ∧ List.Forall₂ (fun x r => scalarReply x = .ok r) xs replies := by
  rw [resultReply] at h
  cases hm : xs.mapM scalarReply with
  | error x => rw [hm] at h; cases h
  | ok replies =>
      rw [hm] at h
      cases h
      exact ⟨replies, rfl, mapM_ok.mp hm⟩

theorem decodeQueueJoin_line {entered : Bool} {rank length : Nat} {reply : Reply}
    (h : resultReply (lineResult (.joined entered rank length)) = .ok reply) :
    decodeQueueJoin reply = .ok ⟨entered, rank, length⟩ := by
  obtain ⟨replies, rfl, hr⟩ := resultReply_list h
  obtain _ | ⟨hflag, _ | ⟨hrank, _ | ⟨hlength, _ | _⟩⟩⟩ := hr
  rw [scalarReply_flag] at hflag
  cases hflag
  rw [scalarReply_int hrank, scalarReply_int hlength]
  cases entered <;> rfl

theorem decodeQueuePosition_line {rank : Option Nat} {length : Nat} {reply : Reply}
    (h : resultReply (lineResult (.position rank length)) = .ok reply) :
    decodeQueuePosition reply = .ok ⟨rank.elim (-1) Nat.cast, length⟩ := by
  obtain ⟨replies, rfl, hr⟩ := resultReply_list h
  obtain _ | ⟨hrank, _ | ⟨hlength, _ | _⟩⟩ := hr
  rw [scalarReply_int hrank, scalarReply_int hlength]
  rfl

/-- The command that has been answered is a move of the line. -/
theorem appStep_told {env : Env} {tokens : List String} {m : Line.Move String} {reply : Reply}
    (h : Holds w.redis e l) (hm : queueMove e tokens = some m) (hok : appStep env w (.redis tokens) = (.ok reply, w')) :
    resultReply (lineResult (l.act m).1) = .ok reply ∧ Holds w'.redis e (l.act m).2 := by
  obtain ⟨hreply, hw⟩ := appStep_redis_ok hok
  obtain ⟨hanswer, hnext⟩ := h.move env.now hm
  rw [redisReply_fst, hanswer] at hreply
  refine ⟨?_, by rw [hw]; exact hnext⟩
  unfold answer at hreply
  split at hreply
  next reply' hr => cases hreply; exact hr
  next => cases hreply

/-! ### Attempts among others -/

/-- A flow while the queue advances: it leaves the user in line, and its results satisfy `Q`. -/
abbrev Queues {α : Type} (e u : String) (C : World → AppOp → Prop) (Q : α → World → Prop) (p : Flow α) (w : World) :
    Prop :=
  p.Sat (Advances e u) (Steps C) (fun w op _ => SparesOp e u w op) (onOk Q) w

def Advancing (e u : String) (I : World → Prop) : Prop := ∀ a b, Advances e u a b → I a → I b

variable {C : World → AppOp → Prop}

theorem steps_advances {op : AppOp} {x : Except Error op.Res} (h : Steps C w op x w')
    (hop : SparesOp e u w op) : Advances e u w w' := by
  obtain ⟨_, env, he⟩ := h
  have hw : w' = (appStep env w op).2 := by rw [he]
  rw [hw]
  exact appStep_advances env w hop

theorem queues_calls {α : Type} {p : Flow α} (hp : p.Calls (CalmOp e)) (w : World) :
    Queues e u C (fun _ _ => True) p w := by
  have hsat : p.Sat (Advances e u) (Steps C) (fun w op _ => SparesOp e u w op) (fun _ _ => True) w := by
    refine hp.sat (fun _ _ _ _ => trivial) ?_ trivial
    rintro s op x s' hop ht _
    exact ⟨hop.spares s, trivial⟩
  refine hsat.mono fun x w' _ => ?_
  cases x <;> trivial

/-- What a command is told, with the line as it is then. -/
def Informs (e : String) (m : Line.Move String) (R : Line String → Prop) (Q : Reply → World → Prop) : Prop :=
  ∀ l reply w', R l → resultReply (lineResult (l.act m).1) = .ok reply → Holds w'.redis e (l.act m).2 → Q reply w'

theorem queues_command {tokens : List String} {m : Line.Move String} {R : Line String → Prop} {Q : Reply → World → Prop}
    (hcalm : Calm e tokens) (hm : queueMove e tokens = some m) (hR : Advancing e u (Lined e R))
    (hQ : ∀ reply, Advancing e u (Q reply)) (hinforms : Informs e m R Q) (hw : Lined e R w) :
    Queues e u C Q (Orchestrator.execute tokens) w := by
  intro w₁ h₁ x w₂ ht
  refine ⟨hcalm.spares w₁.redis, ?_⟩
  cases x with
  | error err => exact fun _ _ => trivial
  | ok reply =>
      obtain ⟨l, hl, hr⟩ := hR _ _ h₁ hw
      obtain ⟨_, env, he⟩ := ht
      obtain ⟨hreply, hnext⟩ := appStep_told hl hm he
      exact fun w₃ h₃ => hQ reply _ _ h₃ (hinforms l reply w₂ hr hreply hnext)

/-! ### Requests -/

/-- What runs against Redis beside the database: visits to the app server, its queue calls, and other clients. -/
inductive Request
  | visit (visit : Visit)
  | joinQueue (eventId userId : String)
  | queuePosition (eventId userId : String)
  | leaveQueue (eventId userId : String)
  | peekQueue (eventId : String)
  | command (tokens : List String)

inductive Response
  | visited (answer : Answer)
  | joined (result : QueueJoinResult)
  | position (result : QueuePositionResult)
  | left (result : QueueLeaveResult)
  | front (result : QueueFrontResult)
  | replied (reply : Reply)

def Request.flow : Request → Flow Response
  | .visit v => do return .visited (← v.flow)
  | .joinQueue eventId userId => do return .joined (← Orchestrator.joinQueue eventId userId)
  | .queuePosition eventId userId => do return .position (← Orchestrator.queuePosition eventId userId)
  | .leaveQueue eventId userId => do return .left (← Orchestrator.leaveQueue eventId userId)
  | .peekQueue eventId => do return .front (← Orchestrator.peekQueue eventId)
  | .command tokens => do return .replied (← Orchestrator.execute tokens)

/-- The request takes its next step without taking the user out of the queue of the event or writing over its key. -/
def Request.Spares (eventId userId : String) (redis : Storage.Store) : Request → Prop
  | .leaveQueue e u => ¬ TakesOut eventId userId redis ["LEAVE_QUEUE", e, u]
  | .command tokens => AppServer.Spares eventId userId redis tokens
  | _ => True

instance (eventId userId : String) (redis : Storage.Store) :
    (request : Request) → Decidable (request.Spares eventId userId redis)
  | .leaveQueue _ _ => inferInstanceAs (Decidable (¬ _))
  | .command _ => inferInstanceAs (Decidable (AppServer.Spares ..))
  | .visit _ => .isTrue trivial
  | .joinQueue _ _ => .isTrue trivial
  | .queuePosition _ _ => .isTrue trivial
  | .peekQueue _ => .isTrue trivial

/-- The place in the queue of the event that a request has been told for the user. -/
def Request.place (eventId userId : String) : Request → Response → Option Int
  | .joinQueue e u, .joined result => if e = eventId ∧ u = userId then some result.position else none
  | .queuePosition e u, .position result => if e = eventId ∧ u = userId then some result.position else none
  | _, _ => none

theorem calm_seat {tokens : List String}
    (h : ∀ x ∈ target tokens, x.name ∉ [.set, .del, .expire] ∧ ∃ a b, x.key = Storage.seatKey a b) : Calm e tokens := by
  have hnone (m : Line.Move String) : queueMove e tokens ≠ some m := by
    intro hm
    obtain ⟨r, hp, hr⟩ := queueMove_eq.mp hm
    obtain ⟨-, a, b, hkey⟩ := h _ (parseCommand_target hp)
    exact Storage.queueKey_ne_seatKey _ _ _ ((queueMove_target hr).2.symm.trans hkey)
  exact ⟨fun x hx hname => absurd hname (h x hx).1, fun v => hnone _, hnone _⟩

theorem sparesQueues_queue {tokens : List String} {r : Commands.Request} {a : String} {m : Line.Move String}
    (hp : parseCommand tokens = .ok r) (hr : r.queueMove = some (a, m)) : SparesQueues tokens := by
  intro x hx hname
  rw [parseCommand_target hp] at hx
  cases hx
  cases r <;> cases hr <;> simp [Commands.Request.target] at hname

theorem calm_queue {tokens : List String} {r : Commands.Request} {a : String} {m : Line.Move String}
    (hp : parseCommand tokens = .ok r) (hr : r.queueMove = some (a, m)) (hleave : ∀ v, m ≠ .leave v) (hpop : m ≠ .pop) :
    Calm e tokens := by
  have hmove {m' : Line.Move String} (h : queueMove e tokens = some m') : m' = m := by
    obtain ⟨r', hp', hr'⟩ := queueMove_eq.mp h
    cases hp.symm.trans hp'
    cases hr.symm.trans hr'
    rfl
  exact ⟨sparesQueues_queue hp hr, fun v h => hleave v (hmove h).symm, fun h => hpop (hmove h).symm⟩

theorem basic_calm : Basic (CalmOp e) where
  uuid4 := trivial
  now := trivial
  db _ := trivial
  seatStatus a b := calm_seat fun x hx => by
    cases hx
    exact ⟨by simp, a, b, rfl⟩

theorem calls_flow {P : AppOp → Prop} (h : Basic P) (hreserve : ∀ e s u n, P (.redis ["RESERVE_SEAT", e, s, u, n]))
    (hrelease : ∀ e s u, P (.redis ["RELEASE_SEAT", e, s, u]))
    (hforce : ∀ e s u, P (.redis ["FORCE_CONFIRM_SEAT", e, s, u])) (call : AppCall) : call.flow.Calls P := by
  cases call with
  | holdReservation e s u n =>
      exact (calls_holdReservation h.usual (hrelease e s u) (hreserve e s u) n).bind fun _ => trivial
  | confirmReservation id e s u => exact (calls_confirmReservation h (hforce e s u) id).bind fun _ => trivial
  | cancelReservation id e s u => exact (calls_cancelReservation h.usual id (hrelease e s u)).bind fun _ => trivial
  | runOnce limit => exact (calls_runOnce h.usual hrelease hforce limit).bind fun _ => trivial
  | purchaseSeat e s u n =>
      refine Calls.bind ((calls_holdReservation h.usual (hrelease e s u) (hreserve e s u) n).bind fun hold => ?_)
        fun _ => trivial
      refine Calls.bind (Calls.tryCatch (calls_confirmReservation h (hforce e s u) _) fun _ => ?_) fun _ => trivial
      exact (calls_safeCancel h.usual _ (hrelease e s u)).bind fun _ => trivial

theorem calls_viewSeats {P : AppOp → Prop} (h : Usual P) (e : String) (rows : List (TicketingApi.SeatRecord ℚ)) :
    (Orchestrator.viewSeats e rows).Calls P := by
  induction rows with
  | nil => trivial
  | cons row rows ih => exact (calls_seatStatus h.seatStatus e _).bind fun _ => ih.bind fun _ => trivial

theorem calls_visit (visit : Visit) : visit.flow.Calls (CalmOp e) := by
  have calm {tokens : List String} (h : ∀ x ∈ target tokens, x.name ∉ [.set, .del, .expire] ∧
      ∃ a b, x.key = Storage.seatKey a b) : CalmOp e (.redis tokens) := calm_seat h
  cases visit with
  | call c =>
      refine Calls.bind (calls_flow basic_calm ?_ ?_ ?_ c) fun _ => trivial
      · exact fun a b _ _ => calm fun x hx => by cases hx; exact ⟨by simp, a, b, rfl⟩
      · exact fun a b _ => calm fun x hx => by cases hx; exact ⟨by simp, a, b, rfl⟩
      · exact fun a b _ => calm fun x hx => by cases hx; exact ⟨by simp, a, b, rfl⟩
  | listEventSeats a =>
      have hdb : (Orchestrator.db (.listEventSeats a)).Calls (CalmOp e) := calls_db basic_calm.usual trivial
      exact Calls.bind (hdb.bind fun rows => calls_viewSeats basic_calm.usual a rows) fun _ => trivial
  | getEventSeat a b => exact (calls_getEventSeat basic_calm.usual a b).bind fun _ => trivial

theorem calm_join (a v : String) : Calm e ["JOIN_QUEUE", a, v] :=
  calm_queue (r := .joinQueue a v) rfl rfl (by simp) (by simp)

theorem calm_position (a v : String) : Calm e ["QUEUE_POSITION", a, v] :=
  calm_queue (r := .queuePosition a v) rfl rfl (by simp) (by simp)

theorem calm_peek (a : String) : Calm e ["PEEK_QUEUE", a] :=
  calm_queue (r := .peekQueue a) rfl rfl (by simp) (by simp)

/-! ### Places among other requests -/

/-- What a request is told of the user that begins where `R` is true of the line. -/
def Placed (e u : String) (known : Option Int) (place : Option Int) (w : World) : Prop :=
  ∀ p ∈ place, (1 ≤ p → Lined e (StandsBy u p) w) ∧ ∀ q ∈ known, 1 ≤ p ∧ p ≤ q

def Begun (u : String) (known : Option Int) (l : Line String) : Prop := ∀ q ∈ known, StandsBy u q l

theorem advancing_begun (known : Option Int) : Advancing e u (Lined e (Begun u known)) := by
  intro a b ho h
  cases known with
  | none =>
      obtain ⟨l, hl, -⟩ := h
      obtain ⟨l', hl', -⟩ := ho.lined ⟨l, hl, trivial⟩
      exact ⟨l', hl', nofun⟩
  | some q =>
      obtain ⟨l, hl, hq⟩ := h
      obtain ⟨l', hl', hq'⟩ := ho.place q ⟨l, hl, hq q rfl⟩
      refine ⟨l', hl', fun q' hmem => ?_⟩
      cases hmem
      exact hq'

theorem advancing_placed (known place : Option Int) : Advancing e u (Placed e u known place) :=
  fun _ _ ho h p hp => ⟨fun h1 => ho.place p ((h p hp).1 h1), (h p hp).2⟩

/-- A place that the line itself gives. -/
theorem placed_line {known : Option Int} {p : Int} (hl : Holds w.redis e l) (hmem : u ∈ l.members)
    (hidx : (l.members.idxOf u + 1 : Int) = p) (hbegun : Begun u known l) : Placed e u known (some p) w := by
  intro p' hp'
  cases hp'
  refine ⟨fun _ => ⟨l, hl, hmem, hidx.le⟩, fun q hq => ⟨?_, ?_⟩⟩
  · omega
  · have := (hbegun q hq).2
    omega

theorem informs_join (known : Option Int) : Informs e (.join u) (Begun u known) fun reply w' =>
    ∀ result, decodeQueueJoin reply = .ok result → Placed e u known (some result.position) w' := by
  intro l reply w' hbegun hreply hnext result hresult
  have hgone : Line.gone (.join u, (l.act (.join u)).1) ≠ some u := by
    simp only [Line.act]
    split <;> simp [Line.gone]
  have hbegun' : Begun u known (l.act (.join u)).2 := fun q hq => (hbegun q hq).act hgone
  simp only [Line.act] at hreply hnext hbegun'
  split at hreply
  next hu =>
    rw [dif_pos hu] at hnext hbegun'
    cases (decodeQueueJoin_line hreply).symm.trans hresult
    exact placed_line hnext hu (by push_cast; rfl) hbegun'
  next hu =>
    rw [dif_neg hu] at hnext hbegun'
    cases (decodeQueueJoin_line hreply).symm.trans hresult
    refine placed_line hnext (List.mem_append_right _ List.mem_cons_self) ?_ hbegun'
    rw [Line.enter, List.idxOf_append_of_notMem hu, List.idxOf_cons_self]
    push_cast
    rfl

theorem informs_position (known : Option Int) : Informs e (.position u) (Begun u known) fun reply w' =>
    ∀ result, decodeQueuePosition reply = .ok result → Placed e u known (some result.position) w' := by
  intro l reply w' hbegun hreply hnext result hresult
  simp only [Line.act] at hreply hnext
  cases (decodeQueuePosition_line hreply).symm.trans hresult
  by_cases hu : u ∈ l.members
  · rw [Line.rank, if_pos hu]
    exact placed_line hnext hu (by simp) hbegun
  · rw [Line.rank, if_neg hu]
    intro p hp
    cases hp
    exact ⟨fun h => by simp at h, fun q hq => absurd (hbegun q hq).1 hu⟩

/-- A queue call is one command, and what its reply says. -/
theorem queues_ask {α : Type} {tokens : List String} {m : Line.Move String} {decode : Reply → Except Error α}
    {f : α → Response} {known : Option Int} {place : α → Option Int} (hcalm : Calm e tokens)
    (hm : queueMove e tokens = some m)
    (hinforms : Informs e m (Begun u known) fun reply w' => ∀ a, decode reply = .ok a → Placed e u known (place a) w')
    (hw : Lined e (Begun u known) w) {told : Response → Option Int} (htold : ∀ a, told (f a) = place a) :
    Queues e u C (fun response w' => Placed e u known (told response) w')
      ((Orchestrator.execute tokens >>= fun reply => Program.ofExcept (decode reply)) >>= fun a => pure (f a)) w := by
  have hstable (reply : Reply) : Advancing e u fun w' => ∀ a, decode reply = .ok a → Placed e u known (place a) w' :=
    fun _ _ ho h a ha => advancing_placed known (place a) _ _ ho (h a ha)
  refine Sat.seq (Q := fun a w' => Placed e u known (place a) w') Advances.refl ?_ fun a w' h => ?_
  · refine Sat.seq Advances.refl (queues_command hcalm hm (advancing_begun known) hstable hinforms hw)
      fun reply w' h => ?_
    cases hd : decode reply with
    | error err => exact fun _ _ => trivial
    | ok a => exact fun w'' ho => advancing_placed known (place a) _ _ ho (h a hd)
  · intro w'' ho
    show Placed e u known (told (f a)) w''
    rw [htold]
    exact advancing_placed known (place a) _ _ ho h

/-- A command that spares the user, where it is sent. -/
theorem queues_spared {tokens : List String} (hC : ∀ w, C w (.redis tokens) → Spares e u w.redis tokens) (w : World) :
    Queues e u C (fun _ _ => True) (Orchestrator.execute tokens) w := by
  rintro w₁ - x w₂ ⟨hc, -⟩
  refine ⟨hC w₁ hc, ?_⟩
  cases x <;> exact fun _ _ => trivial

theorem calls_calm {tokens : List String} (h : Calm e tokens) : (Orchestrator.execute tokens).Calls (CalmOp e) :=
  Calls.invoke h

theorem queues_request (request : Request) (known : Option Int) (hw : Lined e (Begun u known) w) :
    Queues e u (fun w _ => request.Spares e u w.redis)
      (fun response w' => Placed e u known (request.place e u response) w') request.flow w := by
  have silent (hplace : ∀ response, request.place e u response = none)
      (h : Queues e u (fun w _ => request.Spares e u w.redis) (fun _ _ => True) request.flow w) :
      Queues e u (fun w _ => request.Spares e u w.redis)
        (fun response w' => Placed e u known (request.place e u response) w') request.flow w := by
    refine h.mono fun x w' _ => ?_
    cases x with
    | error err => trivial
    | ok response =>
        intro p hp
        rw [hplace response] at hp
        cases hp
  cases request with
  | visit v =>
      have hcalls : (Request.visit v).flow.Calls (CalmOp e) := (calls_visit v).bind fun _ => trivial
      exact silent (fun _ => rfl) (queues_calls hcalls w)
  | peekQueue a =>
      have hcalls : (Request.peekQueue a).flow.Calls (CalmOp e) :=
        Calls.bind ((calls_calm (calm_peek a)).bind fun _ => Calls.ofExcept _ _) fun _ => trivial
      exact silent (fun _ => rfl) (queues_calls hcalls w)
  | command tokens =>
      refine silent (fun _ => rfl) ?_
      exact Sat.seq Advances.refl (queues_spared (fun _ hc => hc) w) fun _ _ _ _ _ => trivial
  | leaveQueue a v =>
      have hspares : SparesQueues ["LEAVE_QUEUE", a, v] := sparesQueues_queue (r := .leaveQueue a v) rfl rfl
      refine silent (fun _ => rfl) (Sat.seq (Q := fun _ _ => True) Advances.refl ?_ fun _ _ _ _ _ => trivial)
      refine Sat.seq Advances.refl (queues_spared (fun _ hc => ⟨hspares, hc⟩) w) fun reply _ _ => ?_
      cases decodeQueueLeave reply <;> exact fun _ _ => trivial
  | joinQueue a v =>
      by_cases hav : a = e ∧ v = u
      · obtain ⟨rfl, rfl⟩ := hav
        have hm : queueMove a ["JOIN_QUEUE", a, v] = some (.join v) :=
          queueMove_eq.mpr ⟨.joinQueue a v, rfl, rfl⟩
        exact queues_ask (calm_join a v) hm (informs_join known) hw fun result => by simp [Request.place]
      · have hcalls : (Request.joinQueue a v).flow.Calls (CalmOp e) :=
          Calls.bind ((calls_calm (calm_join a v)).bind fun _ => Calls.ofExcept _ _) fun _ => trivial
        refine silent (fun response => ?_) (queues_calls hcalls w)
        cases response <;> simp [Request.place, hav]
  | queuePosition a v =>
      by_cases hav : a = e ∧ v = u
      · obtain ⟨rfl, rfl⟩ := hav
        have hm : queueMove a ["QUEUE_POSITION", a, v] = some (.position v) :=
          queueMove_eq.mpr ⟨.queuePosition a v, rfl, rfl⟩
        exact queues_ask (calm_position a v) hm (informs_position known) hw fun result => by simp [Request.place]
      · have hcalls : (Request.queuePosition a v).flow.Calls (CalmOp e) :=
          Calls.bind ((calls_calm (calm_position a v)).bind fun _ => Calls.ofExcept _ _) fun _ => trivial
        refine silent (fun response => ?_) (queues_calls hcalls w)
        cases response <;> simp [Request.place, hav]

theorem queues_resend (request : Request) (known : Option Int) (hw : Lined e (Begun u known) w) :
    Queues e u (fun w _ => request.Spares e u w.redis)
      (fun response w' => Placed e u known (request.place e u response) w') (request.flow.expand resend) w :=
  Sat.expand Advances.refl Advances.trans (refines_resend Advances.trans fun _ _ _ _ => steps_advances)
    (queues_request request known hw)

/-! ### Runs -/

variable {ι : Type} [DecidableEq ι]

abbrev Served (ι : Type) := Pool ι World AppOp AppOp.Res Error Response

def served (w : World) (requests : ι → Request) : Served ι := ⟨w, fun i => (requests i).flow.expand resend⟩

/-- The turn's request does not take the user out of the queue as it stands then. -/
def LeavesInLine (e u : String) (requests : ι → Request) (c : Served ι) (t : ι × Env) : Prop :=
  ∀ op, c.nextOp t.1 = some op → (requests t.1).Spares e u c.state.redis

instance (e u : String) (requests : ι → Request) (c : Served ι) (t : ι × Env) :
    Decidable (LeavesInLine e u requests c t) :=
  inferInstanceAs (Decidable (∀ op ∈ c.nextOp t.1, (requests t.1).Spares e u c.state.redis))

section Runs

variable {requests : ι → Request} {c : Served ι} {ts : List (ι × Env)}

theorem served_run {P : ι → Response → World → Prop} (h : Pool.Throughout appStep (LeavesInLine e u requests) c ts)
    (hc : ∀ i, Queues e u (fun w _ => (requests i).Spares e u w.redis) (P i) (c.threads i) c.state) :
    Advances e u c.state (c.runs appStep ts).state ∧
      ∀ i, Queues e u (fun w _ => (requests i).Spares e u w.redis) (P i) ((c.runs appStep ts).threads i)
        (c.runs appStep ts).state :=
  Pool.runs_sat Advances.refl Advances.trans (fun _ _ _ _ _ => steps_advances)
    (h.mono fun _ t ht op hop => ⟨ht op hop, t.2, rfl⟩) hc

end Runs

/-- The reply of the second user's first attempt is lost, and the user in front is popped. -/
def joinAgain : Fin 4 → Request
  | 0 => .joinQueue "e" "u"
  | 1 => .joinQueue "e" "v"
  | 2 => .command ["POP_QUEUE", "e"]
  | 3 => .queuePosition "e" "v"

def joins : List (Fin 4 × Env) :=
  [(0, ⟨0, "", .none⟩), (1, ⟨1, "", .fail true ⟨.osError, "timed out"⟩⟩), (1, ⟨2, "", .none⟩)]

def looksUp : List (Fin 4 × Env) := [(2, ⟨3, "", .none⟩), (3, ⟨4, "", .none⟩)]

/-- What a request has been told of the second user's place. -/
def secondPlace (request : Request) : Flow Response → Option Int
  | .ret response => request.place "e" "v" response
  | _ => none

end Ticketing.AppServer
