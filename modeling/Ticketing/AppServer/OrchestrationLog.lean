import Ticketing.AppServer.Attempts

namespace Ticketing.AppServer

open Python Interaction
open Interaction.Program (Handler both lift Deaf erase alongside erase_expand)

/-! ### `OrchestrationLogStore` -/

structure OrchestrationLogEntry where
  timestamp : ℚ
  source : String
  target : String
  action : String
  status : String
  eventId : Option String
  seatId : Option String
  userId : Option String
  detail : Option String
  deriving DecidableEq

/-- The length that the deque of the app keeps to. -/
def logLimit : Nat := 200

/-- The deque, newest entry first. `recorded` and `cleared` are history: what has been recorded since
the last `clear`, and before it. -/
structure OrchestrationLogStore where
  entries : List OrchestrationLogEntry
  recorded : List OrchestrationLogEntry
  cleared : List OrchestrationLogEntry
  newest : entries = recorded.take logLimit

namespace OrchestrationLogStore

def empty : OrchestrationLogStore := ⟨[], [], [], rfl⟩

/-- `appendleft` drops at the other end. -/
def record (entry : OrchestrationLogEntry) (log : OrchestrationLogStore) : OrchestrationLogStore where
  entries := (entry :: log.entries).take logLimit
  recorded := entry :: log.recorded
  cleared := log.cleared
  newest := by
    rw [log.newest, logLimit, List.take_succ_cons, List.take_succ_cons, List.take_take]
    rfl

def clear (log : OrchestrationLogStore) : OrchestrationLogStore := ⟨[], [], log.recorded ++ log.cleared, rfl⟩

/-- `list(...)[:limit]`; a negative bound counts from the end. -/
def listEntries (limit : Int) (log : OrchestrationLogStore) : List OrchestrationLogEntry :=
  if 0 ≤ limit then log.entries.take limit.toNat
  else log.entries.take (log.entries.length - (-limit).toNat)

/-- What the route lists. -/
def listed (limit : Int) (log : OrchestrationLogStore) : List OrchestrationLogEntry :=
  log.listEntries (max 1 (min limit 120))

/-- The route lists the newest entries, and as many as it is asked for within its bounds. -/
theorem listed_eq (limit : Int) (log : OrchestrationLogStore) :
    log.listed limit = log.recorded.take (max 1 (min limit 120)).toNat := by
  have hle : max 1 (min limit 120) ≤ 120 := by omega
  rw [listed, listEntries, if_pos (by omega), log.newest, List.take_take, logLimit]
  congr 1
  omega

end OrchestrationLogStore

/-! ### The app server with its log -/

inductive LogOp
  | now
  | record (entry : OrchestrationLogEntry)
  | clear

abbrev LogOp.Res : LogOp → Type
  | .now => ℚ
  | .record _ => Unit
  | .clear => Unit

def logStep (env : Env) (log : OrchestrationLogStore) : (op : LogOp) → op.Res × OrchestrationLogStore
  | .now => (env.now, log)
  | .record entry => ((), log.record entry)
  | .clear => ((), log.clear)

abbrev Traced (α : Type) := Program (AppOp ⊕ LogOp) (Both AppOp.Res LogOp.Res) Error α

def tracedStep : Handler Env (World × OrchestrationLogStore) (AppOp ⊕ LogOp) (Both AppOp.Res LogOp.Res) Error :=
  both appStep logStep

def log (op : LogOp) : Traced op.Res := Program.invoke (Sum.inr op)

namespace TracedOrchestrator

open Orchestrator (HoldResult ConfirmResult CancelResult uuid4 currentTime db seatStatus reserveSeat forceConfirmSeat
  releaseSeat findEventSeat getEventSeat seatConflictMessage buildMockPayment addSeconds redisConfirmRetryAttempts)

def trace (target action status : String) (eventId seatId userId detail : Option String) : Traced Unit := do
  let timestamp ← log .now
  log (.record ⟨timestamp, "APP", target, action, status, eventId, seatId, userId, detail⟩)

def safeRelease (eventId seatId userId : String) : Traced Unit :=
  let trace := fun status detail => trace "REDIS" "RELEASE_SEAT" status (some eventId) (some seatId) (some userId) detail
  tryCatch (do
    trace "START" none
    let status ← lift (seatStatus eventId seatId)
    if status.state = "HELD" ∧ status.userId = some userId then
      let _ ← lift (releaseSeat eventId seatId userId)
      trace "SUCCESS" none
    else trace "SKIP" (some ("state=" ++ status.state))) (fun _ => trace "FAIL" none)

def safeExpire (reservationId : String) : Traced Unit :=
  let trace := fun status => trace "DB" "EXPIRE_RESERVATION" status none none none (some reservationId)
  tryCatch (do
    trace "START"
    let _ ← lift (db (.expireReservation reservationId))
    trace "SUCCESS") (fun _ => trace "FAIL")

def safeCancel (reservationId eventId seatId userId : String) : Traced Unit := do
  tryCatch (do
    let _ ← lift (db (.cancelReservation reservationId))
    return ()) (fun _ => return ())
  safeRelease eventId seatId userId

def finalizeAttempts (eventId seatId userId : String) : Nat → Option Error → Traced SeatCommandResult
  | 0, lastError => throw (lastError.getD ⟨.upstreamError, "Redis did not finalize the confirmed seat"⟩)
  | attempts + 1, _ => do
    let trace := fun status detail =>
      trace "REDIS" "FORCE_CONFIRM_SEAT" status (some eventId) (some seatId) (some userId) detail
    let result ← tryCatch (do
        trace "START" none
        return Except.ok (← lift (forceConfirmSeat eventId seatId userId)))
      (fun e =>
        if e.kind = .upstreamError then do
          trace "FAIL" (some e.message)
          return Except.error e
        else throw e)
    match result with
    | .error e => finalizeAttempts eventId seatId userId attempts (some e)
    | .ok result =>
      if result.state = "CONFIRMED" ∧ result.userId = some userId then do
        trace "SUCCESS" none
        return result
      else do
        trace "FAIL" (some ("state=" ++ result.state))
        finalizeAttempts eventId seatId userId attempts (some ⟨.upstreamError,
          "Redis returned an unexpected seat state during confirmation finalization"⟩)

def finalizeConfirmedSeat (eventId seatId userId : String) : Traced SeatCommandResult :=
  finalizeAttempts eventId seatId userId redisConfirmRetryAttempts none

def holdReservation (eventId seatId userId : String) (holdSeconds : Int) : Traced HoldResult := do
  let trace := fun target action status detail =>
    trace target action status (some eventId) (some seatId) (some userId) detail
  let _ ← lift (findEventSeat eventId seatId)
  trace "REDIS" "RESERVE_SEAT" "START" none
  let reserved ← lift (reserveSeat eventId seatId userId holdSeconds)
  if ¬ reserved.success then do
    trace "REDIS" "RESERVE_SEAT" "FAIL" (some (seatConflictMessage reserved userId))
    throw ⟨.conflictError, seatConflictMessage reserved userId⟩
  else
    trace "REDIS" "RESERVE_SEAT" "SUCCESS" (some ("ttl=" ++ toString reserved.ttl))
    let reservationId := "res-" ++ (← lift uuid4)
    let holdToken := "hold-" ++ (← lift uuid4)
    let expiresAt ← lift (Program.ofExcept (addSeconds (← lift currentTime) holdSeconds))
    let created ← tryCatch (do
        trace "DB" "CREATE_HELD" "START" (some reservationId)
        lift (db (.createHeldReservation ⟨reservationId, eventId, seatId, userId, holdToken, expiresAt⟩)))
      (fun e => do
        trace "DB" "CREATE_HELD" "FAIL" (some reservationId)
        safeRelease eventId seatId userId
        throw e)
    trace "DB" "CREATE_HELD" "SUCCESS" (some created.1.reservation.reservationId)
    return ⟨created.1, ← lift (getEventSeat eventId seatId), created.2⟩

def confirmReservation (reservationId eventId seatId userId : String) : Traced ConfirmResult := do
  let trace := fun target action status detail =>
    trace target action status (some eventId) (some seatId) (some userId) detail
  let seat ← lift (findEventSeat eventId seatId)
  trace "REDIS" "SEAT_STATUS" "START" none
  let status ← lift (seatStatus eventId seatId)
  trace "REDIS" "SEAT_STATUS" "SUCCESS" (some ("state=" ++ status.state))
  if status.state = "AVAILABLE" then
    safeExpire reservationId
    throw ⟨.conflictError, "seat hold has already expired"⟩
  else if status.userId ≠ some userId then throw ⟨.conflictError, "seat is held by another user"⟩
  else if status.state ≠ "HELD" then
    throw ⟨.conflictError, "seat cannot be confirmed from state " ++ status.state⟩
  else
    let payment ← lift (buildMockPayment seat.seat.price)
    trace "PAYMENT" "MOCK_APPROVE" "SUCCESS" (some payment.paymentId)
    trace "DB" "CONFIRM_RESERVATION" "START" (some reservationId)
    let reservation ← lift (db (.confirmReservation reservationId
      ⟨payment.paymentId, payment.amount, payment.provider, payment.providerRef⟩))
    trace "DB" "CONFIRM_RESERVATION" "SUCCESS" (some reservationId)
    let result ← finalizeConfirmedSeat eventId seatId userId
    if result.state ≠ "CONFIRMED" ∨ result.userId ≠ some userId then
      throw ⟨.upstreamError, "DB confirmed the reservation but Redis could not finalize the seat"⟩
    else return ⟨reservation, ← lift (getEventSeat eventId seatId), payment⟩

def cancelReservation (reservationId eventId seatId userId : String) : Traced CancelResult := do
  let trace := fun status =>
    trace "DB" "CANCEL_RESERVATION" status (some eventId) (some seatId) (some userId) (some reservationId)
  trace "START"
  let reservation ← lift (db (.cancelReservation reservationId))
  trace "SUCCESS"
  safeRelease eventId seatId userId
  return ⟨reservation, ← lift (getEventSeat eventId seatId)⟩

def purchaseSeat (eventId seatId userId : String) (holdSeconds : Int) : Traced (ConfirmResult × Bool) := do
  let hold ← holdReservation eventId seatId userId holdSeconds
  let reservationId := hold.reservation.reservation.reservationId
  let confirmed ← tryCatch (confirmReservation reservationId eventId seatId userId)
    (fun e => do
      safeCancel reservationId eventId seatId userId
      throw e)
  return (confirmed, hold.created)

/-! ### Without the log -/

/-- Answers that the erased programs do not hear. -/
def answer : (op : LogOp) → op.Res
  | .now => 0
  | .record _ => ()
  | .clear => ()

variable {target action status : String} {eventId seatId userId detail : Option String}

@[simp] theorem erase_trace : (trace target action status eventId seatId userId detail).erase answer = .ret () := rfl

theorem deaf_trace : (trace target action status eventId seatId userId detail).Deaf answer :=
  fun _ => ⟨fun _ => ⟨trivial, rfl⟩, rfl⟩

section Erasure

variable (reservationId e s u : String) (n : Int)

theorem erase_safeRelease : (safeRelease e s u).erase answer = Orchestrator.safeRelease e s u := by
  simp only [safeRelease, Orchestrator.safeRelease, Program.erase_tryCatch, Program.erase_bind, erase_trace,
    Program.erase_lift, Program.bind_ret, apply_ite (Program.erase answer)]
  rfl

theorem erase_safeExpire : (safeExpire reservationId).erase answer = Orchestrator.safeExpire reservationId := by
  simp only [safeExpire, Orchestrator.safeExpire, Program.erase_tryCatch, Program.erase_bind, erase_trace,
    Program.erase_lift, Program.bind_ret]
  rfl

theorem erase_safeCancel :
    (safeCancel reservationId e s u).erase answer = Orchestrator.safeCancel reservationId e s u := by
  simp only [safeCancel, Orchestrator.safeCancel, Program.erase_tryCatch, Program.erase_bind, Program.erase_lift,
    erase_safeRelease]
  rfl

theorem erase_finalizeAttempts (attempts : Nat) (lastError : Option Error) :
    (finalizeAttempts e s u attempts lastError).erase answer =
      Orchestrator.finalizeAttempts e s u attempts lastError := by
  induction attempts generalizing lastError with
  | zero => rfl
  | succ attempts ih =>
      simp only [finalizeAttempts, Orchestrator.finalizeAttempts, Program.erase_bind, Program.erase_tryCatch,
        erase_trace, Program.bind_ret, Program.erase_lift, apply_ite (Program.erase answer)]
      congr 1
      funext result
      cases result with
      | error x => exact ih _
      | ok result =>
          simp only [apply_ite (Program.erase answer), Program.erase_bind, erase_trace, Program.bind_ret, ih]
          rfl

theorem erase_holdReservation : (holdReservation e s u n).erase answer = Orchestrator.holdReservation e s u n := by
  simp only [holdReservation, Orchestrator.holdReservation, Program.erase_bind, Program.erase_tryCatch, erase_trace,
    Program.bind_ret, Program.erase_lift, apply_ite (Program.erase answer), erase_safeRelease]
  rfl

theorem erase_confirmReservation :
    (confirmReservation reservationId e s u).erase answer = Orchestrator.confirmReservation reservationId e s u := by
  simp only [confirmReservation, Orchestrator.confirmReservation, Program.erase_bind, erase_trace, Program.bind_ret,
    Program.erase_lift, apply_ite (Program.erase answer), erase_safeExpire, finalizeConfirmedSeat,
    erase_finalizeAttempts]
  rfl

theorem erase_cancelReservation :
    (cancelReservation reservationId e s u).erase answer = Orchestrator.cancelReservation reservationId e s u := by
  simp only [cancelReservation, Orchestrator.cancelReservation, Program.erase_bind, erase_trace, Program.bind_ret,
    Program.erase_lift, erase_safeRelease]
  rfl

theorem erase_purchaseSeat : (purchaseSeat e s u n).erase answer = Orchestrator.purchaseSeat e s u n := by
  simp only [purchaseSeat, Orchestrator.purchaseSeat, Program.erase_bind, Program.erase_tryCatch,
    erase_holdReservation, erase_confirmReservation, erase_safeCancel]
  rfl

theorem deaf_safeRelease : (safeRelease e s u).Deaf answer := by
  refine Deaf.tryCatch (deaf_trace.bind fun _ => (Deaf.lift _).bind fun status => ?_) fun _ => deaf_trace
  split
  · exact (Deaf.lift _).bind fun _ => deaf_trace
  · exact deaf_trace

theorem deaf_safeExpire : (safeExpire reservationId).Deaf answer :=
  Deaf.tryCatch (deaf_trace.bind fun _ => (Deaf.lift _).bind fun _ => deaf_trace) fun _ => deaf_trace

theorem deaf_safeCancel : (safeCancel reservationId e s u).Deaf answer := by
  refine Deaf.bind (Deaf.tryCatch (Deaf.bind (Deaf.lift _) fun _ => ?_) fun _ => ?_) fun _ => deaf_safeRelease e s u
  · trivial
  · trivial

theorem deaf_finalizeAttempts (attempts : Nat) (lastError : Option Error) :
    (finalizeAttempts e s u attempts lastError).Deaf answer := by
  induction attempts generalizing lastError with
  | zero => trivial
  | succ attempts ih =>
      refine Deaf.bind (Deaf.tryCatch (deaf_trace.bind fun _ => (Deaf.lift _).bind fun _ => trivial) fun x => ?_)
        fun result => ?_
      · split
        · exact deaf_trace.bind fun _ => trivial
        · trivial
      · cases result with
        | error x => exact ih _
        | ok result =>
            dsimp only
            split
            · exact deaf_trace.bind fun _ => trivial
            · exact deaf_trace.bind fun _ => ih _

theorem deaf_holdReservation : (holdReservation e s u n).Deaf answer := by
  refine (Deaf.lift _).bind fun _ => deaf_trace.bind fun _ => (Deaf.lift _).bind fun reserved => ?_
  split
  · exact deaf_trace.bind fun _ => trivial
  refine deaf_trace.bind fun _ => (Deaf.lift _).bind fun _ => (Deaf.lift _).bind fun _ => (Deaf.lift _).bind fun _ =>
    (Deaf.lift _).bind fun _ => Deaf.bind ?_ fun _ => deaf_trace.bind fun _ => (Deaf.lift _).bind fun _ => trivial
  exact Deaf.tryCatch (deaf_trace.bind fun _ => Deaf.lift _) fun _ =>
    deaf_trace.bind fun _ => (deaf_safeRelease e s u).bind fun _ => trivial

theorem deaf_confirmReservation : (confirmReservation reservationId e s u).Deaf answer := by
  refine (Deaf.lift _).bind fun seat => deaf_trace.bind fun _ => (Deaf.lift _).bind fun status =>
    deaf_trace.bind fun _ => ?_
  split
  · exact (deaf_safeExpire reservationId).bind fun _ => trivial
  split
  · trivial
  split
  · trivial
  refine (Deaf.lift _).bind fun payment => deaf_trace.bind fun _ => deaf_trace.bind fun _ => (Deaf.lift _).bind fun _ =>
    deaf_trace.bind fun _ => (deaf_finalizeAttempts e s u _ _).bind fun result => ?_
  split
  · trivial
  · exact (Deaf.lift _).bind fun _ => trivial

theorem deaf_cancelReservation : (cancelReservation reservationId e s u).Deaf answer :=
  deaf_trace.bind fun _ => (Deaf.lift _).bind fun _ => deaf_trace.bind fun _ => (deaf_safeRelease e s u).bind fun _ =>
    (Deaf.lift _).bind fun _ => trivial

theorem deaf_purchaseSeat : (purchaseSeat e s u n).Deaf answer := by
  refine (deaf_holdReservation e s u n).bind fun hold => Deaf.bind ?_ fun _ => trivial
  exact Deaf.tryCatch (deaf_confirmReservation _ e s u) fun _ => (deaf_safeCancel _ e s u).bind fun _ => trivial

end Erasure

end TracedOrchestrator

/-! ### Requests -/

/-- What runs on the app server and on the stores behind it: the calls, and the route that clears the log. The
reconciler is a process of its own, with no log. -/
inductive TracedRequest
  | call (call : AppCall)
  | clearOrchestrationLogs

def tracedCall : AppCall → Traced AppResult
  | .holdReservation eventId seatId userId holdSeconds => do
    return .held (← TracedOrchestrator.holdReservation eventId seatId userId holdSeconds)
  | .confirmReservation reservationId eventId seatId userId => do
    return .confirmed (← TracedOrchestrator.confirmReservation reservationId eventId seatId userId)
  | .cancelReservation reservationId eventId seatId userId => do
    return .cancelled (← TracedOrchestrator.cancelReservation reservationId eventId seatId userId)
  | .purchaseSeat eventId seatId userId holdSeconds => do
    let result ← TracedOrchestrator.purchaseSeat eventId seatId userId holdSeconds
    return .purchased result.1 result.2
  | .runOnce limit => do
    return .reconciled (← lift (Reconciler.runOnce limit))

def TracedRequest.flow : TracedRequest → Traced (Option AppResult)
  | .call c => do return some (← tracedCall c)
  | .clearOrchestrationLogs => do
    log .clear
    return none

/-- A request on a server that keeps no log. -/
def TracedRequest.silent : TracedRequest → Flow (Option AppResult)
  | .call c => do return some (← c.flow)
  | .clearOrchestrationLogs => return none

open TracedOrchestrator in
theorem erase_flow (request : TracedRequest) : request.flow.erase TracedOrchestrator.answer = request.silent := by
  cases request with
  | clearOrchestrationLogs => rfl
  | call call =>
      have hcall : (tracedCall call).erase TracedOrchestrator.answer = call.flow := by
        cases call with
        | holdReservation e s u n => simp only [tracedCall, Program.erase_bind, erase_holdReservation]; rfl
        | confirmReservation id e s u => simp only [tracedCall, Program.erase_bind, erase_confirmReservation]; rfl
        | cancelReservation id e s u => simp only [tracedCall, Program.erase_bind, erase_cancelReservation]; rfl
        | purchaseSeat e s u n => simp only [tracedCall, Program.erase_bind, erase_purchaseSeat]; rfl
        | runOnce limit => simp only [tracedCall, Program.erase_bind, Program.erase_lift]; rfl
      simp only [TracedRequest.flow, TracedRequest.silent, Program.erase_bind, hcall]
      rfl

open TracedOrchestrator in
theorem deaf_flow (request : TracedRequest) : request.flow.Deaf TracedOrchestrator.answer := by
  cases request with
  | clearOrchestrationLogs => exact fun _ => ⟨trivial, rfl⟩
  | call call =>
      refine Deaf.bind ?_ fun _ => trivial
      cases call with
      | holdReservation e s u n => exact (deaf_holdReservation e s u n).bind fun _ => trivial
      | confirmReservation id e s u => exact (deaf_confirmReservation id e s u).bind fun _ => trivial
      | cancelReservation id e s u => exact (deaf_cancelReservation id e s u).bind fun _ => trivial
      | purchaseSeat e s u n => exact (deaf_purchaseSeat e s u n).bind fun _ => trivial
      | runOnce limit => exact (Deaf.lift _).bind fun _ => trivial

variable {ι : Type} [DecidableEq ι]

abbrev TracedFlows (ι : Type) :=
  Pool ι (World × OrchestrationLogStore) (AppOp ⊕ LogOp) (Both AppOp.Res LogOp.Res) Error (Option AppResult)

def startedTraced (w : World) (requests : ι → TracedRequest) : TracedFlows ι :=
  ⟨(w, OrchestrationLogStore.empty), fun i => (requests i).flow.expand (alongside resend)⟩

/-- The log changes nothing: what any requests do to the two stores, answer and raise with the log, in any order of
their steps and with any faults, they do without it in an order of the same steps. -/
theorem log_invisible (w : World) (requests : ι → TracedRequest) (ts : List (ι × Env)) : ∃ us, us.Sublist ts ∧
    let c := (startedTraced w requests).runs tracedStep ts
    let c' := Pool.runs appStep ⟨w, fun i => (requests i).silent.expand resend⟩ us
    c.state.1 = c'.state ∧ ∀ i, (∀ a, c.threads i = .ret a → c'.threads i = .ret a) ∧
      ∀ e, c.threads i = .raise e → c'.threads i = .raise e := by
  obtain ⟨us, hsub, hruns⟩ := Pool.runs_erase (h := appStep) (g := logStep) (c := startedTraced w requests)
    (fun i => (deaf_flow (requests i)).expand resend) ts
  have hstart : (startedTraced w requests).erase TracedOrchestrator.answer =
      ⟨w, fun i => (requests i).silent.expand resend⟩ :=
    congrArg (Pool.mk w) (funext fun i => (erase_expand resend _).trans (by rw [erase_flow]))
  rw [hstart] at hruns
  refine ⟨us, hsub, congrArg Pool.state hruns, fun i => ?_⟩
  have hthread := congrFun (congrArg Pool.threads hruns) i
  refine ⟨fun a ha => hthread.symm.trans ?_, fun e he => hthread.symm.trans ?_⟩
  · exact congrArg (Program.erase TracedOrchestrator.answer) ha
  · exact congrArg (Program.erase TracedOrchestrator.answer) he

end Ticketing.AppServer
