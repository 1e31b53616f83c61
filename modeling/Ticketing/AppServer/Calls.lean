import Ticketing.AppServer.Reconciler

namespace Ticketing.AppServer

open Interaction

/-- What runs against Redis and the DB: the operations of the app server, and the passes of the reconciler. -/
inductive AppCall
  | holdReservation (eventId seatId userId : String) (holdSeconds : Int)
  | confirmReservation (reservationId eventId seatId userId : String)
  | cancelReservation (reservationId eventId seatId userId : String)
  | purchaseSeat (eventId seatId userId : String) (holdSeconds : Int)
  | runOnce (limit : Int)

inductive AppResult
  | held (result : Orchestrator.HoldResult)
  | confirmed (result : Orchestrator.ConfirmResult)
  | cancelled (result : Orchestrator.CancelResult)
  | purchased (result : Orchestrator.ConfirmResult) (created : Bool)
  | reconciled (report : Reconciler.ReconciliationReport)

def AppCall.flow : AppCall → Flow AppResult
  | .holdReservation eventId seatId userId holdSeconds => do
    return .held (← Orchestrator.holdReservation eventId seatId userId holdSeconds)
  | .confirmReservation reservationId eventId seatId userId => do
    return .confirmed (← Orchestrator.confirmReservation reservationId eventId seatId userId)
  | .cancelReservation reservationId eventId seatId userId => do
    return .cancelled (← Orchestrator.cancelReservation reservationId eventId seatId userId)
  | .purchaseSeat eventId seatId userId holdSeconds => do
    let result ← Orchestrator.purchaseSeat eventId seatId userId holdSeconds
    return .purchased result.1 result.2
  | .runOnce limit => do
    return .reconciled (← Reconciler.runOnce limit)

theorem execute_bind {α β : Type} (tokens : List String) (decode : Reply → Except Python.Error β) (f : β → Flow α) :
    ((do Program.ofExcept (decode (← Orchestrator.execute tokens))) >>= f : Flow α) =
      .call (.redis tokens) (fun x => Program.ofExcept (x >>= decode) >>= f) := by
  rw [Program.bind_assoc, Orchestrator.execute, Program.invoke_bind]
  congr 1
  funext x
  cases x <;> rfl

/-! ### The operations that a flow calls -/

section Calls

open Orchestrator Reconciler
open Interaction.Program (Calls)

/-- The operations that every flow may call. -/
structure Basic (P : AppOp → Prop) : Prop where
  uuid4 : P .uuid4
  now : P .now
  db : ∀ call, P (.db call)
  seatStatus : ∀ e s, P (.redis ["SEAT_STATUS", e, s])

/-- The calls that neither confirm nor expire one row. -/
def Mild : DbCall → Prop
  | .confirmReservation .. => False
  | .expireReservation _ => False
  | _ => True

/-- The operations that every flow may call that neither confirms nor expires one row. -/
structure Usual (P : AppOp → Prop) : Prop where
  uuid4 : P .uuid4
  now : P .now
  db : ∀ call, Mild call → P (.db call)
  seatStatus : ∀ e s, P (.redis ["SEAT_STATUS", e, s])

variable {P : AppOp → Prop} {e s u : String}

theorem Basic.usual (h : Basic P) : Usual P := ⟨h.uuid4, h.now, fun call _ => h.db call, h.seatStatus⟩

theorem calls_releaseSeat (hrelease : P (.redis ["RELEASE_SEAT", e, s, u])) : (releaseSeat e s u).Calls P :=
  (Calls.invoke hrelease).bind fun _ => Calls.ofExcept P _

theorem calls_reserveSeat (hreserve : ∀ n, P (.redis ["RESERVE_SEAT", e, s, u, n])) (n : Int) :
    (reserveSeat e s u n).Calls P :=
  (Calls.ofExcept P _).bind fun _ => (Calls.invoke (hreserve _)).bind fun _ => Calls.ofExcept P _

theorem calls_forceConfirmSeat (hforce : P (.redis ["FORCE_CONFIRM_SEAT", e, s, u])) :
    (forceConfirmSeat e s u).Calls P :=
  (Calls.invoke hforce).bind fun _ => Calls.ofExcept P _

theorem calls_finalizeAttempts (hforce : P (.redis ["FORCE_CONFIRM_SEAT", e, s, u])) (attempts : Nat)
    (lastError : Option Python.Error) : (finalizeAttempts e s u attempts lastError).Calls P := by
  induction attempts generalizing lastError with
  | zero => trivial
  | succ attempts ih =>
      apply Calls.bind
      · apply Calls.tryCatch
        · exact (calls_forceConfirmSeat hforce).bind fun _ => trivial
        · intro x
          split <;> trivial
      · intro result
        cases result with
        | error x => exact ih _
        | ok result =>
            dsimp only
            split
            · trivial
            · exact ih _

theorem calls_safeExpire {id : String} (hexpire : P (.db (.expireReservation id))) : (safeExpire id).Calls P :=
  Calls.tryCatch ((Calls.invoke hexpire).bind fun _ => trivial) fun _ => trivial

section SeatStatus

variable (hstatus : ∀ e s, P (.redis ["SEAT_STATUS", e, s]))

include hstatus

theorem calls_seatStatus (e s : String) : (seatStatus e s).Calls P :=
  (Calls.invoke (hstatus e s)).bind fun _ => Calls.ofExcept P _

theorem calls_releaseExpired (r : TicketingApi.Reservation ℚ)
    (hrelease : P (.redis ["RELEASE_SEAT", r.eventId, r.seatId, r.userId])) (report : ReconciliationReport) :
    (releaseExpired r report).Calls P := by
  refine Calls.tryCatch ((calls_seatStatus hstatus _ _).bind fun status => ?_) fun _ => trivial
  split
  · exact (calls_releaseSeat hrelease).bind fun _ => trivial
  · trivial

theorem calls_releaseAll (hrelease : ∀ e s u, P (.redis ["RELEASE_SEAT", e, s, u]))
    (records : List (Option (TicketingApi.ReservationRecord ℚ))) (report : ReconciliationReport) :
    (releaseAll records report).Calls P := by
  induction records generalizing report with
  | nil => trivial
  | cons record records ih =>
      cases record with
      | none => trivial
      | some record => exact (calls_releaseExpired hstatus _ (hrelease _ _ _) _).bind fun _ => ih _

theorem calls_repairConfirmed (r : TicketingApi.Reservation ℚ)
    (hforce : P (.redis ["FORCE_CONFIRM_SEAT", r.eventId, r.seatId, r.userId])) (report : ReconciliationReport) :
    (repairConfirmed r report).Calls P := by
  refine Calls.tryCatch ((calls_seatStatus hstatus _ _).bind fun status => ?_) fun _ => trivial
  split
  · trivial
  · apply (calls_forceConfirmSeat hforce).bind
    intro result
    split <;> trivial

theorem calls_repairAll (hforce : ∀ e s u, P (.redis ["FORCE_CONFIRM_SEAT", e, s, u]))
    (rows : List (TicketingApi.Reservation ℚ)) (report : ReconciliationReport) : (repairAll rows report).Calls P := by
  induction rows generalizing report with
  | nil => trivial
  | cons r rows ih => exact (calls_repairConfirmed hstatus r (hforce _ _ _) _).bind fun _ => ih _

end SeatStatus

section Usual

variable (h : Usual P)

include h

theorem calls_db {call : DbCall} (hcall : Mild call) : (Orchestrator.db call).Calls P :=
  Calls.invoke (h.db call hcall)

theorem calls_uuid4 : uuid4.Calls P := Calls.invoke h.uuid4

theorem calls_currentTime : currentTime.Calls P := Calls.invoke h.now

theorem calls_findEventSeat (e s : String) : (findEventSeat e s).Calls P := by
  refine (calls_db h (by trivial : Mild (.listEventSeats e))).bind fun seats => ?_
  split <;> trivial

theorem calls_getEventSeat (e s : String) : (getEventSeat e s).Calls P :=
  (calls_findEventSeat h e s).bind fun _ => (calls_seatStatus h.seatStatus e s).bind fun _ => trivial

theorem calls_buildMockPayment (amount : Int) : (buildMockPayment amount).Calls P :=
  (calls_uuid4 h).bind fun _ => trivial

theorem calls_safeRelease (hrelease : P (.redis ["RELEASE_SEAT", e, s, u])) : (safeRelease e s u).Calls P := by
  refine Calls.tryCatch ((calls_seatStatus h.seatStatus e s).bind fun status => ?_) fun _ => trivial
  split
  · exact (calls_releaseSeat hrelease).bind fun _ => trivial
  · trivial

theorem calls_safeCancel (id : String) (hrelease : P (.redis ["RELEASE_SEAT", e, s, u])) :
    (safeCancel id e s u).Calls P := by
  refine Calls.bind (Calls.tryCatch ?_ fun _ => ?_) fun _ => calls_safeRelease h hrelease
  · exact (calls_db h (by trivial : Mild (.cancelReservation id))).bind fun _ => trivial
  · trivial

theorem calls_cancelReservation (id : String) (hrelease : P (.redis ["RELEASE_SEAT", e, s, u])) :
    (Orchestrator.cancelReservation id e s u).Calls P :=
  (calls_db h (by trivial : Mild (.cancelReservation id))).bind fun _ => (calls_safeRelease h hrelease).bind fun _ =>
    (calls_getEventSeat h e s).bind fun _ => trivial

theorem calls_holdReservation (hrelease : P (.redis ["RELEASE_SEAT", e, s, u]))
    (hreserve : ∀ n, P (.redis ["RESERVE_SEAT", e, s, u, n])) (n : Int) :
    (Orchestrator.holdReservation e s u n).Calls P := by
  refine (calls_findEventSeat h e s).bind fun _ => (calls_reserveSeat hreserve n).bind fun reserved => ?_
  split
  · trivial
  · refine (calls_uuid4 h).bind fun _ => (calls_uuid4 h).bind fun _ => (calls_currentTime h).bind fun _ =>
      (Calls.ofExcept P _).bind fun _ => Calls.bind ?_ fun _ => (calls_getEventSeat h e s).bind fun _ => trivial
    exact Calls.tryCatch (calls_db h (by trivial)) fun _ => (calls_safeRelease h hrelease).bind fun _ => trivial

variable (hrelease : ∀ e s u, P (.redis ["RELEASE_SEAT", e, s, u]))

include hrelease

theorem calls_expireStaleHolds (limit : Int) (report : ReconciliationReport) : (expireStaleHolds limit report).Calls P :=
  (calls_db h (by trivial : Mild (.expireStaleReservations limit))).bind fun _ => calls_releaseAll h.seatStatus hrelease _ _

end Usual

theorem calls_confirmReservation (h : Basic P) (hforce : P (.redis ["FORCE_CONFIRM_SEAT", e, s, u])) (id : String) :
    (Orchestrator.confirmReservation id e s u).Calls P := by
  refine (calls_findEventSeat h.usual e s).bind fun seat => (calls_seatStatus h.seatStatus e s).bind fun status => ?_
  split
  · exact (calls_safeExpire (h.db _)).bind fun _ => trivial
  · split
    · trivial
    · split
      · trivial
      · refine (calls_buildMockPayment h.usual _).bind fun payment => (Calls.invoke (h.db _)).bind fun _ =>
          (calls_finalizeAttempts hforce _ _).bind fun result => ?_
        split
        · trivial
        · exact (calls_getEventSeat h.usual e s).bind fun _ => trivial

end Calls

end Ticketing.AppServer
