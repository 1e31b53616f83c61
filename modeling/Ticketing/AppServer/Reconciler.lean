import Ticketing.AppServer.Service

namespace Ticketing.AppServer.Reconciler

open Python Interaction TicketingApi Orchestrator

structure ReconciliationReport where
  expiredReservationIds : List String
  repairedReservationIds : List String
  errors : List String
  deriving DecidableEq

def addError (report : ReconciliationReport) (error : String) : ReconciliationReport :=
  { report with errors := report.errors ++ [error] }

/-- Release the seat of one expired row, if it is still held by the row's user. -/
def releaseExpired (r : Reservation ℚ) (report : ReconciliationReport) : Flow ReconciliationReport :=
  tryCatch (do
    let status ← seatStatus r.eventId r.seatId
    if status.state = "HELD" ∧ status.userId = some r.userId then
      let _ ← releaseSeat r.eventId r.seatId r.userId
      return report
    else return report)
    (fun e => return addError report ("expire release failed for " ++ r.reservationId ++ ": " ++ e.message))

def releaseAll : List (Option (ReservationRecord ℚ)) → ReconciliationReport → Flow ReconciliationReport
  | [], report => return report
  | none :: _, _ => throw ⟨.attributeError, "'NoneType' object has no attribute 'get'"⟩
  | some record :: rest, report => do
    let r := record.reservation
    let report ← releaseExpired r { report with expiredReservationIds := report.expiredReservationIds ++ [r.reservationId] }
    releaseAll rest report

def expireStaleHolds (limit : Int) (report : ReconciliationReport) : Flow ReconciliationReport := do
  releaseAll (← db (.expireStaleReservations limit)) report

/-- Confirm the seat of one confirmed row in Redis, unless it is confirmed already. -/
def repairConfirmed (r : Reservation ℚ) (report : ReconciliationReport) : Flow ReconciliationReport :=
  tryCatch (do
    let status ← seatStatus r.eventId r.seatId
    if status.state = "CONFIRMED" ∧ status.userId = some r.userId then return report
    else
      let result ← forceConfirmSeat r.eventId r.seatId r.userId
      if result.state = "CONFIRMED" ∧ result.userId = some r.userId then
        return { report with repairedReservationIds := report.repairedReservationIds ++ [r.reservationId] }
      else return addError report ("confirm repair returned unexpected state for " ++ r.reservationId))
    (fun e => return addError report ("confirm repair failed for " ++ r.reservationId ++ ": " ++ e.message))

def repairAll : List (Reservation ℚ) → ReconciliationReport → Flow ReconciliationReport
  | [], report => return report
  | r :: rest, report => do
    let report ← repairConfirmed r report
    repairAll rest report

def repairConfirmedSeats (limit : Int) (report : ReconciliationReport) : Flow ReconciliationReport := do
  repairAll (← db (.listConfirmedReservations limit)) report

def runOnce (limit : Int) : Flow ReconciliationReport := do
  let report ← expireStaleHolds limit ⟨[], [], []⟩
  repairConfirmedSeats limit report

end Ticketing.AppServer.Reconciler
