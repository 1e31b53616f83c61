import Ticketing.AppServer.Operations

namespace Ticketing.AppServer.Orchestrator

open Python Interaction TicketingApi

def mockPaymentProvider : String := "mock-pay"

def redisConfirmRetryAttempts : Nat := 3

structure SeatView where
  seat : SeatRecord ℚ
  status : String
  heldByUserId : Option String
  holdTtl : Option Int

structure MockPayment where
  paymentId : String
  amount : Int
  provider : String
  providerRef : String

structure HoldResult where
  reservation : ReservationRecord ℚ
  seat : SeatView
  created : Bool

structure ConfirmResult where
  reservation : ReservationRecord ℚ
  seat : SeatView
  payment : MockPayment

structure CancelResult where
  reservation : ReservationRecord ℚ
  seat : SeatView

/-! ### Calls -/

def uuid4 : Flow String := Program.invoke AppOp.uuid4

def currentTime : Flow ℚ := Program.invoke AppOp.now

def execute (tokens : List String) : Flow Reply := Program.invoke (AppOp.redis tokens)

def db (call : DbCall) : Flow call.Res := Program.invoke (AppOp.db call)

def seatStatus (eventId seatId : String) : Flow SeatStatus := do
  Program.ofExcept (decodeSeatStatus (← execute ["SEAT_STATUS", eventId, seatId]))

def reserveSeat (eventId seatId userId : String) (holdSeconds : Int) : Flow SeatCommandResult := do
  let seconds ← Program.ofExcept (strInt holdSeconds)
  Program.ofExcept (decodeSeatCommand (← execute ["RESERVE_SEAT", eventId, seatId, userId, seconds]))

def forceConfirmSeat (eventId seatId userId : String) : Flow SeatCommandResult := do
  Program.ofExcept (decodeSeatCommand (← execute ["FORCE_CONFIRM_SEAT", eventId, seatId, userId]))

def releaseSeat (eventId seatId userId : String) : Flow SeatCommandResult := do
  Program.ofExcept (decodeSeatCommand (← execute ["RELEASE_SEAT", eventId, seatId, userId]))

/-! ### Helpers -/

def findEventSeat (eventId seatId : String) : Flow (SeatRecord ℚ) := do
  let seats ← db (.listEventSeats eventId)
  match seats.find? (fun s => s.seat.seatId = seatId) with
  | some seat => return seat
  | none => throw ⟨.notFoundError, "seat '" ++ seatId ++ "' for event '" ++ eventId ++ "' was not found"⟩

def seatView (seat : SeatRecord ℚ) (status : SeatStatus) : SeatView :=
  if seat.status = .confirmed ∨ status.state = "CONFIRMED" then ⟨seat, "CONFIRMED", none, none⟩
  else if status.state = "HELD" then ⟨seat, "HELD", status.userId, some status.ttl⟩
  else ⟨seat, "AVAILABLE", none, none⟩

def getEventSeat (eventId seatId : String) : Flow SeatView := do
  let seat ← findEventSeat eventId seatId
  return seatView seat (← seatStatus eventId seatId)

def seatConflictMessage (result : SeatCommandResult) (requestedUserId : String) : String :=
  if result.state = "CONFIRMED" then "seat is already confirmed"
  else if result.state = "HELD" ∧ result.userId = some requestedUserId then "seat is already held by this user"
  else if result.state = "HELD" then "seat is already held by another user"
  else "seat is not available"

def buildMockPayment (amount : Int) : Flow MockPayment := do
  let paymentId := "pay-" ++ (← uuid4)
  return ⟨paymentId, amount, mockPaymentProvider, paymentId⟩

def safeRelease (eventId seatId userId : String) : Flow Unit :=
  tryCatch (do
    let status ← seatStatus eventId seatId
    if status.state = "HELD" ∧ status.userId = some userId then
      let _ ← releaseSeat eventId seatId userId
      return ()
    else return ()) (fun _ => return ())

def safeExpire (reservationId : String) : Flow Unit :=
  tryCatch (do
    let _ ← db (.expireReservation reservationId)
    return ()) (fun _ => return ())

def safeCancel (reservationId eventId seatId userId : String) : Flow Unit := do
  tryCatch (do
    let _ ← db (.cancelReservation reservationId)
    return ()) (fun _ => return ())
  safeRelease eventId seatId userId

/-- The attempts that are left, after the last error. -/
def finalizeAttempts (eventId seatId userId : String) : Nat → Option Error → Flow SeatCommandResult
  | 0, lastError => throw (lastError.getD ⟨.upstreamError, "Redis did not finalize the confirmed seat"⟩)
  | attempts + 1, _ => do
    let result ← tryCatch (do return Except.ok (← forceConfirmSeat eventId seatId userId))
      (fun e => if e.kind = .upstreamError then return Except.error e else throw e)
    match result with
    | .error e => finalizeAttempts eventId seatId userId attempts (some e)
    | .ok result =>
      if result.state = "CONFIRMED" ∧ result.userId = some userId then return result
      else finalizeAttempts eventId seatId userId attempts (some ⟨.upstreamError,
        "Redis returned an unexpected seat state during confirmation finalization"⟩)

def finalizeConfirmedSeat (eventId seatId userId : String) : Flow SeatCommandResult :=
  finalizeAttempts eventId seatId userId redisConfirmRetryAttempts none

/-- The first time that a `datetime` cannot show: the start of the year 10000. -/
def endOfTime : ℚ := 253402300800

def addSeconds (now : ℚ) (seconds : Int) : Except Error ℚ :=
  if now + seconds < endOfTime then .ok (now + seconds) else .error ⟨.overflowError, "date value out of range"⟩

/-! ### Operations -/

def holdReservation (eventId seatId userId : String) (holdSeconds : Int) : Flow HoldResult := do
  let _ ← findEventSeat eventId seatId
  let reserved ← reserveSeat eventId seatId userId holdSeconds
  if ¬ reserved.success then throw ⟨.conflictError, seatConflictMessage reserved userId⟩
  else
    let reservationId := "res-" ++ (← uuid4)
    let holdToken := "hold-" ++ (← uuid4)
    let expiresAt ← Program.ofExcept (addSeconds (← currentTime) holdSeconds)
    let created ← tryCatch
      (db (.createHeldReservation ⟨reservationId, eventId, seatId, userId, holdToken, expiresAt⟩))
      (fun e => do
        safeRelease eventId seatId userId
        throw e)
    return ⟨created.1, ← getEventSeat eventId seatId, created.2⟩

def confirmReservation (reservationId eventId seatId userId : String) : Flow ConfirmResult := do
  let seat ← findEventSeat eventId seatId
  let status ← seatStatus eventId seatId
  if status.state = "AVAILABLE" then
    safeExpire reservationId
    throw ⟨.conflictError, "seat hold has already expired"⟩
  else if status.userId ≠ some userId then throw ⟨.conflictError, "seat is held by another user"⟩
  else if status.state ≠ "HELD" then
    throw ⟨.conflictError, "seat cannot be confirmed from state " ++ status.state⟩
  else
    let payment ← buildMockPayment seat.seat.price
    let reservation ← db (.confirmReservation reservationId
      ⟨payment.paymentId, payment.amount, payment.provider, payment.providerRef⟩)
    let result ← finalizeConfirmedSeat eventId seatId userId
    if result.state ≠ "CONFIRMED" ∨ result.userId ≠ some userId then
      throw ⟨.upstreamError, "DB confirmed the reservation but Redis could not finalize the seat"⟩
    else return ⟨reservation, ← getEventSeat eventId seatId, payment⟩

def cancelReservation (reservationId eventId seatId userId : String) : Flow CancelResult := do
  let reservation ← db (.cancelReservation reservationId)
  safeRelease eventId seatId userId
  return ⟨reservation, ← getEventSeat eventId seatId⟩

def purchaseSeat (eventId seatId userId : String) (holdSeconds : Int) : Flow (ConfirmResult × Bool) := do
  let hold ← holdReservation eventId seatId userId holdSeconds
  let reservationId := hold.reservation.reservation.reservationId
  let confirmed ← tryCatch (confirmReservation reservationId eventId seatId userId)
    (fun e => do
      safeCancel reservationId eventId seatId userId
      throw e)
  return (confirmed, hold.created)

end Ticketing.AppServer.Orchestrator
