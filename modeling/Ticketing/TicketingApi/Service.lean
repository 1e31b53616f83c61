import Ticketing.TicketingApi.Repository
import Ticketing.Lib.Program

namespace Ticketing.TicketingApi

open Python Interaction

inductive CancelablePaymentStatus
  | failed | cancelled
  deriving DecidableEq

def CancelablePaymentStatus.toPaymentStatus : CancelablePaymentStatus → PaymentStatus
  | .failed => .failed
  | .cancelled => .cancelled

/-- `D` is the type of the timestamps of requests. -/
structure HeldReservationCreate (D : Type) where
  reservationId : String
  eventId : String
  seatId : String
  userId : String
  holdToken : String
  expiresAt : D

structure ConfirmReservationRequest where
  paymentId : String
  amount : Int
  provider : String
  providerRef : String

structure CancelReservationRequest where
  paymentId : Option String
  paymentStatus : Option CancelablePaymentStatus
  amount : Option Int
  provider : Option String
  providerRef : Option String

namespace Service

variable {T D : Type}

/-- A method of the service: the repository and the clock are its operations. -/
abbrev Method (T α : Type) := Program (RepoOp T) RepoOp.Res Error α

def call (op : RepoOp T) : Method T op.Res := Program.invoke op

def currentTimestamp : Method T T := call .currentTimestamp

def statusText : ReservationStatus → String
  | .held => "HELD"
  | .confirmed => "CONFIRMED"
  | .cancelled => "CANCELLED"
  | .expired => "EXPIRED"

/-! ### Checks -/

def expireStale : Method T Unit := do
  let now ← currentTimestamp
  let _ ← call (.expireStaleReservations now)
  return ()

def requireEvent (eventId : String) : Method T (Event T) := do
  match ← call (.getEvent eventId) with
  | some event => return event
  | none => throw ⟨.notFoundError, "event '" ++ eventId ++ "' was not found"⟩

def requireUser (userId : String) : Method T (User T) := do
  match ← call (.getUser userId) with
  | some user => return user
  | none => throw ⟨.notFoundError, "user '" ++ userId ++ "' was not found"⟩

def loadUserPrefix : String := "load-user-"

def ensureUser (userId : String) : Method T (Option (User T)) := do
  match ← call (.getUser userId) with
  | some user => return some user
  | none =>
    if loadUserPrefix.toList.isPrefixOf userId.toList then
      let rest := String.ofList (userId.toList.drop loadUserPrefix.length)
      let name := if rest = "" then "crowd" else rest
      let now ← currentTimestamp
      call (.createUser userId ("Load User " ++ name) (userId ++ "@demo.local") now)
    else throw ⟨.notFoundError, "user '" ++ userId ++ "' was not found"⟩

def requireSeat (eventId seatId : String) : Method T (Seat T) := do
  match ← call (.getSeat eventId seatId) with
  | some seat => return seat
  | none => throw ⟨.notFoundError, "seat '" ++ seatId ++ "' for event '" ++ eventId ++ "' was not found"⟩

def requireReservation (reservationId : String) : Method T (ReservationRecord T) := do
  expireStale
  match ← call (.getReservation reservationId) with
  | some reservation => return reservation
  | none => throw ⟨.notFoundError, "reservation '" ++ reservationId ++ "' was not found"⟩

def heldRequestMatches [DecidableEq T] (existing : Reservation T) (request : HeldReservationCreate D) (expiresAt : T) :
    Bool :=
  existing.eventId = request.eventId ∧ existing.seatId = request.seatId ∧ existing.userId = request.userId ∧
    existing.holdToken = some request.holdToken ∧ existing.expiresAt = some expiresAt

def confirmRequestMatches (reservation : ReservationRecord T) (request : ConfirmReservationRequest) : Bool :=
  match reservation.payment with
  | none => false
  | some p => p.paymentId = request.paymentId ∧ p.amount = request.amount ∧ p.provider = request.provider ∧
      p.providerRef = request.providerRef ∧ p.status = .succeeded

def validateCancelPaymentPayload (request : CancelReservationRequest) : Except Error (Option PaymentPayload) :=
  match request with
  | ⟨none, none, none, none, none⟩ => .ok none
  | ⟨some paymentId, some status, some amount, some provider, some providerRef⟩ =>
    .ok (some ⟨paymentId, status.toPaymentStatus, amount, provider, providerRef⟩)
  | _ => .error ⟨.conflictError,
      "cancel payment payload must include payment_id, payment_status, amount, provider, and provider_ref together"⟩

def seatConfirmedMessage (eventId seatId : String) : String :=
  "seat '" ++ seatId ++ "' for event '" ++ eventId ++ "' is already confirmed"

/-- A call that reports a violated constraint as a conflict. -/
def conflictOnIntegrity {α : Type} (p : Method T α) (message : String) : Method T α :=
  tryCatch p (fun e => if e.kind = .integrityError then throw ⟨.conflictError, message⟩ else throw e)

/-! ### Requests -/

def listEvents : Method T (List (Event T)) := call .listEvents

def listEventSeats (eventId : String) : Method T (List (SeatRecord T)) := do
  expireStale
  let _ ← requireEvent eventId
  call (.listSeats eventId)

def createHeldReservation [DecidableEq T] (normalizeTimestamp : D → Except Error T)
    (request : HeldReservationCreate D) : Method T (Option (ReservationRecord T) × Bool) := do
  expireStale
  let _ ← requireEvent request.eventId
  let _ ← requireSeat request.eventId request.seatId
  let _ ← ensureUser request.userId
  let existing ← call (.getReservation request.reservationId)
  let expiresAt ← Program.ofExcept (normalizeTimestamp request.expiresAt)
  match existing with
  | some existing =>
    if heldRequestMatches existing.reservation request expiresAt then return (some existing, false)
    else throw ⟨.conflictError,
      "reservation_id '" ++ request.reservationId ++ "' already exists with different payload"⟩
  | none =>
    if ← call (.hasConfirmedReservation request.eventId request.seatId) then
      throw ⟨.conflictError, seatConfirmedMessage request.eventId request.seatId⟩
    else
      let created ← conflictOnIntegrity (do
        let now ← currentTimestamp
        call (.createHeldReservation request.reservationId request.eventId request.seatId request.userId
          request.holdToken expiresAt now)) "hold_token is already in use"
      return (created, true)

def cannotTransition (reservationId : String) (status : ReservationStatus) (target : String) : Error :=
  ⟨.conflictError,
    "reservation '" ++ reservationId ++ "' cannot transition from " ++ statusText status ++ " to " ++ target⟩

def confirmReservation (reservationId : String) (request : ConfirmReservationRequest) :
    Method T (Option (ReservationRecord T)) := do
  let reservation ← requireReservation reservationId
  if reservation.reservation.status = .confirmed then
    if confirmRequestMatches reservation request then return some reservation
    else throw ⟨.conflictError,
      "reservation '" ++ reservationId ++ "' is already confirmed with different payment payload"⟩
  else if reservation.reservation.status ≠ .held then
    throw (cannotTransition reservationId reservation.reservation.status "CONFIRMED")
  else
    conflictOnIntegrity (do
      let now ← currentTimestamp
      call (.confirmReservation reservationId
        ⟨request.paymentId, .succeeded, request.amount, request.provider, request.providerRef⟩ now))
      (seatConfirmedMessage reservation.reservation.eventId reservation.reservation.seatId)

def cancelReservation (reservationId : String) (request : CancelReservationRequest) :
    Method T (Option (ReservationRecord T)) := do
  let reservation ← requireReservation reservationId
  if reservation.reservation.status = .cancelled then return some reservation
  else if reservation.reservation.status ≠ .held then
    throw (cannotTransition reservationId reservation.reservation.status "CANCELLED")
  else
    let payment ← Program.ofExcept (validateCancelPaymentPayload request)
    let now ← currentTimestamp
    call (.cancelReservation reservationId now payment)

def expireReservation (reservationId : String) : Method T (Option (ReservationRecord T)) := do
  let reservation ← requireReservation reservationId
  if reservation.reservation.status = .expired then return some reservation
  else if reservation.reservation.status ≠ .held then
    throw (cannotTransition reservationId reservation.reservation.status "EXPIRED")
  else
    let now ← currentTimestamp
    call (.expireReservation reservationId now)

def listUserReservations (userId : String) : Method T (List (ReservationRecord T)) := do
  expireStale
  let _ ← requireUser userId
  call (.listUserReservations userId)

def listConfirmedSeats (eventId : String) : Method T (List (Reservation T)) := do
  expireStale
  let _ ← requireEvent eventId
  call (.listConfirmedSeats eventId)

def listConfirmedReservations (limit : Option Int) : Method T (List (Reservation T)) :=
  call (.listConfirmedReservations limit)

def listStaleHeldReservations (limit : Int) : Method T (List (Reservation T)) := do
  let now ← currentTimestamp
  call (.listStaleHeldReservations now limit)

/-- Expire the listed rows one by one; a conflict skips its row. -/
def expireListed : List (Reservation T) → Method T (List (Option (ReservationRecord T)))
  | [] => return []
  | reservation :: rest => do
    let expired ← tryCatch (do return [← expireReservation reservation.reservationId])
      (fun e => if e.kind = .conflictError then return [] else throw e)
    return expired ++ (← expireListed rest)

def expireStaleReservations (limit : Int) : Method T (List (Option (ReservationRecord T))) := do
  expireListed (← listStaleHeldReservations limit)

end Service

end Ticketing.TicketingApi
