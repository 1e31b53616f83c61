import Ticketing.TicketingApi.Database
import Mathlib.Data.Prod.Lex
import Mathlib.Order.WithBot
import Mathlib.Data.String.Basic

namespace Ticketing.TicketingApi

open Python

variable {T : Type}

/-- A reservation joined with its payment. -/
structure ReservationRecord (T : Type) where
  reservation : Reservation T
  payment : Option (Payment T)
  deriving DecidableEq

inductive SeatState
  | available | confirmed
  deriving DecidableEq

structure SeatRecord (T : Type) where
  seat : Seat T
  status : SeatState

structure PaymentPayload where
  paymentId : String
  paymentStatus : PaymentStatus
  amount : Int
  provider : String
  providerRef : String
  deriving DecidableEq

/-- The methods of the repository, and the clock of the service. -/
inductive RepoOp (T : Type)
  | currentTimestamp
  | expireStaleReservations (now : T)
  | listEvents
  | getEvent (eventId : String)
  | getUser (userId : String)
  | createUser (userId displayName email : String) (createdAt : T)
  | getSeat (eventId seatId : String)
  | listSeats (eventId : String)
  | listUserReservations (userId : String)
  | listConfirmedSeats (eventId : String)
  | listConfirmedReservations (limit : Option Int)
  | listStaleHeldReservations (now : T) (limit : Int)
  | getReservation (reservationId : String)
  | hasConfirmedReservation (eventId seatId : String)
  | createHeldReservation (reservationId eventId seatId userId holdToken : String) (expiresAt now : T)
  | confirmReservation (reservationId : String) (payment : PaymentPayload) (now : T)
  | cancelReservation (reservationId : String) (now : T) (payment : Option PaymentPayload)
  | expireReservation (reservationId : String) (now : T)

abbrev RepoOp.Res : RepoOp T → Type
  | .currentTimestamp => T
  | .expireStaleReservations _ => Nat
  | .listEvents => List (Event T)
  | .getEvent _ => Option (Event T)
  | .getUser _ => Option (User T)
  | .createUser .. => Option (User T)
  | .getSeat .. => Option (Seat T)
  | .listSeats _ => List (SeatRecord T)
  | .listUserReservations _ => List (ReservationRecord T)
  | .listConfirmedSeats _ => List (Reservation T)
  | .listConfirmedReservations _ => List (Reservation T)
  | .listStaleHeldReservations .. => List (Reservation T)
  | .getReservation _ => Option (ReservationRecord T)
  | .hasConfirmedReservation .. => Bool
  | .createHeldReservation .. => Option (ReservationRecord T)
  | .confirmReservation .. => Option (ReservationRecord T)
  | .cancelReservation .. => Option (ReservationRecord T)
  | .expireReservation .. => Option (ReservationRecord T)

namespace Repository

/-! ### Queries -/

def record (t : Tables T) (r : Reservation T) : ReservationRecord T :=
  ⟨r, t.payments.find? (fun p => p.reservationId = r.reservationId)⟩

def findReservation (t : Tables T) (reservationId : String) : Option (Reservation T) :=
  t.reservations.find? (fun r => r.reservationId = reservationId)

def getReservation (t : Tables T) (reservationId : String) : Option (ReservationRecord T) :=
  (findReservation t reservationId).map (record t)

def getUser (t : Tables T) (userId : String) : Option (User T) := t.users.find? (fun u => u.userId = userId)

def hasConfirmedReservation (t : Tables T) (eventId seatId : String) : Bool :=
  t.reservations.any (fun r => r.eventId = eventId ∧ r.seatId = seatId ∧ r.status = .confirmed)

def listEvents (t : Tables T) : List (Event T) :=
  t.events.insertionSort (fun a b => toLex (a.startsAt, a.eventId) ≤ toLex (b.startsAt, b.eventId))

def listSeats (t : Tables T) (eventId : String) : List (SeatRecord T) :=
  let rows := (t.seats.filter (fun s => s.eventId = eventId)).insertionSort
    (fun a b => toLex (a.seatSection, toLex (a.rowLabel, a.seatNumber)) ≤
      toLex (b.seatSection, toLex (b.rowLabel, b.seatNumber)))
  rows.map (fun s => ⟨s, if hasConfirmedReservation t s.eventId s.seatId then .confirmed else .available⟩)

def listConfirmedSeats (t : Tables T) (eventId : String) : List (Reservation T) :=
  (t.reservations.filter (fun r => r.eventId = eventId ∧ r.status = .confirmed)).insertionSort
    (fun a b => a.seatId ≤ b.seatId)

/-- A limit is bound as an integer of the database. -/
def withLimit {α : Type} (limit : Int) (rows : List α) : Except Error (List α) :=
  if IsInt64 limit then .ok (limitRows limit rows)
  else .error ⟨.overflowError, "Python int too large to convert to SQLite INTEGER"⟩

variable [LinearOrder T]

def listUserReservations (t : Tables T) (userId : String) : List (ReservationRecord T) :=
  ((t.reservations.filter (fun r => r.userId = userId)).insertionSort
    (fun a b => toLex (b.createdAt, b.reservationId) ≤ toLex (a.createdAt, a.reservationId))).map (record t)

/-- `NULL` comes before every time. -/
def confirmedOrder (r : Reservation T) : WithBot T ×ₗ String := toLex (r.confirmedAt, r.reservationId)

def confirmedRows (t : Tables T) : List (Reservation T) :=
  (t.reservations.filter (fun r => r.status = .confirmed)).insertionSort
    (fun a b => confirmedOrder a ≤ confirmedOrder b)

def listConfirmedReservations (t : Tables T) (limit : Option Int) : Except Error (List (Reservation T)) :=
  match limit with
  | none => .ok (confirmedRows t)
  | some limit => withLimit limit (confirmedRows t)

def Stale (r : Reservation T) (now : T) : Prop := r.status = .held ∧ ∃ d ∈ r.expiresAt, d ≤ now

instance (r : Reservation T) (now : T) : Decidable (Stale r now) :=
  match h : r.expiresAt with
  | none => .isFalse (by simp [Stale, h])
  | some d => decidable_of_iff (r.status = .held ∧ d ≤ now) (by simp [Stale, h])

def staleOrder (r : Reservation T) : WithBot T ×ₗ String := toLex (r.expiresAt, r.reservationId)

def staleRows (t : Tables T) (now : T) : List (Reservation T) :=
  (t.reservations.filter (fun r => Stale r now)).insertionSort (fun a b => staleOrder a ≤ staleOrder b)

/-! ### Updates -/

def updateReservations (f : Reservation T → Reservation T) (t : Tables T) : Tables T :=
  { t with reservations := t.reservations.map f }

def updateReservation (reservationId : String) (f : Reservation T → Reservation T) (t : Tables T) : Tables T :=
  updateReservations (fun r => if r.reservationId = reservationId then f r else r) t

def expireStaleReservations (now : T) : Tables T → Tables T :=
  updateReservations (fun r => if Stale r now then { r with status := .expired, updatedAt := now } else r)

def createUser (userId displayName email : String) (createdAt : T) (t : Tables T) : Tables T :=
  if userId ∈ t.users.map User.userId then t
  else { t with users := t.users ++ [⟨userId, displayName, email, createdAt⟩] }

def createHeldReservation (reservationId eventId seatId userId holdToken : String) (expiresAt now : T)
    (t : Tables T) : Tables T :=
  { t with reservations := t.reservations ++
      [⟨reservationId, eventId, seatId, userId, .held, some holdToken, some expiresAt, now, now, none, none⟩] }

/-- `INSERT … ON CONFLICT(reservation_id) DO UPDATE`. -/
def upsertPayment (reservationId : String) (p : PaymentPayload) (now : T) (t : Tables T) : Tables T :=
  if reservationId ∈ t.payments.map Payment.reservationId then
    { t with payments := t.payments.map (fun q => if q.reservationId = reservationId then
        ⟨p.paymentId, q.reservationId, p.paymentStatus, p.amount, p.provider, p.providerRef, q.createdAt, now⟩ else q) }
  else
    { t with payments := t.payments ++
      [⟨p.paymentId, reservationId, p.paymentStatus, p.amount, p.provider, p.providerRef, now, now⟩] }

def confirmReservation (reservationId : String) (payment : PaymentPayload) (now : T) (t : Tables T) : Tables T :=
  updateReservation reservationId
    (fun r => { r with status := .confirmed, updatedAt := now, confirmedAt := some now })
    (upsertPayment reservationId { payment with paymentStatus := .succeeded } now t)

def cancelReservation (reservationId : String) (now : T) (payment : Option PaymentPayload) (t : Tables T) :
    Tables T :=
  updateReservation reservationId
    (fun r => { r with status := .cancelled, updatedAt := now, cancelledAt := some now })
    (match payment with
      | none => t
      | some payment => upsertPayment reservationId payment now t)

def expireReservation (reservationId : String) (now : T) : Tables T → Tables T :=
  updateReservation reservationId (fun r => { r with status := .expired, updatedAt := now })

/-! ### Transactions -/

/-- A transaction that writes, and the answer read after it. -/
def commit {α : Type} (db : Database T) (f : Tables T → Tables T) (read : Tables T → α) :
    Except Error α × Database T :=
  ((transaction db f).1.map (fun _ => read (transaction db f).2.tables), (transaction db f).2)

def bindAmount {α : Type} (amount : Int) (db : Database T) (result : Except Error α × Database T) :
    Except Error α × Database T :=
  if IsInt64 amount then result
  else (.error ⟨.overflowError, "Python int too large to convert to SQLite INTEGER"⟩, db)

/-- One call of the repository. Texts are valid Unicode, so that only an integer can fail to be bound. -/
def exec (clock : T) (db : Database T) : (op : RepoOp T) → Except Error op.Res × Database T
  | .currentTimestamp => (.ok clock, db)
  | .expireStaleReservations now => commit db (expireStaleReservations now)
      (fun _ => (db.tables.reservations.filter (fun r => Stale r now)).length)
  | .listEvents => (.ok (listEvents db.tables), db)
  | .getEvent eventId => (.ok (db.tables.events.find? (fun e => e.eventId = eventId)), db)
  | .getUser userId => (.ok (getUser db.tables userId), db)
  | .createUser userId displayName email createdAt =>
      commit db (createUser userId displayName email createdAt) (fun t => getUser t userId)
  | .getSeat eventId seatId => (.ok (db.tables.seats.find? (fun s => s.key = (eventId, seatId))), db)
  | .listSeats eventId => (.ok (listSeats db.tables eventId), db)
  | .listUserReservations userId => (.ok (listUserReservations db.tables userId), db)
  | .listConfirmedSeats eventId => (.ok (listConfirmedSeats db.tables eventId), db)
  | .listConfirmedReservations limit => (listConfirmedReservations db.tables limit, db)
  | .listStaleHeldReservations now limit => (withLimit limit (staleRows db.tables now), db)
  | .getReservation reservationId => (.ok (getReservation db.tables reservationId), db)
  | .hasConfirmedReservation eventId seatId => (.ok (hasConfirmedReservation db.tables eventId seatId), db)
  | .createHeldReservation reservationId eventId seatId userId holdToken expiresAt now =>
      commit db (createHeldReservation reservationId eventId seatId userId holdToken expiresAt now)
        (fun t => getReservation t reservationId)
  | .confirmReservation reservationId payment now => bindAmount payment.amount db
      (commit db (confirmReservation reservationId payment now) (fun t => getReservation t reservationId))
  | .cancelReservation reservationId now payment => bindAmount ((payment.map PaymentPayload.amount).getD 0) db
      (commit db (cancelReservation reservationId now payment) (fun t => getReservation t reservationId))
  | .expireReservation reservationId now =>
      commit db (expireReservation reservationId now) (fun t => getReservation t reservationId)

end Repository

end Ticketing.TicketingApi
