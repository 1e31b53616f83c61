import Ticketing.Python
import Mathlib.Data.List.Sort

namespace Ticketing.TicketingApi

open Python

inductive ReservationStatus
  | held | confirmed | cancelled | expired
  deriving DecidableEq, Repr

inductive PaymentStatus
  | succeeded | failed | cancelled
  deriving DecidableEq, Repr

/-! ### Rows -/

structure Event (T : Type) where
  eventId : String
  title : String
  venue : String
  startsAt : String
  bookingOpensAt : String
  createdAt : T

structure User (T : Type) where
  userId : String
  displayName : String
  email : String
  createdAt : T

structure Seat (T : Type) where
  eventId : String
  seatId : String
  seatLabel : String
  seatSection : String
  rowLabel : String
  seatNumber : Int
  price : Int
  createdAt : T

structure Reservation (T : Type) where
  reservationId : String
  eventId : String
  seatId : String
  userId : String
  status : ReservationStatus
  holdToken : Option String
  expiresAt : Option T
  createdAt : T
  updatedAt : T
  confirmedAt : Option T
  cancelledAt : Option T
  deriving DecidableEq

structure Payment (T : Type) where
  paymentId : String
  reservationId : String
  status : PaymentStatus
  amount : Int
  provider : String
  providerRef : String
  createdAt : T
  updatedAt : T
  deriving DecidableEq

variable {T : Type}

def Seat.key (s : Seat T) : String × String := (s.eventId, s.seatId)

def Reservation.seat (r : Reservation T) : String × String := (r.eventId, r.seatId)

structure Tables (T : Type) where
  events : List (Event T)
  users : List (User T)
  seats : List (Seat T)
  reservations : List (Reservation T)
  payments : List (Payment T)

/-- The keys, the unique indexes, the foreign keys and the integer columns of
the schema. The index on seats covers the confirmed reservations only. -/
structure Valid (t : Tables T) : Prop where
  eventIds : (t.events.map Event.eventId).Nodup
  userIds : (t.users.map User.userId).Nodup
  seatKeys : (t.seats.map Seat.key).Nodup
  seatEvents : ∀ s ∈ t.seats, s.eventId ∈ t.events.map Event.eventId
  seatIntegers : ∀ s ∈ t.seats, IsInt64 s.seatNumber ∧ IsInt64 s.price
  reservationIds : (t.reservations.map Reservation.reservationId).Nodup
  holdTokens : (t.reservations.filterMap Reservation.holdToken).Nodup
  confirmedSeats : ((t.reservations.filter (fun r => r.status = .confirmed)).map Reservation.seat).Nodup
  reservationSeats : ∀ r ∈ t.reservations, r.seat ∈ t.seats.map Seat.key
  reservationUsers : ∀ r ∈ t.reservations, r.userId ∈ t.users.map User.userId
  paymentIds : (t.payments.map Payment.paymentId).Nodup
  paymentReservationIds : (t.payments.map Payment.reservationId).Nodup
  paymentReservations : ∀ p ∈ t.payments, p.reservationId ∈ t.reservations.map Reservation.reservationId
  paymentIntegers : ∀ p ∈ t.payments, IsInt64 p.amount

theorem valid_iff (t : Tables T) :
    Valid t ↔ ((t.events.map Event.eventId).Nodup ∧ (t.users.map User.userId).Nodup ∧
      (t.seats.map Seat.key).Nodup ∧ (∀ s ∈ t.seats, s.eventId ∈ t.events.map Event.eventId) ∧
      (∀ s ∈ t.seats, IsInt64 s.seatNumber ∧ IsInt64 s.price) ∧
      (t.reservations.map Reservation.reservationId).Nodup ∧
      (t.reservations.filterMap Reservation.holdToken).Nodup ∧
      ((t.reservations.filter (fun r => r.status = .confirmed)).map Reservation.seat).Nodup ∧
      (∀ r ∈ t.reservations, r.seat ∈ t.seats.map Seat.key) ∧
      (∀ r ∈ t.reservations, r.userId ∈ t.users.map User.userId) ∧
      (t.payments.map Payment.paymentId).Nodup ∧ (t.payments.map Payment.reservationId).Nodup ∧
      (∀ p ∈ t.payments, p.reservationId ∈ t.reservations.map Reservation.reservationId) ∧
      ∀ p ∈ t.payments, IsInt64 p.amount) :=
  ⟨fun h => ⟨h.1, h.2, h.3, h.4, h.5, h.6, h.7, h.8, h.9, h.10, h.11, h.12, h.13, h.14⟩,
    fun ⟨h1, h2, h3, h4, h5, h6, h7, h8, h9, h10, h11, h12, h13, h14⟩ =>
      ⟨h1, h2, h3, h4, h5, h6, h7, h8, h9, h10, h11, h12, h13, h14⟩⟩

instance (t : Tables T) : Decidable (Valid t) := decidable_of_iff _ (valid_iff t).symm

/-- Tables that meet the constraints of the schema. -/
structure Database (T : Type) where
  tables : Tables T
  valid : Valid tables

/-- One transaction: it is rolled back where it breaks a constraint. -/
def transaction (db : Database T) (f : Tables T → Tables T) : Except Error Unit × Database T :=
  if h : Valid (f db.tables) then (.ok (), ⟨f db.tables, h⟩)
  else (.error ⟨.integrityError, "constraint failed"⟩, db)

/-- The rows that `LIMIT` leaves; a negative limit is none. -/
def limitRows {α : Type} (limit : Int) (rows : List α) : List α :=
  if limit < 0 then rows else rows.take limit.toNat

end Ticketing.TicketingApi
