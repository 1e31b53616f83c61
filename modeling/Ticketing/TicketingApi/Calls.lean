import Ticketing.TicketingApi.Service
import Ticketing.TicketingApi.Transitions

namespace Ticketing.TicketingApi.Service

open Python Interaction
open Interaction.Program (Calls)

/-! ### The operations that a method calls -/

variable {T D α : Type} {P : RepoOp T → Prop}

/-- The operations that insert no reservation and update none by its id. -/
def SparesRows : RepoOp T → Prop
  | .createHeldReservation .. => False
  | .confirmReservation .. => False
  | .cancelReservation .. => False
  | .expireReservation .. => False
  | _ => True

theorem calls_call {op : RepoOp T} (h : P op) : (call op : Method T op.Res).Calls P := Calls.invoke h

theorem calls_conflictOnIntegrity {p : Method T α} (h : p.Calls P) (message : String) :
    (conflictOnIntegrity p message).Calls P :=
  h.tryCatch fun e => by split <;> trivial

variable (h : ∀ op : RepoOp T, SparesRows op → P op)

include h

theorem calls_timestamp : (currentTimestamp : Method T T).Calls P := calls_call (h .currentTimestamp trivial)

theorem calls_expireStale : (expireStale : Method T Unit).Calls P :=
  (calls_timestamp h).bind fun now => (calls_call (h (.expireStaleReservations now) trivial)).bind fun _ => trivial

theorem calls_requireEvent (eventId : String) : (requireEvent eventId : Method T (Event T)).Calls P := by
  apply (calls_call (h (.getEvent eventId) trivial)).bind
  intro x
  cases x <;> trivial

theorem calls_requireUser (userId : String) : (requireUser userId : Method T (User T)).Calls P := by
  apply (calls_call (h (.getUser userId) trivial)).bind
  intro x
  cases x <;> trivial

theorem calls_requireSeat (eventId seatId : String) : (requireSeat eventId seatId : Method T (Seat T)).Calls P := by
  apply (calls_call (h (.getSeat eventId seatId) trivial)).bind
  intro x
  cases x <;> trivial

theorem calls_ensureUser (userId : String) : (ensureUser userId : Method T (Option (User T))).Calls P := by
  apply (calls_call (h (.getUser userId) trivial)).bind
  intro x
  cases x with
  | some u => trivial
  | none =>
      dsimp only
      split
      · exact (calls_timestamp h).bind fun _ => calls_call (h _ trivial)
      · trivial

theorem calls_requireReservation (id : String) : (requireReservation id : Method T (ReservationRecord T)).Calls P := by
  apply (calls_expireStale h).bind
  intro _
  apply (calls_call (h (.getReservation id) trivial)).bind
  intro x
  cases x <;> trivial

theorem calls_reader {check : Method T α} {op : RepoOp T} (hc : check.Calls P) (hop : P op) :
    Program.Calls P (expireStale >>= fun _ => check >>= fun _ => call op) :=
  (calls_expireStale h).bind fun _ => hc.bind fun _ => calls_call hop

theorem calls_createHeldReservation [DecidableEq T] (normalizeTimestamp : D → Except Error T)
    (request : HeldReservationCreate D)
    (hcreate : ∀ expiresAt now, normalizeTimestamp request.expiresAt = .ok expiresAt →
      P (.createHeldReservation request.reservationId request.eventId request.seatId request.userId request.holdToken
        expiresAt now)) :
    (createHeldReservation normalizeTimestamp request).Calls P := by
  refine (calls_expireStale h).bind fun _ => (calls_requireEvent h _).bind fun _ => (calls_requireSeat h _ _).bind fun _ =>
    (calls_ensureUser h _).bind fun _ => (calls_call (h (.getReservation _) trivial)).bind fun existing => ?_
  cases hexpiresAt : normalizeTimestamp request.expiresAt with
  | error e => trivial
  | ok expiresAt =>
      rw [Program.ofExcept_ok, Program.bind_ret]
      cases existing with
      | some existing =>
          dsimp only
          split <;> trivial
      | none =>
          apply (calls_call (h (.hasConfirmedReservation _ _) trivial)).bind
          intro confirmed
          split
          · trivial
          · refine (calls_conflictOnIntegrity ?_ _).bind fun _ => trivial
            exact (calls_timestamp h).bind fun now => calls_call (hcreate expiresAt now hexpiresAt)

theorem calls_confirmReservation (id : String) (request : ConfirmReservationRequest)
    (hconfirm : ∀ payment now, P (.confirmReservation id payment now)) :
    (confirmReservation id request : Method T _).Calls P := by
  apply (calls_requireReservation h id).bind
  intro r
  split
  · split <;> trivial
  · split
    · trivial
    · apply calls_conflictOnIntegrity
      exact (calls_timestamp h).bind fun now => calls_call (hconfirm _ now)

theorem calls_cancelReservation (id : String) (request : CancelReservationRequest)
    (hcancel : ∀ payment now, validateCancelPaymentPayload request = .ok payment → P (.cancelReservation id now payment)) :
    (cancelReservation id request : Method T _).Calls P := by
  apply (calls_requireReservation h id).bind
  intro r
  split
  · trivial
  · split
    · trivial
    · cases hpayment : validateCancelPaymentPayload request with
      | error e => trivial
      | ok payment => exact (calls_timestamp h).bind fun now => calls_call (hcancel payment now hpayment)

theorem calls_expireReservation (id : String) (hexpire : ∀ now, P (.expireReservation id now)) :
    (expireReservation id : Method T _).Calls P := by
  apply (calls_requireReservation h id).bind
  intro r
  split
  · trivial
  · split
    · trivial
    · exact (calls_timestamp h).bind fun now => calls_call (hexpire now)

theorem calls_expireListed (hexpire : ∀ id now, P (.expireReservation id now)) (rows : List (Reservation T)) :
    (expireListed rows).Calls P := by
  induction rows with
  | nil => trivial
  | cons r rows ih =>
      apply Calls.bind
      · apply Calls.tryCatch
        · exact (calls_expireReservation h _ (hexpire _)).bind fun _ => trivial
        · intro e
          split <;> trivial
      · exact fun _ => ih.bind fun _ => trivial

theorem calls_expireStaleReservations (hexpire : ∀ id now, P (.expireReservation id now)) (limit : Int) :
    (expireStaleReservations limit : Method T _).Calls P := by
  apply Calls.bind
  · exact (calls_timestamp h).bind fun now => calls_call (h _ trivial)
  · exact fun rows => calls_expireListed h hexpire rows

end Ticketing.TicketingApi.Service
