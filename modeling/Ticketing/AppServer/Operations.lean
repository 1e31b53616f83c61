import Ticketing.Server.Responses
import Ticketing.TicketingApi.Service
import Ticketing.AppServer.RedisClient

namespace Ticketing.AppServer

open Python JsonText Interaction TicketingApi Server

/-! ### One Redis command -/

/-- A scalar on the wire, as the client reads it back. -/
def scalarReply : Commands.RespScalar → Except Error Reply
  | .str s => match s.toString? with
    | some s => .ok (.str s)
    | none => .error ⟨.unicodeEncodeError, "surrogates not allowed"⟩
  | .int n => (strInt n).map (fun _ => .int n)
  | .null => .ok .null

def resultReply : Commands.CommandResult → Except Error Reply
  | .scalar x => scalarReply x
  | .list xs => (xs.mapM scalarReply).map .list

/-- The reply of the server to a command; an error reply is a conflict for the client. -/
def redisReply (tokens : List String) (now : ℚ) (redis : Storage.Store) : Except Error Reply × Storage.Store :=
  let r := Commands.handleCommand tokens now redis
  (match r.1.bind resultReply with
    | .ok reply => .ok reply
    | .error e => .error ⟨.conflictError, "ERR " ++ formatErrorMessage e⟩, r.2)

/-! ### One DB call -/

inductive DbCall
  | listEventSeats (eventId : String)
  | createHeldReservation (payload : HeldReservationCreate ℚ)
  | confirmReservation (reservationId : String) (payload : ConfirmReservationRequest)
  | cancelReservation (reservationId : String)
  | expireReservation (reservationId : String)
  | expireStaleReservations (limit : Int)
  | listConfirmedReservations (limit : Int)

abbrev DbCall.Res : DbCall → Type
  | .listEventSeats _ => List (SeatRecord ℚ)
  | .createHeldReservation _ => ReservationRecord ℚ × Bool
  | .confirmReservation .. => ReservationRecord ℚ
  | .cancelReservation _ => ReservationRecord ℚ
  | .expireReservation _ => ReservationRecord ℚ
  | .expireStaleReservations _ => List (Option (ReservationRecord ℚ))
  | .listConfirmedReservations _ => List (Reservation ℚ)

def isHexDigit (c : Char) : Bool := c.isDigit || ('a' ≤ c && c ≤ 'f') || ('A' ≤ c && c ≤ 'F')

/-- Whether a text has an escape `%XX`. -/
def hasEscape : List Char → Bool
  | '%' :: x :: y :: cs => isHexDigit x && isHexDigit y || hasEscape (x :: y :: cs)
  | _ :: cs => hasEscape cs
  | [] => false

/-- A text that comes through a URL as it is, as one segment of the path. -/
def PathSegment (id : String) : Prop :=
  id ∉ ["", ".", ".."] ∧ (∀ c ∈ id.toList, c ∉ ['/', '?', '#'] ∧ ' ' ≤ c ∧ c ≠ '\x7f') ∧ hasEscape id.toList = false

-- the instance is named, for characters are also decided one by one as a finite type
instance (id : String) : Decidable (PathSegment id) :=
  have : Decidable (∀ c ∈ id.toList, c ∉ ['/', '?', '#'] ∧ ' ' ≤ c ∧ c ≠ '\x7f') := List.decidableBAll _ id.toList
  inferInstanceAs (Decidable (_ ∧ _ ∧ _))

theorem hasEscape_eq_false {cs : List Char} (h : '%' ∉ cs) : hasEscape cs = false := by
  fun_induction hasEscape cs <;> simp_all

theorem isHexDigit_carried {c : Char} (h : isHexDigit c = true) : c ∉ ['/', '?', '#', '%', '\x7f'] ∧ ' ' ≤ c := by
  constructor
  · intro hmem
    simp only [List.mem_cons, List.not_mem_nil, or_false] at hmem
    rcases hmem with rfl | rfl | rfl | rfl | rfl <;> exact absurd h (by decide)
  · simp only [isHexDigit, Char.isDigit, Bool.or_eq_true, Bool.and_eq_true, decide_eq_true_eq] at h
    rcases h with (⟨h, _⟩ | ⟨h, _⟩) | ⟨h, _⟩ <;> exact le_trans (by decide) h

/-- The ids that the app server gives to its rows come through a URL verbatim. -/
theorem pathSegment_res {uuid : String} (h : ∀ c ∈ uuid.toList, isHexDigit c = true) : PathSegment ("res-" ++ uuid) := by
  have hids : ("res-" ++ uuid).toList = 'r' :: 'e' :: 's' :: '-' :: uuid.toList := by simp
  have hcarried : ∀ c ∈ ("res-" ++ uuid).toList, c ∉ ['/', '?', '#', '%', '\x7f'] ∧ ' ' ≤ c := by
    intro c hc
    rw [hids] at hc
    simp only [List.mem_cons] at hc
    rcases hc with rfl | rfl | rfl | rfl | hc
    all_goals first | exact isHexDigit_carried (h c hc) | decide
  refine ⟨?_, fun c hc => ?_, hasEscape_eq_false fun hc => (hcarried _ hc).1 (by decide)⟩
  · simp only [List.mem_cons, List.not_mem_nil, or_false, ← String.toList_inj, hids]
    simp
  · obtain ⟨hc, hspace⟩ := hcarried c hc
    simp only [List.mem_cons, not_or] at hc
    exact ⟨by simp [hc], hspace, hc.2.2.2.2.1⟩

/-- The id that the client pastes into the path of the call. -/
def DbCall.pathId : DbCall → Option String
  | .listEventSeats eventId => some eventId
  | .confirmReservation reservationId _ => some reservationId
  | .cancelReservation reservationId => some reservationId
  | .expireReservation reservationId => some reservationId
  | _ => none

def DbCall.Verbatim (call : DbCall) : Prop := ∀ id ∈ call.pathId, PathSegment id

instance (call : DbCall) : Decidable call.Verbatim := inferInstanceAs (Decidable (∀ id ∈ call.pathId, PathSegment id))

/-- How the DB client reports an exception of the DB service. -/
def clientError (e : Error) : Error :=
  match e.kind with
  | .notFoundError => e
  | .conflictError => e
  | _ => ⟨.upstreamError, "DB request failed with status 500: Internal Server Error"⟩

def response {α : Type} (x : Except Error (Option α)) : Except Error α :=
  match x with
  | .ok (some a) => .ok a
  | .ok none => .error (clientError ⟨.typeError, "response is not a reservation"⟩)
  | .error e => .error (clientError e)

/-- A method of the DB service, as one atomic step at one time. -/
def atomic {α : Type} (now : ℚ) (method : Service.Method ℚ α) (db : Database ℚ) : Except Error α × Database ℚ :=
  Program.atomically Repository.exec now method db

def noPayment : CancelReservationRequest := ⟨none, none, none, none, none⟩

/-- What the DB server does for a call whose ids come through its URL verbatim. -/
def dbStep (now : ℚ) (db : Database ℚ) : (call : DbCall) → Except Error call.Res × Database ℚ
  | .listEventSeats eventId =>
    let r := atomic now (Service.listEventSeats eventId) db
    (r.1.mapError clientError, r.2)
  | .createHeldReservation payload =>
    let r := atomic now (Service.createHeldReservation Except.ok payload) db
    (response (r.1.map (fun p => p.1.map (fun reservation => (reservation, p.2)))), r.2)
  | .confirmReservation reservationId payload =>
    let r := atomic now (Service.confirmReservation reservationId payload) db
    (response r.1, r.2)
  | .cancelReservation reservationId =>
    let r := atomic now (Service.cancelReservation reservationId noPayment) db
    (response r.1, r.2)
  | .expireReservation reservationId =>
    let r := atomic now (Service.expireReservation reservationId) db
    (response r.1, r.2)
  | .expireStaleReservations limit => atomic now (Service.expireStaleReservations limit) db
  | .listConfirmedReservations limit => atomic now (Service.listConfirmedReservations (some limit)) db

/-! ### The world of the app server -/

structure World where
  db : Database ℚ
  redis : Storage.Store

inductive AppOp
  | uuid4
  | now
  | redis (tokens : List String)
  | db (call : DbCall)

abbrev AppOp.Res : AppOp → Type
  | .uuid4 => String
  | .now => ℚ
  | .redis _ => Reply
  | .db call => call.Res

def AppOp.tokens : AppOp → List String
  | .redis tokens => tokens
  | _ => []

def AppOp.Verbatim : AppOp → Prop
  | .db call => call.Verbatim
  | _ => True

instance : (op : AppOp) → Decidable op.Verbatim
  | .db call => inferInstanceAs (Decidable call.Verbatim)
  | .uuid4 => .isTrue trivial
  | .now => .isTrue trivial
  | .redis _ => .isTrue trivial

/-- Whether a call fails, and whether it takes effect all the same. -/
inductive Fault
  | none
  | fail (effect : Bool) (error : Error)

structure Env where
  now : ℚ
  uuid : String
  fault : Fault

def withFault {α σ : Type} (fault : Fault) (s : σ) (r : Except Error α × σ) : Except Error α × σ :=
  match fault with
  | .none => r
  | .fail effect error => (.error error, if effect then r.2 else s)

def appStep (env : Env) (w : World) : (op : AppOp) → Except Error op.Res × World
  | .uuid4 => (.ok env.uuid, w)
  | .now => (.ok env.now, w)
  | .redis tokens =>
    let r := redisReply tokens env.now w.redis
    withFault env.fault w (r.1, { w with redis := r.2 })
  | .db call =>
    let r := dbStep env.now w.db call
    withFault env.fault w (r.1, { w with db := r.2 })

/-- A flow of the app server or of the reconciler. -/
abbrev Flow (α : Type) := Program AppOp AppOp.Res Error α

end Ticketing.AppServer
