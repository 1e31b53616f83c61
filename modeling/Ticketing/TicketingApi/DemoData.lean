import Ticketing.TicketingApi.Outcomes
import Ticketing.TicketingApi.Payments

namespace Ticketing.TicketingApi

open Python Interaction Repository

variable {T D : Type}

/-! ### The demo event -/

def demoEventId : String := "concert-seoul-2026"

def demoRowLabels : List String := ["A", "B", "C", "D", "E", "F"]

def demoSeatsPerRow : ℕ := 11

def demoDefaultPrice : ℤ := 120000

def buildDemoSeatRows (createdAt : T) : List (Seat T) :=
  demoRowLabels.flatMap fun rowLabel => (List.range demoSeatsPerRow).map fun n =>
    ⟨demoEventId, rowLabel ++ toString (n + 1), rowLabel ++ toString (n + 1), "FLOOR", rowLabel, n + 1, demoDefaultPrice,
      createdAt⟩

namespace Repository

/-- An event goes with its seats, their reservations and the payments of these. -/
def deleteEvent (eventId : String) (t : Tables T) : Tables T where
  events := t.events.filter (fun e => e.eventId ≠ eventId)
  users := t.users
  seats := t.seats.filter (fun s => s.eventId ≠ eventId)
  reservations := t.reservations.filter (fun r => r.eventId ≠ eventId)
  payments := t.payments.filter
    (fun p => ∀ r ∈ t.reservations, r.reservationId = p.reservationId → r.eventId ≠ eventId)

def seedDemoData (createdAt : T) (t : Tables T) : Tables T :=
  let t := deleteEvent demoEventId t
  let t := { t with events := t.events ++
    [⟨demoEventId, "Open Air Countdown Live", "Seoul Olympic Hall", "2026-03-19T20:00:00+09:00",
      "2026-03-19T19:00:00+09:00", createdAt⟩] }
  let t := createUser "user-1" "Mina" "mina@example.com" createdAt t
  let t := createUser "user-2" "Jisoo" "jisoo@example.com" createdAt t
  let t := createUser "user-3" "Alex" "alex@example.com" createdAt t
  { t with seats := t.seats ++ buildDemoSeatRows createdAt }

theorem createUser_reservations (userId displayName email : String) (createdAt : T) (t : Tables T) :
    (createUser userId displayName email createdAt t).reservations = t.reservations := by
  unfold createUser
  split <;> rfl

theorem seedDemoData_reservations (createdAt : T) (t : Tables T) :
    (seedDemoData createdAt t).reservations = t.reservations.filter (fun r => r.eventId ≠ demoEventId) := by
  simp only [seedDemoData, createUser_reservations]
  rfl

end Repository

/-! ### All calls of the service -/

inductive TicketingCall (D : Type)
  | initializeTables
  | seedDemoData
  | service (call : ServiceCall D)

variable [LinearOrder T]

/-- A call, with what each of its operations meets. -/
abbrev TicketingRequest (T D : Type) := TicketingCall D × (ℕ → T × Option Error)

def TicketingRequest.run (normalizeTimestamp : D → Except Error T) (db : Database T) (c : TicketingRequest T D) :
    Database T :=
  match c.1 with
  | .initializeTables => db
  | .seedDemoData => match c.2 0 with
    | (createdAt, none) => (transaction db (Repository.seedDemoData createdAt)).2
    | (_, some _) => db
  | .service call => Request.run normalizeTimestamp db (call, c.2)

/-! ### The requests behind the rows -/

section Requests

omit [LinearOrder T]

/-- The row was inserted for the request. -/
def WrittenFor (normalizeTimestamp : D → Except Error T) (request : HeldReservationCreate D) (r : Reservation T) : Prop :=
  ∃ expiresAt now, normalizeTimestamp request.expiresAt = .ok expiresAt ∧ SameRow (heldRow request expiresAt now) r

/-- Every row that may run out was inserted for one of the requests. -/
def Requested (normalizeTimestamp : D → Except Error T) (requests : List (HeldReservationCreate D)) (t : Tables T) : Prop :=
  ∀ r ∈ t.reservations, r.expiresAt ≠ none → ∃ request ∈ requests, WrittenFor normalizeTimestamp request r

def TicketingCall.requests : TicketingCall D → List (HeldReservationCreate D)
  | .service (.createHeldReservation request) => [request]
  | _ => []

end Requests

/-- A row after an operation was there before, or is the one that the operation inserts. -/
theorem exec_rows (clock : T) {db : Database T} {op : RepoOp T} {r' : Reservation T}
    (h : r' ∈ (exec clock db op).2.tables.reservations) :
    (∃ r ∈ db.tables.reservations, SameRow r r') ∨
      ∃ id eventId seatId userId holdToken expiresAt now,
        op = .createHeldReservation id eventId seatId userId holdToken expiresAt now ∧
          r' = ⟨id, eventId, seatId, userId, .held, some holdToken, some expiresAt, now, now, none, none⟩ := by
  have same {t : Tables T} (ht : r' ∈ t.reservations) : ∃ r ∈ t.reservations, SameRow r r' := ⟨r', ht, SameRow.refl r'⟩
  have commits {α : Type} {f : Tables T → Tables T} {read : Tables T → α}
      (hr : r' ∈ (commit db f read).2.tables.reservations) :
      r' ∈ (f db.tables).reservations ∨ r' ∈ db.tables.reservations := by
    obtain ⟨e, hc⟩ | ⟨hc, -⟩ := commit_cases db f read
    · rw [hc] at hr
      exact .inr hr
    · rw [hc] at hr
      exact .inl hr
  have updates {id : String} {g : Reservation T → Reservation T} {t : Tables T}
      (hr : r' ∈ (updateReservation id g t).reservations) (hg : ∀ r, SameRow r (g r)) :
      ∃ r ∈ t.reservations, SameRow r r' := by
    obtain ⟨hmem, -⟩ | ⟨r, hmem, -, rfl⟩ := mem_updateReservation hr
    · exact same hmem
    · exact ⟨r, hmem, hg r⟩
  cases op with
  | expireStaleReservations now =>
      refine .inl ((commits h).elim (fun hr => ?_) same)
      obtain ⟨r, hmem, rfl⟩ := List.mem_map.mp hr
      exact ⟨r, hmem, expiredAt_sameRow now r⟩
  | createUser userId displayName email createdAt =>
      refine .inl ((commits h).elim (fun hr => same ?_) same)
      rwa [createUser_reservations] at hr
  | createHeldReservation id eventId seatId userId holdToken expiresAt now =>
      obtain hr | hr := commits h
      · obtain hr | hr := List.mem_append.mp hr
        · exact .inl (same hr)
        · exact .inr ⟨id, eventId, seatId, userId, holdToken, expiresAt, now, rfl, List.mem_singleton.mp hr⟩
      · exact .inl (same hr)
  | confirmReservation id payment now =>
      simp only [exec, bindAmount] at h
      split at h
      · refine .inl ((commits h).elim (fun hr => ?_) same)
        rw [Repository.confirmReservation] at hr
        obtain ⟨r, hmem, hsame⟩ := updates hr fun r => ⟨rfl, rfl, rfl, rfl, rfl, rfl⟩
        exact ⟨r, by rwa [upsertPayment_reservations] at hmem, hsame⟩
      · exact .inl (same h)
  | cancelReservation id now payment =>
      simp only [exec, bindAmount] at h
      split at h
      · refine .inl ((commits h).elim (fun hr => ?_) same)
        unfold Repository.cancelReservation at hr
        obtain ⟨r, hmem, hsame⟩ := updates hr fun r => ⟨rfl, rfl, rfl, rfl, rfl, rfl⟩
        refine ⟨r, ?_, hsame⟩
        cases payment with
        | none => exact hmem
        | some payment => rwa [upsertPayment_reservations] at hmem
      · exact .inl (same h)
  | expireReservation id now =>
      refine .inl ((commits h).elim (fun hr => ?_) same)
      rw [Repository.expireReservation] at hr
      exact updates hr fun r => ⟨rfl, rfl, rfl, rfl, rfl, rfl⟩
  | _ => exact .inl (same h)

section Runs

variable {normalizeTimestamp : D → Except Error T} {requests : List (HeldReservationCreate D)}

omit [LinearOrder T] in
theorem Requested.mono {requests' : List (HeldReservationCreate D)} {t : Tables T}
    (h : Requested normalizeTimestamp requests t) (hsub : requests ⊆ requests') :
    Requested normalizeTimestamp requests' t := by
  intro r hr hne
  obtain ⟨request, hmem, hwritten⟩ := h r hr hne
  exact ⟨request, hsub hmem, hwritten⟩

omit [LinearOrder T] in
theorem WrittenFor.sameRow {request : HeldReservationCreate D} {r r' : Reservation T}
    (h : WrittenFor normalizeTimestamp request r) (hsame : SameRow r r') : WrittenFor normalizeTimestamp request r' := by
  obtain ⟨expiresAt, now, hexpiresAt, hrow⟩ := h
  exact ⟨expiresAt, now, hexpiresAt, hrow.trans hsame⟩

/-- A row that the operation inserts belongs to one of the requests. -/
def Inserts (normalizeTimestamp : D → Except Error T) (requests : List (HeldReservationCreate D)) : RepoOp T → Prop
  | .createHeldReservation id eventId seatId userId holdToken expiresAt now =>
    ∃ request ∈ requests, WrittenFor normalizeTimestamp request
      ⟨id, eventId, seatId, userId, .held, some holdToken, some expiresAt, now, now, none, none⟩
  | _ => True

theorem inserts_method (c : ServiceCall D) (hc : (TicketingCall.service c).requests ⊆ requests) :
    (c.method normalizeTimestamp : Service.Method T _).Calls (Inserts normalizeTimestamp requests) := by
  have hspares : ∀ op : RepoOp T, Service.SparesRows op → Inserts normalizeTimestamp requests op := by
    intro op hop
    cases op with
    | createHeldReservation => cases hop
    | _ => trivial
  refine calls_method normalizeTimestamp c hspares (fun _ _ => trivial) ?_ (fun _ _ _ => trivial)
    fun _ _ _ _ _ _ => trivial
  rintro request rfl expiresAt now hexpiresAt
  exact ⟨request, hc (List.mem_singleton_self request), expiresAt, now, hexpiresAt, SameRow.refl _⟩

theorem Request.requested {db : Database T} (h : Requested normalizeTimestamp requests db.tables)
    (c : Request T D) (hc : (TicketingCall.service c.1).requests ⊆ requests) :
    Requested normalizeTimestamp requests (c.run normalizeTimestamp db).tables := by
  refine Program.events_stable (I := fun db : Database T => Requested normalizeTimestamp requests db.tables)
    (fun ev hev hbefore => ?_) (.inl h)
  have hop := (inserts_method c.1 hc).events _ _ ev hev
  rw [Program.events_after hev]
  obtain ⟨clock, _ | e⟩ := ev.env
  · intro r' hr' hne
    obtain ⟨r, hr, hsame⟩ | ⟨id, eventId, seatId, userId, holdToken, expiresAt, now, he, rfl⟩ := exec_rows clock hr'
    · obtain ⟨request, hmem, hwritten⟩ := hbefore r hr (hsame.expiresAt ▸ hne)
      exact ⟨request, hmem, hwritten.sameRow hsame⟩
    · rw [he] at hop
      exact hop
  · exact hbefore

theorem TicketingRequest.run_requested {db : Database T} (h : Requested normalizeTimestamp requests db.tables)
    (c : TicketingRequest T D) :
    Requested normalizeTimestamp (requests ++ c.1.requests) (c.run normalizeTimestamp db).tables := by
  have hkept := h.mono (List.subset_append_left requests c.1.requests)
  obtain ⟨call, env⟩ := c
  cases call with
  | initializeTables => exact hkept
  | seedDemoData =>
      simp only [TicketingRequest.run]
      obtain ⟨createdAt, _ | e⟩ := env 0
      · dsimp only
        obtain ⟨-, ht⟩ | ⟨-, ht⟩ := transaction_cases db (Repository.seedDemoData createdAt)
        · intro r hr
          rw [ht, seedDemoData_reservations] at hr
          exact hkept r (List.mem_of_mem_filter hr)
        · rw [ht]
          exact hkept
      · exact hkept
  | service call => exact Request.requested hkept (call, env) (List.subset_append_right requests _)

/-- Whatever calls have run, every row that may run out was inserted for a request. -/
theorem runs_requested {db : Database T} (h : Requested normalizeTimestamp requests db.tables)
    (calls : List (TicketingRequest T D)) :
    Requested normalizeTimestamp (requests ++ calls.flatMap (fun c => c.1.requests))
      (calls.foldl (TicketingRequest.run normalizeTimestamp) db).tables := by
  induction calls generalizing db requests with
  | nil => simpa using h
  | cons c calls ih => simpa using ih (TicketingRequest.run_requested h c)

end Runs

end Ticketing.TicketingApi
