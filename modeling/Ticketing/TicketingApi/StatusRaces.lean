import Ticketing.TicketingApi.Guarded
import Ticketing.Lib.Pool

namespace Ticketing.TicketingApi

open Python Interaction Repository

variable {T D α ι : Type}

/-! ### Concurrent calls -/

inductive ServiceCall (D : Type)
  | listEvents
  | listEventSeats (eventId : String)
  | createHeldReservation (request : HeldReservationCreate D)
  | confirmReservation (reservationId : String) (request : ConfirmReservationRequest)
  | cancelReservation (reservationId : String) (request : CancelReservationRequest)
  | expireReservation (reservationId : String)
  | listUserReservations (userId : String)
  | listConfirmedSeats (eventId : String)
  | listConfirmedReservations (limit : Option Int)
  | listStaleHeldReservations (limit : Int)
  | expireStaleReservations (limit : Int)

inductive ServiceResult (T : Type)
  | events (rows : List (Event T))
  | seats (rows : List (SeatRecord T))
  | reservation (record : Option (ReservationRecord T))
  | created (record : Option (ReservationRecord T)) (created : Bool)
  | records (rows : List (ReservationRecord T))
  | reservations (rows : List (Reservation T))
  | expired (records : List (Option (ReservationRecord T)))

def ServiceCall.method [DecidableEq T] (normalizeTimestamp : D → Except Error T) :
    ServiceCall D → Service.Method T (ServiceResult T)
  | .listEvents => do return .events (← Service.listEvents)
  | .listEventSeats eventId => do return .seats (← Service.listEventSeats eventId)
  | .createHeldReservation request => do
    let r ← Service.createHeldReservation normalizeTimestamp request
    return .created r.1 r.2
  | .confirmReservation reservationId request => do
    return .reservation (← Service.confirmReservation reservationId request)
  | .cancelReservation reservationId request => do
    return .reservation (← Service.cancelReservation reservationId request)
  | .expireReservation reservationId => do return .reservation (← Service.expireReservation reservationId)
  | .listUserReservations userId => do return .records (← Service.listUserReservations userId)
  | .listConfirmedSeats eventId => do return .reservations (← Service.listConfirmedSeats eventId)
  | .listConfirmedReservations limit => do return .reservations (← Service.listConfirmedReservations limit)
  | .listStaleHeldReservations limit => do return .reservations (← Service.listStaleHeldReservations limit)
  | .expireStaleReservations limit => do return .expired (← Service.expireStaleReservations limit)

theorem guarded_method [DecidableEq T] (normalizeTimestamp : D → Except Error T) (c : ServiceCall D) :
    Guarded none (c.method normalizeTimestamp : Service.Method T _) := by
  cases c with
  | listEvents => exact (guarded_call rfl none).bind fun _ => trivial
  | listEventSeats eventId => exact (guarded_reader (guarded_requireEvent none eventId) rfl).bind fun _ => trivial
  | createHeldReservation request => exact (guarded_createHeldReservation _ request).bind fun _ => trivial
  | confirmReservation id request => exact (guarded_confirmReservation id request).bind fun _ => trivial
  | cancelReservation id request => exact (guarded_cancelReservation id request).bind fun _ => trivial
  | expireReservation id => exact (guarded_expireReservation id).bind fun _ => trivial
  | listUserReservations userId => exact (guarded_reader (guarded_requireUser none userId) rfl).bind fun _ => trivial
  | listConfirmedSeats eventId => exact (guarded_reader (guarded_requireEvent none eventId) rfl).bind fun _ => trivial
  | listConfirmedReservations limit => exact (guarded_call rfl none).bind fun _ => trivial
  | listStaleHeldReservations limit =>
      refine Guarded.bind (guarded_timestamp fun _ => ?_) fun _ => trivial
      exact guarded_call rfl none
  | expireStaleReservations limit => exact (guarded_expireStaleReservations limit).bind fun _ => trivial

/-- The next operation of the method, clock readings apart, gives the row a status. -/
inductive AboutToWrite : Service.Method T α → String → ReservationStatus → Prop
  | write {op : RepoOp T} {k : Except Error op.Res → Service.Method T α} {reservationId : String}
      {S : ReservationStatus} (h : op.writes = some (reservationId, S)) : AboutToWrite (.call op k) reservationId S
  | clock {k : Except Error T → Service.Method T α} {x : Except Error T} {reservationId : String}
      {S : ReservationStatus} (h : AboutToWrite (k x) reservationId S) :
      AboutToWrite (.call .currentTimestamp k) reservationId S

theorem Guarded.aboutToWrite {g : Option String} {p : Service.Method T α} {id : String} {S : ReservationStatus}
    (h : Guarded g p) (hw : AboutToWrite p id S) : g = some id := by
  induction hw generalizing g with
  | write hw => exact h.1 _ hw
  | clock _ ih => exact ih (h.2 _)

def finished : Service.Method T α → Bool
  | .ret _ => true
  | _ => false

theorem guarded_finished {p : Service.Method T α} (h : finished p = true) : Guarded none p := by
  cases p with
  | ret a => trivial
  | raise e => trivial
  | call op k => cases h

variable [LinearOrder T]

/-- A configuration of concurrent calls. -/
abbrev Calls (ι T α : Type) := Pool ι (Database T) (RepoOp T) RepoOp.Res Error α

/-- Whoever is about to write a row has read it as `HELD`, and it still is, or
it has the status to be written. -/
def Checked (c : Calls ι T α) : Prop :=
  ∀ j, ∃ g, Guarded g (c.threads j) ∧ ∀ id S, AboutToWrite (c.threads j) id S →
    status c.state id = some .held ∨ status c.state id = some S

theorem checked_start (normalizeTimestamp : D → Except Error T) (db : Database T) (calls : ι → ServiceCall D) :
    Checked (⟨db, fun i => (calls i).method normalizeTimestamp⟩ : Calls ι T _) := by
  intro j
  have hg := guarded_method normalizeTimestamp (calls j)
  exact ⟨none, hg, fun id S hw => nomatch hg.aboutToWrite hw⟩

/-- What a call's own operation leaves behind for its next one. -/
theorem checked_next {g : Option String} {op : RepoOp T} {k : Except Error op.Res → Service.Method T α}
    {db : Database T} (hg : Guarded g (.call op k)) (clock : T)
    (hs : ∀ id S, AboutToWrite (.call op k) id S → status db id = some .held ∨ status db id = some S) {id : String}
    {S : ReservationStatus} (hw : AboutToWrite (k (exec clock db op).1) id S) :
    status (exec clock db op).2 id = some .held ∨ status (exec clock db op).2 id = some S := by
  rcases nextGuard_held ((hg.2 (exec clock db op).1).aboutToWrite hw) with ⟨rfl, _⟩ | ⟨_, hheld⟩
  · exact hs id S (.clock hw)
  · exact .inl hheld

variable [DecidableEq ι]

/-- The turn gives no row another status than the one that another call, past
its check of the row, is about to write. -/
def Undisturbed (c : Calls ι T α) (t : ι × T) : Prop :=
  ∀ j ≠ t.1, ∀ id S, AboutToWrite (c.threads j) id S →
    status (c.step exec t).state id = status c.state id ∨ status (c.step exec t).state id = some S

theorem checked_step {c : Calls ι T α} {t : ι × T} (hu : Undisturbed c t) (hc : Checked c) :
    Checked (c.step exec t) := by
  obtain ⟨i, clock⟩ := t
  intro j
  obtain ⟨g, hg, hs⟩ := hc j
  by_cases hj : j = i
  · subst j
    cases hp : c.threads i with
    | ret a => simpa [Pool.step, hp] using hc i
    | raise e => simpa [Pool.step, hp] using hc i
    | call op k =>
        rw [hp] at hg hs
        rw [Pool.step_call c i clock hp]
        refine ⟨_, by simpa using hg.2 (exec clock c.state op).1, fun id S hw => ?_⟩
        simp only [Function.update_self] at hw
        exact checked_next hg clock hs hw
  · rw [Pool.step_threads_ne c hj]
    refine ⟨g, hg, fun id S hw => ?_⟩
    rcases hu j hj id S hw with h | h
    · rw [h]; exact hs id S hw
    · exact .inr h

theorem status_step {c : Calls ι T α} {t : ι × T} (hc : Checked c) {id : String} {S : ReservationStatus}
    (hS : S ≠ .held) (h : status c.state id = some S) : status (c.step exec t).state id = some S := by
  obtain ⟨i, clock⟩ := t
  cases hp : c.threads i with
  | ret a => simpa [Pool.step, hp] using h
  | raise e => simpa [Pool.step, hp] using h
  | call op k =>
      rw [Pool.step_call c i clock hp]
      obtain ⟨S', hS', hcase⟩ := exec_status clock op h
      rcases hcase with rfl | hw | rfl
      · exact hS'
      · obtain ⟨g, _, hs⟩ := hc i
        rcases hs id S' (by rw [hp]; exact .write hw) with he | he
        · rw [h] at he; cases he; exact absurd rfl hS
        · rw [h] at he; cases he; exact hS'
      · exact absurd rfl hS

/-- Once a reservation is confirmed, cancelled or expired it keeps its status. -/
def StatusesFinal (c : Calls ι T α) (schedule : List (ι × T)) : Prop :=
  ∀ ts us, schedule = ts ++ us → ∀ id S, S ≠ .held → status (c.runs exec ts).state id = some S →
    status (c.runs exec schedule).state id = some S

theorem statusesFinal_of_undisturbed (normalizeTimestamp : D → Except Error T) (db : Database T)
    (calls : ι → ServiceCall D) (schedule : List (ι × T))
    (h : Pool.Throughout exec Undisturbed ⟨db, fun i => (calls i).method normalizeTimestamp⟩ schedule) :
    StatusesFinal (⟨db, fun i => (calls i).method normalizeTimestamp⟩ : Calls ι T _) schedule := by
  rintro ts us rfl id S hS hs
  obtain ⟨hts, hus⟩ := Pool.throughout_append.mp h
  have hstart := checked_start normalizeTimestamp db calls
  have hc := Pool.runs_invariant (fun c t => checked_step) hts hstart
  have hstep (c : Calls ι T (ServiceResult T)) (t : ι × T) (hu : Undisturbed c t)
      (hi : Checked c ∧ status c.state id = some S) :
      Checked (c.step exec t) ∧ status (c.step exec t).state id = some S :=
    ⟨checked_step hu hi.1, status_step hi.1 hS hi.2⟩
  rw [Pool.runs_append]
  exact (Pool.runs_invariant hstep hus ⟨hc, hs⟩).2

/-- A call that runs while no other is past its check is undisturbed. -/
theorem throughout_alone {c : Calls ι T α} {i : ι} (hc : ∀ j ≠ i, Guarded none (c.threads j)) {ts : List (ι × T)}
    (hts : ∀ t ∈ ts, t.1 = i) : Pool.Throughout exec Undisturbed c ts := by
  induction ts generalizing c with
  | nil => trivial
  | cons t ts ih =>
      obtain ⟨i', clock⟩ := t
      obtain rfl : i' = i := hts (i', clock) (by simp)
      refine ⟨fun j hj id S hw => ?_, ih (fun j hj => ?_) fun t ht => hts t (by simp [ht])⟩
      · exact nomatch (hc j hj).aboutToWrite hw
      · rw [Pool.step_threads_ne c hj]
        exact hc j hj

/-! ### A confirmation that meets a cancellation -/

def oneHold : Database Nat where
  tables :=
    { events := [⟨"e", "title", "venue", "2026-03-19", "2026-03-18", 0⟩]
      users := [⟨"u", "Mina", "mina@example.com", 0⟩]
      seats := [⟨"e", "s", "A-1", "A", "1", 1, 100, 0⟩]
      reservations := [⟨"r", "e", "s", "u", .held, some "token", some 100, 0, 0, none, none⟩]
      payments := [] }
  valid := by decide +kernel

def confirmAndCancel : Calls Bool Nat (ServiceResult Nat) :=
  ⟨oneHold, fun i => (if i then ServiceCall.confirmReservation "r" ⟨"p", 100, "mock-pay", "p"⟩
    else .cancelReservation "r" ⟨none, none, none, none, none⟩).method Except.ok⟩

/-- The confirmation checks the row, the cancellation runs, the confirmation goes on. -/
theorem confirmAndCancel_overwrites : ¬ StatusesFinal confirmAndCancel
    (List.replicate 3 (true, 1) ++ List.replicate 5 (false, 2) ++ List.replicate 2 (true, 3)) := by
  intro h
  have hcancelled : status (confirmAndCancel.runs exec
      (List.replicate 3 (true, 1) ++ List.replicate 5 (false, 2))).state "r" = some .cancelled := by decide +kernel
  have hconfirmed : status (confirmAndCancel.runs exec
      (List.replicate 3 (true, 1) ++ List.replicate 5 (false, 2) ++ List.replicate 2 (true, 3))).state "r" =
        some .confirmed := by decide +kernel
  have hkept := h _ _ rfl "r" .cancelled (by decide) hcancelled
  rw [hconfirmed] at hkept
  cases hkept

theorem throughout_reading {c : Calls ι T α} {ts : List (ι × T)} (h : Pool.Throughout exec
    (fun c t => (c.step exec t).state.tables.reservations = c.state.tables.reservations) c ts) :
    Pool.Throughout exec Undisturbed c ts := by
  refine h.mono fun c t ht j _ id S _ => .inl ?_
  simp only [status, findReservation, ht]

/-- The cancellation expires overdue rows while the confirmation is past its check, and reads the row after the update. -/
theorem confirm_before_cancel_final : StatusesFinal confirmAndCancel
    (List.replicate 3 (true, 1) ++ List.replicate 2 (false, 2) ++ List.replicate 2 (true, 3) ++
      List.replicate 3 (false, 4)) := by
  refine statusesFinal_of_undisturbed Except.ok oneHold
    (fun i : Bool => if i then .confirmReservation "r" ⟨"p", 100, "mock-pay", "p"⟩
      else .cancelReservation "r" ⟨none, none, none, none, none⟩) _ ?_
  refine Pool.throughout_append.mpr ⟨Pool.throughout_append.mpr ⟨Pool.throughout_append.mpr ⟨?_, ?_⟩, ?_⟩, ?_⟩
  · exact throughout_alone (i := true) (fun j _ => guarded_method Except.ok _) (by simp)
  · exact throughout_reading (by decide +kernel)
  · refine throughout_alone (i := true) (fun j hj => ?_) (by simp)
    obtain rfl := Bool.eq_false_of_not_eq_true hj
    have hsweep : Guarded none (.call (.expireStaleReservations 2) _) :=
      (guarded_method Except.ok (.cancelReservation "r" ⟨none, none, none, none, none⟩)).2 (.ok 2)
    exact hsweep.2 _
  · refine throughout_alone (i := false) (fun j hj => ?_) (by simp)
    obtain rfl := Bool.eq_true_of_not_eq_false hj
    exact guarded_finished (by decide +kernel)

end Ticketing.TicketingApi
