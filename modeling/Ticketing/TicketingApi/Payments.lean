import Ticketing.TicketingApi.Calls
import Ticketing.TicketingApi.StatusRaces

namespace Ticketing.TicketingApi

open Python Interaction Repository Service

variable {T D α β : Type}

def paymentsOf (t : Tables T) (reservationId : String) : List (Payment T) :=
  t.payments.filter (fun p => p.reservationId = reservationId)

/-- What the status of a reservation says about its columns and its payments. -/
def Accounted (r : Reservation T) (payments : List (Payment T)) : Prop :=
  match r.status with
  | .held => payments = [] ∧ r.confirmedAt = none ∧ r.cancelledAt = none
  | .expired => payments = [] ∧ r.confirmedAt = none ∧ r.cancelledAt = none
  | .confirmed => (∃ p, payments = [p] ∧ p.status = .succeeded) ∧ r.confirmedAt ≠ none ∧ r.cancelledAt = none
  | .cancelled => (payments = [] ∨ ∃ p, payments = [p] ∧ (p.status = .failed ∨ p.status = .cancelled)) ∧
      r.confirmedAt = none ∧ r.cancelledAt ≠ none

def Ledger (t : Tables T) : Prop := ∀ r ∈ t.reservations, Accounted r (paymentsOf t r.reservationId)

theorem accounted_held {r : Reservation T} {payments : List (Payment T)} (hr : r.status = .held) :
    Accounted r payments ↔ payments = [] ∧ r.confirmedAt = none ∧ r.cancelledAt = none := by
  simp only [Accounted, hr]

/-! ### Writes to a held row -/

theorem Ledger.update {t : Tables T} (h : Ledger t) {f : Reservation T → Reservation T}
    (hid : ∀ r, (f r).reservationId = r.reservationId)
    (hf : ∀ r ∈ t.reservations, ∀ payments, Accounted r payments → Accounted (f r) payments) :
    Ledger (updateReservations f t) := by
  intro r' hr'
  obtain ⟨r, hr, rfl⟩ := List.mem_map.mp hr'
  rw [hid]
  exact hf r hr _ (h r hr)

theorem Ledger.write {t t' : Tables T} (h : Ledger t) {id : String} {g : Reservation T → Reservation T}
    (hrows : t'.reservations = t.reservations) (hother : ∀ id', id' ≠ id → paymentsOf t' id' = paymentsOf t id')
    (hid : ∀ r, (g r).reservationId = r.reservationId)
    (hg : ∀ r ∈ t.reservations, r.reservationId = id → Accounted (g r) (paymentsOf t' id)) :
    Ledger (updateReservation id g t') := by
  intro r' hr'
  obtain ⟨r, hr, rfl⟩ := List.mem_map.mp hr'
  rw [hrows] at hr
  show Accounted (if r.reservationId = id then g r else r) (paymentsOf t' _)
  split
  next he =>
    rw [hid, he]
    exact hg r hr he
  next hne =>
    rw [hother _ hne]
    exact h r hr

theorem upsertPayment_fresh {t : Tables T} {id : String} (h : paymentsOf t id = []) (p : PaymentPayload) (now : T) :
    upsertPayment id p now t = { t with payments := t.payments ++
      [⟨p.paymentId, id, p.paymentStatus, p.amount, p.provider, p.providerRef, now, now⟩] } := by
  have hnew : id ∉ t.payments.map Payment.reservationId := by
    rintro hid
    obtain ⟨q, hq, he⟩ := List.mem_map.mp hid
    exact List.filter_eq_nil_iff.mp h q hq (by simpa using he)
  rw [upsertPayment, if_neg hnew]

theorem paymentsOf_append (t : Tables T) (q : Payment T) (id : String) :
    paymentsOf { t with payments := t.payments ++ [q] } id =
      paymentsOf t id ++ if q.reservationId = id then [q] else [] := by
  simp [paymentsOf, List.filter_append, List.filter_cons]

theorem row_held {db : Database T} {id : String} (h : status db id = some .held) {r : Reservation T}
    (hr : r ∈ db.tables.reservations) (hid : r.reservationId = id) : r.status = .held := by
  subst hid
  rw [status, findReservation_of_mem db.valid hr] at h
  exact Option.some.inj h

/-- The first payment of a held row, and its new status. -/
theorem Ledger.charge {db : Database T} (h : Ledger db.tables) {id : String} (hheld : status db id = some .held)
    (p : PaymentPayload) (now : T) {g : Reservation T → Reservation T}
    (hid : ∀ r, (g r).reservationId = r.reservationId)
    (hg : ∀ r : Reservation T, r.confirmedAt = none → r.cancelledAt = none →
      ∀ q : Payment T, q.status = p.paymentStatus → Accounted (g r) [q]) :
    Ledger (updateReservation id g (upsertPayment id p now db.tables)) ∧
      db.tables.payments ⊆ (updateReservation id g (upsertPayment id p now db.tables)).payments := by
  have hnone : paymentsOf db.tables id = [] := by
    obtain ⟨r, hr, hst⟩ := Option.map_eq_some_iff.mp hheld
    obtain ⟨hmem, rfl⟩ := findReservation_mem hr
    exact ((accounted_held hst).mp (h r hmem)).1
  rw [upsertPayment_fresh hnone]
  refine ⟨h.write rfl (fun id' hne => ?_) hid (fun r hr hrid => ?_), List.subset_append_left _ _⟩
  · rw [paymentsOf_append, if_neg (Ne.symm hne), List.append_nil]
  · obtain ⟨-, hconfirmed, hcancelled⟩ := (accounted_held (row_held hheld hr hrid)).mp (h r hr)
    rw [paymentsOf_append, if_pos rfl, hnone]
    exact hg r hconfirmed hcancelled _ rfl

/-! ### One operation -/

/-- The operation books no payment of a cancelled reservation as `SUCCEEDED`. -/
def Books : RepoOp T → Prop
  | .cancelReservation _ _ (some payment) => payment.paymentStatus = .failed ∨ payment.paymentStatus = .cancelled
  | _ => True

variable [LinearOrder T]

theorem exec_ledger (clock : T) {db : Database T} (h : Ledger db.tables) {op : RepoOp T}
    (hheld : ∀ w, op.writes = some w → status db w.1 = some .held) (hop : Books op) :
    Ledger (exec clock db op).2.tables ∧ db.tables.payments ⊆ (exec clock db op).2.tables.payments := by
  have same : Ledger db.tables ∧ db.tables.payments ⊆ db.tables.payments := ⟨h, List.Subset.refl _⟩
  have commits (f : Tables T → Tables T)
      (hf : Valid (f db.tables) → Ledger (f db.tables) ∧ db.tables.payments ⊆ (f db.tables).payments) :
      Ledger (transaction db f).2.tables ∧ db.tables.payments ⊆ (transaction db f).2.tables.payments := by
    have hvalid := (transaction db f).2.valid
    rcases transaction_cases db f with ⟨-, hc⟩ | ⟨-, hc⟩
    · rw [hc] at hvalid ⊢
      exact hf hvalid
    · rwa [hc]
  cases op with
  | expireStaleReservations now =>
      refine commits _ fun _ => ⟨h.update (fun r => ?_) fun r hr payments hacc => ?_, List.Subset.refl _⟩
      · split <;> rfl
      · split
        next hstale => exact (accounted_held hstale.1).mp hacc
        next => exact hacc
  | createUser userId displayName email createdAt =>
      refine commits _ fun _ => ?_
      unfold createUser
      split <;> exact same
  | createHeldReservation id eventId seatId userId holdToken expiresAt now =>
      refine commits _ fun hvalid => ⟨fun r hr => ?_, List.Subset.refl _⟩
      rcases List.mem_append.mp hr with hr | hr
      · exact h r hr
      · obtain rfl := List.mem_singleton.mp hr
        refine ⟨List.filter_eq_nil_iff.mpr fun p hp hpid => ?_, rfl, rfl⟩
        have hpid : p.reservationId = id := of_decide_eq_true hpid
        have hold : id ∈ db.tables.reservations.map Reservation.reservationId :=
          hpid ▸ db.valid.paymentReservations p hp
        have hids := hvalid.reservationIds
        rw [Repository.createHeldReservation, List.map_append] at hids
        exact List.disjoint_of_nodup_append hids hold (by simp)
  | confirmReservation id payment now =>
      simp only [exec, bindAmount]
      split
      · refine commits _ fun _ => h.charge (hheld _ rfl) _ now (fun r => rfl) fun r hconfirmed hcancelled q hq => ?_
        exact ⟨⟨q, rfl, hq⟩, Option.some_ne_none now, hcancelled⟩
      · exact same
  | cancelReservation id now payment =>
      simp only [exec, bindAmount]
      split
      · refine commits _ fun _ => ?_
        cases payment with
        | none =>
            refine ⟨h.write rfl (fun _ _ => rfl) (fun r => rfl) fun r hr hid => ?_, List.Subset.refl _⟩
            have hrow := (accounted_held (row_held (hheld _ rfl) hr hid)).mp (h r hr)
            rw [← hid]
            exact ⟨.inl hrow.1, hrow.2.1, Option.some_ne_none now⟩
        | some payment =>
            refine h.charge (hheld _ rfl) payment now (fun r => rfl) fun r hconfirmed hcancelled q hq => ?_
            have hop : payment.paymentStatus = .failed ∨ payment.paymentStatus = .cancelled := hop
            rw [← hq] at hop
            exact ⟨.inr ⟨q, rfl, hop⟩, hconfirmed, Option.some_ne_none now⟩
      · exact same
  | expireReservation id now =>
      refine commits _ fun _ => ⟨h.write rfl (fun _ _ => rfl) (fun r => rfl) fun r hr hid => ?_, List.Subset.refl _⟩
      rw [← hid]
      exact (accounted_held (row_held (hheld _ rfl) hr hid)).mp (h r hr)
  | _ => exact same

/-! ### Whole calls -/

section Books

omit [LinearOrder T]

theorem validateCancelPaymentPayload_status {request : CancelReservationRequest} {payment : PaymentPayload}
    (h : validateCancelPaymentPayload request = .ok (some payment)) :
    payment.paymentStatus = .failed ∨ payment.paymentStatus = .cancelled := by
  unfold validateCancelPaymentPayload at h
  split at h
  next => cases h
  next status _ _ _ =>
    cases h
    cases status with
    | failed => exact .inl rfl
    | cancelled => exact .inr rfl
  next => cases h

/-- The operations of a call: plain ones, and those of the one request that it carries out. -/
theorem calls_method [DecidableEq T] {P : RepoOp T → Prop} (normalizeTimestamp : D → Except Error T) (c : ServiceCall D)
    (h : ∀ op : RepoOp T, SparesRows op → P op) (hexpire : ∀ id now, P (.expireReservation id now))
    (hcreate : ∀ request, c = .createHeldReservation request → ∀ expiresAt now,
      normalizeTimestamp request.expiresAt = .ok expiresAt → P (.createHeldReservation request.reservationId
        request.eventId request.seatId request.userId request.holdToken expiresAt now))
    (hconfirm : ∀ id payment now, P (.confirmReservation id payment now))
    (hcancel : ∀ id request, c = .cancelReservation id request → ∀ payment now,
      validateCancelPaymentPayload request = .ok payment → P (.cancelReservation id now payment)) :
    (c.method normalizeTimestamp : Service.Method T _).Calls P := by
  cases c with
  | listEvents => exact (calls_call (h .listEvents trivial)).bind fun _ => trivial
  | listEventSeats eventId => exact (calls_reader h (calls_requireEvent h eventId) (h (.listSeats eventId) trivial)).bind fun _ => trivial
  | createHeldReservation request =>
      exact (calls_createHeldReservation h _ request (hcreate request rfl)).bind fun _ => trivial
  | confirmReservation id request =>
      exact (calls_confirmReservation h id request (hconfirm id)).bind fun _ => trivial
  | cancelReservation id request =>
      exact (calls_cancelReservation h id request (hcancel id request rfl)).bind fun _ => trivial
  | expireReservation id => exact (calls_expireReservation h id (hexpire id)).bind fun _ => trivial
  | listUserReservations userId => exact (calls_reader h (calls_requireUser h userId) (h (.listUserReservations userId) trivial)).bind fun _ => trivial
  | listConfirmedSeats eventId => exact (calls_reader h (calls_requireEvent h eventId) (h (.listConfirmedSeats eventId) trivial)).bind fun _ => trivial
  | listConfirmedReservations limit => exact (calls_call (h (.listConfirmedReservations limit) trivial)).bind fun _ => trivial
  | listStaleHeldReservations limit =>
      refine Program.Calls.bind ?_ fun _ => trivial
      exact (calls_timestamp h).bind fun now => calls_call (h (.listStaleHeldReservations now limit) trivial)
  | expireStaleReservations limit =>
      exact (calls_expireStaleReservations h hexpire limit).bind fun _ => trivial

theorem books_method [DecidableEq T] (normalizeTimestamp : D → Except Error T) (c : ServiceCall D) :
    (c.method normalizeTimestamp : Service.Method T _).Calls Books := by
  have hspares : ∀ op : RepoOp T, SparesRows op → Books op := by
    intro op hop
    cases op with
    | cancelReservation id now payment => cases hop
    | _ => trivial
  refine calls_method normalizeTimestamp c hspares (fun _ _ => trivial) (fun _ _ _ _ _ => trivial)
    (fun _ _ _ => trivial) fun id request hc payment now hpayment => ?_
  cases payment with
  | none => trivial
  | some payment => exact validateCancelPaymentPayload_status hpayment

end Books

/-- An operation that may also raise before it has written anything, as one without a connection does. -/
def attempt (e : T × Option Error) (db : Database T) (op : RepoOp T) : Except Error op.Res × Database T :=
  match e.2 with
  | none => exec e.1 db op
  | some error => (.error error, db)

theorem attempt_ledger (e : T × Option Error) {db : Database T} (h : Ledger db.tables) {op : RepoOp T}
    (hheld : ∀ w, op.writes = some w → status db w.1 = some .held) (hop : Books op) :
    Ledger (attempt e db op).2.tables ∧ db.tables.payments ⊆ (attempt e db op).2.tables.payments := by
  obtain ⟨clock, _ | error⟩ := e
  · exact exec_ledger clock h hheld hop
  · exact ⟨h, List.Subset.refl _⟩

theorem nextGuard_attempt {g : Option String} {op : RepoOp T} {e : T × Option Error} {db : Database T} {id : String}
    (h : nextGuard g op (attempt e db op).1 = some id) :
    op = .currentTimestamp ∧ g = some id ∨
      op = .getReservation id ∧ status (attempt e db op).2 id = some .held := by
  obtain ⟨clock, _ | error⟩ := e
  · exact nextGuard_held h
  · cases op with
    | currentTimestamp => exact .inl ⟨rfl, h⟩
    | _ => cases h

theorem Guarded.ledger {g : Option String} {p : Method T α} (h : Guarded g p) (hp : p.Calls Books)
    (env : ℕ → T × Option Error) {db : Database T} (hg : ∀ id, g = some id → status db id = some .held)
    (hl : Ledger db.tables) : ∀ ev ∈ p.events attempt db env,
      Ledger ev.after.tables ∧ ev.before.tables.payments ⊆ ev.after.tables.payments := by
  induction p generalizing g env db with
  | ret a => simp
  | raise e => simp
  | call op k ih =>
      have hop := attempt_ledger (env 0) hl (fun w hw => hg _ (h.1 w hw)) hp.1
      simp only [Program.events_call, List.mem_cons, forall_eq_or_imp]
      refine ⟨hop, ih _ (h.2 _) (hp.2 _) _ (fun id hid => ?_) hop.1⟩
      rcases nextGuard_attempt hid with ⟨rfl, hid⟩ | ⟨-, hheld⟩
      · obtain ⟨clock, _ | error⟩ := env 0
        · exact hg id hid
        · exact hg id hid
      · exact hheld

/-! ### Sequences of calls -/

/-- A call, with what each of its operations meets. -/
abbrev Request (T D : Type) := ServiceCall D × (ℕ → T × Option Error)

def Request.events (normalizeTimestamp : D → Except Error T) (db : Database T) (c : Request T D) :
    List (Program.Event (T × Option Error) (Database T) (RepoOp T)) :=
  (c.1.method normalizeTimestamp).events attempt db c.2

def Request.run (normalizeTimestamp : D → Except Error T) (db : Database T) (c : Request T D) : Database T :=
  ((c.1.method normalizeTimestamp).run attempt db c.2).2

variable {normalizeTimestamp : D → Except Error T}

theorem Request.ledger {db : Database T} (h : Ledger db.tables) (c : Request T D) :
    ∀ ev ∈ c.events normalizeTimestamp db,
      Ledger ev.after.tables ∧ ev.before.tables.payments ⊆ ev.after.tables.payments :=
  (guarded_method normalizeTimestamp c.1).ledger (books_method normalizeTimestamp c.1) c.2 nofun h

theorem Request.run_ledger {db : Database T} (h : Ledger db.tables) (c : Request T D) :
    Ledger (c.run normalizeTimestamp db).tables ∧
      db.tables.payments ⊆ (c.run normalizeTimestamp db).tables.payments := by
  constructor
  · exact Program.events_stable (I := fun db : Database T => Ledger db.tables)
      (fun ev hev _ => (c.ledger h ev hev).1) (.inl h)
  · intro p hp
    exact Program.events_stable (I := fun db : Database T => p ∈ db.tables.payments)
      (fun ev hev hmem => (c.ledger h ev hev).2 hmem) (.inl hp)

theorem runs_ledger {db : Database T} (h : Ledger db.tables) (calls : List (Request T D)) :
    Ledger (calls.foldl (Request.run normalizeTimestamp) db).tables ∧
      db.tables.payments ⊆ (calls.foldl (Request.run normalizeTimestamp) db).tables.payments := by
  refine List.foldlRecOn
    (motive := fun db' : Database T => Ledger db'.tables ∧ db.tables.payments ⊆ db'.tables.payments) calls _
    ⟨h, List.Subset.refl _⟩ fun db' h' c _ => ?_
  obtain ⟨hledger, hkept⟩ := c.run_ledger h'.1
  exact ⟨hledger, List.Subset.trans h'.2 hkept⟩

omit [LinearOrder T] in
theorem confirmed_once (db : Database T) (seat : String × String) :
    (db.tables.reservations.filter (fun r => r.status = .confirmed ∧ r.seat = seat)).length ≤ 1 := by
  have hcount := List.nodup_iff_count_le_one.mp db.valid.confirmedSeats seat
  rw [List.count, List.countP_map, List.countP_filter, List.countP_eq_length_filter] at hcount
  simpa [Function.comp_def, Bool.and_comm, beq_eq_decide] using hcount

/-- On a database without reservations, every sequence of calls, the failing ones included, keeps
statuses and payments together, and no operation of any call takes a payment away or changes it. -/
theorem payments_follow {db : Database T} (h : db.tables.reservations = []) (calls : List (Request T D)) :
    let after := calls.foldl (Request.run normalizeTimestamp) db
    (∀ r ∈ after.tables.reservations, Accounted r (paymentsOf after.tables r.reservationId)) ∧
      (∀ seat, (after.tables.reservations.filter (fun r => r.status = .confirmed ∧ r.seat = seat)).length ≤ 1) ∧
      (∀ c : Request T D, ∀ ev ∈ c.events normalizeTimestamp after,
        ev.before.tables.payments ⊆ ev.after.tables.payments) ∧
      ∀ more : List (Request T D),
        after.tables.payments ⊆ (more.foldl (Request.run normalizeTimestamp) after).tables.payments := by
  intro after
  have hledger : Ledger after.tables := (runs_ledger (fun r hr => by rw [h] at hr; cases hr) calls).1
  exact ⟨hledger, confirmed_once after, fun c ev hev => (c.ledger hledger ev hev).2,
    fun more => (runs_ledger hledger more).2⟩

def noHolds : Database ℕ where
  tables := { oneHold.tables with reservations := [] }
  valid := by decide +kernel

/-- Two holds of one seat; the first is confirmed at the second attempt, the second one is refused and cancelled. -/
def twoHolds : List (Request ℕ ℕ) :=
  [(.createHeldReservation ⟨"r", "e", "s", "u", "token", 100⟩, fun _ => (1, none)),
    (.createHeldReservation ⟨"q", "e", "s", "u", "other", 100⟩, fun _ => (2, none)),
    (.confirmReservation "r" ⟨"p", 100, "mock-pay", "p"⟩,
      fun _ => (3, some ⟨.osError, "[Errno 30] Read-only file system"⟩)),
    (.confirmReservation "r" ⟨"p", 100, "mock-pay", "p"⟩, fun _ => (4, none)),
    (.confirmReservation "q" ⟨"p'", 100, "mock-pay", "p'"⟩, fun _ => (5, none)),
    (.cancelReservation "q" ⟨some "p'", some .failed, some 100, some "mock-pay", some "p'"⟩, fun _ => (6, none))]

theorem twoHolds_follow :
    (twoHolds.foldl (Request.run Except.ok) noHolds).tables.reservations.map Reservation.status =
        [.confirmed, .cancelled] ∧
      (twoHolds.foldl (Request.run Except.ok) noHolds).tables.payments.map Payment.status = [.succeeded, .failed] ∧
      ∀ r ∈ (twoHolds.foldl (Request.run Except.ok) noHolds).tables.reservations,
        Accounted r (paymentsOf (twoHolds.foldl (Request.run Except.ok) noHolds).tables r.reservationId) :=
  ⟨by decide +kernel, by decide +kernel, (payments_follow rfl twoHolds).1⟩

end Ticketing.TicketingApi
