import Ticketing.TicketingApi.Service
import Ticketing.TicketingApi.Transitions

namespace Ticketing.TicketingApi

open Python Interaction Repository

variable {T D α β : Type}

/-! ### Updates that keep the constraints -/

theorem valid_updateReservations {f : Reservation T → Reservation T} {t : Tables T} (hsame : ∀ r, SameRow r (f r))
    (hconf : (((t.reservations.map f).filter (fun r => r.status = .confirmed)).map Reservation.seat).Nodup)
    (h : Valid t) : Valid (updateReservations f t) := by
  have hid : (t.reservations.map f).map Reservation.reservationId = t.reservations.map Reservation.reservationId := by
    simp only [List.map_map]
    exact List.map_congr_left fun r _ => (hsame r).reservationId
  have htok : (t.reservations.map f).filterMap Reservation.holdToken = t.reservations.filterMap Reservation.holdToken := by
    rw [List.filterMap_map]
    exact List.filterMap_congr fun r _ => (hsame r).holdToken
  exact { h with
    reservationIds := by simpa only [updateReservations, hid] using h.reservationIds
    holdTokens := by simpa only [updateReservations, htok] using h.holdTokens
    confirmedSeats := hconf
    reservationSeats := by
      simp only [updateReservations, List.mem_map]
      rintro _ ⟨r, hr, rfl⟩
      simpa only [(hsame r).seat, List.mem_map] using h.reservationSeats r hr
    reservationUsers := by
      simp only [updateReservations, List.mem_map]
      rintro _ ⟨r, hr, rfl⟩
      simpa only [(hsame r).userId, List.mem_map] using h.reservationUsers r hr
    paymentReservations := by simpa only [updateReservations, hid] using h.paymentReservations }

/-- A row may lose its status `CONFIRMED`. -/
theorem valid_unconfirm {id : String} {g : Reservation T → Reservation T} {t : Tables T} (hsame : ∀ r, SameRow r (g r))
    (hS : ∀ r, (g r).status ≠ .confirmed) (h : Valid t) : Valid (updateReservation id g t) := by
  have hrow (r : Reservation T) : SameRow r (if r.reservationId = id then g r else r) := by
    split
    · exact hsame r
    · exact SameRow.refl r
  refine valid_updateReservations hrow ?_ h
  have hseat : Reservation.seat ∘ (fun r => if r.reservationId = id then g r else r) = Reservation.seat :=
    funext fun r => (hrow r).seat
  rw [List.filter_map, List.map_map, hseat]
  refine h.confirmedSeats.sublist ((List.monotone_filter_right _ fun r hr => ?_).map _)
  simp only [Function.comp_apply, decide_eq_true_eq] at hr ⊢
  split at hr
  · exact absurd hr (hS r)
  · exact hr

theorem transaction_valid {db : Database T} {f : Tables T → Tables T} (h : Valid (f db.tables)) :
    transaction db f = (.ok (), ⟨f db.tables, h⟩) := dif_pos h

theorem commit_valid {db : Database T} {f : Tables T → Tables T} {read : Tables T → α} (h : Valid (f db.tables)) :
    commit db f read = (.ok (read (f db.tables)), ⟨f db.tables, h⟩) := by
  simp only [commit, transaction_valid h, Except.map]

variable [LinearOrder T]

/-- The row after `expire_stale_reservations` at a time. -/
def expiredAt (now : T) (r : Reservation T) : Reservation T :=
  if Stale r now then { r with status := .expired, updatedAt := now } else r

theorem expiredAt_sameRow (now : T) (r : Reservation T) : SameRow r (expiredAt now r) := by
  unfold expiredAt
  split
  · exact ⟨rfl, rfl, rfl, rfl, rfl, rfl⟩
  · exact SameRow.refl r

theorem expiredAt_status (now : T) (r : Reservation T) :
    (expiredAt now r).status = if Stale r now then .expired else r.status := by
  unfold expiredAt
  split <;> rfl

theorem expiredAt_eq {now : T} {r : Reservation T} (h : (expiredAt now r).status ≠ .expired) : expiredAt now r = r := by
  unfold expiredAt at h ⊢
  split at h
  · exact absurd rfl h
  next hs => rw [if_neg hs]

theorem expiredAt_of_not_held {now : T} {r : Reservation T} (h : r.status ≠ .held) : expiredAt now r = r :=
  if_neg fun hs => h hs.1

theorem not_stale_expiredAt (now : T) (r : Reservation T) : ¬ Stale (expiredAt now r) now := by
  unfold expiredAt
  split
  · rintro ⟨h, _⟩; cases h
  next h => exact h

theorem valid_expire (now : T) {t : Tables T} (h : Valid t) : Valid (expireStaleReservations now t) := by
  refine valid_updateReservations (expiredAt_sameRow now) ?_ h
  change (((t.reservations.map (expiredAt now)).filter _).map Reservation.seat).Nodup
  rw [List.filter_map, List.map_map, List.filter_congr (q := fun r => decide (r.status = .confirmed))]
  · have hseat : Reservation.seat ∘ expiredAt now = Reservation.seat := funext fun r => (expiredAt_sameRow now r).seat
    rw [hseat]
    exact h.confirmedSeats
  · intro r _
    simp only [Function.comp_apply, expiredAt_status, decide_eq_decide]
    split
    next hs => simp [hs.1]
    next => rfl

/-- The database after `expire_stale_reservations` at a time. -/
def Database.expire (now : T) (db : Database T) : Database T :=
  ⟨expireStaleReservations now db.tables, valid_expire now db.valid⟩

theorem expire_reservations (now : T) (db : Database T) :
    (db.expire now).tables.reservations = db.tables.reservations.map (expiredAt now) := rfl

theorem mem_expire {now : T} {db : Database T} {r : Reservation T} (h : r.status ≠ .expired) :
    r ∈ (db.expire now).tables.reservations ↔ r ∈ db.tables.reservations ∧ ¬ Stale r now := by
  rw [expire_reservations, List.mem_map]
  constructor
  · rintro ⟨r', hr, rfl⟩
    have he := expiredAt_eq h
    refine ⟨by rwa [he], fun hs => h ?_⟩
    rw [expiredAt_status, if_pos (he ▸ hs)]
  · rintro ⟨hr, hs⟩
    exact ⟨r, hr, if_neg hs⟩

theorem expire_eq {now : T} {db : Database T} (h : ∀ r ∈ db.tables.reservations, ¬ Stale r now) : db.expire now = db := by
  obtain ⟨t, ht⟩ := db
  have he : t.reservations.map (expiredAt now) = t.reservations := by
    conv_rhs => rw [← List.map_id t.reservations]
    exact List.map_congr_left fun r hr => if_neg (h r hr)
  simp only [Database.expire, Database.mk.injEq]
  change ({ t with reservations := t.reservations.map (expiredAt now) } : Tables T) = t
  rw [he]

@[simp] theorem expire_expire (now : T) (db : Database T) : (db.expire now).expire now = db.expire now := by
  refine expire_eq fun r hr => ?_
  obtain ⟨r', _, rfl⟩ := List.mem_map.mp hr
  exact not_stale_expiredAt now r'

theorem findReservation_expire (now : T) (db : Database T) (id : String) :
    findReservation (db.expire now).tables id = (findReservation db.tables id).map (expiredAt now) :=
  findReservation_update _ (fun r => (expiredAt_sameRow now r).reservationId) db.tables id

/-! ### The methods as one step -/

variable {clock : T} {db : Database T}

theorem atomically_timestamp (f : T → Service.Method T α) (clock : T) (db : Database T) :
    Program.atomically exec clock (Service.currentTimestamp >>= f) db = Program.atomically exec clock (f clock) db := rfl

theorem atomically_invoke (op : RepoOp T) (clock : T) (db : Database T) :
    Program.atomically exec clock (Service.call op) db = exec clock db op := by
  change Program.atomically exec clock (Program.ofExcept (exec clock db op).1) (exec clock db op).2 = _
  rcases exec clock db op with ⟨e | a, db'⟩ <;> rfl

theorem atomically_expireStale (f : Unit → Service.Method T α) (clock : T) (db : Database T) :
    Program.atomically exec clock (Service.expireStale >>= f) db =
      Program.atomically exec clock (f ()) (db.expire clock) := by
  have he : exec clock db (.expireStaleReservations clock) =
      (.ok (db.tables.reservations.filter (fun r => Stale r clock)).length, db.expire clock) := by
    simp only [exec]
    rw [commit_valid (valid_expire clock db.valid)]
    rfl
  change Program.atomically exec clock ((Program.ofExcept (exec clock db (.expireStaleReservations clock)).1 >>=
    fun _ => pure ()) >>= f) (exec clock db (.expireStaleReservations clock)).2 = _
  rw [he]
  rfl

theorem atomically_requireReservation (id : String) (f : ReservationRecord T → Service.Method T α) :
    Program.atomically exec clock (Service.requireReservation id >>= f) db =
      match findReservation (db.expire clock).tables id with
      | some r => Program.atomically exec clock (f (record (db.expire clock).tables r)) (db.expire clock)
      | none => (.error ⟨.notFoundError, "reservation '" ++ id ++ "' was not found"⟩, db.expire clock) := by
  unfold Service.requireReservation
  rw [Program.bind_assoc, atomically_expireStale, Program.bind_assoc, Program.atomically_bind, atomically_invoke]
  simp only [exec, getReservation]
  cases findReservation (db.expire clock).tables id <;> rfl

omit [LinearOrder T] in
theorem findReservation_updateReservation {f : Reservation T → Reservation T}
    (hf : ∀ r, (f r).reservationId = r.reservationId) (t : Tables T) (id : String) :
    findReservation (updateReservation id f t) id = (findReservation t id).map f := by
  have hid : ∀ r, (if r.reservationId = id then f r else r).reservationId = r.reservationId := by
    intro r
    split
    · exact hf r
    · rfl
  rw [updateReservation, findReservation_update _ hid]
  cases hr : findReservation t id with
  | none => rfl
  | some r => simp [(findReservation_mem hr).2]

omit [LinearOrder T] in
theorem findReservation_confirmReservation (id : String) (payment : PaymentPayload) (now : T) (t : Tables T) :
    findReservation (Repository.confirmReservation id payment now t) id = (findReservation t id).map
      (fun r => { r with status := .confirmed, updatedAt := now, confirmedAt := some now }) := by
  rw [Repository.confirmReservation, findReservation_updateReservation (by intro r; rfl), findReservation,
    upsertPayment_reservations]
  rfl

omit [LinearOrder T] in
theorem mem_updateReservation {f : Reservation T → Reservation T} {t : Tables T} {id : String} {r : Reservation T}
    (h : r ∈ (updateReservation id f t).reservations) :
    r ∈ t.reservations ∧ r.reservationId ≠ id ∨ ∃ r₀ ∈ t.reservations, r₀.reservationId = id ∧ r = f r₀ := by
  obtain ⟨r₀, hr₀, rfl⟩ := List.mem_map.mp h
  by_cases hid : r₀.reservationId = id
  · exact .inr ⟨r₀, hr₀, hid, if_pos hid⟩
  · exact .inl (by simpa [hid] using hr₀)

omit [LinearOrder T] in
theorem commit_cases (db : Database T) (f : Tables T → Tables T) (read : Tables T → α) :
    (∃ e, commit db f read = (.error e, db)) ∨
      (commit db f read).2.tables = f db.tables ∧ (commit db f read).1 = .ok (read (commit db f read).2.tables) := by
  unfold commit
  rcases transaction_cases db f with ⟨hok, ht⟩ | ⟨herr, hdb⟩
  · exact .inr ⟨ht, by rw [hok]; rfl⟩
  · exact .inl ⟨_, by rw [herr, hdb]; rfl⟩

/-- What a transition of one reservation comes to: it fails, it finds the
status that it aims at, or it writes the row that it has found `HELD`. -/
inductive Outcome (db : Database T) (id : String) (S : ReservationStatus) (write : Tables T → Tables T)
    (r : Except Error (Option (ReservationRecord T)) × Database T) : Prop
  | failed (e : Error) (h : r = (.error e, db))
  | already (row : Reservation T) (hrow : findReservation db.tables id = some row) (hS : row.status = S)
      (h : r = (.ok (some (record db.tables row)), db))
  | written (row : Reservation T) (hrow : findReservation db.tables id = some row) (hheld : row.status = .held)
      (hdb : r.2.tables = write db.tables) (h : r.1 = .ok (getReservation r.2.tables id))

omit [LinearOrder T] in
theorem outcome_commit {db : Database T} {id : String} {S : ReservationStatus} {write : Tables T → Tables T}
    {row : Reservation T} (hrow : findReservation db.tables id = some row) (hheld : row.status = .held) :
    Outcome db id S write (commit db write (fun t => getReservation t id)) := by
  rcases commit_cases db write (fun t => getReservation t id) with ⟨e, h⟩ | ⟨hdb, h⟩
  · exact .failed e h
  · exact .written row hrow hheld hdb h

theorem Outcome.conflictOnIntegrity {db db₀ : Database T} {id : String} {S : ReservationStatus}
    {write : Tables T → Tables T} {p : Service.Method T (Option (ReservationRecord T))}
    (h : Outcome db id S write (Program.atomically exec clock p db₀)) (message : String) :
    Outcome db id S write (Program.atomically exec clock (Service.conflictOnIntegrity p message) db₀) := by
  rw [Service.conflictOnIntegrity, Program.atomically_tryCatch]
  cases h with
  | failed e h =>
      rw [h]
      dsimp only
      split
      · exact .failed _ rfl
      · exact .failed e rfl
  | already row hrow hS h => rw [h]; exact .already row hrow hS rfl
  | written row hrow hheld hdb h =>
      generalize Program.atomically exec clock p db₀ = r at hdb h
      obtain ⟨x, db'⟩ := r
      dsimp only at hdb h
      subst h
      exact .written row hrow hheld hdb rfl

/-- The shape that the three transitions share. -/
theorem outcome_transition {clock : T} {db : Database T} {id : String} {S : ReservationStatus}
    {write : Tables T → Tables T} {found update : ReservationRecord T → Service.Method T (Option (ReservationRecord T))}
    {refusal : ReservationRecord T → Error}
    (hfound : ∀ row, findReservation (db.expire clock).tables id = some row → row.status = S →
      Outcome (db.expire clock) id S write
        (Program.atomically exec clock (found (record (db.expire clock).tables row)) (db.expire clock)))
    (hupdate : ∀ row, findReservation (db.expire clock).tables id = some row → row.status = .held →
      Outcome (db.expire clock) id S write
        (Program.atomically exec clock (update (record (db.expire clock).tables row)) (db.expire clock))) :
    Outcome (db.expire clock) id S write (Program.atomically exec clock
      (Service.requireReservation id >>= fun r => if r.reservation.status = S then found r
        else if r.reservation.status ≠ .held then throw (refusal r) else update r) db) := by
  rw [atomically_requireReservation]
  cases hrow : findReservation (db.expire clock).tables id with
  | none => exact .failed _ rfl
  | some row =>
      have hr : (record (db.expire clock).tables row).reservation = row := rfl
      simp only [hr]
      by_cases hS : row.status = S
      · simpa only [hS, if_true] using hfound row hrow hS
      · by_cases hheld : row.status = .held
        · rw [if_neg hS, if_neg (not_not.mpr hheld)]
          exact hupdate row hrow hheld
        · simp only [hS, hheld, if_false, ne_eq, not_false_eq_true, if_true]
          exact .failed _ rfl

theorem confirmReservation_outcome (clock : T) (db : Database T) (id : String) (request : ConfirmReservationRequest) :
    Outcome (db.expire clock) id .confirmed (Repository.confirmReservation id
        ⟨request.paymentId, .succeeded, request.amount, request.provider, request.providerRef⟩ clock)
      (Program.atomically exec clock (Service.confirmReservation id request) db) := by
  refine outcome_transition (fun row hrow hS => ?_) (fun row hrow hheld => ?_)
  · split
    · exact .already row hrow hS rfl
    · exact .failed _ rfl
  · refine Outcome.conflictOnIntegrity ?_ _
    rw [atomically_timestamp, atomically_invoke]
    simp only [exec, bindAmount]
    split
    · exact outcome_commit hrow hheld
    · exact .failed _ rfl

/-- A row that is `HELD` is confirmed unless a constraint forbids it. -/
theorem confirmReservation_valid {clock : T} {db : Database T} {id : String} {request : ConfirmReservationRequest}
    {row : Reservation T} (hrow : findReservation (db.expire clock).tables id = some row) (hheld : row.status = .held)
    (hamount : IsInt64 request.amount) (hvalid : Valid (Repository.confirmReservation id
      ⟨request.paymentId, .succeeded, request.amount, request.provider, request.providerRef⟩ clock
        (db.expire clock).tables)) :
    Program.atomically exec clock (Service.confirmReservation id request) db =
      (.ok (getReservation (Repository.confirmReservation id
        ⟨request.paymentId, .succeeded, request.amount, request.provider, request.providerRef⟩ clock
          (db.expire clock).tables) id), ⟨_, hvalid⟩) := by
  unfold Service.confirmReservation
  have hr : (record (db.expire clock).tables row).reservation = row := rfl
  rw [atomically_requireReservation, hrow]
  simp only [hr, hheld, reduceCtorEq, if_false, ne_eq, not_true_eq_false]
  rw [Service.conflictOnIntegrity, Program.atomically_tryCatch, atomically_timestamp, atomically_invoke]
  simp only [exec, bindAmount, if_pos hamount]
  rw [commit_valid hvalid]

theorem cancelReservation_outcome (clock : T) (db : Database T) (id : String) :
    Outcome (db.expire clock) id .cancelled (Repository.cancelReservation id clock none)
      (Program.atomically exec clock (Service.cancelReservation id ⟨none, none, none, none, none⟩) db) := by
  refine outcome_transition (fun row hrow hS => .already row hrow hS rfl) (fun row hrow hheld => ?_)
  simp only [Service.validateCancelPaymentPayload, Program.ofExcept_ok, Program.bind_ret]
  rw [atomically_timestamp, atomically_invoke]
  exact outcome_commit hrow hheld

theorem expireReservation_outcome (clock : T) (db : Database T) (id : String) :
    Outcome (db.expire clock) id .expired (Repository.expireReservation id clock)
      (Program.atomically exec clock (Service.expireReservation id) db) := by
  refine outcome_transition (fun row hrow hS => .already row hrow hS rfl) (fun row hrow hheld => ?_)
  rw [atomically_timestamp, atomically_invoke]
  exact outcome_commit hrow hheld

/-- A row that is `HELD` can always be expired. -/
theorem expireReservation_held {clock : T} {db : Database T} {id : String} {row : Reservation T}
    (hrow : findReservation (db.expire clock).tables id = some row) (hheld : row.status = .held) :
    (Program.atomically exec clock (Service.expireReservation id) db).2.tables =
      Repository.expireReservation id clock (db.expire clock).tables := by
  have hvalid : Valid (Repository.expireReservation id clock (db.expire clock).tables) :=
    valid_unconfirm (fun r => ⟨rfl, rfl, rfl, rfl, rfl, rfl⟩) (fun r => by simp) (db.expire clock).valid
  have hr : (record (db.expire clock).tables row).reservation = row := rfl
  rw [Service.expireReservation, atomically_requireReservation, hrow]
  simp only [hr, hheld, reduceCtorEq, if_false, ne_eq, not_true_eq_false]
  rw [atomically_timestamp, atomically_invoke]
  simp only [exec]
  rw [commit_valid hvalid]

omit [LinearOrder T] in
theorem valid_payment {t : Tables T} (h : Valid t) {id : String} {payment : PaymentPayload} {now : T}
    (hrow : id ∈ t.reservations.map Reservation.reservationId)
    (hid : payment.paymentId ∉ t.payments.map Payment.paymentId)
    (hnew : id ∉ t.payments.map Payment.reservationId) (hamount : IsInt64 payment.amount) :
    Valid (upsertPayment id payment now t) := by
  rw [upsertPayment, if_neg hnew]
  exact { h with
    paymentIds := by
      simp only [List.map_append, List.nodup_append]
      refine ⟨h.paymentIds, by simp, ?_⟩
      simp only [List.map_cons, List.map_nil, List.mem_singleton]
      rintro a ha b rfl rfl
      exact hid ha
    paymentReservationIds := by
      simp only [List.map_append, List.nodup_append]
      refine ⟨h.paymentReservationIds, by simp, ?_⟩
      simp only [List.map_cons, List.map_nil, List.mem_singleton]
      rintro a ha b rfl rfl
      exact hnew ha
    paymentReservations := by
      simp only [List.mem_append, List.mem_singleton]
      rintro p (hp | rfl)
      · exact h.paymentReservations p hp
      · exact hrow
    paymentIntegers := by
      simp only [List.mem_append, List.mem_singleton]
      rintro p (hp | rfl)
      · exact h.paymentIntegers p hp
      · exact hamount }

omit [LinearOrder T] in
/-- A row may be confirmed when its seat is not, with a payment that is new. -/
theorem valid_confirm {t : Tables T} (h : Valid t) {id : String} {row : Reservation T} {payment : PaymentPayload}
    {now : T} (hrow : findReservation t id = some row)
    (hseat : ∀ r ∈ t.reservations, r.status = .confirmed → r.seat ≠ row.seat)
    (hid : payment.paymentId ∉ t.payments.map Payment.paymentId)
    (hnew : id ∉ t.payments.map Payment.reservationId) (hamount : IsInt64 payment.amount) :
    Valid (Repository.confirmReservation id payment now t) := by
  obtain ⟨hmem, rfl⟩ := findReservation_mem hrow
  refine valid_updateReservations (fun r => ?_) ?_
    (valid_payment h (List.mem_map_of_mem hmem) hid hnew hamount)
  · split
    · exact ⟨rfl, rfl, rfl, rfl, rfl, rfl⟩
    · exact SameRow.refl r
  rw [upsertPayment_reservations]
  have hc := h.confirmedSeats
  rw [List.Nodup, List.pairwise_map, List.pairwise_filter] at hc
  have hids := h.reservationIds
  rw [List.Nodup, List.pairwise_map] at hids
  rw [List.Nodup, List.pairwise_map, List.pairwise_filter, List.pairwise_map]
  refine (hc.and hids).imp_of_mem fun {a b} ha hb hab hca hcb => ?_
  have same {r : Reservation T} (hr : r ∈ t.reservations) (he : r.reservationId = row.reservationId) : r = row :=
    List.inj_on_of_nodup_map h.reservationIds hr hmem he
  -- the row itself may be the first, the second or neither of the two
  by_cases hea : a.reservationId = row.reservationId
  · have heb : b.reservationId ≠ row.reservationId := fun heb => hab.2 (hea.trans heb.symm)
    obtain rfl := same ha hea
    simp only [heb, if_false, decide_eq_true_eq] at hcb
    simp only [if_true, heb, if_false]
    exact (hseat b hb hcb).symm
  · simp only [hea, if_false, decide_eq_true_eq] at hca
    by_cases heb : b.reservationId = row.reservationId
    · obtain rfl := same hb heb
      simp only [hea, if_false, if_true]
      exact hseat a ha hca
    · simp only [heb, if_false, decide_eq_true_eq] at hcb
      simpa only [hea, heb, if_false] using hab.1 (by simpa using hca) (by simpa using hcb)

/-! ### The creation of a reservation -/

omit [LinearOrder T] in
theorem valid_create (expiresAt now : T) {t : Tables T} (h : Valid t)
    {reservationId eventId seatId userId holdToken : String}
    (hid : reservationId ∉ t.reservations.map Reservation.reservationId)
    (htok : holdToken ∉ t.reservations.filterMap Reservation.holdToken)
    (hseat : (eventId, seatId) ∈ t.seats.map Seat.key) (huser : userId ∈ t.users.map User.userId) :
    Valid (Repository.createHeldReservation reservationId eventId seatId userId holdToken expiresAt now t) := by
  exact { h with
    reservationIds := by
      simp only [Repository.createHeldReservation, List.map_append, List.nodup_append]
      refine ⟨h.reservationIds, by simp, ?_⟩
      simp only [List.map_cons, List.map_nil, List.mem_singleton]
      rintro a ha b rfl rfl
      exact hid ha
    holdTokens := by
      simp only [Repository.createHeldReservation, List.filterMap_append, List.nodup_append]
      refine ⟨h.holdTokens, by simp, ?_⟩
      simp only [List.filterMap_cons, List.filterMap_nil, List.mem_singleton]
      rintro a ha b rfl rfl
      exact htok ha
    confirmedSeats := by
      simpa [Repository.createHeldReservation, List.filter_append] using h.confirmedSeats
    reservationSeats := by
      simp only [Repository.createHeldReservation, List.mem_append, List.mem_singleton]
      rintro r (hr | rfl)
      · exact h.reservationSeats r hr
      · exact hseat
    reservationUsers := by
      simp only [Repository.createHeldReservation, List.mem_append, List.mem_singleton]
      rintro r (hr | rfl)
      · exact h.reservationUsers r hr
      · exact huser
    paymentReservations := by
      intro p hp
      simp only [Repository.createHeldReservation, List.map_append]
      exact List.mem_append_left _ (h.paymentReservations p hp) }

/-- The reasons for which a reservation is not created. -/
inductive Refused (t : Tables T) (request : HeldReservationCreate D) : Prop
  | event (h : request.eventId ∉ t.events.map Event.eventId)
  | seat (h : (request.eventId, request.seatId) ∉ t.seats.map Seat.key)
  | user (h : request.userId ∉ t.users.map User.userId)
  | reservation (h : findReservation t request.reservationId ≠ none)
  | confirmed (h : hasConfirmedReservation t request.eventId request.seatId = true)
  | token (h : request.holdToken ∈ t.reservations.filterMap Reservation.holdToken)

def heldRow (request : HeldReservationCreate D) (expiresAt now : T) : Reservation T :=
  ⟨request.reservationId, request.eventId, request.seatId, request.userId, .held, some request.holdToken,
    some expiresAt, now, now, none, none⟩

/-- What the creation of a reservation comes to: it fails, it finds the
reservation, or it appends a row. -/
inductive Creation (db : Database T) (request : HeldReservationCreate D) (expiresAt now : T)
    (r : Except Error (Option (ReservationRecord T) × Bool) × Database T) : Prop
  | failed (e : Error) (why : Refused db.tables request) (hdb : r.2.tables = { db.tables with users := r.2.tables.users })
      (h : r.1 = .error e)
  | found (row : Reservation T) (hrow : findReservation db.tables request.reservationId = some row)
      (hmatch : row.eventId = request.eventId ∧ row.seatId = request.seatId ∧ row.userId = request.userId ∧
        row.holdToken = some request.holdToken ∧ row.expiresAt = some expiresAt)
      (hdb : r.2.tables = { db.tables with users := r.2.tables.users })
      (h : r.1 = .ok (getReservation r.2.tables request.reservationId, false))
  | created (hfresh : findReservation db.tables request.reservationId = none)
      (hdb : r.2.tables = { db.tables with
        users := r.2.tables.users, reservations := db.tables.reservations ++ [heldRow request expiresAt now] })
      (h : r.1 = .ok (getReservation r.2.tables request.reservationId, true))

theorem atomically_requireEvent (clock : T) (db : Database T) (eventId : String) (f : Event T → Service.Method T α) :
    (eventId ∉ db.tables.events.map Event.eventId ∧
        ∃ e, Program.atomically exec clock (Service.requireEvent eventId >>= f) db = (.error e, db)) ∨
      ∃ event, Program.atomically exec clock (Service.requireEvent eventId >>= f) db =
        Program.atomically exec clock (f event) db := by
  unfold Service.requireEvent
  rw [Program.bind_assoc, Program.atomically_bind, atomically_invoke]
  simp only [exec]
  cases hf : db.tables.events.find? (fun e => e.eventId = eventId) with
  | none => exact .inl ⟨by simpa using hf, _, rfl⟩
  | some event => exact .inr ⟨event, rfl⟩

theorem atomically_requireSeat (clock : T) (db : Database T) (eventId seatId : String) (f : Seat T → Service.Method T α) :
    ((eventId, seatId) ∉ db.tables.seats.map Seat.key ∧
        ∃ e, Program.atomically exec clock (Service.requireSeat eventId seatId >>= f) db = (.error e, db)) ∨
      ∃ seat ∈ db.tables.seats, seat.key = (eventId, seatId) ∧
        Program.atomically exec clock (Service.requireSeat eventId seatId >>= f) db =
          Program.atomically exec clock (f seat) db := by
  unfold Service.requireSeat
  rw [Program.bind_assoc, Program.atomically_bind, atomically_invoke]
  simp only [exec]
  cases hf : db.tables.seats.find? (fun s => s.key = (eventId, seatId)) with
  | none => exact .inl ⟨by simpa using hf, _, rfl⟩
  | some seat => exact .inr ⟨seat, List.mem_of_find?_eq_some hf, by simpa using List.find?_some hf, rfl⟩

theorem ensureUser_cases (clock : T) (db : Database T) (userId : String) :
    userId ∉ db.tables.users.map User.userId ∧
        (∃ e, Program.atomically exec clock (Service.ensureUser userId) db = (.error e, db)) ∨
      ∃ x db', Program.atomically exec clock (Service.ensureUser userId) db = (.ok x, db') ∧
        db'.tables = { db.tables with users := db'.tables.users } ∧ userId ∈ db'.tables.users.map User.userId := by
  unfold Service.ensureUser
  rw [Program.atomically_bind, atomically_invoke]
  simp only [exec, getUser]
  cases hf : db.tables.users.find? (fun u => u.userId = userId) with
  | some user =>
      refine .inr ⟨some user, db, rfl, rfl, List.mem_map.mpr ⟨user, List.mem_of_find?_eq_some hf, ?_⟩⟩
      simpa using List.find?_some hf
  | none =>
      have hnew : userId ∉ db.tables.users.map User.userId := by simpa using hf
      dsimp only
      split
      · rw [atomically_timestamp, atomically_invoke]
        simp only [exec]
        generalize hc : commit db _ _ = r
        rcases commit_cases db (Repository.createUser userId _ _ clock) (fun t => getUser t userId) with ⟨e, h⟩ | ⟨hdb, h⟩
        · exact .inl ⟨hnew, e, hc ▸ h⟩
        · rw [hc] at h hdb
          refine .inr ⟨_, r.2, Prod.ext h rfl, ?_, ?_⟩
          · rw [hdb, Repository.createUser, if_neg hnew]
          · rw [hdb, Repository.createUser, if_neg hnew]
            simp
      · exact .inl ⟨hnew, _, rfl⟩

/-- The transaction that inserts the row, with the conflict that it may be reported as. -/
theorem insert_outcome [DecidableEq T] {request : HeldReservationCreate D} {expiresAt : T} {db₀ db : Database T}
    (hdb : db.tables = { db₀.tables with users := db.tables.users })
    (huser : request.userId ∈ db.tables.users.map User.userId)
    (hseat : (request.eventId, request.seatId) ∈ db₀.tables.seats.map Seat.key)
    (hfresh : findReservation db₀.tables request.reservationId = none) (message : String) :
    Creation db₀ request expiresAt clock (Program.atomically exec clock
      (Service.conflictOnIntegrity (do
        let now ← Service.currentTimestamp
        Service.call (.createHeldReservation request.reservationId request.eventId request.seatId request.userId
          request.holdToken expiresAt now)) message >>= fun created => pure (created, true)) db) := by
  rw [Program.atomically_bind, Service.conflictOnIntegrity, Program.atomically_tryCatch, atomically_timestamp,
    atomically_invoke]
  simp only [exec]
  have hrows : db.tables.reservations = db₀.tables.reservations := by rw [hdb]
  have hseats : db.tables.seats = db₀.tables.seats := by rw [hdb]
  have hid : request.reservationId ∉ db.tables.reservations.map Reservation.reservationId := by
    simpa [findReservation, hrows] using hfresh
  generalize hf : Repository.createHeldReservation request.reservationId request.eventId request.seatId
    request.userId request.holdToken expiresAt clock = f
  rcases commit_cases db f (fun t => getReservation t request.reservationId) with ⟨e, h⟩ | ⟨htables, h⟩
  · have htok : request.holdToken ∈ db₀.tables.reservations.filterMap Reservation.holdToken := by
      by_contra htok
      have hv := valid_create expiresAt clock db.valid hid (hrows ▸ htok) (hseats ▸ hseat) huser
      rw [hf] at hv
      rw [commit_valid hv] at h
      cases h
    rw [h]
    dsimp only
    by_cases hk : e.kind = .integrityError
    · rw [if_pos hk]
      exact .failed _ (.token htok) hdb rfl
    · rw [if_neg hk]
      exact .failed _ (.token htok) hdb rfl
  · generalize commit db f (fun t => getReservation t request.reservationId) = r at htables h
    obtain ⟨x, db'⟩ := r
    dsimp only at htables h
    subst h
    refine .created hfresh ?_ rfl
    dsimp only [Program.pure_eq, Program.atomically_ret]
    rw [htables, ← hf, hdb]
    rfl

theorem createHeldReservation_outcome [DecidableEq T] {normalizeTimestamp : D → Except Error T}
    {request : HeldReservationCreate D} {expiresAt : T} (hexp : normalizeTimestamp request.expiresAt = .ok expiresAt)
    (clock : T) (db : Database T) :
    Creation (db.expire clock) request expiresAt clock
      (Program.atomically exec clock (Service.createHeldReservation normalizeTimestamp request) db) := by
  unfold Service.createHeldReservation
  rw [atomically_expireStale]
  generalize db.expire clock = db
  rcases atomically_requireEvent clock db request.eventId _ with ⟨hno, e, he⟩ | ⟨event, he⟩
  · rw [he]
    exact .failed e (.event hno) rfl rfl
  rw [he]
  rcases atomically_requireSeat clock db request.eventId request.seatId _ with
    ⟨hno, e, he⟩ | ⟨seat, hmem, hkey, he⟩
  · rw [he]
    exact .failed e (.seat hno) rfl rfl
  rw [he, Program.atomically_bind]
  rcases ensureUser_cases clock db request.userId with ⟨hno, e, he⟩ | ⟨user, db', he, hdb, huser⟩
  · rw [he]
    exact .failed e (.user hno) rfl rfl
  rw [he]
  have hrows : db'.tables.reservations = db.tables.reservations := by rw [hdb]
  have hfind : ∀ id, findReservation db'.tables id = findReservation db.tables id := fun id => by
    simp only [findReservation, hrows]
  dsimp only
  rw [Program.atomically_bind, atomically_invoke]
  simp only [exec, hexp, Program.ofExcept_ok, Program.bind_ret]
  cases hrow : findReservation db.tables request.reservationId with
  | some row =>
      have hget : getReservation db'.tables request.reservationId = some (record db'.tables row) := by
        rw [getReservation, hfind, hrow]
        rfl
      simp only [hget, record]
      split
      next hmatch =>
        refine .found row hrow (by simpa [Service.heldRequestMatches] using hmatch) hdb ?_
        exact congrArg (fun x => Except.ok (x, false)) hget.symm
      next => exact .failed _ (.reservation (by rw [hrow]; exact Option.some_ne_none row)) hdb rfl
  | none =>
      have hget : getReservation db'.tables request.reservationId = none := by
        rw [getReservation, hfind, hrow]
        rfl
      have hconf : hasConfirmedReservation db'.tables request.eventId request.seatId =
          hasConfirmedReservation db.tables request.eventId request.seatId := by
        simp only [hasConfirmedReservation, hrows]
      simp only [hget]
      rw [Program.atomically_bind, atomically_invoke]
      simp only [exec, hconf]
      split
      next hc => exact .failed _ (.confirmed hc) hdb rfl
      next => exact insert_outcome hdb huser (List.mem_map.mpr ⟨seat, hmem, hkey⟩) hrow _

/-! ### Lists -/

theorem mem_staleRows {t : Tables T} {now : T} {r : Reservation T} :
    r ∈ staleRows t now ↔ r ∈ t.reservations ∧ Stale r now := by
  simp [staleRows]

theorem staleRows_perm (t : Tables T) (now : T) : (staleRows t now).Perm (t.reservations.filter (fun r => Stale r now)) :=
  List.perm_insertionSort _ _

theorem confirmedRows_perm (t : Tables T) :
    (confirmedRows t).Perm (t.reservations.filter (fun r => r.status = .confirmed)) := List.perm_insertionSort _ _

theorem mem_confirmedRows {t : Tables T} {r : Reservation T} :
    r ∈ confirmedRows t ↔ r ∈ t.reservations ∧ r.status = .confirmed := by
  simp [confirmedRows]

theorem limitRows_sublist (limit : Int) (rows : List α) : (limitRows limit rows).Sublist rows := by
  unfold limitRows
  split
  · exact List.Sublist.refl _
  · exact List.take_sublist _ _

theorem withLimit_sublist {limit : Int} {rows rows' : List α} (h : withLimit limit rows = .ok rows') :
    rows'.Sublist rows := by
  unfold withLimit at h
  split at h <;> cases h
  exact limitRows_sublist limit rows

omit [LinearOrder T] in
theorem mem_listSeats {t : Tables T} {eventId : String} {seat : SeatRecord T} (h : seat ∈ listSeats t eventId) :
    seat.seat ∈ t.seats ∧ seat.seat.eventId = eventId := by
  simp only [listSeats, List.mem_map, List.mem_insertionSort, List.mem_filter] at h
  obtain ⟨x, hx, rfl⟩ := h
  simpa using hx

omit [LinearOrder T] in
theorem exists_listSeats {t : Tables T} {eventId seatId : String} (h : (eventId, seatId) ∈ t.seats.map Seat.key) :
    ∃ seat ∈ listSeats t eventId, seat.seat.seatId = seatId := by
  obtain ⟨x, hx, hk⟩ := List.mem_map.mp h
  obtain ⟨rfl, rfl⟩ := Prod.ext_iff.mp hk
  refine ⟨_, List.mem_map.mpr ⟨x, ?_, rfl⟩, rfl⟩
  simpa [List.mem_insertionSort, Seat.key] using hx

theorem listEventSeats_cases (clock : T) (db : Database T) (eventId : String) :
    eventId ∉ db.tables.events.map Event.eventId ∧
        (∃ e, Program.atomically exec clock (Service.listEventSeats eventId) db = (.error e, db.expire clock)) ∨
      Program.atomically exec clock (Service.listEventSeats eventId) db =
        (.ok (listSeats (db.expire clock).tables eventId), db.expire clock) := by
  unfold Service.listEventSeats
  rw [atomically_expireStale]
  rcases atomically_requireEvent clock (db.expire clock) eventId _ with ⟨hno, e, he⟩ | ⟨event, he⟩
  · exact .inl ⟨hno, e, he⟩
  · exact .inr he

/-- A row that `expire_stale_reservations` has marked is reported, and changes no more. -/
theorem expireReservation_marked {id : String} {row : Reservation T}
    (hrow : findReservation (db.expire clock).tables id = some row) (hS : row.status = .expired) :
    Program.atomically exec clock (Service.expireReservation id) db =
      (.ok (some (record (db.expire clock).tables row)), db.expire clock) := by
  unfold Service.expireReservation
  rw [atomically_requireReservation, hrow]
  have hr : (record (db.expire clock).tables row).reservation = row := rfl
  simp only [hr, hS, if_true]
  rfl

theorem expireListed_marked (db : Database T) {rows : List (Reservation T)} (hne : rows ≠ [])
    (h : ∀ r ∈ rows, findReservation (db.expire clock).tables r.reservationId = some (expiredAt clock r) ∧
      (expiredAt clock r).status = .expired) :
    Program.atomically exec clock (Service.expireListed rows) db =
      (.ok (rows.map (fun r => some (record (db.expire clock).tables (expiredAt clock r)))), db.expire clock) := by
  induction rows generalizing db with
  | nil => exact absurd rfl hne
  | cons r rows ih =>
      obtain ⟨hrow, hS⟩ := h r (by simp)
      have hrest : Program.atomically exec clock (Service.expireListed rows) (db.expire clock) =
          (.ok (rows.map (fun r => some (record (db.expire clock).tables (expiredAt clock r)))), db.expire clock) := by
        by_cases hnil : rows = []
        · subst hnil; rfl
        · simpa only [expire_expire] using ih (db.expire clock) hnil fun r' hr' => by
            rw [expire_expire]
            exact h r' (by simp [hr'])
      rw [Service.expireListed, Program.atomically_bind, Program.atomically_tryCatch, Program.atomically_bind,
        expireReservation_marked hrow hS]
      simp only [Program.pure_eq, Program.atomically_ret]
      rw [Program.atomically_bind, hrest]
      rfl

theorem expireStaleReservations_eq (clock : T) (db : Database T) (limit : Int) :
    Program.atomically exec clock (Service.expireStaleReservations limit) db =
      match withLimit limit (staleRows db.tables clock) with
      | .error e => (.error e, db)
      | .ok rows => (.ok (rows.map (fun r => some (record (db.expire clock).tables (expiredAt clock r)))),
          if rows = [] then db else db.expire clock) := by
  unfold Service.expireStaleReservations Service.listStaleHeldReservations
  rw [Program.bind_assoc, atomically_timestamp, Program.atomically_bind, atomically_invoke]
  simp only [exec]
  cases hl : withLimit limit (staleRows db.tables clock) with
  | error e => rfl
  | ok rows =>
      by_cases hnil : rows = []
      · subst hnil; rfl
      · simp only [hnil, if_false]
        refine expireListed_marked db hnil fun r hr => ?_
        obtain ⟨hmem, hs⟩ := mem_staleRows.mp ((withLimit_sublist hl).mem hr)
        rw [findReservation_expire, findReservation_of_mem db.valid hmem, expiredAt_status, if_pos hs]
        exact ⟨rfl, rfl⟩

end Ticketing.TicketingApi
