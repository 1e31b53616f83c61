import Ticketing.TicketingApi.StaleRows

namespace Ticketing.TicketingApi

open Python Interaction Repository
open Interaction.Program (Returns)

section Steps

variable {T α : Type} [LinearOrder T] {db : Database T} {clock : ℕ → T}

/-! ### The steps of a call -/

theorem run_call (op : RepoOp T) {a : op.Res} {db' : Database T} (h : exec (clock 0) db op = (.ok a, db'))
    (f : op.Res → Service.Method T α) :
    (Service.call op >>= f).run exec db clock = (f a).run exec db' (fun i => clock (i + 1)) :=
  (returns_call h).run_bind

theorem run_timestamp (f : T → Service.Method T α) :
    (Service.currentTimestamp >>= f).run exec db clock = (f (clock 0)).run exec db (fun i => clock (i + 1)) :=
  (returns_timestamp db clock).run_bind

theorem run_expireStale (f : Unit → Service.Method T α) :
    (Service.expireStale >>= f).run exec db clock = (f ()).run exec (db.expire (clock 0)) (fun i => clock (i + 2)) :=
  (returns_expireStale db clock).run_bind

theorem run_requireEvent {eventId : String} (h : eventId ∈ db.tables.events.map Event.eventId)
    (p : Service.Method T α) :
    (Service.requireEvent eventId >>= fun _ => p).run exec db clock = p.run exec db (fun i => clock (i + 1)) := by
  cases hf : db.tables.events.find? (fun e => e.eventId = eventId) with
  | none =>
      obtain ⟨event, hmem, rfl⟩ := List.mem_map.mp h
      exact absurd (List.find?_eq_none.mp hf event hmem) (by simp)
  | some event =>
      rw [Service.requireEvent, Program.bind_assoc, run_call (.getEvent eventId) rfl, hf]
      rfl

theorem run_requireEvent_error {eventId : String} (h : eventId ∉ db.tables.events.map Event.eventId)
    (f : Event T → Service.Method T α) : (Service.requireEvent eventId >>= f).run exec db clock =
      (.error ⟨.notFoundError, "event '" ++ eventId ++ "' was not found"⟩, db) := by
  have hf : db.tables.events.find? (fun e => e.eventId = eventId) = none := by
    rw [List.find?_eq_none]
    intro event hmem he
    exact h (List.mem_map.mpr ⟨event, hmem, of_decide_eq_true he⟩)
  rw [Service.requireEvent, Program.bind_assoc, run_call (.getEvent eventId) rfl, hf]
  rfl

theorem run_requireSeat {eventId seatId : String} (h : (eventId, seatId) ∈ db.tables.seats.map Seat.key)
    (p : Service.Method T α) :
    (Service.requireSeat eventId seatId >>= fun _ => p).run exec db clock = p.run exec db (fun i => clock (i + 1)) := by
  cases hf : db.tables.seats.find? (fun s => s.key = (eventId, seatId)) with
  | none =>
      obtain ⟨seat, hmem, hkey⟩ := List.mem_map.mp h
      exact absurd (List.find?_eq_none.mp hf seat hmem) (by simp [hkey])
  | some seat =>
      rw [Service.requireSeat, Program.bind_assoc, run_call (.getSeat eventId seatId) rfl, hf]
      rfl

theorem run_requireSeat_error {eventId seatId : String} (h : (eventId, seatId) ∉ db.tables.seats.map Seat.key)
    (f : Seat T → Service.Method T α) : (Service.requireSeat eventId seatId >>= f).run exec db clock =
      (.error ⟨.notFoundError, "seat '" ++ seatId ++ "' for event '" ++ eventId ++ "' was not found"⟩, db) := by
  have hf : db.tables.seats.find? (fun s => s.key = (eventId, seatId)) = none := by
    rw [List.find?_eq_none]
    intro seat hmem he
    exact h (List.mem_map.mpr ⟨seat, hmem, of_decide_eq_true he⟩)
  rw [Service.requireSeat, Program.bind_assoc, run_call (.getSeat eventId seatId) rfl, hf]
  rfl

theorem run_requireReservation {id : String} {row : Reservation T}
    (h : findReservation (db.expire (clock 0)).tables id = some row) (f : ReservationRecord T → Service.Method T α) :
    (Service.requireReservation id >>= f).run exec db clock =
      (f (record (db.expire (clock 0)).tables row)).run exec (db.expire (clock 0)) (fun i => clock (i + 3)) :=
  (returns_requireReservation h).run_bind

theorem run_requireReservation_error {id : String} (h : findReservation (db.expire (clock 0)).tables id = none)
    (f : ReservationRecord T → Service.Method T α) : (Service.requireReservation id >>= f).run exec db clock =
      (.error ⟨.notFoundError, "reservation '" ++ id ++ "' was not found"⟩, db.expire (clock 0)) := by
  rw [Service.requireReservation, Program.bind_assoc, run_expireStale, Program.bind_assoc,
    run_call (.getReservation id) rfl, getReservation, h]
  rfl

/-! ### Users -/

omit [LinearOrder T] in
theorem valid_createUser (userId displayName email : String) (createdAt : T) {t : Tables T} (h : Valid t) :
    Valid (createUser userId displayName email createdAt t) := by
  unfold createUser
  by_cases hmem : userId ∈ t.users.map User.userId
  · rw [if_pos hmem]
    exact h
  · rw [if_neg hmem]
    exact { h with
      userIds := by
        simp only [List.map_append, List.nodup_append]
        refine ⟨h.userIds, by simp, ?_⟩
        simp only [List.map_cons, List.map_nil, List.mem_singleton]
        rintro a ha b rfl rfl
        exact hmem ha
      reservationUsers := by
        intro r hr
        rw [List.map_append]
        exact List.mem_append_left _ (h.reservationUsers r hr) }

/-- The users that the service creates when it first meets them. -/
def LoadUser (userId : String) : Prop := Service.loadUserPrefix.toList.isPrefixOf userId.toList

instance (userId : String) : Decidable (LoadUser userId) := inferInstanceAs (Decidable (_ = true))

/-- The row of such a user. -/
def loadUser (userId : String) (createdAt : T) : User T :=
  let rest := String.ofList (userId.toList.drop Service.loadUserPrefix.length)
  ⟨userId, "Load User " ++ (if rest = "" then "crowd" else rest), userId ++ "@demo.local", createdAt⟩

theorem run_ensureUser_known {userId : String} (h : userId ∈ db.tables.users.map User.userId)
    (p : Service.Method T α) :
    (Service.ensureUser userId >>= fun _ => p).run exec db clock = p.run exec db (fun i => clock (i + 1)) := by
  cases hf : db.tables.users.find? (fun u => u.userId = userId) with
  | none =>
      obtain ⟨user, hmem, rfl⟩ := List.mem_map.mp h
      exact absurd (List.find?_eq_none.mp hf user hmem) (by simp)
  | some user =>
      rw [Service.ensureUser, Program.bind_assoc, run_call (.getUser userId) rfl, getUser, hf]
      rfl

omit [LinearOrder T] in
theorem getUser_none {userId : String} (h : userId ∉ db.tables.users.map User.userId) :
    getUser db.tables userId = none := by
  rw [getUser, List.find?_eq_none]
  intro user hmem he
  exact h (List.mem_map.mpr ⟨user, hmem, of_decide_eq_true he⟩)

theorem run_ensureUser_error {userId : String} (h : userId ∉ db.tables.users.map User.userId) (hload : ¬ LoadUser userId)
    (f : Option (User T) → Service.Method T α) : (Service.ensureUser userId >>= f).run exec db clock =
      (.error ⟨.notFoundError, "user '" ++ userId ++ "' was not found"⟩, db) := by
  rw [Service.ensureUser, Program.bind_assoc, run_call (.getUser userId) rfl, getUser_none h]
  unfold LoadUser at hload
  dsimp only
  rw [if_neg hload]
  rfl

def Database.addLoadUser (userId : String) (now : T) (db : Database T) : Database T :=
  ⟨createUser userId (loadUser userId now).displayName (loadUser userId now).email now db.tables,
    valid_createUser _ _ _ _ db.valid⟩

omit [LinearOrder T] in
theorem addLoadUser_tables {userId : String} (h : userId ∉ db.tables.users.map User.userId) (now : T) :
    (db.addLoadUser userId now).tables = { db.tables with users := db.tables.users ++ [loadUser userId now] } := if_neg h

/-- A load user is inserted before anything else of the request is looked at. -/
theorem run_ensureUser_new {userId : String} (h : userId ∉ db.tables.users.map User.userId) (hload : LoadUser userId)
    (p : Service.Method T α) : (Service.ensureUser userId >>= fun _ => p).run exec db clock =
      p.run exec (db.addLoadUser userId (clock 1)) (fun i => clock (i + 3)) := by
  rw [Service.ensureUser, Program.bind_assoc, run_call (.getUser userId) rfl, getUser_none h]
  unfold LoadUser at hload
  dsimp only
  rw [if_pos hload, Program.bind_assoc, run_timestamp, run_call _]
  simp only [exec]
  rw [commit_valid (db.addLoadUser userId (clock 1)).valid]
  rfl

/-! ### Calls that fail -/

/-- The call returns, or it reports a missing row or a conflict with all tables as they were, stale rows apart. -/
def Clean (db : Database T) (clock : ℕ → T) (r : Except Error α × Database T) : Prop :=
  ∀ e, r.1 = .error e → (e.kind = .notFoundError ∨ e.kind = .conflictError) ∧ ∃ n, r.2 = db.expire (clock n)

def raised (r : Except Error α × Database T) : Option ErrorKind :=
  match r.1 with
  | .ok _ => none
  | .error e => some e.kind

theorem Clean.raised {r : Except Error α × Database T} (h : Clean db clock r) (kind : ErrorKind)
    (hkind : raised r = some kind) :
    (kind = .notFoundError ∨ kind = .conflictError) ∧ ∃ n, r.2 = db.expire (clock n) := by
  obtain ⟨e | a, db'⟩ := r
  · cases hkind
    exact h e rfl
  · cases hkind

theorem clean_ok {a : α} {db' : Database T} : Clean db clock (.ok a, db') := by
  intro e he
  cases he

theorem clean_of_ok {r : Except Error α × Database T} {a : α} (h : r.1 = .ok a) : Clean db clock r := by
  intro e he
  rw [h] at he
  cases he

theorem clean_error {e : Error} (h : e.kind = .notFoundError ∨ e.kind = .conflictError) :
    Clean db clock ((.error e, db.expire (clock 0)) : Except Error α × Database T) := by
  rintro _ ⟨⟩
  exact ⟨h, 0, rfl⟩

theorem not_clean_kind {e : Error} {db' : Database T} (h : e.kind ≠ .notFoundError) (h' : e.kind ≠ .conflictError) :
    ¬ Clean db clock ((.error e, db') : Except Error α × Database T) :=
  fun hclean => (hclean e rfl).1.elim h h'

theorem not_clean_users {e : Error} {db' : Database T} (h : db'.tables.users ≠ db.tables.users) :
    ¬ Clean db clock ((.error e, db') : Except Error α × Database T) := by
  intro hclean
  obtain ⟨-, n, rfl⟩ := hclean e rfl
  exact h rfl

theorem clean_map {β : Type} {p : Service.Method T α} (g : α → β) :
    Clean db clock ((p >>= fun a => pure (g a)).run exec db clock) ↔ Clean db clock (p.run exec db clock) := by
  rw [Program.run_bind]
  rcases p.run exec db clock with ⟨_ | a, db'⟩
  · constructor
    · rintro h _ ⟨⟩
      exact h _ rfl
    · rintro h _ ⟨⟩
      exact h _ rfl
  · exact iff_of_true clean_ok clean_ok

/-! ### The transitions of a row -/

/-- The row is `HELD` and has not run out. -/
def Open (db : Database T) (now : T) (id : String) : Prop :=
  ∃ row, findReservation db.tables id = some row ∧ row.status = .held ∧ ¬ Stale row now

theorem open_iff {now : T} {id : String} :
    Open db now id ↔ ∃ row, findReservation (db.expire now).tables id = some row ∧ row.status = .held := by
  rw [findReservation_expire]
  constructor
  · rintro ⟨row, hrow, hheld, hstale⟩
    refine ⟨row, ?_, hheld⟩
    rw [hrow, Option.map_some, expiredAt, if_neg hstale]
  · rintro ⟨row', hrow', hheld⟩
    obtain ⟨row, hrow, rfl⟩ := Option.map_eq_some_iff.mp hrow'
    have heq : expiredAt now row = row := expiredAt_eq (by rw [hheld]; decide)
    rw [heq] at hheld
    exact ⟨row, hrow, hheld, heq ▸ not_stale_expiredAt now row⟩

/-- The shape of the three transitions: only what follows the check of an open row may spoil anything. -/
theorem clean_transition {id : String} {S : ReservationStatus} {P : Prop}
    {found update : ReservationRecord T → Service.Method T α} {refusal : ReservationRecord T → Error}
    (hS : S ≠ .held) (hrefusal : ∀ r, (refusal r).kind = .conflictError)
    (hfound : ∀ row, Clean db clock
      ((found (record (db.expire (clock 0)).tables row)).run exec (db.expire (clock 0)) (fun i => clock (i + 3))))
    (hupdate : ∀ row, findReservation (db.expire (clock 0)).tables id = some row → (Clean db clock
      ((update (record (db.expire (clock 0)).tables row)).run exec (db.expire (clock 0)) (fun i => clock (i + 3))) ↔ P)) :
    Clean db clock ((Service.requireReservation id >>= fun r => if r.reservation.status = S then found r
      else if r.reservation.status ≠ .held then throw (refusal r) else update r).run exec db clock) ↔
      (Open db (clock 0) id → P) := by
  rw [open_iff]
  cases hrow : findReservation (db.expire (clock 0)).tables id with
  | none =>
      rw [run_requireReservation_error hrow]
      refine iff_of_true (clean_error (.inl rfl)) ?_
      rintro ⟨row, hsome, -⟩
      cases hsome
  | some row =>
      rw [run_requireReservation hrow]
      have hr : (record (db.expire (clock 0)).tables row).reservation = row := rfl
      have hopen : (∃ row', some row = some row' ∧ row'.status = .held) ↔ row.status = .held := by simp
      rw [hr, hopen]
      by_cases hstatus : row.status = S
      · rw [if_pos hstatus]
        exact iff_of_true (hfound row) fun hheld => absurd (hstatus.symm.trans hheld) hS
      · rw [if_neg hstatus]
        by_cases hheld : row.status = .held
        · rw [if_neg (not_not.2 hheld), hupdate row hrow]
          exact ⟨fun hP _ => hP, fun h => h hheld⟩
        · rw [if_pos hheld]
          exact iff_of_true (clean_error (.inr (hrefusal _))) fun h => absurd h hheld

theorem run_invoke (op : RepoOp T) : (Service.call op).run exec db clock = exec (clock 0) db op := by
  rw [Service.call, Program.invoke, Program.run_call]
  rcases exec (clock 0) db op with ⟨_ | _, _⟩ <;> rfl

omit [LinearOrder T] in
theorem commit_invalid {f : Tables T → Tables T} {read : Tables T → α} (h : ¬ Valid (f db.tables)) :
    commit db f read = (.error ⟨.integrityError, "constraint failed"⟩, db) := by
  have htransaction : transaction db f = (.error ⟨.integrityError, "constraint failed"⟩, db) := dif_neg h
  simp only [commit, htransaction]
  rfl

theorem confirm_clean_iff (db : Database T) (clock : ℕ → T) (id : String) (request : ConfirmReservationRequest) :
    Clean db clock ((Service.confirmReservation id request).run exec db clock) ↔
      (Open db (clock 0) id → IsInt64 request.amount) := by
  refine clean_transition (by decide) (fun _ => rfl) (fun row => ?_) fun row hrow => ?_
  · split
    · exact clean_ok
    · exact clean_error (.inr rfl)
  · rw [Service.conflictOnIntegrity, Program.run_tryCatch, run_timestamp, run_invoke]
    simp only [exec, bindAmount]
    by_cases hamount : IsInt64 request.amount
    · rw [if_pos hamount]
      refine iff_of_true ?_ hamount
      by_cases hvalid : Valid (Repository.confirmReservation id ⟨request.paymentId, .succeeded, request.amount,
          request.provider, request.providerRef⟩ (clock 3) (db.expire (clock 0)).tables)
      · rw [commit_valid hvalid]
        exact clean_ok
      · rw [commit_invalid hvalid]
        exact clean_error (.inr rfl)
    · rw [if_neg hamount]
      exact iff_of_false (not_clean_kind (by decide) (by decide)) hamount

theorem expire_clean (db : Database T) (clock : ℕ → T) (id : String) :
    Clean db clock ((Service.expireReservation id).run exec db clock) := by
  refine (clean_transition (P := True) (by decide) (fun _ => rfl) (fun row => clean_ok) fun row hrow => ?_).2 fun _ => trivial
  have hvalid : Valid (Repository.expireReservation id (clock 3) (db.expire (clock 0)).tables) :=
    valid_unconfirm (fun r => ⟨rfl, rfl, rfl, rfl, rfl, rfl⟩) (fun r => by simp) (db.expire (clock 0)).valid
  rw [run_timestamp, run_invoke]
  simp only [exec]
  rw [commit_valid hvalid]
  exact iff_of_true clean_ok trivial

/-! ### Payments of cancellations -/

section Payments

omit [LinearOrder T]

variable {t : Tables T} {id : String} {payment : PaymentPayload} {now : T}

/-- The payment is booked under its id, and the other payments stay. -/
theorem mem_upsertPayment (t : Tables T) (id : String) (payment : PaymentPayload) (now : T) : (∃ q ∈ (upsertPayment id payment now t).payments,
      q.paymentId = payment.paymentId ∧ q.reservationId = id) ∧
    ∀ q ∈ t.payments, q.reservationId ≠ id → q ∈ (upsertPayment id payment now t).payments := by
  unfold upsertPayment
  by_cases hmem : id ∈ t.payments.map Payment.reservationId
  · rw [if_pos hmem]
    constructor
    · obtain ⟨q, hq, rfl⟩ := List.mem_map.mp hmem
      exact ⟨_, List.mem_map_of_mem hq, by rw [if_pos rfl], by rw [if_pos rfl]⟩
    · intro q hq hne
      exact List.mem_map.mpr ⟨q, hq, if_neg hne⟩
  · rw [if_neg hmem]
    exact ⟨⟨_, List.mem_append_right _ (List.mem_singleton_self _), rfl, rfl⟩,
      fun q hq _ => List.mem_append_left _ hq⟩

theorem valid_upsertPayment (h : Valid t) (hrow : id ∈ t.reservations.map Reservation.reservationId)
    (hamount : IsInt64 payment.amount)
    (hid : ∀ q ∈ t.payments, q.paymentId = payment.paymentId → q.reservationId = id) :
    Valid (upsertPayment id payment now t) := by
  by_cases hmem : id ∈ t.payments.map Payment.reservationId
  · rw [upsertPayment, if_pos hmem]
    exact { h with
      paymentIds := by
        rw [List.map_map, List.nodup_map_iff_inj_on h.paymentIds.of_map]
        intro a ha b hb hab
        simp only [Function.comp_apply] at hab
        by_cases hra : a.reservationId = id
        · by_cases hrb : b.reservationId = id
          · exact List.inj_on_of_nodup_map h.paymentReservationIds ha hb (hra.trans hrb.symm)
          · rw [if_pos hra, if_neg hrb] at hab
            exact absurd (hid b hb hab.symm) hrb
        · by_cases hrb : b.reservationId = id
          · rw [if_neg hra, if_pos hrb] at hab
            exact absurd (hid a ha hab) hra
          · rw [if_neg hra, if_neg hrb] at hab
            exact List.inj_on_of_nodup_map h.paymentIds ha hb hab
      paymentReservationIds := by
        rw [List.map_map, List.map_congr_left (g := Payment.reservationId)]
        · exact h.paymentReservationIds
        · intro q _
          simp only [Function.comp_apply]
          split <;> rfl
      paymentReservations := by
        intro p hp
        obtain ⟨q, hq, rfl⟩ := List.mem_map.mp hp
        split
        · exact h.paymentReservations q hq
        · exact h.paymentReservations q hq
      paymentIntegers := by
        intro p hp
        obtain ⟨q, hq, rfl⟩ := List.mem_map.mp hp
        split
        · exact hamount
        · exact h.paymentIntegers q hq }
  · refine valid_payment h hrow (fun hpayment => ?_) hmem hamount
    obtain ⟨q, hq, he⟩ := List.mem_map.mp hpayment
    exact hmem (List.mem_map.mpr ⟨q, hq, hid q hq he⟩)

/-- A payment may be booked for a row unless its id belongs to the payment of another one. -/
theorem valid_cancel_iff (now : T) (h : Valid t) (hrow : id ∈ t.reservations.map Reservation.reservationId)
    (hamount : IsInt64 payment.amount) : Valid (Repository.cancelReservation id now (some payment) t) ↔
      ∀ q ∈ t.payments, q.paymentId = payment.paymentId → q.reservationId = id := by
  constructor
  · intro hvalid q hq he
    by_contra hne
    obtain ⟨⟨p, hp, hpid, hprow⟩, hkept⟩ := mem_upsertPayment t id payment now
    have heq := List.inj_on_of_nodup_map hvalid.paymentIds (hkept q hq hne) hp (he.trans hpid.symm)
    exact hne (heq ▸ hprow)
  · intro hid
    exact valid_unconfirm (fun r => ⟨rfl, rfl, rfl, rfl, rfl, rfl⟩) (fun r => by simp)
      (valid_upsertPayment h hrow hamount hid)

end Payments

omit [LinearOrder T] in
theorem validateCancelPaymentPayload_error {request : CancelReservationRequest} {e : Error}
    (h : Service.validateCancelPaymentPayload request = .error e) : e.kind = .conflictError := by
  unfold Service.validateCancelPaymentPayload at h
  split at h
  · cases h
  · cases h
  · cases h
    rfl

theorem cancel_clean_iff (db : Database T) (clock : ℕ → T) (id : String) (request : CancelReservationRequest) :
    Clean db clock ((Service.cancelReservation id request).run exec db clock) ↔
      (Open db (clock 0) id → ∀ payment, Service.validateCancelPaymentPayload request = .ok (some payment) →
        IsInt64 payment.amount ∧
          ∀ q ∈ db.tables.payments, q.paymentId = payment.paymentId → q.reservationId = id) := by
  refine clean_transition (by decide) (fun _ => rfl) (fun row => clean_ok) fun row hrow => ?_
  cases hpayment : Service.validateCancelPaymentPayload request with
  | error e =>
      refine iff_of_true (clean_error (.inr (validateCancelPaymentPayload_error hpayment))) ?_
      rintro payment ⟨⟩
  | ok payment =>
      rw [Program.ofExcept_ok, Program.bind_ret, run_timestamp, run_invoke]
      simp only [exec, bindAmount]
      cases payment with
      | none =>
          have hvalid : Valid (Repository.cancelReservation id (clock 3) none (db.expire (clock 0)).tables) :=
            valid_unconfirm (fun r => ⟨rfl, rfl, rfl, rfl, rfl, rfl⟩) (fun r => by simp) (db.expire (clock 0)).valid
          rw [if_pos (by decide), commit_valid hvalid]
          refine iff_of_true clean_ok ?_
          rintro payment ⟨⟩
      | some payment =>
          have hmem : id ∈ (db.expire (clock 0)).tables.reservations.map Reservation.reservationId := by
            obtain ⟨hmem, rfl⟩ := findReservation_mem hrow
            exact List.mem_map_of_mem hmem
          have hsome : (∀ payment', Except.ok (some payment) = (Except.ok (some payment') : Except Error _) →
              IsInt64 payment'.amount ∧ ∀ q ∈ db.tables.payments, q.paymentId = payment'.paymentId → q.reservationId = id) ↔
              IsInt64 payment.amount ∧
                ∀ q ∈ db.tables.payments, q.paymentId = payment.paymentId → q.reservationId = id := by
            constructor
            · exact fun h => h payment rfl
            · rintro h _ ⟨⟩
              exact h
          rw [hsome, Option.map_some, Option.getD_some]
          by_cases hamount : IsInt64 payment.amount
          · have hiff := valid_cancel_iff (clock 3) (db.expire (clock 0)).valid hmem hamount
            by_cases hvalid : Valid (Repository.cancelReservation id (clock 3) (some payment) (db.expire (clock 0)).tables)
            · rw [if_pos hamount, commit_valid hvalid]
              exact iff_of_true clean_ok ⟨hamount, hiff.1 hvalid⟩
            · rw [if_pos hamount, commit_invalid hvalid]
              exact iff_of_false (not_clean_kind (by decide) (by decide)) fun h => hvalid (hiff.2 h.2)
          · rw [if_neg hamount]
            exact iff_of_false (not_clean_kind (by decide) (by decide)) fun h => hamount h.1

/-! ### The creation of a reservation -/

section Creation

variable {D : Type} (normalizeTimestamp : D → Except Error T) (request : HeldReservationCreate D)

/-- `create_held_reservation` after its checks of the event, the seat and the user. -/
def Service.placeHold : Service.Method T (Option (ReservationRecord T) × Bool) := do
  let existing ← call (.getReservation request.reservationId)
  let expiresAt ← Program.ofExcept (normalizeTimestamp request.expiresAt)
  match existing with
  | some existing =>
    if heldRequestMatches existing.reservation request expiresAt then return (some existing, false)
    else throw ⟨.conflictError,
      "reservation_id '" ++ request.reservationId ++ "' already exists with different payload"⟩
  | none =>
    if ← call (.hasConfirmedReservation request.eventId request.seatId) then
      throw ⟨.conflictError, seatConfirmedMessage request.eventId request.seatId⟩
    else
      let created ← conflictOnIntegrity (do
        let now ← currentTimestamp
        call (.createHeldReservation request.reservationId request.eventId request.seatId request.userId
          request.holdToken expiresAt now)) "hold_token is already in use"
      return (created, true)

theorem createHeldReservation_eq : Service.createHeldReservation normalizeTimestamp request = (do
    Service.expireStale
    let _ ← Service.requireEvent request.eventId
    let _ ← Service.requireSeat request.eventId request.seatId
    let _ ← Service.ensureUser request.userId
    Service.placeHold normalizeTimestamp request) := rfl

/-- What stands in the way of a new row for a request whose event, seat and user there are. -/
def Blocked (t : Tables T) (request : HeldReservationCreate D) : Prop :=
  findReservation t request.reservationId ≠ none ∨ hasConfirmedReservation t request.eventId request.seatId = true ∨
    request.holdToken ∈ t.reservations.filterMap Reservation.holdToken

variable {normalizeTimestamp request}

theorem run_placeHold_error {e : Error} (h : normalizeTimestamp request.expiresAt = .error e) :
    (Service.placeHold normalizeTimestamp request).run exec db clock = (.error e, db) := by
  rw [Service.placeHold, run_call (.getReservation request.reservationId) rfl, h]
  rfl

omit [LinearOrder T] in
theorem not_valid_create {t : Tables T} {expiresAt now : T} {reservationId eventId seatId userId holdToken : String}
    (h : holdToken ∈ t.reservations.filterMap Reservation.holdToken) :
    ¬ Valid (Repository.createHeldReservation reservationId eventId seatId userId holdToken expiresAt now t) := by
  intro hvalid
  have htokens := hvalid.holdTokens
  rw [Repository.createHeldReservation, List.filterMap_append] at htokens
  exact List.disjoint_of_nodup_append htokens h (by simp)

/-- What becomes of such a request: its row is found, it is inserted, or the request is refused. -/
inductive Placement (request : HeldReservationCreate D) (expiresAt : T) (db : Database T)
    (r : Except Error (Option (ReservationRecord T) × Bool) × Database T) : Prop
  | found (row : Reservation T) (hrow : findReservation db.tables request.reservationId = some row)
      (hmatch : Service.heldRequestMatches row request expiresAt = true)
      (h : r = (.ok (some (record db.tables row), false), db))
  | created (now : T) (hfree : ¬ Blocked db.tables request)
      (hdb : r.2.tables.reservations = db.tables.reservations ++ [heldRow request expiresAt now])
      (answer : Option (ReservationRecord T)) (h : r.1 = .ok (answer, true))
  | refused (hblocked : Blocked db.tables request)
      (hmismatch : ∀ row, findReservation db.tables request.reservationId = some row →
        Service.heldRequestMatches row request expiresAt ≠ true)
      (e : Error) (hkind : e.kind = .conflictError) (h : r = (.error e, db))

theorem run_placeHold {expiresAt : T} (h : normalizeTimestamp request.expiresAt = .ok expiresAt)
    (hseat : (request.eventId, request.seatId) ∈ db.tables.seats.map Seat.key)
    (huser : request.userId ∈ db.tables.users.map User.userId) (env : ℕ → T) :
    Placement request expiresAt db ((Service.placeHold normalizeTimestamp request).run exec db env) := by
  rw [Service.placeHold, run_call (.getReservation request.reservationId) rfl, h, Program.ofExcept_ok,
    Program.bind_ret, getReservation]
  cases hrow : findReservation db.tables request.reservationId with
  | some row =>
      have hr : (record db.tables row).reservation = row := rfl
      simp only [Option.map_some, hr]
      by_cases hmatch : Service.heldRequestMatches row request expiresAt = true
      · rw [if_pos hmatch]
        exact .found row hrow hmatch rfl
      · rw [if_neg hmatch]
        refine .refused (.inl ?_) (fun row' hrow' => ?_) _ ?_ rfl
        · rw [hrow]
          exact Option.some_ne_none row
        · rw [hrow] at hrow'
          cases hrow'
          exact hmatch
        · rfl
  | none =>
      have hnone : ∀ row, findReservation db.tables request.reservationId = some row →
          Service.heldRequestMatches row request expiresAt ≠ true := by
        intro row hsome
        rw [hrow] at hsome
        cases hsome
      simp only [Option.map_none]
      rw [run_call (.hasConfirmedReservation request.eventId request.seatId) rfl]
      by_cases hconfirmed : hasConfirmedReservation db.tables request.eventId request.seatId = true
      · rw [if_pos hconfirmed]
        refine .refused (.inr (.inl hconfirmed)) hnone _ ?_ rfl
        rfl
      · have hfresh : request.reservationId ∉ db.tables.reservations.map Reservation.reservationId := by
          simpa [findReservation] using hrow
        rw [if_neg hconfirmed, Service.conflictOnIntegrity, Program.run_bind, Program.run_tryCatch, run_timestamp,
          run_invoke]
        simp only [exec]
        by_cases htoken : request.holdToken ∈ db.tables.reservations.filterMap Reservation.holdToken
        · rw [commit_invalid (not_valid_create htoken)]
          refine .refused (.inr (.inr htoken)) hnone _ ?_ rfl
          rfl
        · rw [commit_valid (valid_create _ _ db.valid hfresh htoken hseat huser)]
          refine .created (env 2) (fun hblocked => ?_) ?_ _ rfl
          · obtain h | h | h := hblocked
            · exact absurd hrow h
            · exact absurd h hconfirmed
            · exact absurd h htoken
          · rfl

/-- How a request passes the checks of its event, its seat and its user, from which only a new user is left behind. -/
inductive Admission (normalizeTimestamp : D → Except Error T) (request : HeldReservationCreate D) (db : Database T)
    (r : Except Error (Option (ReservationRecord T) × Bool) × Database T) : Prop
  | rejected (e : Error) (hkind : e.kind = .notFoundError) (h : r = (.error e, db))
      (hwhy : request.eventId ∈ db.tables.events.map Event.eventId →
        (request.eventId, request.seatId) ∈ db.tables.seats.map Seat.key →
        request.userId ∉ db.tables.users.map User.userId ∧ ¬ LoadUser request.userId)
  | known (hevent : request.eventId ∈ db.tables.events.map Event.eventId)
      (hseat : (request.eventId, request.seatId) ∈ db.tables.seats.map Seat.key)
      (huser : request.userId ∈ db.tables.users.map User.userId) (env : ℕ → T)
      (h : r = (Service.placeHold normalizeTimestamp request).run exec db env)
  | unknown (hevent : request.eventId ∈ db.tables.events.map Event.eventId)
      (hseat : (request.eventId, request.seatId) ∈ db.tables.seats.map Seat.key)
      (huser : request.userId ∉ db.tables.users.map User.userId) (hload : LoadUser request.userId) (now : T) (env : ℕ → T)
      (h : r = (Service.placeHold normalizeTimestamp request).run exec (db.addLoadUser request.userId now) env)

theorem run_createHeldReservation (normalizeTimestamp : D → Except Error T) (request : HeldReservationCreate D)
    (db : Database T) (clock : ℕ → T) :
    Admission normalizeTimestamp request (db.expire (clock 0))
      ((Service.createHeldReservation normalizeTimestamp request).run exec db clock) := by
  rw [createHeldReservation_eq, run_expireStale]
  by_cases hevent : request.eventId ∈ (db.expire (clock 0)).tables.events.map Event.eventId
  swap
  · refine .rejected _ ?_ (run_requireEvent_error hevent _) fun h => absurd h hevent
    rfl
  rw [run_requireEvent hevent]
  by_cases hseat : (request.eventId, request.seatId) ∈ (db.expire (clock 0)).tables.seats.map Seat.key
  swap
  · refine .rejected _ ?_ (run_requireSeat_error hseat _) fun _ h => absurd h hseat
    rfl
  rw [run_requireSeat hseat]
  by_cases huser : request.userId ∈ (db.expire (clock 0)).tables.users.map User.userId
  · exact .known hevent hseat huser _ (run_ensureUser_known huser _)
  · by_cases hload : LoadUser request.userId
    · exact .unknown hevent hseat huser hload _ _ (run_ensureUser_new huser hload _)
    · refine .rejected _ ?_ (run_ensureUser_error huser hload _) fun _ _ => ⟨huser, hload⟩
      rfl

omit [LinearOrder T] in
theorem addLoadUser_known {userId : String} (h : userId ∉ db.tables.users.map User.userId) (now : T) :
    userId ∈ (db.addLoadUser userId now).tables.users.map User.userId := by
  rw [addLoadUser_tables h, List.map_append]
  exact List.mem_append_right _ (List.mem_singleton_self _)

omit [LinearOrder T] in
theorem hasConfirmedReservation_iff {t : Tables T} {eventId seatId : String} :
    hasConfirmedReservation t eventId seatId = true ↔
      ∃ r ∈ t.reservations, r.eventId = eventId ∧ r.seatId = seatId ∧ r.status = .confirmed := by
  simp [hasConfirmedReservation]

theorem blocked_expire (now : T) : Blocked (db.expire now).tables request ↔ Blocked db.tables request := by
  have hrows : findReservation (db.expire now).tables request.reservationId ≠ none ↔
      findReservation db.tables request.reservationId ≠ none := by
    rw [findReservation_expire]
    simp
  have hconfirmed : hasConfirmedReservation (db.expire now).tables request.eventId request.seatId = true ↔
      hasConfirmedReservation db.tables request.eventId request.seatId = true := by
    rw [hasConfirmedReservation_iff, hasConfirmedReservation_iff]
    constructor
    · rintro ⟨r, hr, he, hs, hc⟩
      exact ⟨r, ((mem_expire (by rw [hc]; decide)).1 hr).1, he, hs, hc⟩
    · rintro ⟨r, hr, he, hs, hc⟩
      refine ⟨r, (mem_expire (by rw [hc]; decide)).2 ⟨hr, fun hstale => ?_⟩, he, hs, hc⟩
      exact absurd (hc.symm.trans hstale.1) (by decide)
  have htokens : (db.expire now).tables.reservations.filterMap Reservation.holdToken =
      db.tables.reservations.filterMap Reservation.holdToken := by
    rw [expire_reservations, List.filterMap_map]
    exact List.filterMap_congr fun r _ => (expiredAt_sameRow now r).holdToken
  rw [Blocked, Blocked, hrows, hconfirmed, htokens]

omit [LinearOrder T] in
theorem blocked_addLoadUser {userId : String} (h : userId ∉ db.tables.users.map User.userId) (now : T) :
    Blocked (db.addLoadUser userId now).tables request ↔ Blocked db.tables request := by
  rw [addLoadUser_tables h]
  rfl

end Creation

end Steps

theorem create_clean_iff (db : Database String) (clock : ℕ → String) (request : HeldReservationCreate DateTime) :
    Clean db clock ((Service.createHeldReservation normalizeTimestamp request).run exec db clock) ↔
      (request.eventId ∈ db.tables.events.map Event.eventId →
        (request.eventId, request.seatId) ∈ db.tables.seats.map Seat.key →
        (request.userId ∈ db.tables.users.map User.userId → DateTime.Representable request.expiresAt.instant) ∧
        (request.userId ∉ db.tables.users.map User.userId → LoadUser request.userId →
          DateTime.Representable request.expiresAt.instant ∧ ¬ Blocked db.tables request)) := by
  have hoverflow (h : ¬ DateTime.Representable request.expiresAt.instant) :
      normalizeTimestamp request.expiresAt = .error ⟨.overflowError, "date value out of range"⟩ := by
    rw [normalizeTimestamp_eq, dif_neg h]
  cases run_createHeldReservation normalizeTimestamp request db clock with
  | rejected e hkind hrun hwhy =>
      rw [hrun]
      refine iff_of_true (clean_error (.inl hkind)) fun hevent hseat => ?_
      obtain ⟨huser, hload⟩ := hwhy hevent hseat
      exact ⟨fun h => absurd h huser, fun _ h => absurd h hload⟩
  | known hevent hseat huser env hrun =>
      rw [hrun]
      by_cases hrep : DateTime.Representable request.expiresAt.instant
      · obtain ⟨expiresAt, hexp⟩ := exists_normalizeTimestamp hrep
        refine iff_of_true ?_ fun _ _ => ⟨fun _ => hrep, fun hnew => absurd huser hnew⟩
        cases run_placeHold hexp hseat huser env with
        | found row hrow hmatch hrun =>
            rw [hrun]
            exact clean_ok
        | created now hfree hdb answer hrun => exact clean_of_ok hrun
        | refused hblocked hmismatch e hkind hrun =>
            rw [hrun]
            exact clean_error (.inr hkind)
      · rw [run_placeHold_error (hoverflow hrep)]
        exact iff_of_false (not_clean_kind (by decide) (by decide)) fun h => hrep ((h hevent hseat).1 huser)
  | unknown hevent hseat huser hload now env hrun =>
      rw [hrun]
      have htables := addLoadUser_tables huser now
      have husers : ((db.expire (clock 0)).addLoadUser request.userId now).tables.users ≠ db.tables.users := by
        intro he
        rw [htables] at he
        have hlength : db.tables.users.length + 1 = db.tables.users.length :=
          List.length_append.symm.trans (congrArg List.length he)
        omega
      have hblocked : Blocked ((db.expire (clock 0)).addLoadUser request.userId now).tables request ↔
          Blocked db.tables request := by rw [blocked_addLoadUser huser, blocked_expire]
      by_cases hrep : DateTime.Representable request.expiresAt.instant
      · obtain ⟨expiresAt, hexp⟩ := exists_normalizeTimestamp hrep
        cases run_placeHold hexp (by rwa [htables]) (addLoadUser_known huser now) env with
        | found row hrow hmatch hrun =>
            -- the row of a known reservation has a known user
            rw [htables] at hrow
            unfold Service.heldRequestMatches at hmatch
            have he := (of_decide_eq_true hmatch).2.2.1
            exact absurd (he ▸ (db.expire (clock 0)).valid.reservationUsers row (findReservation_mem hrow).1) huser
        | created now' hfree hdb answer hrun =>
            exact iff_of_true (clean_of_ok hrun) fun _ _ =>
              ⟨fun h => absurd h huser, fun _ _ => ⟨hrep, fun hb => hfree (hblocked.2 hb)⟩⟩
        | refused hb hmismatch e hkind hrun =>
            rw [hrun]
            exact iff_of_false (not_clean_users husers) fun h => ((h hevent hseat).2 huser hload).2 (hblocked.1 hb)
      · rw [run_placeHold_error (hoverflow hrep)]
        exact iff_of_false (not_clean_users husers) fun h => hrep ((h hevent hseat).2 huser hload).1

/-! ### The four calls -/

/-- The calls that create a reservation or change its status. -/
inductive Change (D : Type)
  | create (request : HeldReservationCreate D)
  | confirm (reservationId : String) (request : ConfirmReservationRequest)
  | cancel (reservationId : String) (request : CancelReservationRequest)
  | expire (reservationId : String)

def Change.call {D : Type} : Change D → ServiceCall D
  | .create request => .createHeldReservation request
  | .confirm reservationId request => .confirmReservation reservationId request
  | .cancel reservationId request => .cancelReservation reservationId request
  | .expire reservationId => .expireReservation reservationId

/-- No check that the code makes too late, or not at all, would have refused the call. -/
def Change.Sound (db : Database String) (now : String) : Change DateTime → Prop
  | .create request => request.eventId ∈ db.tables.events.map Event.eventId →
      (request.eventId, request.seatId) ∈ db.tables.seats.map Seat.key →
      (request.userId ∈ db.tables.users.map User.userId → DateTime.Representable request.expiresAt.instant) ∧
      (request.userId ∉ db.tables.users.map User.userId → LoadUser request.userId →
        DateTime.Representable request.expiresAt.instant ∧ ¬ Blocked db.tables request)
  | .confirm reservationId request => Open db now reservationId → IsInt64 request.amount
  | .cancel reservationId request => Open db now reservationId → ∀ payment,
      Service.validateCancelPaymentPayload request = .ok (some payment) → IsInt64 payment.amount ∧
        ∀ q ∈ db.tables.payments, q.paymentId = payment.paymentId → q.reservationId = reservationId
  | .expire _ => True

/-- A call fails cleanly exactly where its request passes every check. -/
theorem failures_clean_iff (db : Database String) (clock : ℕ → String) (c : Change DateTime) :
    Clean db clock ((c.call.method normalizeTimestamp).run exec db clock) ↔ c.Sound db (clock 0) := by
  cases c with
  | create request =>
      rw [Change.Sound, ← create_clean_iff db clock request]
      exact clean_map fun r : Option (ReservationRecord String) × Bool => ServiceResult.created r.1 r.2
  | confirm id request =>
      rw [Change.Sound, ← confirm_clean_iff db clock id request]
      exact clean_map ServiceResult.reservation
  | cancel id request =>
      rw [Change.Sound, ← cancel_clean_iff db clock id request]
      exact clean_map ServiceResult.reservation
  | expire id =>
      refine iff_of_true ?_ trivial
      exact (clean_map ServiceResult.reservation).2 (expire_clean db clock id)

/-- A sold seat, with its payment, and a hold of another seat. -/
def soldAndHeld : Database String where
  tables :=
    { events := [⟨"e", "title", "venue", "2026-03-19", "2026-03-18", ""⟩]
      users := [⟨"u", "Mina", "mina@example.com", ""⟩]
      seats := [⟨"e", "s", "A-1", "A", "1", 1, 100, ""⟩, ⟨"e", "s'", "A-2", "A", "1", 2, 100, ""⟩]
      reservations :=
        [⟨"q", "e", "s", "u", .confirmed, some "token", some "2026-03-19T11:00:00+00:00", "", "", some "", none⟩,
          ⟨"r", "e", "s'", "u", .held, some "other", some "2026-03-19T11:00:00+00:00", "", "", none, none⟩]
      payments := [⟨"p", "q", .succeeded, 100, "mock-pay", "p", "", ""⟩] }
  valid := by decide +kernel

def ten : ℕ → String := fun _ => "2026-03-19T10:00:00+00:00"

/-- The cancellation reports the payment id of another reservation as a raw database error, and the hold
that a sold seat refuses leaves a user behind. -/
theorem soldAndHeld_not_clean :
    ¬ Clean soldAndHeld ten (((Change.cancel "r" ⟨some "p", some .cancelled, some 100, some "mock-pay", some "p"⟩ :
        Change DateTime).call.method normalizeTimestamp).run exec soldAndHeld ten) ∧
      ¬ Clean soldAndHeld ten (((Change.create ⟨"n", "e", "s", "load-user-1", "new", noon⟩ :
        Change DateTime).call.method normalizeTimestamp).run exec soldAndHeld ten) := by
  constructor
  · intro h
    obtain ⟨hkind, -⟩ := h.raised .integrityError (by decide +kernel)
    exact hkind.elim (by decide) (by decide)
  · intro h
    obtain ⟨-, n, hdb⟩ := h.raised .conflictError (by decide +kernel)
    have husers : _ = 1 := congrArg (fun db : Database String => db.tables.users.length) hdb
    exact absurd husers (by decide +kernel)

end Ticketing.TicketingApi
