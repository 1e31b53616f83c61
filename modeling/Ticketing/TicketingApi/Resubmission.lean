import Ticketing.TicketingApi.Failures

namespace Ticketing.TicketingApi

open Python Interaction Repository

/-- The requests ask for the same hold, with the expiry perhaps written in two offsets. -/
structure SamePayload (request again : HeldReservationCreate DateTime) : Prop where
  eventId : again.eventId = request.eventId
  seatId : again.seatId = request.seatId
  userId : again.userId = request.userId
  holdToken : again.holdToken = request.holdToken
  expiresAt : again.expiresAt.instant = request.expiresAt.instant

/-- There is a row that was inserted for the request. -/
def Written (request : HeldReservationCreate DateTime) (db : Database String) : Prop :=
  ∃ row ∈ db.tables.reservations, WrittenFor normalizeTimestamp request row

variable {request again : HeldReservationCreate DateTime} {db : Database String} {row : Reservation String}

/-! ### Rows and requests -/

theorem WrittenFor.reservationId (h : WrittenFor normalizeTimestamp request row) :
    row.reservationId = request.reservationId := by
  obtain ⟨_, _, _, hsame⟩ := h
  exact hsame.reservationId

theorem Written.find (h : Written request db) :
    ∃ row, findReservation db.tables request.reservationId = some row ∧ WrittenFor normalizeTimestamp request row := by
  obtain ⟨row, hmem, hwritten⟩ := h
  exact ⟨row, hwritten.reservationId ▸ findReservation_of_mem db.valid hmem, hwritten⟩

theorem heldRequestMatches_iff {expiresAt : String} : Service.heldRequestMatches row request expiresAt = true ↔
    row.eventId = request.eventId ∧ row.seatId = request.seatId ∧ row.userId = request.userId ∧
      row.holdToken = some request.holdToken ∧ row.expiresAt = some expiresAt := by
  unfold Service.heldRequestMatches
  exact decide_eq_true_iff

theorem writtenFor_of_matches {expiresAt : String} (hid : row.reservationId = request.reservationId)
    (hexpiresAt : normalizeTimestamp request.expiresAt = .ok expiresAt)
    (h : Service.heldRequestMatches row request expiresAt = true) : WrittenFor normalizeTimestamp request row := by
  obtain ⟨he, hs, hu, ht, hx⟩ := heldRequestMatches_iff.1 h
  exact ⟨expiresAt, row.createdAt, hexpiresAt, hid, he, hs, hu, ht, hx⟩

/-- The texts of the row and of the new request agree exactly where the payloads do. -/
theorem matches_iff {expiresAt : String} (h : WrittenFor normalizeTimestamp request row)
    (hexpiresAt : normalizeTimestamp again.expiresAt = .ok expiresAt) :
    Service.heldRequestMatches row again expiresAt = true ↔ SamePayload request again := by
  obtain ⟨text, now, htext, -, he, hs, hu, ht, hx⟩ := h
  rw [heldRequestMatches_iff, he, hs, hu, ht, hx]
  constructor
  · rintro ⟨he', hs', hu', ht', hx'⟩
    obtain rfl := Option.some.inj hx'
    exact ⟨he'.symm, hs'.symm, hu'.symm, (Option.some.inj ht').symm, (text_eq_iff hexpiresAt htext).1 rfl⟩
  · rintro ⟨he', hs', hu', ht', hx'⟩
    rw [(text_eq_iff hexpiresAt htext).2 hx']
    exact ⟨he'.symm, hs'.symm, hu'.symm, congrArg some ht'.symm, rfl⟩

/-! ### The first request -/

theorem Placement.written {expiresAt : String} {r : Except Error (Option (ReservationRecord String) × Bool) × Database String}
    {answer : Option (ReservationRecord String) × Bool} (h : Placement request expiresAt db r)
    (hexpiresAt : normalizeTimestamp request.expiresAt = .ok expiresAt) (hsent : r.1 = .ok answer) :
    Written request r.2 := by
  cases h with
  | found row hrow hmatch hrun =>
      rw [hrun]
      obtain ⟨hmem, hid⟩ := findReservation_mem hrow
      exact ⟨row, hmem, writtenFor_of_matches hid hexpiresAt hmatch⟩
  | created now hfree hdb answer hrun =>
      refine ⟨heldRow request expiresAt now, ?_, expiresAt, now, hexpiresAt, SameRow.refl _⟩
      rw [hdb]
      exact List.mem_append_right _ (List.mem_singleton_self _)
  | refused hblocked hmismatch e hkind hrun =>
      rw [hrun] at hsent
      cases hsent

/-- A successful request has its row. -/
theorem sent_written {clock : ℕ → String} {answer : Option (ReservationRecord String) × Bool}
    (hsent : ((Service.createHeldReservation normalizeTimestamp request).run exec db clock).1 = .ok answer) :
    Written request ((Service.createHeldReservation normalizeTimestamp request).run exec db clock).2 := by
  cases hexp : normalizeTimestamp request.expiresAt with
  | error e =>
      cases run_createHeldReservation normalizeTimestamp request db clock with
      | rejected e hkind hrun hwhy =>
          rw [hrun] at hsent
          cases hsent
      | known hevent hseat huser env hrun =>
          rw [hrun, run_placeHold_error hexp] at hsent
          cases hsent
      | unknown hevent hseat huser hload now env hrun =>
          rw [hrun, run_placeHold_error hexp] at hsent
          cases hsent
  | ok expiresAt =>
      cases run_createHeldReservation normalizeTimestamp request db clock with
      | rejected e hkind hrun hwhy =>
          rw [hrun] at hsent
          cases hsent
      | known hevent hseat huser env hrun =>
          rw [hrun] at hsent ⊢
          exact (run_placeHold hexp hseat huser env).written hexp hsent
      | unknown hevent hseat huser hload now env hrun =>
          rw [hrun] at hsent ⊢
          refine (run_placeHold hexp ?_ (addLoadUser_known huser now) env).written hexp hsent
          rwa [addLoadUser_tables huser]

/-! ### The calls in between -/

theorem exec_written (clock : String) (op : RepoOp String) (h : Written request db) :
    Written request (exec clock db op).2 := by
  obtain ⟨row, hrow, hwritten⟩ := h.find
  obtain ⟨row', hrow', hsame, -⟩ := exec_find clock op hrow
  exact ⟨row', (findReservation_mem hrow').1, hwritten.sameRow hsame⟩

theorem Request.run_written (h : Written request db) (c : Request String DateTime) :
    Written request (c.run normalizeTimestamp db) := by
  refine Program.events_stable (I := Written request) (fun ev hev hbefore => ?_) (.inl h)
  rw [Program.events_after hev]
  obtain ⟨clock, _ | e⟩ := ev.env
  · exact exec_written clock ev.op hbefore
  · exact hbefore

theorem TicketingRequest.run_written (h : Written request db) (c : TicketingRequest String DateTime)
    (hseed : request.eventId = demoEventId → c.1 ≠ .seedDemoData) : Written request (c.run normalizeTimestamp db) := by
  obtain ⟨call, env⟩ := c
  cases call with
  | initializeTables => exact h
  | seedDemoData =>
      simp only [TicketingRequest.run]
      obtain ⟨createdAt, _ | e⟩ := env 0
      · dsimp only
        obtain ⟨-, ht⟩ | ⟨-, ht⟩ := transaction_cases db (Repository.seedDemoData createdAt)
        · obtain ⟨row, hmem, hwritten⟩ := h
          have hevent : row.eventId ≠ demoEventId := by
            obtain ⟨_, _, _, hsame⟩ := hwritten
            intro he
            exact hseed (hsame.eventId.symm.trans he) rfl
          refine ⟨row, ?_, hwritten⟩
          rw [ht, seedDemoData_reservations]
          exact List.mem_filter.mpr ⟨hmem, decide_eq_true hevent⟩
        · rw [ht]
          exact h
      · exact h
  | service call => exact Request.run_written h (call, env)

theorem runs_written (h : Written request db) (calls : List (TicketingRequest String DateTime))
    (hseed : request.eventId = demoEventId → ∀ c ∈ calls, c.1 ≠ .seedDemoData) :
    Written request (calls.foldl (TicketingRequest.run normalizeTimestamp) db) := by
  induction calls generalizing db with
  | nil => exact h
  | cons c calls ih =>
      refine ih (TicketingRequest.run_written h c fun he => hseed he c List.mem_cons_self) fun he c' hc' => ?_
      exact hseed he c' (List.mem_cons_of_mem c hc')

/-! ### The request again -/

theorem Written.expire (h : Written request db) (now : String) : Written request (db.expire now) := by
  obtain ⟨row, hmem, hwritten⟩ := h
  refine ⟨expiredAt now row, ?_, hwritten.sameRow (expiredAt_sameRow now row)⟩
  rw [expire_reservations]
  exact List.mem_map_of_mem hmem

theorem addLoadUser_rows {userId : String} (h : userId ∉ db.tables.users.map User.userId) (now : String) :
    (db.addLoadUser userId now).tables.reservations = db.tables.reservations ∧
      (db.addLoadUser userId now).tables.payments = db.tables.payments := by
  rw [addLoadUser_tables h]
  exact ⟨rfl, rfl⟩

/-- The request finds the row that was inserted for it. -/
theorem Written.answers (h : Written request db) (hid : again.reservationId = request.reservationId)
    (hsame : SamePayload request again) (clock : ℕ → String) : ∃ row,
      findReservation (db.expire (clock 0)).tables request.reservationId = some row ∧
      (Service.createHeldReservation normalizeTimestamp again).run exec db clock =
        (.ok (some (record (db.expire (clock 0)).tables row), false), db.expire (clock 0)) := by
  obtain ⟨row, hrow, hwritten⟩ := (h.expire (clock 0)).find
  obtain ⟨text, now, htext, hrowSame⟩ := id hwritten
  have hmem := (findReservation_mem hrow).1
  have hvalid := (db.expire (clock 0)).valid
  have hkey : (again.eventId, again.seatId) = row.seat := by
    rw [Reservation.seat, hrowSame.eventId, hrowSame.seatId, hsame.eventId, hsame.seatId]
    rfl
  have huser : again.userId ∈ (db.expire (clock 0)).tables.users.map User.userId := by
    have hrowUser := hvalid.reservationUsers row hmem
    rw [hrowSame.userId] at hrowUser
    rw [hsame.userId]
    exact hrowUser
  have hrep : DateTime.Representable again.expiresAt.instant := by
    rw [hsame.expiresAt]
    by_contra hrep
    rw [normalizeTimestamp_eq, dif_neg hrep] at htext
    cases htext
  obtain ⟨expiresAt, hexp⟩ := exists_normalizeTimestamp hrep
  have hmatch := (matches_iff hwritten hexp).2 hsame
  refine ⟨row, hrow, ?_⟩
  rw [← hid] at hrow
  cases run_createHeldReservation normalizeTimestamp again db clock with
  | rejected e hkind hrun hwhy =>
      have hseat := hvalid.reservationSeats row hmem
      obtain ⟨seat, hseatMem, hseatKey⟩ := List.mem_map.mp hseat
      have hevent := hvalid.seatEvents seat hseatMem
      rw [← hkey] at hseat hseatKey
      rw [show seat.eventId = again.eventId from congrArg Prod.fst hseatKey] at hevent
      exact absurd huser (hwhy hevent hseat).1
  | known hevent hseat huser env hrun =>
      rw [hrun]
      cases run_placeHold hexp hseat huser env with
      | found row' hrow' hmatch' hrun' =>
          rw [hrow] at hrow'
          cases hrow'
          exact hrun'
      | created now hfree hdb answer hrun' =>
          refine absurd (.inl ?_) hfree
          rw [hrow]
          exact Option.some_ne_none row
      | refused hblocked hmismatch e hkind hrun' => exact absurd hmatch (hmismatch row hrow)
  | unknown hevent hseat hnew hload now env hrun => exact absurd huser hnew

theorem Placement.mismatch {expiresAt : String} {r : Except Error (Option (ReservationRecord String) × Bool) × Database String}
    (h : Placement again expiresAt db r) (hexp : normalizeTimestamp again.expiresAt = .ok expiresAt)
    (hwritten : Written request db) (hid : again.reservationId = request.reservationId)
    (hother : ¬ SamePayload request again) : ∃ e, r = (.error e, db) := by
  obtain ⟨row, hrow, hrowWritten⟩ := hwritten.find
  rw [← hid] at hrow
  cases h with
  | found row' hrow' hmatch hrun =>
      rw [hrow] at hrow'
      cases hrow'
      exact absurd ((matches_iff hrowWritten hexp).1 hmatch) hother
  | created now hfree hdb answer hrun =>
      refine absurd (.inl ?_) hfree
      rw [hrow]
      exact Option.some_ne_none row
  | refused hblocked hmismatch e hkind hrun => exact ⟨e, hrun⟩

/-- A request for another hold under the id is refused. -/
theorem Written.refuses (h : Written request db) (hid : again.reservationId = request.reservationId)
    (hother : ¬ SamePayload request again) (clock : ℕ → String) :
    ∃ e, ((Service.createHeldReservation normalizeTimestamp again).run exec db clock).1 = .error e ∧
      ((Service.createHeldReservation normalizeTimestamp again).run exec db clock).2.tables.reservations =
        (db.expire (clock 0)).tables.reservations ∧
      ((Service.createHeldReservation normalizeTimestamp again).run exec db clock).2.tables.payments =
        db.tables.payments := by
  have hplace {db' : Database String} (env : ℕ → String) (hdb' : Written request db')
      (hseat : (again.eventId, again.seatId) ∈ db'.tables.seats.map Seat.key)
      (huser : again.userId ∈ db'.tables.users.map User.userId) :
      ∃ e, (Service.placeHold normalizeTimestamp again).run exec db' env = (.error e, db') := by
    cases hexp : normalizeTimestamp again.expiresAt with
    | error e => exact ⟨e, run_placeHold_error hexp⟩
    | ok expiresAt => exact (run_placeHold hexp hseat huser env).mismatch hexp hdb' hid hother
  have hexpired := h.expire (clock 0)
  cases run_createHeldReservation normalizeTimestamp again db clock with
  | rejected e hkind hrun hwhy =>
      rw [hrun]
      exact ⟨e, rfl, rfl, rfl⟩
  | known hevent hseat huser env hrun =>
      obtain ⟨e, he⟩ := hplace env hexpired hseat huser
      rw [hrun, he]
      exact ⟨e, rfl, rfl, rfl⟩
  | unknown hevent hseat huser hload now env hrun =>
      obtain ⟨hrows, hpayments⟩ := addLoadUser_rows huser now
      have hdb' : Written request ((db.expire (clock 0)).addLoadUser again.userId now) := by
        rw [Written, hrows]
        exact hexpired
      obtain ⟨e, he⟩ := hplace env hdb' (by rwa [addLoadUser_tables huser]) (addLoadUser_known huser now)
      rw [hrun, he]
      exact ⟨e, rfl, hrows, hpayments⟩

/-- A hold may be requested again as long as its event is not seeded anew: it is answered with its row as it stands,
and another hold under its id is refused. -/
theorem resubmission {clock : ℕ → String} {answer : Option (ReservationRecord String) × Bool}
    (hsent : ((Service.createHeldReservation normalizeTimestamp request).run exec db clock).1 = .ok answer)
    (calls : List (TicketingRequest String DateTime))
    (hseed : request.eventId = demoEventId → ∀ c ∈ calls, c.1 ≠ .seedDemoData) :
    let sent := (Service.createHeldReservation normalizeTimestamp request).run exec db clock
    let after := calls.foldl (TicketingRequest.run normalizeTimestamp) sent.2
    ∀ (again : HeldReservationCreate DateTime) (clock' : ℕ → String), again.reservationId = request.reservationId →
      let expired := after.expire (clock' 0)
      let answered := (Service.createHeldReservation normalizeTimestamp again).run exec after clock'
      (SamePayload request again → ∃ row, findReservation expired.tables request.reservationId = some row ∧
        answered = (.ok (some (record expired.tables row), false), expired)) ∧
      (¬ SamePayload request again → (∃ e, answered.1 = .error e) ∧
        answered.2.tables.reservations = expired.tables.reservations ∧
        answered.2.tables.payments = after.tables.payments) := by
  intro sent after again clock' hid expired answered
  have hwritten : Written request after := runs_written (sent_written hsent) calls hseed
  refine ⟨fun hsame => hwritten.answers hid hsame clock', fun hother => ?_⟩
  obtain ⟨e, he, hrows, hpayments⟩ := hwritten.refuses hid hother clock'
  exact ⟨⟨e, he⟩, hrows, hpayments⟩

def tokenHold : HeldReservationCreate DateTime := ⟨"r", "e", "s", "u", "token", eleven⟩

theorem tokenHold_resubmission :
    ((Service.createHeldReservation normalizeTimestamp tokenHold).run exec openEvent ten).1.isOk ∧
    let sent := (Service.createHeldReservation normalizeTimestamp tokenHold).run exec openEvent ten
    let after := morningHolds.foldl (TicketingRequest.run normalizeTimestamp) sent.2
    ∃ row, findReservation (after.expire noon.isoformat).tables "r" = some row ∧
      (Service.createHeldReservation normalizeTimestamp tokenHold).run exec after (fun _ => noon.isoformat) =
        (.ok (some (record (after.expire noon.isoformat).tables row), false), after.expire noon.isoformat) := by
  have hok : ((Service.createHeldReservation normalizeTimestamp tokenHold).run exec openEvent ten).1.isOk := by
    decide +kernel
  cases hsent : ((Service.createHeldReservation normalizeTimestamp tokenHold).run exec openEvent ten).1 with
  | error e =>
      rw [hsent] at hok
      cases hok
  | ok answer =>
      exact ⟨rfl, (resubmission hsent morningHolds (fun he => absurd he (by decide)) tokenHold (fun _ => noon.isoformat) rfl).1
        ⟨rfl, rfl, rfl, rfl, rfl⟩⟩

/-- The demo event with one of its seats. -/
def demoSeat : Database String where
  tables :=
    { events := [⟨demoEventId, "Open Air Countdown Live", "Seoul Olympic Hall", "2026-03-19T20:00:00+09:00",
        "2026-03-19T19:00:00+09:00", ""⟩]
      users := [⟨"user-1", "Mina", "mina@example.com", ""⟩]
      seats := [⟨demoEventId, "A1", "A1", "FLOOR", "A", 1, 120000, ""⟩]
      reservations := []
      payments := [] }
  valid := by decide +kernel

def demoHold : HeldReservationCreate DateTime := ⟨"r", demoEventId, "A1", "user-1", "token", eleven⟩

/-- Seeding removes the row of the hold, and the same request then inserts it a second time. -/
theorem demoHold_created_twice :
    let sent := (Service.createHeldReservation normalizeTimestamp demoHold).run exec demoSeat ten
    let after := TicketingRequest.run normalizeTimestamp sent.2 (.seedDemoData, fun _ => (ten 0, none))
    sent.1.toOption.map Prod.snd = some true ∧
      ((Service.createHeldReservation normalizeTimestamp demoHold).run exec after ten).1.toOption.map Prod.snd =
        some true := by
  decide +kernel

end Ticketing.TicketingApi
