import Ticketing.AppServer.LiveHolds

namespace Ticketing.AppServer

open Python Interaction TicketingApi Repository Commands Orchestrator
open Storage (Store seatKey SeatLease)

/-! ### Flows at one instant -/

/-- The ids that a new UUID makes are not in use. -/
structure Fresh (db : Database ℚ) (uuid : String) : Prop where
  reservation : findReservation db.tables ("res-" ++ uuid) = none
  token : "hold-" ++ uuid ∉ db.tables.reservations.filterMap Reservation.holdToken
  payment : "pay-" ++ uuid ∉ db.tables.payments.map Payment.paymentId

/-- What the steps of a call meet that runs at one instant without failures. -/
structure Instant (t : ℚ) (db : Database ℚ) (env : Env) : Prop where
  now : env.now = t
  fault : env.fault = .none
  fresh : Fresh db env.uuid

abbrev Ends {α : Type} (t : ℚ) (db : Database ℚ) (post : Except Error α → World → Prop) (p : Flow α) (w : World) :
    Prop :=
  Does (fun _ => Instant t db) (fun _ _ _ => True) post p w

variable {t : ℚ} {db₀ : Database ℚ} {w w' : World} {e s u : String} {pending : String → Prop}

theorem ends_db {call : DbCall} {post : Except Error call.Res → World → Prop}
    (h : post (dbStep t w.db call).1 { w with db := (dbStep t w.db call).2 }) :
    Ends t db₀ post (Orchestrator.db call) w :=
  does_db (fun _ => Instant.fault) fun _ henv => ⟨trivial, henv.now ▸ h⟩

theorem ends_seatStatus {post : Except Error SeatStatus → World → Prop}
    (h : post (reported w.redis e s t) { w with redis := Storage.purge w.redis (seatKey e s) t }) :
    Ends t db₀ post (seatStatus e s) w :=
  does_seatStatus (fun _ _ => Instant.fault) fun _ henv => ⟨trivial, henv.now ▸ h⟩

theorem ends_command {tokens : List String} {decode : Reply → Except Error SeatCommandResult}
    {post : Except Error SeatCommandResult → World → Prop}
    (h : post ((redisReply tokens t w.redis).1 >>= decode) { w with redis := step w.redis (t, tokens) }) :
    Ends t db₀ post (Orchestrator.execute tokens >>= fun reply => Program.ofExcept (decode reply)) w :=
  does_command (fun _ _ => Instant.fault) fun _ henv => ⟨trivial, henv.now ▸ h⟩

theorem ends_uuid4 {α : Type} {f : String → Flow α} {post : Except Error α → World → Prop}
    (h : ∀ uuid, Fresh db₀ uuid → Ends t db₀ post (f uuid) w) : Ends t db₀ post (uuid4 >>= f) w := by
  refine Does.bind (P := fun x w' => w' = w ∧ ∃ uuid, x = .ok uuid ∧ Fresh db₀ uuid)
    (does_uuid4 fun env henv => ⟨trivial, rfl, env.uuid, rfl, henv.fresh⟩) (fun uuid w' h' => ?_) fun x w' h' => ?_
  · obtain ⟨rfl, _, he, hu⟩ := h'
    cases he
    exact h uuid hu
  · obtain ⟨_, _, he, _⟩ := h'
    cases he

theorem ends_currentTime {α : Type} {f : ℚ → Flow α} {post : Except Error α → World → Prop}
    (h : Ends t db₀ post (f t) w) : Ends t db₀ post (currentTime >>= f) w := by
  refine Does.bind (P := fun x w' => w' = w ∧ x = .ok t)
    (does_currentTime fun env henv => ⟨trivial, rfl, henv.now ▸ rfl⟩) (fun now w' h' => ?_) fun x w' h' => ?_
  · obtain ⟨rfl, he⟩ := h'
    cases he
    exact h
  · cases h'.2

/-! ### What a flow sees -/

theorem ends_findEventSeat (e s : String) (w : World) :
    Ends t db₀ (fun x w' => w' = { w with db := w.db.expire t } ∧ match x with
      | .ok seat => seat.seat ∈ w.db.tables.seats ∧ seat.seat.key = (e, s)
      | .error _ => (e, s) ∉ w.db.tables.seats.map Seat.key) (findEventSeat e s) w := by
  obtain ⟨hdb, hx⟩ := dbStep_listEventSeats t w.db e
  refine Does.bind (P := fun x w' => x = (dbStep t w.db (.listEventSeats e)).1 ∧ w' = { w with db := w.db.expire t })
    (ends_db ⟨rfl, by rw [hdb]⟩) (fun seats w' h => ?_) (fun err w' h => ?_)
  · obtain ⟨hseats, rfl⟩ := h
    rcases hx with hx | ⟨_, err, hx⟩
    · cases hseats.trans hx
      cases hf : (listSeats (w.db.expire t).tables e).find? (fun x => x.seat.seatId = s) with
      | some seat =>
          obtain ⟨hmem, he⟩ := mem_listSeats (List.mem_of_find?_eq_some hf)
          have hs : seat.seat.seatId = s := by simpa using List.find?_some hf
          exact does_ret ⟨rfl, hmem, Prod.ext he hs⟩
      | none =>
          refine does_throw ⟨rfl, fun hk => ?_⟩
          obtain ⟨seat, hmem, hs⟩ := exists_listSeats (t := (w.db.expire t).tables) hk
          exact absurd hs (by simpa using List.find?_eq_none.mp hf seat hmem)
    · cases hseats.trans hx
  · obtain ⟨herr, rfl⟩ := h
    rcases hx with hx | ⟨hno, _, hx⟩
    · cases herr.trans hx
    · refine ⟨rfl, fun hk => hno ?_⟩
      obtain ⟨x, hmem, hkey⟩ := List.mem_map.mp hk
      obtain ⟨rfl, _⟩ := Prod.ext_iff.mp hkey
      exact w.db.valid.seatEvents x hmem

/-- A flow that has only looked: stale holds are marked, and no seat has changed. -/
structure Looked (t : ℚ) (w w' : World) : Prop where
  db : w'.db = w.db.expire t
  redis : ∀ key l, Shows w.redis key t l → Shows w'.redis key t l

theorem Covered.looked (h : Covered pending t w) (hw : Looked t w w') : Covered pending t w' := by
  obtain ⟨db', redis'⟩ := w'
  obtain ⟨rfl, hr⟩ := hw
  exact (h.expire t).look hr

theorem ends_getEventSeat (w : World) : Ends t db₀ (fun x w' => Looked t w w' ∧
    ((e, s) ∈ w.db.tables.seats.map Seat.key → (∃ l, Shows w.redis (seatKey e s) t l ∧ Brief t l) → ∃ view, x = .ok view))
    (getEventSeat e s) w := by
  refine (ends_findEventSeat e s w).bind (fun seat w₁ h => ?_) (fun err w₁ h => ?_)
  · obtain ⟨rfl, _⟩ := h
    refine Does.bind (P := fun x w' => x = reported w.redis e s t ∧ Looked t w w')
      (ends_seatStatus ⟨rfl, rfl, fun key l hl => hl.purge _⟩) (fun status w₂ h => ?_) (fun err w₂ h => ?_)
    · exact does_ret ⟨h.2, fun _ _ => ⟨_, rfl⟩⟩
    · refine ⟨h.2, fun _ ⟨l, hl, hb⟩ => ?_⟩
      cases h.1.trans (hl.status hb)
  · obtain ⟨rfl, hno⟩ := h
    exact ⟨⟨rfl, fun _ _ hl => hl⟩, fun hk => absurd hk hno⟩

/-! ### The commands of a hold -/

theorem ends_reserveSeat {l : SeatLease} (h : Shows w.redis (seatKey e s) t l) (n : Int) :
    Ends t db₀ (fun x w' => w'.db = w.db ∧ (∀ k, k ≠ seatKey e s → w'.redis.lookup k = w.redis.lookup k) ∧
      (Shows w'.redis (seatKey e s) t l ∧ (∀ r, x = .ok r → r.success = false) ∨
        0 < n ∧ n.natAbs < floatOverflow ∧ (l = .free ∨ ∃ d, l = .held u d) ∧
          Shows w'.redis (seatKey e s) t (.held u (t + n)) ∧ x = .ok ⟨true, "HELD", some u, n⟩))
      (reserveSeat e s u n) w := by
  unfold reserveSeat
  cases htext : strInt n with
  | error err => exact does_throw ⟨rfl, fun _ _ => rfl, .inl ⟨h, by simp⟩⟩
  | ok text =>
      refine ends_command ⟨rfl, fun k hk => step_lookup_ne rfl hk, ?_⟩
      rcases h.reserve htext u with ⟨hl, hr⟩ | ⟨hn, hf, hl, hs, hr⟩
      · exact .inl ⟨hl, hr⟩
      · exact .inr ⟨hn, hf, hl, hs, hr⟩

/-- A seat that is held may be released once no row needs it. -/
theorem ends_safeRelease (h : Covered Nothing t w) (hno : ∀ d, Shows w.redis (seatKey e s) t (.held u d) →
      ∀ r ∈ w.db.tables.reservations, r.status = .confirmed ∨ Live r t → rowKey r ≠ seatKey e s) :
    Ends t db₀ (fun _ w' => Covered Nothing t w') (safeRelease e s u) w := by
  obtain ⟨l, hl, hb⟩ := h.seats e s
  refine Does.tryCatch (P := fun _ w' => Covered Nothing t w') ?_ (fun _ _ h => h) fun err w' h => does_ret h
  have hpurged : Covered Nothing t { w with redis := Storage.purge w.redis (seatKey e s) t } :=
    h.look fun key l hl => hl.purge _
  refine Does.bind (P := fun x w' => x = reported w.redis e s t ∧
    w' = { w with redis := Storage.purge w.redis (seatKey e s) t }) (ends_seatStatus ⟨rfl, rfl⟩)
    (fun status w₁ h₁ => ?_) (fun err w₁ h₁ => h₁.2 ▸ hpurged)
  obtain ⟨hstatus, rfl⟩ := h₁
  split
  next hheld =>
    obtain ⟨hstate, huser⟩ := hl.reported_eq hstatus.symm
    obtain ⟨d, rfl⟩ := stateText_held (hstate ▸ hheld.1) (huser ▸ hheld.2)
    refine Does.bind (P := fun _ w' => Covered Nothing t w') (ends_command ?_) (fun _ _ h => does_ret h) fun _ _ h => h
    have hfree := (hl.purge (seatKey e s)).release u
    simp only [Lease.act, if_true] at hfree
    refine hpurged.put (fun k hk => step_lookup_ne rfl hk) hfree (by simp [Brief]) (fun _ _ hp => hp) ?_
    exact fun r hr hc hk => absurd hk (hno d hl r hr hc)
  next => exact does_ret hpurged

/-! ### A hold -/

/-- What a hold has done: the seat is the user's, and a row with the same deadline has been added. -/
structure Granted (e s u : String) (deadline t : ℚ) (w : World) (id : String) (w' : World) : Prop where
  free : ∃ l, Shows w.redis (seatKey e s) t l ∧ (l = .free ∨ ∃ d, l = .held u d)
  covered : Covered (· = seatKey e s) t w'
  shows : Shows w'.redis (seatKey e s) t (.held u deadline)
  brief : Brief t (.held u deadline)
  row : ∃ row, findReservation w'.db.tables id = some row ∧ row.status = .held ∧ row.expiresAt = some deadline ∧
    row.eventId = e ∧ row.seatId = s ∧ row.userId = u
  rows : ∀ r ∈ w'.db.tables.reservations, r.status = .confirmed ∨ Live r t →
    r ∈ w.db.tables.reservations ∨ r.status = .held ∧ r.expiresAt = some deadline
  payments : w'.db.tables.payments = w.db.tables.payments
  new : findReservation w.db.tables id = none
  seats : w'.db.tables.seats = w.db.tables.seats
  seat : (e, s) ∈ w.db.tables.seats.map Seat.key

theorem not_stale_of_lt {r : Reservation ℚ} {d : ℚ} (he : r.expiresAt = some d) (hd : t < d) : ¬ Stale r t := by
  rintro ⟨_, x, hx, hle⟩
  cases he.symm.trans hx
  exact absurd hd hle.not_gt

theorem mem_of_counts {db : Database ℚ} {r : Reservation ℚ} (hr : r ∈ (db.expire t).tables.reservations)
    (hc : r.status = .confirmed ∨ Live r t) : r ∈ db.tables.reservations := by
  refine ((mem_expire ?_).mp hr).1
  rcases hc with hc | hc
  · rw [hc]; decide
  · rw [hc.1]; decide

theorem Granted.looked {d : ℚ} {id : String} {w₁ : World} (h : Granted e s u d t w id w₁) (hw : Looked t w₁ w') :
    Granted e s u d t w id w' := by
  obtain ⟨db', redis'⟩ := w'
  obtain ⟨rfl, hr⟩ := hw
  obtain ⟨row, hrow, hheld, hexp, hkey⟩ := h.row
  refine { h with
    covered := h.covered.looked ⟨rfl, hr⟩
    shows := hr _ _ h.shows
    row := ⟨row, ?_, hheld, hexp, hkey⟩
    rows := fun r hr hc => h.rows r (mem_of_counts hr hc) hc }
  rw [findReservation_expire, hrow]
  exact congrArg some (if_neg (not_stale_of_lt hexp h.shows.live))

/-- The confirmed rows of a seat that is not sold are elsewhere. -/
theorem Covered.unsold (h : Covered Nothing t w) {l : SeatLease} (hl : Shows w.redis (seatKey e s) t l)
    (hfree : l = .free ∨ ∃ d, l = .held u d) {r : Reservation ℚ} (hr : r ∈ w.db.tables.reservations)
    (hc : r.status = .confirmed) : rowKey r ≠ seatKey e s := by
  intro hk
  rcases h.user hl hr (.inl hc) hk with rfl | ⟨d, rfl, hd⟩
  · simp at hfree
  · have hs := (hd.resolve_left id).1
    rw [hc] at hs
    cases hs

/-- A new hold is refused to users without rows only. -/
theorem refused_user {db : Database ℚ} {payload : HeldReservationCreate ℚ} (h : Refused db.tables payload)
    (hseat : (payload.eventId, payload.seatId) ∈ db.tables.seats.map Seat.key)
    (hid : findReservation db.tables payload.reservationId = none)
    (htoken : payload.holdToken ∉ db.tables.reservations.filterMap Reservation.holdToken)
    (hconf : ∀ r ∈ db.tables.reservations, r.status = .confirmed → rowKey r ≠ seatKey payload.eventId payload.seatId)
    {r : Reservation ℚ} (hr : r ∈ db.tables.reservations) : r.userId ≠ payload.userId := by
  cases h with
  | event hno =>
      obtain ⟨x, hx, hk⟩ := List.mem_map.mp hseat
      have he : x.eventId = payload.eventId := (Prod.ext_iff.mp hk).1
      exact absurd (he ▸ db.valid.seatEvents x hx) hno
  | seat hno => exact absurd hseat hno
  | user hno =>
      intro hu
      exact hno (hu ▸ db.valid.reservationUsers r hr)
  | reservation hno => exact absurd hid hno
  | confirmed hc =>
      obtain ⟨x, hx, hk⟩ := List.any_eq_true.mp hc
      obtain ⟨he, hs, hst⟩ : x.eventId = payload.eventId ∧ x.seatId = payload.seatId ∧ x.status = .confirmed := by
        simpa using hk
      exact absurd (by rw [rowKey, he, hs]) (hconf x hx hst)
  | token hno => exact absurd hno htoken

section Create

variable {id token : String} {d : ℚ} {l : SeatLease} {w₁ : World}

/-- A refused hold leaves no row of the seat that counts. -/
theorem Covered.refused (h : Covered Nothing t w) (hl : Shows w.redis (seatKey e s) t l)
    (hfree : l = .free ∨ ∃ d, l = .held u d) (h₁ : Covered (· = seatKey e s) t w₁)
    (hs : Shows w₁.redis (seatKey e s) t (.held u d)) (hdb : w₁.db = w.db.expire t)
    (hid : findReservation w.db.tables id = none)
    (htoken : token ∉ w.db.tables.reservations.filterMap Reservation.holdToken)
    (hseat : (e, s) ∈ w.db.tables.seats.map Seat.key) (hwhy : Refused w₁.db.tables ⟨id, e, s, u, token, d⟩) :
    ∀ r ∈ w₁.db.tables.reservations, r.status = .confirmed ∨ Live r t → rowKey r ≠ seatKey e s := by
  intro r hr hc hk
  have huser : r.userId = u := by
    rcases h₁.user hs hr hc hk with hb | ⟨_, hb, _⟩
    · cases hb
    · cases hb; rfl
  refine refused_user hwhy (hdb ▸ hseat) ?_ ?_ (fun r' hr' hc' => ?_) hr huser
  · rw [hdb, findReservation_expire, hid]
    rfl
  · have htok : Reservation.holdToken ∘ expiredAt t = Reservation.holdToken :=
      funext fun r => (expiredAt_sameRow t r).holdToken
    rw [hdb, expire_reservations, List.filterMap_map, htok]
    exact htoken
  · exact h.unsold hl hfree (mem_of_counts (hdb ▸ hr') (.inl hc')) hc'

theorem Covered.created (h₁ : Covered (· = seatKey e s) t w₁) (hl : Shows w.redis (seatKey e s) t l)
    (hfree : l = .free ∨ ∃ d, l = .held u d) (hs : Shows w₁.redis (seatKey e s) t (.held u d))
    (hb : Brief t (.held u d)) (hdb : w₁.db = w.db.expire t) (hd : d < endOfTime)
    (hid : findReservation w.db.tables id = none) (hseat : (e, s) ∈ w.db.tables.seats.map Seat.key)
    {users : List (User ℚ)} {db : Database ℚ}
    (hrows : db.tables = { w₁.db.tables with
      users := users, reservations := w₁.db.tables.reservations ++ [heldRow ⟨id, e, s, u, token, d⟩ d t] }) :
    Granted e s u d t w id { w₁ with db := db } := by
  have hid₁ : findReservation w₁.db.tables id = none := by
    rw [hdb, findReservation_expire, hid]
    rfl
  refine ⟨⟨l, hl, hfree⟩, ⟨h₁.seats, ?_, ?_⟩, hs, hb, ⟨heldRow ⟨id, e, s, u, token, d⟩ d t, ?_, rfl, rfl, rfl, rfl, rfl⟩,
    ?_, ?_, hid, ?_, hseat⟩
  · intro r hr hc
    rw [hrows, List.mem_append, List.mem_singleton] at hr
    rcases hr with hr | rfl
    · exact h₁.rows r hr hc
    · exact ⟨_, hs, .inr ⟨d, rfl, .inr ⟨rfl, d, rfl, le_rfl⟩⟩⟩
  · intro r hr x hx
    rw [hrows, List.mem_append, List.mem_singleton] at hr
    rcases hr with hr | rfl
    · exact h₁.dates r hr x hx
    · cases hx
      exact hd
  · rw [findReservation] at hid₁
    rw [findReservation, hrows, List.find?_append, hid₁]
    simp [heldRow]
  · intro r hr hc
    rw [hrows, List.mem_append, List.mem_singleton] at hr
    rcases hr with hr | rfl
    · exact .inl (mem_of_counts (hdb ▸ hr) hc)
    · exact .inr ⟨rfl, rfl⟩
  · rw [hrows, hdb]
    rfl
  · rw [hrows, hdb]
    rfl

/-- The row of a hold, in a seat that Redis has just reserved. -/
theorem ends_create (h : Covered Nothing t w) (hl : Shows w.redis (seatKey e s) t l)
    (hfree : l = .free ∨ ∃ d, l = .held u d) (h₁ : Covered (· = seatKey e s) t w₁)
    (hs : Shows w₁.redis (seatKey e s) t (.held u d)) (hb : Brief t (.held u d)) (hdb : w₁.db = w.db.expire t)
    (hd : d < endOfTime) (hid : findReservation w.db.tables id = none)
    (htoken : token ∉ w.db.tables.reservations.filterMap Reservation.holdToken)
    (hseat : (e, s) ∈ w.db.tables.seats.map Seat.key) :
    Ends t db₀ (fun x w' => match x with
      | .ok r => r.1.reservation.reservationId = id ∧ Granted e s u d t w id w'
      | .error _ => Covered Nothing t w') (tryCatch
        (Orchestrator.db (.createHeldReservation ⟨id, e, s, u, token, d⟩))
        (fun x => do
          safeRelease e s u
          throw x)) w₁ := by
  have hid₁ : findReservation w₁.db.tables id = none := by
    rw [hdb, findReservation_expire, hid]
    rfl
  have hexpire : w₁.db.expire t = w₁.db := by rw [hdb, expire_expire]
  have hnew : findReservation w₁.db.tables (⟨id, e, s, u, token, d⟩ : HeldReservationCreate ℚ).reservationId = none := hid₁
  rcases dbStep_create t hnew with
    ⟨err, users, hx, hwhy, htables⟩ | ⟨r, users, hx, hr, htables⟩
  · rw [hexpire] at hwhy htables
    have hnone := h.refused hl hfree h₁ hs hdb hid htoken hseat hwhy
    have hsame : (dbStep t w₁.db (.createHeldReservation ⟨id, e, s, u, token, d⟩)).2.tables.reservations =
        w₁.db.tables.reservations := by rw [htables]
    have hw : Covered Nothing t { w₁ with db := (dbStep t w₁.db (.createHeldReservation ⟨id, e, s, u, token, d⟩)).2 } :=
      (h₁.settle hs fun r hr hc hk => absurd hk (hnone r hr hc)).fewer fun r hr => .inl (hsame ▸ hr)
    refine Does.tryCatch (P := fun x w' => (∀ r, x ≠ .ok r) ∧
        w' = { w₁ with db := (dbStep t w₁.db (.createHeldReservation ⟨id, e, s, u, token, d⟩)).2 })
      (ends_db ⟨by simp [hx], rfl⟩) (fun r _ h => absurd rfl (h.1 r)) fun x w₂ h₂ => ?_
    obtain ⟨_, rfl⟩ := h₂
    refine (ends_safeRelease hw fun _ _ r hr => hnone r (hsame ▸ hr)).bind (fun _ _ h => does_throw h) fun _ _ h => h
  · rw [hexpire] at htables
    refine Does.tryCatch (P := fun x w' => match x with
      | .ok r => r.1.reservation.reservationId = id ∧ Granted e s u d t w id w'
      | .error _ => False) (ends_db ?_) (fun _ _ h => h) fun _ _ h => h.elim
    rw [hx]
    exact ⟨by rw [hr]; rfl, h₁.created hl hfree hs hb hdb hd hid hseat htables⟩

end Create

theorem Covered.kept (h : Covered pending t w) {l : SeatLease} {redis : Store}
    (hother : ∀ k, k ≠ seatKey e s → redis.lookup k = w.redis.lookup k) (hl : Shows w.redis (seatKey e s) t l)
    (hl' : Shows redis (seatKey e s) t l) : Covered pending t { w with redis := redis } := by
  refine h.look fun key l' hk => ?_
  by_cases hkey : key = seatKey e s
  · subst hkey
    rwa [hk.unique hl]
  · exact hk.lookup (hother key hkey)

theorem Covered.reserved (h : Covered Nothing t w) {l : SeatLease} {d : ℚ} {redis : Store}
    (hother : ∀ k, k ≠ seatKey e s → redis.lookup k = w.redis.lookup k) (hl : Shows w.redis (seatKey e s) t l)
    (hfree : l = .free ∨ ∃ d, l = .held u d) (hs : Shows redis (seatKey e s) t (.held u d))
    (hb : Brief t (.held u d)) : Covered (· = seatKey e s) t { w with redis := redis } := by
  refine h.put hother hs hb (fun _ _ hp => hp.elim) fun r hr hc hk => ?_
  have huser : r.userId = u := by
    rcases h.user hl hr hc hk with rfl | ⟨d, rfl, _⟩
    · simp at hfree
    · obtain ⟨d', hd'⟩ := hfree.resolve_left (by simp)
      cases hd'
      rfl
  exact .inr ⟨d, by rw [huser], .inl rfl⟩

theorem ends_holdReservation (h : Covered Nothing t w) (e s u : String) (n : Int) :
    Ends t w.db (fun x w' => match x with
      | .ok r => Granted e s u (t + n) t w r.reservation.reservation.reservationId w'
      | .error _ => Covered Nothing t w') (holdReservation e s u n) w := by
  obtain ⟨l, hl, hb⟩ := h.seats e s
  refine (ends_findEventSeat e s w).bind (fun seat w₁ h₁ => ?_) fun _ _ h₁ => h₁.1 ▸ h.expire t
  obtain ⟨rfl, hmem, hkey⟩ := h₁
  have hseat : (e, s) ∈ w.db.tables.seats.map Seat.key := List.mem_map.mpr ⟨_, hmem, hkey⟩
  refine (ends_reserveSeat (u := u) (w := { w with db := w.db.expire t }) hl n).bind (fun reserved w₂ h₂ => ?_)
    fun x w₂ h₂ => ?_
  all_goals obtain ⟨db₂, redis₂⟩ := w₂
  · obtain ⟨rfl, hother, ⟨hl₂, hr⟩ | ⟨hn, hf, hfree, hs, hr⟩⟩ := h₂
    · rw [if_pos (by simp [hr reserved rfl])]
      exact does_throw ((h.expire t).kept hother hl hl₂)
    · cases hr
      have hbrief : Brief t (.held u (t + n)) := brief_held hn hf
      have h₂ := (h.expire t).reserved hother hl hfree hs hbrief
      rw [if_neg (by simp)]
      refine ends_uuid4 fun id hid => ends_uuid4 fun token htoken => ends_currentTime ?_
      unfold addSeconds
      by_cases hd : t + n < endOfTime
      · rw [if_pos hd]
        refine (ends_create h hl hfree h₂ hs hbrief rfl hd hid.reservation htoken.token hseat).bind
          (fun created w₃ h₃ => ?_) fun _ _ h => h
        refine (ends_getEventSeat (e := e) (s := s) w₃).bind (fun view w₄ h₄ => ?_) fun x w₄ h₄ => ?_
        · have hgranted := h₃.2.looked h₄.1
          rw [← h₃.1] at hgranted
          exact does_ret hgranted
        · obtain ⟨view, hview⟩ := h₄.2 (h₃.2.seats ▸ hseat) ⟨_, h₃.2.shows, h₃.2.brief⟩
          cases hview
      · rw [if_neg hd]
        refine does_throw (h₂.settle hs fun r hr hc hk => ?_)
        rcases hc with hc | ⟨hheld, x, hx, _⟩
        · exact absurd hk (h.unsold hl hfree (mem_of_counts hr (.inl hc)) hc)
        · exact ⟨hheld, x, hx, (h₂.dates r hr x hx).le.trans (not_lt.mp hd)⟩
  · obtain ⟨rfl, hother, ⟨hl₂, _⟩ | ⟨_, _, _, _, hr⟩⟩ := h₂
    · exact (h.expire t).kept hother hl hl₂
    · cases hr

end Ticketing.AppServer
