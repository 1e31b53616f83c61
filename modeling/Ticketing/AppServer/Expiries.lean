import Ticketing.AppServer.HoldRuns

namespace Ticketing.AppServer

open Python Interaction TicketingApi Repository Commands Orchestrator
open Interaction.Program (Calls Sat)
open Storage (seatKey)
open Trace (Along)

/-! ### What expires a row of the DB -/

theorem status_of_mem {db : Database ℚ} {r : Reservation ℚ} (hr : r ∈ db.tables.reservations) :
    status db r.reservationId = some r.status := by
  rw [status, findReservation_of_mem db.valid hr]
  rfl

theorem status_expire {db : Database ℚ} {r : Reservation ℚ} (hr : r ∈ db.tables.reservations) (now : ℚ) :
    status (db.expire now) r.reservationId = some (expiredAt now r).status := by
  rw [status, findReservation_expire, findReservation_of_mem db.valid hr]
  rfl

theorem stale_of_expire {db : Database ℚ} {r : Reservation ℚ} {now : ℚ} (hr : r ∈ db.tables.reservations)
    (hheld : r.status = .held) (h : status (db.expire now) r.reservationId = some .expired) : Stale r now := by
  by_contra hs
  rw [status_expire hr, expiredAt, if_neg hs, hheld] at h
  cases h

/-- A transition of one row gives that row its status, and no other row. -/
theorem Transition.sets {db db' : Database ℚ} {id : String} {S : ReservationStatus}
    {f : Tables ℚ → Tables ℚ} {g : Reservation ℚ → Reservation ℚ} {x : Except Error (ReservationRecord ℚ)}
    (h : Transition db id S (fun t => updateReservation id g (f t)) x db')
    (hf : ∀ t, (f t).reservations = t.reservations) (hg : ∀ r, SameRow r (g r) ∧ (g r).status = S) (id' : String) :
    status db' id' = status db id' ∨ id' = id ∧ status db' id' = some S := by
  cases h with
  | failed e hx hdb => exact .inl (by rw [hdb])
  | already row hrow hS hx hdb => exact .inl (by rw [hdb])
  | written row hrow hheld r' hx hget hdb =>
      have hid : ∀ r, (if r.reservationId = id then g r else r).reservationId = r.reservationId := by
        intro r
        split
        · exact (hg r).1.reservationId
        · rfl
      have hfind : findReservation (f db.tables) id' = findReservation db.tables id' := by
        rw [findReservation, hf, findReservation]
      rw [status, hdb, updateReservation, findReservation_update _ hid, hfind, status]
      cases hr : findReservation db.tables id' with
      | none => exact .inl rfl
      | some r =>
          obtain ⟨_, rfl⟩ := findReservation_mem hr
          by_cases he : r.reservationId = id
          · exact .inr ⟨he, by simp [he, (hg r).2]⟩
          · exact .inl (by simp [he])

theorem status_created {db db' : Database ℚ} {payload : HeldReservationCreate ℚ} {now : ℚ}
    {x : Except Error (Option (ReservationRecord ℚ) × Bool)} (h : Creation db payload payload.expiresAt now (x, db'))
    {r : Reservation ℚ} (hr : r ∈ db.tables.reservations) : status db' r.reservationId = some r.status := by
  have hfind := findReservation_of_mem db.valid hr
  rcases h with ⟨_, _, hdb, _⟩ | ⟨_, _, _, hdb, _⟩ | ⟨_, hdb, _⟩
  · rw [status, findReservation, hdb]
    exact congrArg (Option.map Reservation.status) hfind
  · rw [status, findReservation, hdb]
    exact congrArg (Option.map Reservation.status) hfind
  · rw [findReservation] at hfind
    rw [status, findReservation, hdb, List.find?_append, hfind]
    rfl

/-- A call expires the rows that are due, and the row that it is told to expire. -/
theorem dbStep_expires {now : ℚ} {db : Database ℚ} {call : DbCall} {r : Reservation ℚ} (hr : r ∈ db.tables.reservations)
    (hheld : r.status = .held) (h : status (dbStep now db call).2 r.reservationId = some .expired) :
    Stale r now ∨ call = .expireReservation r.reservationId := by
  have due {db' : Database ℚ} (hdb : db' = db.expire now)
      (h : status db' r.reservationId = some .expired) : Stale r now := stale_of_expire hr hheld (hdb ▸ h)
  have hkeep : status db r.reservationId ≠ some .expired := by
    rw [status_of_mem hr, hheld]
    simp
  cases call with
  | listEventSeats e => exact .inl (due (dbStep_listEventSeats now db e).1 h)
  | createHeldReservation payload =>
      have hc : Creation (db.expire now) payload payload.expiresAt now
          (Program.atomically exec now (Service.createHeldReservation Except.ok payload) db) :=
        createHeldReservation_outcome rfl now db
      have hrow : expiredAt now r ∈ (db.expire now).tables.reservations := List.mem_map_of_mem hr
      have hS := status_created hc hrow
      rw [(expiredAt_sameRow now r).reservationId] at hS
      refine .inl (stale_of_expire hr hheld ?_)
      rw [status_expire hr, ← hS]
      exact h
  | confirmReservation id payload =>
      refine .inl (stale_of_expire hr hheld ?_)
      rcases (dbStep_confirm now db id payload).sets (fun t => by simp)
        (fun r => ⟨⟨rfl, rfl, rfl, rfl, rfl, rfl⟩, rfl⟩) r.reservationId with hS | ⟨_, hS⟩
      · rw [← hS]
        exact h
      · cases hS.symm.trans h
  | cancelReservation id =>
      refine .inl (stale_of_expire hr hheld ?_)
      rcases (dbStep_cancel now db id).sets (fun t => rfl) (fun r => ⟨⟨rfl, rfl, rfl, rfl, rfl, rfl⟩, rfl⟩)
        r.reservationId with hS | ⟨_, hS⟩
      · rw [← hS]
        exact h
      · cases hS.symm.trans h
  | expireReservation id =>
      rcases (dbStep_expire now db id).sets (f := fun t => t) (g := fun r => { r with status := .expired, updatedAt := now })
        (fun t => rfl) (fun r => ⟨⟨rfl, rfl, rfl, rfl, rfl, rfl⟩, rfl⟩) r.reservationId with hS | ⟨rfl, _⟩
      · refine .inl (stale_of_expire hr hheld ?_)
        rw [← hS]
        exact h
      · exact .inr rfl
  | expireStaleReservations limit =>
      have he : dbStep now db (.expireStaleReservations limit) =
          Program.atomically exec now (Service.expireStaleReservations limit) db := rfl
      rw [he, expireStaleReservations_eq] at h
      cases hl : withLimit limit (staleRows db.tables now) with
      | error e =>
          rw [hl] at h
          exact absurd h hkeep
      | ok rows =>
          rw [hl] at h
          dsimp only at h
          split at h
          · exact absurd h hkeep
          · exact .inl (stale_of_expire hr hheld h)
  | listConfirmedReservations limit =>
      rw [dbStep_listConfirmedReservations] at h
      exact absurd h hkeep

/-! ### Where the app server expires one row -/

/-- A row goes from `HELD` to `EXPIRED` only when it is due, or when Redis does not report its seat as held by its user. -/
def Justified (ev : Program.Event Env World AppOp) : Prop :=
  ∀ r ∈ ev.before.db.tables.reservations, r.status = .held → status ev.after.db r.reservationId = some .expired →
    (∃ d ∈ r.expiresAt, d ≤ ev.env.now) ∨
      ¬ Reports ev.before.redis r.eventId r.seatId ev.env.now "HELD" (some r.userId)

def Keeping (op : AppOp) : Prop := ∀ id, op ≠ .db (.expireReservation id)

theorem justified_of_keeping {env : Env} {w : World} {op : AppOp} (hop : Keeping op) :
    Justified ⟨env, w, op, (appStep env w op).2⟩ := by
  intro r hr hheld hS
  have hsame : status w.db r.reservationId ≠ some .expired := by
    rw [status_of_mem hr, hheld]
    simp
  cases op with
  | uuid4 => exact absurd hS hsame
  | now => exact absurd hS hsame
  | redis tokens =>
      rcases appStep_redis env w tokens with he | he <;> rw [he] at hS <;> exact absurd hS hsame
  | db call =>
      rcases appStep_db env w call with he | he <;> rw [he] at hS
      · rcases dbStep_expires hr hheld hS with ⟨_, hdue⟩ | rfl
        · exact .inl hdue
        · exact absurd rfl (hop _)
      · exact absurd hS hsame

theorem usual_keeping : Usual Keeping where
  uuid4 := by simp [Keeping]
  now := by simp [Keeping]
  db call hcall id he := by
    cases he
    exact hcall
  seatStatus := by simp [Keeping]

theorem keeping_redis (tokens : List String) : Keeping (.redis tokens) := by simp [Keeping]

variable {w : World} {env : ℕ → Env}

/-- The seat exists, and Redis reports it as available when the confirmation looks it up. -/
def Vacant (w : World) (env : ℕ → Env) (e s : String) : Prop :=
  (e, s) ∈ w.db.tables.seats.map Seat.key ∧ ∃ userId, Reports w.redis e s (env 1).now "AVAILABLE" userId

/-- The call with which a confirmation that finds its seat available expires the row. -/
def expiryCall (id e s : String) (w : World) (env : ℕ → Env) : Program.Event Env World AppOp :=
  ⟨env 2, ⟨w.db.expire (env 0).now, Storage.purge w.redis (seatKey e s) (env 1).now⟩, .db (.expireReservation id),
    ⟨(dbStep (env 2).now (w.db.expire (env 0).now) (.expireReservation id)).2,
      Storage.purge w.redis (seatKey e s) (env 1).now⟩⟩

theorem run_findEventSeat (e s : String) (w : World) (env : ℕ → Env) (hfault : (env 0).fault = .none) :
    ∃ x, (findEventSeat e s).run appStep w env = (x, { w with db := w.db.expire (env 0).now }) ∧
      Program.rest appStep (findEventSeat e s) w env = (fun n => env (n + 1)) ∧
      ((∃ seat, x = .ok seat) ↔ (e, s) ∈ w.db.tables.seats.map Seat.key) := by
  obtain ⟨hdb, hx⟩ := dbStep_listEventSeats (env 0).now w.db e
  have hstep : appStep (env 0) w (.db (.listEventSeats e)) =
      ((dbStep (env 0).now w.db (.listEventSeats e)).1, { w with db := w.db.expire (env 0).now }) := by
    simp only [appStep, hfault, withFault, hdb]
  rw [findEventSeat, Orchestrator.db, Program.invoke_bind, Program.run_call, Program.rest_call, hstep]
  rcases hx with hx | ⟨hno, err, hx⟩
  · rw [hx]
    dsimp only
    cases hf : (listSeats (w.db.expire (env 0).now).tables e).find? (fun x => x.seat.seatId = s) with
    | some seat =>
        obtain ⟨hmem, he⟩ := mem_listSeats (List.mem_of_find?_eq_some hf)
        have hs : seat.seat.seatId = s := by simpa using List.find?_some hf
        exact ⟨_, rfl, rfl, iff_of_true ⟨_, rfl⟩ (List.mem_map.mpr ⟨seat.seat, hmem, Prod.ext he hs⟩)⟩
    | none =>
        refine ⟨_, rfl, rfl, iff_of_false (by simp) fun hmem => ?_⟩
        obtain ⟨seat, hseat, hs⟩ := exists_listSeats (t := (w.db.expire (env 0).now).tables) hmem
        simpa [hs] using List.find?_eq_none.mp hf seat hseat
  · rw [hx]
    refine ⟨_, rfl, rfl, iff_of_false (by simp) fun hmem => ?_⟩
    obtain ⟨seat, hseat, hk⟩ := List.mem_map.mp hmem
    have hevent := w.db.valid.seatEvents seat hseat
    rw [show seat.eventId = e from congrArg Prod.fst hk] at hevent
    exact hno hevent

theorem run_seatStatus (e s : String) (w : World) (env : ℕ → Env) (hfault : (env 0).fault = .none) :
    (seatStatus e s).run appStep w env =
        (reported w.redis e s (env 0).now, { w with redis := Storage.purge w.redis (seatKey e s) (env 0).now }) ∧
      Program.rest appStep (seatStatus e s) w env = (fun n => env (n + 1)) := by
  have hs : step w.redis ((env 0).now, ["SEAT_STATUS", e, s]) = Storage.purge w.redis (seatKey e s) (env 0).now :=
    congrArg Prod.snd (Storage.seatStatusByKey_eq w.redis (seatKey e s) (env 0).now)
  have hstep : appStep (env 0) w (.redis ["SEAT_STATUS", e, s]) = ((redisReply ["SEAT_STATUS", e, s] (env 0).now w.redis).1,
      { w with redis := Storage.purge w.redis (seatKey e s) (env 0).now }) := by
    rw [← hs]
    simp only [appStep, hfault]
    rfl
  rw [seatStatus, Orchestrator.execute, Program.invoke_bind, Program.run_call, Program.rest_call, hstep, reported]
  cases (redisReply ["SEAT_STATUS", e, s] (env 0).now w.redis).1 with
  | error x => exact ⟨rfl, rfl⟩
  | ok reply =>
      have hbind : ((.ok reply : Except Error Reply) >>= decodeSeatStatus) = decodeSeatStatus reply := rfl
      dsimp only
      rw [hbind]
      cases decodeSeatStatus reply <;> exact ⟨rfl, rfl⟩

theorem events_safeExpire (id : String) (w : World) (env : ℕ → Env) (hfault : (env 0).fault = .none) :
    (safeExpire id).events appStep w env =
      [⟨env 0, w, .db (.expireReservation id), { w with db := (dbStep (env 0).now w.db (.expireReservation id)).2 }⟩] := by
  have hstep : appStep (env 0) w (.db (.expireReservation id)) =
      ((dbStep (env 0).now w.db (.expireReservation id)).1,
        { w with db := (dbStep (env 0).now w.db (.expireReservation id)).2 }) := by
    simp only [appStep, hfault, withFault]
  rw [safeExpire, Orchestrator.db, Program.invoke_bind, Program.tryCatch_call, Program.events_call, hstep]
  cases (dbStep (env 0).now w.db (.expireReservation id)).1 <;> rfl

/-- A confirmation expires a row by its id exactly where it finds the seat available. -/
theorem confirm_expires (id e s u : String) (w : World) (hfault : ∀ n, (env n).fault = .none) :
    (Vacant w env e s → expiryCall id e s w env ∈ (Orchestrator.confirmReservation id e s u).events appStep w env) ∧
      ∀ ev ∈ (Orchestrator.confirmReservation id e s u).events appStep w env,
        Keeping ev.op ∨ Vacant w env e s ∧ ev = expiryCall id e s w env := by
  obtain ⟨x, hx, hrest, hseat⟩ := run_findEventSeat e s w env (hfault 0)
  obtain ⟨hstatus, hrest'⟩ : (seatStatus e s).run appStep { w with db := w.db.expire (env 0).now } (fun n => env (n + 1)) =
        (reported w.redis e s (env 1).now,
          ⟨w.db.expire (env 0).now, Storage.purge w.redis (seatKey e s) (env 1).now⟩) ∧
      Program.rest appStep (seatStatus e s) { w with db := w.db.expire (env 0).now } (fun n => env (n + 1)) =
        fun n => env (n + 2) := run_seatStatus e s _ _ (hfault 1)
  have hexpire := events_safeExpire id ⟨w.db.expire (env 0).now, Storage.purge w.redis (seatKey e s) (env 1).now⟩
    (fun n => env (n + 2)) (hfault 2)
  rw [Orchestrator.confirmReservation]
  constructor
  · rintro ⟨hmem, userId, ttl, hr⟩
    obtain ⟨seat, rfl⟩ := hseat.mpr hmem
    refine Program.mem_events_bind.mpr (.inr ⟨seat, _, hx, ?_⟩)
    rw [hrest]
    rw [hr] at hstatus
    refine Program.mem_events_bind.mpr (.inr ⟨_, _, hstatus, ?_⟩)
    rw [hrest', if_pos rfl]
    refine Program.mem_events_bind.mpr (.inl ?_)
    rw [hexpire]
    exact List.mem_singleton.mpr rfl
  · intro ev hev
    rcases Program.mem_events_bind.mp hev with hev | ⟨seat, w₁, hrun, hev⟩
    · exact .inl ((calls_findEventSeat usual_keeping e s).events w env ev hev)
    rw [hx] at hrun
    cases hrun
    rw [hrest] at hev
    rcases Program.mem_events_bind.mp hev with hev | ⟨status, w₂, hrun, hev⟩
    · exact .inl ((calls_seatStatus usual_keeping.seatStatus e s).events _ _ ev hev)
    rw [hstatus] at hrun
    rw [hrest'] at hev
    obtain ⟨hr, rfl⟩ := Prod.ext_iff.mp hrun
    dsimp only at hr
    by_cases ha : status.state = "AVAILABLE"
    · rw [if_pos ha] at hev
      rcases Program.mem_events_bind.mp hev with hev | ⟨_, _, _, hev⟩
      · rw [hexpire] at hev
        obtain ⟨state, userId, ttl⟩ := status
        obtain rfl := ha
        exact .inr ⟨⟨hseat.mp ⟨seat, rfl⟩, userId, ttl, hr⟩, List.mem_singleton.mp hev⟩
      · cases hev
    · rw [if_neg ha] at hev
      refine .inl (Calls.events (P := Keeping) ?_ _ _ ev hev)
      split
      · trivial
      split
      · trivial
      refine (calls_buildMockPayment usual_keeping _).bind fun payment => (Calls.invoke (by simp [Keeping])).bind fun _ =>
        (calls_finalizeAttempts (keeping_redis _) _ _).bind fun result => ?_
      split
      · trivial
      · exact (calls_getEventSeat usual_keeping e s).bind fun _ => trivial

/-- The row of the id is `HELD` and not due, and Redis reports its own seat as held by its user. -/
def Crossed (w : World) (env : ℕ → Env) (id : String) : Prop :=
  ∃ r ∈ w.db.tables.reservations, r.reservationId = id ∧ r.status = .held ∧ ¬ Stale r (env 2).now ∧
    Reports w.redis r.eventId r.seatId (env 2).now "HELD" (some r.userId)

theorem reports_purge {redis : Storage.Store} {key e s state : String} {userId : Option String} {t t' : ℚ} (h : t ≤ t') :
    Reports (Storage.purge redis key t) e s t' state userId ↔ Reports redis e s t' state userId := by
  simp only [Reports, reported_eq, Storage.live_purge redis key _ h]

/-- A seat that is available does not become held by itself. -/
theorem available_stays {redis : Storage.Store} {e s : String} {userId userId' : Option String} {t t' : ℚ} (h : t ≤ t')
    (ha : Reports redis e s t "AVAILABLE" userId) : ¬ Reports redis e s t' "HELD" userId' := by
  rintro ⟨ttl', hr'⟩
  obtain ⟨ttl, hr⟩ := ha
  rw [reported_eq] at hr hr'
  have hread := readStatus_ok hr
  have hread' := readStatus_ok hr'
  cases hl : Storage.live redis (seatKey e s) t' with
  | none =>
      rw [hl] at hread'
      simp only [Storage.readSeat, Except.ok.injEq, Storage.SeatStatus.mk.injEq] at hread'
      exact absurd hread'.1 (by decide)
  | some x =>
      obtain ⟨hlookup, hlive⟩ := Storage.live_eq_some.mp hl
      have hl' : Storage.live redis (seatKey e s) t = some x :=
        Storage.live_eq_some.mpr ⟨hlookup, fun d hd => h.trans_lt (hlive d hd)⟩
      rw [hl', Storage.readSeat] at hread
      rw [hl, Storage.readSeat] at hread'
      cases hv : Storage.deserializeSeatRecord x.value with
      | error err =>
          rw [hv] at hread
          cases hread
      | ok r =>
          rw [hv] at hread hread'
          simp only [Except.map, Except.ok.injEq, Storage.SeatStatus.mk.injEq] at hread hread'
          exact absurd (hread.1.symm.trans hread'.1) (by decide)

theorem justified_expiryCall (id e s : String) (w : World) (hclock : Monotone fun n => (env n).now) :
    Justified (expiryCall id e s w env) ↔ ¬ Crossed w env id := by
  have hle : (env 0).now ≤ (env 2).now := hclock (Nat.zero_le 2)
  have hpurge {e' s' state : String} {userId : Option String} :
      Reports (Storage.purge w.redis (seatKey e s) (env 1).now) e' s' (env 2).now state userId ↔
        Reports w.redis e' s' (env 2).now state userId := reports_purge (hclock (by decide : 1 ≤ 2))
  constructor
  · rintro h ⟨r, hr, rfl, hheld, hs, hrep⟩
    have hmem : r ∈ (w.db.expire (env 0).now).tables.reservations := by
      refine (mem_expire (by simp [hheld])).mpr ⟨hr, fun hs' => hs ?_⟩
      obtain ⟨_, d, hd, hdue⟩ := hs'
      exact ⟨hheld, d, hd, hdue.trans hle⟩
    have hrow : findReservation ((w.db.expire (env 0).now).expire (env 2).now).tables r.reservationId = some r := by
      rw [findReservation_expire, findReservation_of_mem (w.db.expire (env 0).now).valid hmem, Option.map_some,
        expiredAt, if_neg hs]
    have hexpired : status (expiryCall r.reservationId e s w env).after.db r.reservationId = some .expired := by
      have htables : (dbStep (env 2).now (w.db.expire (env 0).now) (.expireReservation r.reservationId)).2.tables = _ :=
        expireReservation_held hrow hheld
      rw [expiryCall, status, htables, Repository.expireReservation, findReservation_updateReservation (by intro r; rfl),
        hrow]
      rfl
    rcases h r hmem hheld hexpired with hdue | hno
    · exact hs ⟨hheld, hdue⟩
    · exact hno (hpurge.mpr hrep)
  · intro h r hmem hheld hexpired
    obtain ⟨hr, _⟩ := (mem_expire (by simp [hheld])).mp hmem
    by_contra hno
    obtain ⟨hdue, hrep⟩ := not_or.mp hno
    rcases dbStep_expires hmem hheld hexpired with ⟨_, hs⟩ | hid
    · exact hdue hs
    · cases hid
      exact h ⟨r, hr, rfl, hheld, fun hs => hdue hs.2, hpurge.mp (not_not.mp hrep)⟩

/-! ### Runs -/

/-- A call whose ids come through verbatim and that meets no failure, on a clock that does not go back. -/
structure Unfailing (w : World) (x : Turn) : Prop where
  verbatim : x.Verbatim w
  faultless : ∀ n, (x.env n).fault = .none
  clock : Monotone fun n => (x.env n).now

/-- A confirmation that names an available seat together with a row whose own seat is held. -/
def Misdirected (w : World) (x : Turn) : Prop :=
  match x.call with
  | .confirmReservation id e s _ => Vacant w x.env e s ∧ Crossed w x.env id
  | _ => False

theorem justified_of_calls {α : Type} {p : Flow α} (hp : p.Calls Keeping) :
    ∀ ev ∈ p.events appStep w env, Justified ev := by
  intro ev hev
  have hop := hp.events w env ev hev
  have hafter := Program.events_after hev
  obtain ⟨env, before, op, after⟩ := ev
  dsimp only at hop hafter
  rw [hafter]
  exact justified_of_keeping hop

theorem rowHas_hold {e s u : String} {n : Int} {r : HoldResult} {w' : World}
    (h : (holdReservation e s u n).run appStep w env = (.ok r, w')) :
    RowHas w'.db r.reservation.reservation.reservationId e s u := by
  have hsat := (meets_holdReservation (C := fun _ _ => True) e s u n w).weaken fun a b (he : a = b) => he ▸ Moves.refl a
  have hend : Program.onOk (fun r w' => RowHas w'.db r.reservation.reservation.reservationId e s u)
      ((holdReservation e s u n).run appStep w env).1 ((holdReservation e s u n).run appStep w env).2 :=
    (hsat.run fun ev _ => ⟨trivial, ev.env, rfl⟩).1
  rw [h] at hend
  exact hend

theorem calls_runOnce {P : AppOp → Prop} (h : Usual P) (hrelease : ∀ e s u, P (.redis ["RELEASE_SEAT", e, s, u]))
    (hforce : ∀ e s u, P (.redis ["FORCE_CONFIRM_SEAT", e, s, u])) (limit : Int) :
    (Reconciler.runOnce limit).Calls P :=
  (calls_expireStaleHolds h hrelease limit _).bind fun _ =>
    (calls_db h (by trivial : Mild (.listConfirmedReservations limit))).bind fun rows =>
      calls_repairAll h.seatStatus hforce rows _

theorem justified_confirm {id e s u : String} (hfault : ∀ n, (env n).fault = .none) (hclock : Monotone fun n => (env n).now) :
    (∀ ev ∈ (Orchestrator.confirmReservation id e s u).events appStep w env, Justified ev) ↔
      ¬ (Vacant w env e s ∧ Crossed w env id) := by
  obtain ⟨hexpires, hevents⟩ := confirm_expires id e s u w hfault
  have hcall := justified_expiryCall id e s w hclock
  constructor
  · rintro h ⟨hvacant, hcrossed⟩
    exact hcall.mp (h _ (hexpires hvacant)) hcrossed
  · intro h ev hev
    rcases hevents ev hev with hop | ⟨hvacant, rfl⟩
    · have hafter := Program.events_after hev
      obtain ⟨_, before, op, after⟩ := ev
      dsimp only at hop hafter
      rw [hafter]
      exact justified_of_keeping hop
    · exact hcall.mpr fun hcrossed => h ⟨hvacant, hcrossed⟩

theorem justified_purchase {e s u : String} {n : Int} (hfault : ∀ n, (env n).fault = .none)
    (hclock : Monotone fun n => (env n).now) : ∀ ev ∈ (purchaseSeat e s u n).events appStep w env, Justified ev := by
  intro ev hev
  rw [purchaseSeat] at hev
  rcases Program.mem_events_bind.mp hev with hev | ⟨hold, w', hrun, hev⟩
  · exact justified_of_calls (calls_holdReservation usual_keeping (keeping_redis _) (fun _ => keeping_redis _) n) ev hev
  obtain ⟨row, hrow, rfl, rfl, rfl⟩ := rowHas_hold hrun
  rcases Program.mem_events_bind.mp hev with hev | ⟨_, _, _, hev⟩
  · rcases Program.mem_events_tryCatch.mp hev with hev | ⟨_, _, _, hev⟩
    · refine (justified_confirm (fun _ => hfault _) fun i j h => hclock (Nat.add_le_add_right h _)).mpr ?_ ev hev
      -- the row is the seat's own, which is not held when it is available
      rintro ⟨⟨_, _, ha⟩, r, hr, hid, _, _, hheld⟩
      obtain ⟨hmem, hid'⟩ := findReservation_mem hrow
      cases List.inj_on_of_nodup_map w'.db.valid.reservationIds hr hmem (hid.trans hid'.symm)
      exact available_stays (hclock (Nat.add_le_add_right (by decide : 1 ≤ 2) _)) ha hheld
    · refine justified_of_calls (Calls.bind (calls_safeCancel usual_keeping _ (keeping_redis _)) fun _ => ?_) ev hev
      trivial
  · cases hev

theorem turn_justified_iff {x : Turn} (hx : Unfailing w x) : (∀ ev ∈ x.events w, Justified ev) ↔ ¬ Misdirected w x := by
  obtain ⟨call, env⟩ := x
  obtain ⟨-, hfault, hclock⟩ := hx
  dsimp only at hfault hclock
  have hevents {α : Type} (p : Flow α) (f : α → AppResult) :
      (p >>= fun a => pure (f a)).events appStep w env = p.events appStep w env := Program.events_map p f w env
  simp only [Turn.events, AppCall.flow, Misdirected]
  cases call with
  | holdReservation e s u n =>
      rw [hevents]
      refine iff_of_true (justified_of_calls ?_) not_false
      exact calls_holdReservation usual_keeping (keeping_redis _) (fun _ => keeping_redis _) n
  | confirmReservation id e s u =>
      rw [hevents]
      exact justified_confirm hfault hclock
  | cancelReservation id e s u =>
      rw [hevents]
      exact iff_of_true (justified_of_calls (calls_cancelReservation usual_keeping id (keeping_redis _))) not_false
  | purchaseSeat e s u n =>
      rw [hevents]
      exact iff_of_true (justified_purchase hfault hclock) not_false
  | runOnce limit =>
      rw [hevents]
      refine iff_of_true (justified_of_calls ?_) not_false
      exact calls_runOnce usual_keeping (fun _ _ _ => keeping_redis _) (fun _ _ _ => keeping_redis _) limit

/-- In a run every expiry is justified exactly where no confirmation is misdirected. -/
theorem expiries_justified_iff (w : World) (turns : List Turn) (h : Along Turn.after Unfailing w turns) :
    Along Turn.after (fun w x => ∀ ev ∈ x.events w, Justified ev) w turns ↔
      Along Turn.after (fun w x => ¬ Misdirected w x) w turns := by
  induction turns generalizing w with
  | nil => exact Iff.rfl
  | cons x turns ih =>
      exact and_congr (turn_justified_iff h.1) (ih (x.after w) h.2)

theorem unfailing_at {call : AppCall} {now : ℚ} {uuid : String} (h : (call.at now uuid).Verbatim w) :
    Unfailing w (call.at now uuid) :=
  ⟨h, fun _ => rfl, monotone_const⟩

/-- A hold of 10 seconds, and its confirmation when it has run out. -/
def lateConfirmation : List Turn :=
  [(AppCall.holdReservation "e" "a" "u" 10).at 0 "0", (AppCall.confirmReservation "res-0" "e" "a" "u").at 20 "1"]

theorem lateConfirmation_justified :
    Along Turn.after (fun w x => ∀ ev ∈ x.events w, Justified ev) ⟨openSale, ∅⟩ lateConfirmation := by
  have hunfailing : Along Turn.after Unfailing ⟨openSale, ∅⟩ lateConfirmation :=
    ⟨unfailing_at (by decide +kernel), unfailing_at (by decide +kernel), trivial⟩
  refine (expiries_justified_iff _ _ hunfailing).mpr ⟨id, ?_, trivial⟩
  rintro ⟨_, r, hr, _, hheld, hs, _⟩
  have hdue : ∀ r ∈ (Turn.after ⟨openSale, ∅⟩ ((AppCall.holdReservation "e" "a" "u" 10).at 0 "0")).db.tables.reservations,
      r.status = .held → Stale r 20 := by decide +kernel
  exact hs (hdue r hr hheld)

/-- A hold of 100 seconds, and a confirmation that names its row together with another seat. -/
def strayConfirmation : List Turn :=
  [(AppCall.holdReservation "e" "a" "u" 100).at 0 "0", (AppCall.confirmReservation "res-0" "e" "b" "u").at 5 "1"]

theorem strayConfirmation_unfailing : Along Turn.after Unfailing ⟨openSale, ∅⟩ strayConfirmation :=
  ⟨unfailing_at (by decide +kernel), unfailing_at (by decide +kernel), trivial⟩

theorem strayConfirmation_unjustified : ¬ ∀ (w : World) (turns : List Turn), Along Turn.after Unfailing w turns →
    Along Turn.after (fun w x => ∀ ev ∈ x.events w, Justified ev) w turns := by
  intro h
  have hrun := h ⟨openSale, ∅⟩ strayConfirmation strayConfirmation_unfailing
  refine (turn_justified_iff strayConfirmation_unfailing.2.1).mp hrun.2.1
    ⟨⟨by decide +kernel, none, -1, by decide +kernel⟩, ?_⟩
  have hrow : ∃ r ∈ (Turn.after ⟨openSale, ∅⟩ ((AppCall.holdReservation "e" "a" "u" 100).at 0 "0")).db.tables.reservations,
      r.reservationId = "res-0" ∧ r.status = .held ∧ ¬ Stale r 5 ∧
        reported (Turn.after ⟨openSale, ∅⟩ ((AppCall.holdReservation "e" "a" "u" 100).at 0 "0")).redis r.eventId r.seatId 5 =
          .ok ⟨"HELD", some r.userId, 95⟩ := by decide +kernel
  obtain ⟨r, hr, hid, hheld, hs, hreport⟩ := hrow
  exact ⟨r, hr, hid, hheld, hs, 95, hreport⟩

end Ticketing.AppServer
