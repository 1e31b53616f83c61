import Ticketing.AppServer.Passes
import Ticketing.AppServer.Releases

namespace Ticketing.AppServer

open Python JsonText Interaction TicketingApi Repository Commands Orchestrator Reconciler
open Storage (Store seatKey seatHeld seatAvailable)
open Trace (Along)

variable {w : World} {env : Env} {key e s u : String} {now : ℚ} {limit : Int} {uuid : String}

/-! ### Lookups and releases of the expired rows -/

/-- The commands with which a pass releases the seats of expired rows. -/
def Releasing (op : AppOp) : Prop :=
  (∃ e s, op = .redis ["SEAT_STATUS", e, s]) ∨ ∃ e s v, op = .redis ["RELEASE_SEAT", e, s, v]

theorem calls_releaseItem_releasing (x : ReservationRecord ℚ) : (releaseItem x).Calls Releasing :=
  calls_releaseExpired (fun e s => .inl ⟨e, s, rfl⟩) x.reservation (.inr ⟨_, _, _, rfl⟩) _

/-- Such a command leaves a seat as it is, or is a release and frees it. -/
theorem releasing_live {op : AppOp} (hop : Releasing op) (w : World) (env : Env) (key : String) :
    Storage.live (appStep env w op).2.redis key env.now = Storage.live w.redis key env.now ∨
      (∃ e s v, op = .redis ["RELEASE_SEAT", e, s, v]) ∧ Storage.live (appStep env w op).2.redis key env.now = none := by
  rcases hop with ⟨e, s, rfl⟩ | ⟨e, s, v, rfl⟩
  · rcases appStep_redis env w ["SEAT_STATUS", e, s] with he | he <;> rw [he]
    · rw [seatStatus_step]
      exact .inl (Storage.live_purge w.redis _ key le_rfl)
    · exact .inl rfl
  · rcases appStep_redis env w ["RELEASE_SEAT", e, s, v] with he | he <;> rw [he]
    · rw [releaseSeat_step]
      exact (Storage.releaseSeat_live w.redis e s v env.now key).imp_right fun h => ⟨⟨e, s, v, rfl⟩, h⟩
    · exact .inl rfl

theorem reports_live {redis redis' : Store} {state : String} {userId : Option String}
    (h : Storage.live redis' (seatKey e s) now = Storage.live redis (seatKey e s) now) :
    Reports redis' e s now state userId ↔ Reports redis e s now state userId := by
  rw [Reports, Reports, reported_eq, reported_eq, h]

theorem Reports.finds {redis : Store} (h : Reports redis e s now "HELD" (some u)) :
    Finds redis (seatKey e s) now seatHeld (some (Str.ofString u)) := by
  obtain ⟨ttl, hr⟩ := h
  rw [reported_eq] at hr
  exact ⟨ttl, readStatus_ok hr⟩

theorem not_held_of_free {redis : Store} (h : Storage.live redis (seatKey e s) now = none) :
    ¬ Reports redis e s now "HELD" (some u) := by
  rintro ⟨ttl, hr⟩
  rw [reported_eq, h] at hr
  obtain ⟨hstate, -⟩ := Storage.SeatStatus.mk.inj (Except.ok.inj (readStatus_ok hr))
  exact Storage.seatStates_ne.1 hstate.symm

/-- No such command gives a seat to a user. -/
theorem held_before {op : AppOp} (hop : Releasing op)
    (h : Reports (appStep env w op).2.redis e s env.now "HELD" (some u)) : Reports w.redis e s env.now "HELD" (some u) := by
  rcases releasing_live hop w env (seatKey e s) with hlive | ⟨-, hfree⟩
  · exact (reports_live hlive).mp h
  · exact absurd h (not_held_of_free hfree)

/-- A command that takes a seat from its user is a release, and frees the seat. -/
theorem freed_of_not_held {op : AppOp} (hop : Releasing op) (h : Reports w.redis e s env.now "HELD" (some u))
    (h' : ¬ Reports (appStep env w op).2.redis e s env.now "HELD" (some u)) :
    (∃ e s v, op = .redis ["RELEASE_SEAT", e, s, v]) ∧
      Finds (appStep env w op).2.redis (seatKey e s) env.now seatAvailable none := by
  rcases releasing_live hop w env (seatKey e s) with hlive | ⟨hrelease, hfree⟩
  · exact absurd ((reports_live hlive).mpr h) h'
  · refine ⟨hrelease, -1, ?_⟩
    rw [hfree]
    rfl

/-- A row's seat is released only where Redis has it held by the row's user. -/
theorem release_held {x : ReservationRecord ℚ} {env : ℕ → Env} {ev : Program.Event Env World AppOp}
    (hev : ev ∈ (releaseItem x).events appStep w env) (hnow : ∀ n, (env n).now = now) {v : String}
    (hop : ev.op = .redis ["RELEASE_SEAT", e, s, v]) : ev.op = releaseHold x.reservation ∧
      Reports ev.before.redis x.reservation.eventId x.reservation.seatId now "HELD" (some x.reservation.userId) := by
  rw [releaseItem, releaseExpired_eq, Program.events_call, List.mem_cons] at hev
  rcases hev with rfl | hev
  · simp [lookupSeat] at hop
  cases hs : (appStep (env 0) w (lookupSeat x.reservation)).1 >>= decodeSeatStatus with
  | error y =>
      rw [hs] at hev
      cases hev
  | ok status =>
      rw [hs] at hev
      simp only [Program.ofExcept_ok, Program.bind_ret] at hev
      split at hev
      next hheld =>
        obtain ⟨state, userId, ttl⟩ := status
        obtain ⟨rfl, rfl⟩ := hheld
        obtain ⟨hreported, hafter⟩ := statusRead_ok hs
        rw [hnow] at hreported hafter
        rw [Program.tryCatch_call, Program.events_call, List.mem_cons] at hev
        rcases hev with rfl | hev
        · refine ⟨rfl, ?_⟩
          dsimp only
          rw [hafter]
          exact (reports_live (Storage.live_purge w.redis _ _ le_rfl)).mpr ⟨ttl, hreported⟩
        · revert hev
          cases (appStep (env (0 + 1)) (appStep (env 0) w (lookupSeat x.reservation)).2
            (releaseHold x.reservation)).1 >>= decodeSeatCommand <;> exact fun hev => by cases hev
      next => cases hev

/-! ### A pass at one instant -/

/-- A release takes a seat from a user who still has a live hold of it in the DB. -/
def FreesLiveHold (ev : Program.Event Env World AppOp) : Prop :=
  (∃ e s v, ev.op = .redis ["RELEASE_SEAT", e, s, v]) ∧
    ∃ r ∈ ev.before.db.tables.reservations, Live r ev.env.now ∧
      Finds ev.before.redis (rowKey r) ev.env.now seatHeld (some (Str.ofString r.userId)) ∧
      ∃ userId, Finds ev.after.redis (rowKey r) ev.env.now seatAvailable userId

/-- Redis reports the seat of a stale row that the pass lists as held by the row's user, who has another row
for the seat that is live. -/
def Reused (w : World) (now : ℚ) (limit : Int) : Prop :=
  ∃ rows, withLimit limit (staleRows w.db.tables now) = .ok rows ∧
    ∃ r ∈ rows, Reports w.redis r.eventId r.seatId now "HELD" (some r.userId) ∧
      ∃ r' ∈ w.db.tables.reservations, Live r' now ∧ rowKey r' = rowKey r ∧ r'.userId = r.userId

/-- The records that the expiry of the listed rows returns. -/
def expiredRecords (db : Database ℚ) (now : ℚ) (rows : List (Reservation ℚ)) : List (ReservationRecord ℚ) :=
  rows.map (fun r => record (db.expire now).tables (expiredAt now r))

/-- The DB after the expiry of the listed rows. -/
def afterListing (db : Database ℚ) (now : ℚ) (rows : List (Reservation ℚ)) : Database ℚ :=
  if rows = [] then db else db.expire now

theorem live_afterListing {db : Database ℚ} {rows : List (Reservation ℚ)} {r : Reservation ℚ} (h : Live r now) :
    r ∈ (afterListing db now rows).tables.reservations ↔ r ∈ db.tables.reservations := by
  rw [afterListing]
  split
  · rfl
  · rw [mem_expire (by rw [h.1]; decide)]
    exact and_iff_left h.not_stale

theorem listing_step (w : World) (limit : Int) (now : ℚ) (uuid : String) :
    appStep ⟨now, uuid, .none⟩ w (.db (.expireStaleReservations limit)) =
      match withLimit limit (staleRows w.db.tables now) with
      | .error x => (.error x, w)
      | .ok rows => (.ok ((expiredRecords w.db now rows).map some), { w with db := afterListing w.db now rows }) := by
  simp only [appStep, withFault, dbStep, atomic, expireStaleReservations_eq]
  cases withLimit limit (staleRows w.db.tables now) with
  | error x => rfl
  | ok rows =>
      simp only [expiredRecords, List.map_map]
      rfl

theorem turn_events (w : World) (limit : Int) (now : ℚ) (uuid : String) : ((AppCall.runOnce limit).at now uuid).events w =
    (Orchestrator.db (.expireStaleReservations limit) >>= afterExpiry limit).events appStep w (fun _ => ⟨now, uuid, .none⟩) := by
  rw [← runOnce_eq]
  exact Program.events_map _ _ _ _

/-- A pass lists the stale rows, releases their seats, and frees no seat after that. -/
theorem runOnce_events (w : World) (limit : Int) (now : ℚ) (uuid : String) {rows : List (Reservation ℚ)}
    (hrows : withLimit limit (staleRows w.db.tables now) = .ok rows) : ∃ first rest,
      ((AppCall.runOnce limit).at now uuid).events w = first :: ((collect releaseItem (expiredRecords w.db now rows)).events
        appStep { w with db := afterListing w.db now rows } (fun _ => ⟨now, uuid, .none⟩) ++ rest) ∧
      Unreleasing first.op ∧ ∀ ev ∈ rest, Unreleasing ev.op := by
  have hstep := listing_step w limit now uuid
  rw [hrows] at hstep
  rw [turn_events, Orchestrator.db, Program.invoke_bind, Program.events_call]
  simp only [hstep]
  rw [afterExpiry_eq, Program.events_bind]
  refine ⟨_, _, rfl, basic_unreleasing.db _, fun ev hev => ?_⟩
  split at hev
  next released w₁ _ =>
    refine Program.Calls.events ?_ _ _ ev hev
    refine (Program.Calls.invoke (basic_unreleasing.db _)).bind fun rows => ?_
    refine (calls_collect fun r _ => ?_).bind fun _ => trivial
    exact calls_repairConfirmed basic_unreleasing.seatStatus r (by simp [Unreleasing]) _
  next => cases hev

theorem runOnce_events_error (w : World) (limit : Int) (now : ℚ) (uuid : String) {x : Error}
    (hrows : withLimit limit (staleRows w.db.tables now) = .error x) :
    ∀ ev ∈ ((AppCall.runOnce limit).at now uuid).events w, Unreleasing ev.op := by
  have hstep := listing_step w limit now uuid
  rw [hrows] at hstep
  rw [turn_events, Orchestrator.db, Program.invoke_bind, Program.events_call]
  simp only [hstep]
  intro ev hev
  rw [List.mem_singleton.mp hev]
  exact basic_unreleasing.db _

/-! ### The releases of a pass -/

section Releases

variable {records : List (ReservationRecord ℚ)} {env : ℕ → Env} {ev : Program.Event Env World AppOp}

theorem collected_releasing (hev : ev ∈ (collect releaseItem records).events appStep w env) : Releasing ev.op :=
  (calls_collect fun x _ => calls_releaseItem_releasing x).events w env ev hev

theorem collected_now (hnow : ∀ n, (env n).now = now) (hev : ev ∈ (collect releaseItem records).events appStep w env) :
    ev.env.now = now := by
  obtain ⟨i, hi⟩ := Program.events_env hev
  rw [hi, hnow]

theorem collected_db (hev : ev ∈ (collect releaseItem records).events appStep w env) : ev.before.db = w.db := by
  refine Program.events_invariant (I := fun w' : World => w'.db = w.db) (fun ev' hev' hbefore => ?_) rfl ev hev
  rw [Program.events_after hev', ← hbefore]
  rcases collected_releasing hev' with ⟨e, s, hop⟩ | ⟨e, s, v, hop⟩ <;> rw [hop]
  · rcases appStep_redis ev'.env ev'.before ["SEAT_STATUS", e, s] with he | he <;> rw [he]
  · rcases appStep_redis ev'.env ev'.before ["RELEASE_SEAT", e, s, v] with he | he <;> rw [he]

/-- A row's seat is released only where Redis had it held by the row's user before all the releases. -/
theorem collected_release (hnow : ∀ n, (env n).now = now) (hev : ev ∈ (collect releaseItem records).events appStep w env)
    {v : String} (hop : ev.op = .redis ["RELEASE_SEAT", e, s, v]) : ∃ x ∈ records, ev.op = releaseHold x.reservation ∧
      Reports w.redis x.reservation.eventId x.reservation.seatId now "HELD" (some x.reservation.userId) := by
  obtain ⟨x, hx, w₁, n, hitem⟩ := mem_events_collect hev
  obtain ⟨hrelease, hheld⟩ := release_held hitem (fun i => hnow (i + n)) hop
  refine ⟨x, hx, hrelease, ?_⟩
  by_contra hno
  refine Program.events_invariant (I := fun w : World =>
    ¬ Reports w.redis x.reservation.eventId x.reservation.seatId now "HELD" (some x.reservation.userId))
    (fun ev' hev' hbefore hafter => ?_) hno ev hev hheld
  rw [Program.events_after hev', ← collected_now hnow hev'] at hafter
  rw [← collected_now hnow hev'] at hbefore
  exact hbefore (held_before (collected_releasing hev') hafter)

/-- The seat that a row's user holds is taken from the user by a release. -/
theorem collected_freed (w : World) (hnow : ∀ n, (env n).now = now) (hfault : ∀ n, (env n).fault = .none) {x : ReservationRecord ℚ}
    (hx : x ∈ records)
    (hheld : Reports w.redis x.reservation.eventId x.reservation.seatId now "HELD" (some x.reservation.userId)) :
    ∃ ev ∈ (collect releaseItem records).events appStep w env, (∃ e s v, ev.op = .redis ["RELEASE_SEAT", e, s, v]) ∧
      Finds ev.before.redis (rowKey x.reservation) now seatHeld (some (Str.ofString x.reservation.userId)) ∧
      Finds ev.after.redis (rowKey x.reservation) now seatAvailable none := by
  by_contra hno
  have hkept : ∀ ev ∈ (collect releaseItem records).events appStep w env,
      Reports ev.before.redis x.reservation.eventId x.reservation.seatId now "HELD" (some x.reservation.userId) →
      Reports ev.after.redis x.reservation.eventId x.reservation.seatId now "HELD" (some x.reservation.userId) := by
    intro ev hev hbefore
    by_contra hafter
    have htime := collected_now hnow hev
    have hsteps := Program.events_after hev
    rw [hsteps, ← htime] at hafter
    obtain ⟨hrelease, hfree⟩ := freed_of_not_held (collected_releasing hev) (htime.symm ▸ hbefore) hafter
    rw [← hsteps, htime] at hfree
    exact hno ⟨ev, hev, hrelease, hbefore.finds, hfree⟩
  have hbefore := Program.events_invariant (I := fun w : World =>
    Reports w.redis x.reservation.eventId x.reservation.seatId now "HELD" (some x.reservation.userId)) hkept hheld
  obtain ⟨ev, hev, -, hrelease⟩ := dealtWith_collect records w hfault x hx
  rw [collected_now hnow hev] at hrelease
  obtain ⟨ev', hev', -, -, hfreed⟩ := hrelease (hbefore ev hev)
  rw [collected_now hnow hev'] at hfreed
  exact hfreed (hkept ev' hev' (hbefore ev' hev'))

end Releases

/-- A pass takes no seat from a user with a live hold of it if and only if no stale row that it lists has had
its seat held again by its user. -/
theorem runOnce_spares_iff (w : World) (limit : Int) (now : ℚ) (uuid : String) :
    (∀ ev ∈ ((AppCall.runOnce limit).at now uuid).events w, ¬ FreesLiveHold ev) ↔ ¬ Reused w now limit := by
  constructor
  · rintro hspares ⟨rows, hrows, r, hr, hheld, r', hr', hlive, hkey, huser⟩
    obtain ⟨first, rest, hevents, -, -⟩ := runOnce_events w limit now uuid hrows
    have hrow := expiredAt_sameRow now r
    have hx : record (w.db.expire now).tables (expiredAt now r) ∈ expiredRecords w.db now rows := List.mem_map_of_mem hr
    have hpart : (record (w.db.expire now).tables (expiredAt now r)).reservation = expiredAt now r := rfl
    obtain ⟨ev, hev, hrelease, hbefore, hafter⟩ := @collected_freed now _ (fun _ => ⟨now, uuid, .none⟩)
      { w with db := afterListing w.db now rows } (fun _ => rfl) (fun _ => rfl) _ hx
      (by rwa [hpart, hrow.eventId, hrow.seatId, hrow.userId])
    have hplace : rowKey (expiredAt now r) = rowKey r' := by rw [hkey, rowKey, rowKey, hrow.eventId, hrow.seatId]
    rw [hpart, hplace, hrow.userId, ← huser] at hbefore
    rw [hpart, hplace] at hafter
    have htime := collected_now (fun _ => rfl) hev
    refine hspares ev (hevents ▸ List.mem_cons_of_mem _ (List.mem_append_left _ hev)) ⟨hrelease, r', ?_, ?_⟩
    · rw [collected_db hev]
      exact (live_afterListing hlive).mpr hr'
    · rw [htime]
      exact ⟨hlive, hbefore, none, hafter⟩
  · rintro hno ev hev ⟨⟨e, s, v, hop⟩, r', hr', hlive, hbefore, userId, hafter⟩
    cases hrows : withLimit limit (staleRows w.db.tables now) with
    | error x => exact runOnce_events_error w limit now uuid hrows ev hev e s v hop
    | ok rows =>
        obtain ⟨first, rest, hevents, hfirst, hrest⟩ := runOnce_events w limit now uuid hrows
        obtain ⟨hkey, huser⟩ := freed_own (Program.events_after hev) hop hbefore hafter
        rw [hevents, List.mem_cons, List.mem_append] at hev
        rcases hev with rfl | hev | hev
        · exact hfirst e s v hop
        · have htime := collected_now (fun _ => rfl) hev
          rw [collected_db hev] at hr'
          rw [htime] at hlive
          obtain ⟨x, hx, hrelease, hheld⟩ := collected_release (fun _ => rfl) hev hop
          obtain ⟨r, hr, rfl⟩ := List.mem_map.mp hx
          have hrow := expiredAt_sameRow now r
          have hpart : (record (w.db.expire now).tables (expiredAt now r)).reservation = expiredAt now r := rfl
          rw [hpart, hrow.eventId, hrow.seatId, hrow.userId] at hheld
          rw [hop, hpart, releaseHold, hrow.eventId, hrow.seatId, hrow.userId] at hrelease
          cases hrelease
          exact hno ⟨rows, hrows, r, hr, hheld, r', (live_afterListing hlive).mp hr', hlive, hkey, huser⟩
        · exact hrest ev hev e s v hop

/-- A hold of 10 seconds that its user extends. -/
def twiceHeld : List Turn := extendedHold.take 2

theorem twiceHeld_freed : ¬ ∀ (db : Database ℚ) (start : ℚ) (turns : List Turn), db.tables.reservations = [] →
    Along Moment.next OnTime ⟨⟨db, ∅⟩, start⟩ turns → ∀ now, (turns.foldl Moment.next ⟨⟨db, ∅⟩, start⟩).now ≤ now →
    ∀ limit uuid, ∀ ev ∈ ((AppCall.runOnce limit).at now uuid).events (turns.foldl Moment.next ⟨⟨db, ∅⟩, start⟩).world,
      ¬ FreesLiveHold ev := by
  intro h
  have hspares := h openSale 0 twiceHeld rfl ⟨onTime_at (by decide +kernel), onTime_at (by decide +kernel), trivial⟩ 20
    (by decide +kernel) 10 "2"
  have hrelease : ∃ ev ∈ ((AppCall.runOnce 10).at 20 "2").events (twiceHeld.foldl Moment.next ⟨⟨openSale, ∅⟩, 0⟩).world,
      ev.op.tokens = ["RELEASE_SEAT", "e", "a", "u"] ∧ ∃ r ∈ ev.before.db.tables.reservations, Live r ev.env.now ∧
        Storage.readSeat (Storage.live ev.before.redis (rowKey r) ev.env.now) ev.env.now =
          .ok ⟨seatHeld, some (Str.ofString r.userId), 85⟩ ∧
        Storage.readSeat (Storage.live ev.after.redis (rowKey r) ev.env.now) ev.env.now =
          .ok ⟨seatAvailable, none, -1⟩ := by decide +kernel
  obtain ⟨ev, hev, htokens, r, hr, hlive, hheld, hfree⟩ := hrelease
  exact hspares ev hev ⟨⟨"e", "a", "u", op_of_tokens htokens⟩, r, hr, hlive, ⟨85, hheld⟩, none, -1, hfree⟩

end Ticketing.AppServer
