import Ticketing.AppServer.PassItems
import Ticketing.TicketingApi.Sweeps

namespace Ticketing.AppServer

open Python Interaction TicketingApi Repository Commands Orchestrator Reconciler
open Storage (Store seatKey)
open Reconciler.ReconciliationReport (total)

/-! ### Passes of the reconciler -/

/-- What a pass does once the DB has expired the stale holds. -/
def Reconciler.afterExpiry (limit : Int) (expired : List (Option (ReservationRecord ℚ))) : Flow ReconciliationReport := do
  let report ← releaseAll expired ⟨[], [], []⟩
  repairConfirmedSeats limit report

theorem runOnce_eq (limit : Int) : runOnce limit = Orchestrator.db (.expireStaleReservations limit) >>= afterExpiry limit :=
  Program.bind_assoc _ _ _

/-- A pass, with the readings of the clock in its first DB call and with what its other calls meet. -/
structure Pass where
  limit : Int
  clock : ℕ → ℚ
  env : ℕ → Env

namespace Pass

def expiry (p : Pass) (db : Database ℚ) : Except Error (List (Option (ReservationRecord ℚ))) × Database ℚ :=
  (Service.expireStaleReservations p.limit).run exec db p.clock

def flow (p : Pass) (w : World) : Flow ReconciliationReport := Program.ofExcept (p.expiry w.db).1 >>= afterExpiry p.limit

def run (p : Pass) (w : World) : Except Error ReconciliationReport × World :=
  (p.flow w).run appStep { w with db := (p.expiry w.db).2 } p.env

def events (p : Pass) (w : World) : List (Program.Event Env World AppOp) :=
  (p.flow w).events appStep { w with db := (p.expiry w.db).2 } p.env

end Pass

/-- On a clock that stands still during its first DB call, a pass is `run_once`. -/
theorem runOnce_run (limit : Int) (w : World) (env : ℕ → Env) (h : (env 0).fault = .none) :
    (runOnce limit).run appStep w env = Pass.run ⟨limit, fun _ => (env 0).now, fun n => env (n + 1)⟩ w := by
  rw [runOnce_eq, Orchestrator.db, Program.invoke, Program.bind_call, Program.run_call]
  simp only [appStep, h]
  rfl

variable {w : World} {env : ℕ → Env} {α : Type}

/-! ### Lookups and releases -/

/-- A release frees a seat that a lookup has found held by the user, or finds that the hold has run out. -/
theorem release_frees {redis : Store} {e s u : String} {now now' : ℚ} (h : Reports redis e s now "HELD" (some u)) :
    ¬ Reports (step (Storage.purge redis (seatKey e s) now) (now', ["RELEASE_SEAT", e, s, u])) e s now' "HELD" (some u) := by
  obtain ⟨ttl, h⟩ := h
  rw [reported_eq] at h
  have hread := readStatus_ok h
  rintro ⟨ttl', h'⟩
  rw [reported_eq, releaseSeat_step, Storage.releaseSeat_frees hread] at h'
  simpa [Storage.seatAvailable] using Except.ok.inj (readStatus_ok h')

/-- The seat of a row is looked up, and released where the lookup finds the row's hold. -/
def DealtWith (events : List (Program.Event Env World AppOp)) (r : Reservation ℚ) : Prop :=
  ∃ ev ∈ events, ev.op = lookupSeat r ∧
    (Reports ev.before.redis r.eventId r.seatId ev.env.now "HELD" (some r.userId) → ∃ ev' ∈ events,
      ev'.op = releaseHold r ∧ ev'.before = ev.after ∧
        ¬ Reports ev'.after.redis r.eventId r.seatId ev'.env.now "HELD" (some r.userId))

theorem DealtWith.mono {events events' : List (Program.Event Env World AppOp)} {r : Reservation ℚ} (h : DealtWith events r)
    (hsub : events ⊆ events') : DealtWith events' r := by
  obtain ⟨ev, hev, hop, hrelease⟩ := h
  refine ⟨ev, hsub hev, hop, fun hheld => ?_⟩
  obtain ⟨ev', hev', h'⟩ := hrelease hheld
  exact ⟨ev', hsub hev', h'⟩

theorem dealtWith_releaseItem (x : ReservationRecord ℚ) (w : World) (hfault : ∀ n, (env n).fault = .none) :
    DealtWith ((releaseItem x).events appStep w env) x.reservation := by
  obtain ⟨more, he, hmore⟩ := events_releaseExpired x.reservation ⟨[x.reservation.reservationId], [], []⟩ w env
  rw [releaseItem, he]
  refine ⟨_, List.mem_cons_self, rfl, fun hheld => ?_⟩
  obtain ⟨ttl, hr⟩ := hheld
  have hs : statusRead (env 0) w x.reservation = .ok ⟨"HELD", some x.reservation.userId, ttl⟩ :=
    (statusRead_answered (hfault 0)).trans hr
  rw [hmore _ hs rfl rfl]
  refine ⟨_, List.mem_cons_of_mem _ List.mem_cons_self, rfl, rfl, ?_⟩
  have hstep (w : World) : (appStep (env 1) w (releaseHold x.reservation)).2.redis = step w.redis
      ((env 1).now, ["RELEASE_SEAT", x.reservation.eventId, x.reservation.seatId, x.reservation.userId]) := by
    simp only [releaseHold, appStep, hfault 1]
    rfl
  dsimp only
  rw [hstep, (statusRead_ok hs).2]
  exact release_frees ⟨ttl, hr⟩

theorem dealtWith_collect (records : List (ReservationRecord ℚ)) (w : World) (hfault : ∀ n, (env n).fault = .none) :
    ∀ x ∈ records, DealtWith ((collect releaseItem records).events appStep w env) x.reservation := by
  obtain ⟨reports, _, hitems⟩ := local_seats.collect_run calls_releaseItem releaseItem_returns records w env
  intro x hx
  obtain ⟨report, _, w₁, n, _, hevents, _⟩ := exists_of_forall₂ hitems x hx
  exact (dealtWith_releaseItem x w₁ fun i => hfault _).mono hevents

/-! ### The phases of a pass -/

/-- What the calls after the releases meet. -/
def afterReleases (records : List (ReservationRecord ℚ)) (w : World) (env : ℕ → Env) : ℕ → Env :=
  Program.rest appStep (collect releaseItem records) w env

theorem afterExpiry_eq (limit : Int) (records : List (ReservationRecord ℚ)) : afterExpiry limit (records.map some) =
    collect releaseItem records >>= fun released => Orchestrator.db (.listConfirmedReservations limit) >>= fun rows =>
      collect repairItem rows >>= fun repaired => pure ((total released).append (total repaired)) := by
  rw [afterExpiry, releaseAll_eq, Program.bind_assoc]
  refine congrArg (collect releaseItem records >>= ·) (funext fun released => ?_)
  rw [Program.pure_eq, Program.bind_ret, repairConfirmedSeats]
  exact congrArg (Orchestrator.db (.listConfirmedReservations limit) >>= ·) (funext fun rows => repairAll_eq rows _)

/-- A pass whose listing of the confirmed rows is answered. -/
theorem run_afterExpiry {limit : Int} {records : List (ReservationRecord ℚ)} {w w₁ w₂ w₃ : World} {env : ℕ → Env}
    {released repaired : List ReconciliationReport} {rows : List (Reservation ℚ)}
    (hreleases : (collect releaseItem records).run appStep w env = (.ok released, w₁))
    (hlist : appStep (afterReleases records w env 0) w₁ (.db (.listConfirmedReservations limit)) = (.ok rows, w₂))
    (hrepairs : (collect repairItem rows).run appStep w₂ (fun n => afterReleases records w env (n + 1)) = (.ok repaired, w₃)) :
    (afterExpiry limit (records.map some)).run appStep w env = (.ok ((total released).append (total repaired)), w₃) ∧
      (afterExpiry limit (records.map some)).events appStep w env = (collect releaseItem records).events appStep w env ++
        ⟨afterReleases records w env 0, w₁, .db (.listConfirmedReservations limit), w₂⟩ ::
          (collect repairItem rows).events appStep w₂ (fun n => afterReleases records w env (n + 1)) := by
  rw [afterReleases] at hlist hrepairs
  rw [afterExpiry_eq, Program.run_bind, Program.events_bind, hreleases]
  simp only [Orchestrator.db, Program.invoke_bind, Program.run_call, Program.events_call, afterReleases, hlist]
  rw [Program.run_bind, Program.events_bind, hrepairs]
  exact ⟨rfl, by simp⟩

theorem run_afterExpiry_error {limit : Int} {records : List (ReservationRecord ℚ)} {w w₁ w₂ : World} {env : ℕ → Env}
    {released : List ReconciliationReport} {e : Error}
    (hreleases : (collect releaseItem records).run appStep w env = (.ok released, w₁))
    (hlist : appStep (afterReleases records w env 0) w₁ (.db (.listConfirmedReservations limit)) = (.error e, w₂)) :
    (afterExpiry limit (records.map some)).run appStep w env = (.error e, w₂) := by
  rw [afterReleases] at hlist
  rw [afterExpiry_eq, Program.run_bind, hreleases]
  simp only [Orchestrator.db, Program.invoke_bind, Program.run_call, hlist, Program.run_raise]

/-- The rows that are listed as expired are the ones that the report calls so. -/
theorem afterExpiry_ids {limit : Int} {records : List (ReservationRecord ℚ)} {w : World} {env : ℕ → Env}
    {report : ReconciliationReport} (h : ((afterExpiry limit (records.map some)).run appStep w env).1 = .ok report) :
    report.expiredReservationIds = records.map (fun x => x.reservation.reservationId) := by
  obtain ⟨released, hreleased, _⟩ := local_seats.collect_run calls_releaseItem releaseItem_returns records w env
  cases hlist : appStep (afterReleases records w env 0) ((collect releaseItem records).run appStep w env).2
      (.db (.listConfirmedReservations limit)) with
  | mk x w₂ =>
      cases x with
      | error e =>
          rw [run_afterExpiry_error (Prod.ext hreleased rfl) hlist] at h
          cases h
      | ok rows =>
          obtain ⟨repaired, hrepaired, _⟩ := local_seats.collect_run calls_repairItem repairItem_returns rows w₂
            (fun n => afterReleases records w env (n + 1))
          rw [(run_afterExpiry (Prod.ext hreleased rfl) hlist (Prod.ext hrepaired rfl)).1] at h
          cases h
          rw [ReconciliationReport.append, (total_released (released_forall₂ hreleased)).1,
            total_repairs (repairs_forall₂ hrepaired), List.append_nil]

theorem reservationIds_sameRow {rows : List (Reservation ℚ)} {records : List (ReservationRecord ℚ)}
    (h : List.Forall₂ (fun r x => SameRow r x.reservation) rows records) :
    records.map (fun x => x.reservation.reservationId) = rows.map Reservation.reservationId := by
  induction h with
  | nil => rfl
  | cons hx _ ih => rw [List.map_cons, List.map_cons, ih, hx.reservationId]

/-! ### What a pass does to the DB -/

/-- The operations that leave the DB alone. -/
def Undemanding : AppOp → Prop
  | .redis _ => True
  | .db (.listConfirmedReservations _) => True
  | _ => False

theorem calls_afterExpiry (limit : Int) (records : List (Option (ReservationRecord ℚ))) :
    (afterExpiry limit records).Calls Undemanding := by
  have hstatus (e s : String) : Undemanding (.redis ["SEAT_STATUS", e, s]) := trivial
  refine (calls_releaseAll hstatus (fun _ _ _ => trivial) records _).bind fun report => ?_
  exact (Program.Calls.invoke trivial).bind fun rows => calls_repairAll hstatus (fun _ _ _ => trivial) rows report

theorem run_undemanding {p : Flow α} (h : p.Calls Undemanding) (w : World) (env : ℕ → Env) :
    (p.run appStep w env).2.db = w.db := by
  induction p generalizing w env with
  | ret a => rfl
  | raise e => rfl
  | call op k ih =>
      rw [Program.run_call, ih _ (h.2 _)]
      cases op with
      | redis tokens => rcases appStep_redis (env 0) w tokens with he | he <;> rw [he]
      | db call =>
          cases call with
          | listConfirmedReservations limit =>
              rcases appStep_db (env 0) w (.listConfirmedReservations limit) with he | he <;> rw [he]
              rw [dbStep_listConfirmedReservations]
          | _ => exact h.1.elim
      | _ => exact h.1.elim

namespace Pass

variable {p : Pass} {report : ReconciliationReport}

theorem run_db (p : Pass) (w : World) : (p.run w).2.db = (p.expiry w.db).2 := by
  refine run_undemanding (Program.Calls.bind ?_ fun records => calls_afterExpiry p.limit records) _ _
  exact Program.Calls.ofExcept _ _

/-- The rows that have gone from `HELD` to `EXPIRED`. -/
def expiredRows (db db' : Database ℚ) : List (Reservation ℚ) :=
  db.tables.reservations.filter (fun r => r.status = .held ∧ status db' r.reservationId = some .expired)

/-- The times at which the pass looks its listed rows up. -/
def lookups (p : Pass) (rows : List (Reservation ℚ)) : List ℚ := lookupTimes (fun i => p.clock (i + 2)) rows.length

theorem expiredRows_sweep (db : Database ℚ) (times : List ℚ) :
    expiredRows db (db.sweep times) = db.tables.reservations.filter (fun r => ∃ now ∈ times, Stale r now) := by
  refine List.filter_congr fun r hr => ?_
  rw [status, findReservation_sweep, findReservation_of_mem db.valid hr]
  simp only [Option.map_some, Option.some.injEq, sweptRow_status, decide_eq_decide]
  constructor
  · rintro ⟨hheld, hS⟩
    by_contra hno
    rw [if_neg hno, hheld] at hS
    cases hS
  · rintro ⟨now, hnow, hs⟩
    exact ⟨hs.1, if_pos ⟨now, hnow, hs⟩⟩

theorem expiry_listed (hclock : Monotone p.clock) {db : Database ℚ} {rows : List (Reservation ℚ)}
    (hrows : withLimit p.limit (staleRows db.tables (p.clock 0)) = .ok rows) : ∃ records : List (ReservationRecord ℚ),
      p.expiry db = (.ok (records.map some), db.sweep (p.lookups rows)) ∧
        List.Forall₂ (fun r x => SameRow r x.reservation) rows records := by
  obtain ⟨records, hreturns, hsame⟩ := returns_expireStaleReservations db hclock hrows
  exact ⟨records, hreturns.run, hsame⟩

/-- The report of a pass, and the rows that it expires, in terms of the rows that it lists. -/
theorem run_listed (hclock : Monotone p.clock) {rows : List (Reservation ℚ)}
    (hrows : withLimit p.limit (staleRows w.db.tables (p.clock 0)) = .ok rows) :
    (p.run w).2.db = w.db.sweep (p.lookups rows) ∧
      ∀ report, (p.run w).1 = .ok report → report.expiredReservationIds = rows.map Reservation.reservationId := by
  obtain ⟨records, hexpiry, hsame⟩ := expiry_listed hclock hrows
  refine ⟨by rw [run_db, hexpiry], fun report hreport => ?_⟩
  rw [run, flow, hexpiry, Program.ofExcept_ok, Program.bind_ret] at hreport
  rw [afterExpiry_ids hreport]
  exact reservationIds_sameRow hsame

theorem dealtWith_listed (hclock : Monotone p.clock) (hfault : ∀ n, (p.env n).fault = .none) {rows : List (Reservation ℚ)}
    (hrows : withLimit p.limit (staleRows w.db.tables (p.clock 0)) = .ok rows) :
    ∀ r ∈ rows, DealtWith (p.events w) r := by
  obtain ⟨records, hexpiry, hsame⟩ := expiry_listed hclock hrows
  intro r hr
  obtain ⟨x, hx, hrx⟩ := exists_of_forall₂ hsame r hr
  have hd := dealtWith_collect records { w with db := w.db.sweep (p.lookups rows) } hfault x hx
  have hevents : (collect releaseItem records).events appStep { w with db := w.db.sweep (p.lookups rows) } p.env ⊆
      p.events w := by
    rw [events, flow, hexpiry, Program.ofExcept_ok, Program.bind_ret, afterExpiry_eq, Program.events_bind]
    exact List.subset_append_left _ _
  simpa only [DealtWith, lookupSeat, releaseHold, hrx.eventId, hrx.seatId, hrx.userId] using hd.mono hevents

/-- Every row that the pass expires is in its report, is one of at most `limit`, and has its hold released. -/
structure Accounted (p : Pass) (w : World) (report : ReconciliationReport) : Prop where
  listed : report.expiredReservationIds.Perm ((expiredRows w.db (p.run w).2.db).map Reservation.reservationId)
  few : ((expiredRows w.db (p.run w).2.db).length : Int) ≤ p.limit
  released : ∀ r ∈ expiredRows w.db (p.run w).2.db, DealtWith (p.events w) r

/-- No row is stale when the pass lists them, or at most `limit` are and no other row is by its last lookup. -/
def OneBatch (p : Pass) (db : Database ℚ) : Prop :=
  staleRows db.tables (p.clock 0) = [] ∨ ((staleRows db.tables (p.clock 0)).length : Int) ≤ p.limit ∧
    ∀ r ∈ db.tables.reservations, Stale r (p.clock (3 * (staleRows db.tables (p.clock 0)).length - 1)) →
      Stale r (p.clock 0)

instance (p : Pass) (db : Database ℚ) : Decidable (p.OneBatch db) := inferInstanceAs (Decidable (_ ∨ _ ∧ _))

theorem withLimit_run {report : ReconciliationReport} (hrun : (p.run w).1 = .ok report) :
    IsInt64 p.limit ∧ withLimit p.limit (staleRows w.db.tables (p.clock 0)) =
      .ok (limitRows p.limit (staleRows w.db.tables (p.clock 0))) := by
  by_cases h : IsInt64 p.limit
  · exact ⟨h, if_pos h⟩
  · have herror := run_expireStaleReservations_error w.db p.clock
      (if_neg h : withLimit p.limit (staleRows w.db.tables (p.clock 0)) = _)
    rw [run, flow, expiry, herror] at hrun
    cases hrun

theorem mem_lookups (p : Pass) (rows : List (Reservation ℚ)) (now : ℚ) :
    now ∈ p.lookups rows ↔ ∃ i < rows.length, now = p.clock (3 * i + 2) := mem_lookupTimes

/-- What is stale when the pass lists the rows is stale at every lookup, and no lookup comes after the last. -/
theorem stale_lookups (hclock : Monotone p.clock) {rows : List (Reservation ℚ)} (hne : rows ≠ []) (r : Reservation ℚ) :
    (∃ now ∈ p.lookups rows, Stale r now) ↔ Stale r (p.clock (3 * rows.length - 1)) := by
  have hlen : 0 < rows.length := List.length_pos_iff.mpr hne
  simp only [mem_lookups]
  constructor
  · rintro ⟨_, ⟨i, hi, rfl⟩, hheld, d, hd, hle⟩
    exact ⟨hheld, d, hd, hle.trans (hclock (by omega))⟩
  · intro hs
    refine ⟨_, ⟨rows.length - 1, by omega, rfl⟩, ?_⟩
    rwa [show 3 * (rows.length - 1) + 2 = 3 * rows.length - 1 by omega]

/-- The rows that a pass lists, reports and expires. -/
theorem run_batch (hlimit : 1 ≤ p.limit) (hclock : Monotone p.clock) (hrun : (p.run w).1 = .ok report) :
    withLimit p.limit (staleRows w.db.tables (p.clock 0)) = .ok ((staleRows w.db.tables (p.clock 0)).take p.limit.toNat) ∧
      report.expiredReservationIds =
        ((staleRows w.db.tables (p.clock 0)).take p.limit.toNat).map Reservation.reservationId ∧
      expiredRows w.db (p.run w).2.db = w.db.tables.reservations.filter (fun r =>
        ∃ now ∈ p.lookups ((staleRows w.db.tables (p.clock 0)).take p.limit.toNat), Stale r now) := by
  obtain ⟨_, hrows⟩ := withLimit_run hrun
  have htake : limitRows p.limit (staleRows w.db.tables (p.clock 0)) =
      (staleRows w.db.tables (p.clock 0)).take p.limit.toNat := if_neg (by omega)
  rw [htake] at hrows
  obtain ⟨hdb, hids⟩ := run_listed hclock hrows
  refine ⟨hrows, hids report hrun, ?_⟩
  rw [hdb, expiredRows_sweep]

theorem Accounted.oneBatch (h : Accounted p w report) (hlimit : 1 ≤ p.limit) (hclock : Monotone p.clock)
    (hrun : (p.run w).1 = .ok report) : p.OneBatch w.db := by
  obtain ⟨_, hids, hexpired⟩ := run_batch hlimit hclock hrun
  refine or_iff_not_imp_left.mpr fun hnil => ?_
  have hne : (staleRows w.db.tables (p.clock 0)).take p.limit.toNat ≠ [] := by
    rw [ne_eq, List.take_eq_nil_iff, not_or]
    exact ⟨by omega, hnil⟩
  have hmore : (staleRows w.db.tables (p.clock 0)).length ≤ (expiredRows w.db (p.run w).2.db).length := by
    rw [(staleRows_perm _ _).length_eq, hexpired, ← List.countP_eq_length_filter, ← List.countP_eq_length_filter]
    refine List.countP_mono_left fun r _ hs => ?_
    simp only [decide_eq_true_eq, stale_lookups hclock hne] at hs ⊢
    exact hs.later (hclock (Nat.zero_le _))
  have hlen : ((staleRows w.db.tables (p.clock 0)).length : Int) ≤ p.limit := (Int.ofNat_le.mpr hmore).trans h.few
  have hall : (staleRows w.db.tables (p.clock 0)).take p.limit.toNat = staleRows w.db.tables (p.clock 0) :=
    List.take_of_length_le (by omega)
  refine ⟨hlen, fun r hr hs => ?_⟩
  have hid : r.reservationId ∈ report.expiredReservationIds := by
    rw [h.listed.mem_iff, hexpired]
    refine List.mem_map_of_mem (List.mem_filter.mpr ⟨hr, ?_⟩)
    rw [decide_eq_true_eq, stale_lookups hclock hne, hall]
    exact hs
  rw [hids, hall, List.mem_map] at hid
  obtain ⟨r', hr', he⟩ := hid
  obtain ⟨hmem', hs'⟩ := mem_staleRows.mp hr'
  rwa [← List.inj_on_of_nodup_map w.db.valid.reservationIds hmem' hr he]

theorem OneBatch.length_le {db : Database ℚ} (h : p.OneBatch db) (hlimit : 1 ≤ p.limit) :
    ((staleRows db.tables (p.clock 0)).length : Int) ≤ p.limit := by
  rcases h with hnil | ⟨hlen, _⟩
  · rw [hnil]
    exact (Int.natCast_nonneg 0).trans (by omega)
  · exact hlen

/-- Where one batch holds all that the pass expires, it expires what is stale when it begins. -/
theorem OneBatch.expired {db : Database ℚ} (h : p.OneBatch db) (hclock : Monotone p.clock) :
    db.tables.reservations.filter (fun r => ∃ now ∈ p.lookups (staleRows db.tables (p.clock 0)), Stale r now) =
      db.tables.reservations.filter (fun r => Stale r (p.clock 0)) := by
  refine List.filter_congr fun r hr => decide_eq_decide.mpr ?_
  by_cases hnil : staleRows db.tables (p.clock 0) = []
  · refine iff_of_false (by simp [hnil, lookups, lookupTimes]) fun hs => ?_
    exact List.not_mem_nil (hnil ▸ mem_staleRows.mpr ⟨hr, hs⟩)
  · obtain ⟨_, hlast⟩ := h.resolve_left hnil
    rw [stale_lookups hclock hnil]
    exact ⟨hlast r hr, fun hs => hs.later (hclock (Nat.zero_le _))⟩

theorem OneBatch.accounted (h : p.OneBatch w.db) (hlimit : 1 ≤ p.limit) (hclock : Monotone p.clock)
    (hfault : ∀ n, (p.env n).fault = .none) (hrun : (p.run w).1 = .ok report) : Accounted p w report := by
  obtain ⟨hrows, hids, hexpired⟩ := run_batch hlimit hclock hrun
  have hlen := h.length_le hlimit
  rw [List.take_of_length_le (by omega)] at hrows hids hexpired
  rw [h.expired hclock] at hexpired
  refine ⟨?_, ?_, fun r hr => ?_⟩
  · rw [hids, hexpired]
    exact (staleRows_perm _ _).map _
  · rwa [hexpired, ← (staleRows_perm _ _).length_eq]
  · refine dealtWith_listed hclock hfault hrows r ?_
    rw [hexpired] at hr
    exact (staleRows_perm _ _).mem_iff.mpr hr

/-- A pass deals with every reservation that it expires exactly where its one batch holds them all. -/
theorem accounted_iff (w : World) (p : Pass) (hlimit : 1 ≤ p.limit) (hclock : Monotone p.clock)
    (hfault : ∀ n, (p.env n).fault = .none) {report : ReconciliationReport} (hrun : (p.run w).1 = .ok report) :
    Accounted p w report ↔ p.OneBatch w.db :=
  ⟨fun h => h.oneBatch hlimit hclock hrun, fun h => h.accounted hlimit hclock hfault hrun⟩

end Pass

/-! ### Two stale holds -/

/-- Two holds that run out at 10. -/
def twoStale : Database ℚ where
  tables :=
    { events := [⟨"e", "title", "venue", "2026-03-19", "2026-03-18", 0⟩]
      users := [⟨"u", "Mina", "mina@example.com", 0⟩]
      seats := [⟨"e", "a", "A-1", "A", "1", 1, 100, 0⟩, ⟨"e", "b", "A-2", "A", "1", 2, 100, 0⟩]
      reservations :=
        [⟨"r", "e", "a", "u", .held, some "t", some 10, 0, 0, none, none⟩,
          ⟨"q", "e", "b", "u", .held, some "t'", some 10, 0, 0, none, none⟩]
      payments := [] }
  valid := by decide +kernel

/-- Both seats are held in Redis for longer than that. -/
def twoHeld : Store :=
  ((∅ : Store).insert (seatKey "e" "a") ⟨Storage.serializeSeatRecord Storage.seatHeld (some (JsonText.Str.ofString "u")), some 100⟩).insert
    (seatKey "e" "b") ⟨Storage.serializeSeatRecord Storage.seatHeld (some (JsonText.Str.ofString "u")), some 100⟩

def passAt (limit : Int) (now : ℚ) : Pass := ⟨limit, fun _ => now, fun _ => ⟨now, "", .none⟩⟩

theorem passAt_accounted : ∃ report, ((passAt 2 20).run ⟨twoStale, twoHeld⟩).1 = .ok report ∧
    Pass.Accounted (passAt 2 20) ⟨twoStale, twoHeld⟩ report := by
  refine ⟨⟨["q", "r"], [], []⟩, by decide +kernel, ?_⟩
  exact (Pass.accounted_iff _ _ (by decide) monotone_const (fun _ => rfl) (by decide +kernel)).mpr (by decide +kernel)

theorem passAt_unaccounted : ¬ ∀ (w : World) (p : Pass) (report : ReconciliationReport), 1 ≤ p.limit → Monotone p.clock →
    (∀ n, (p.env n).fault = .none) → (p.run w).1 = .ok report → Pass.Accounted p w report := by
  intro h
  have hfew := (h ⟨twoStale, twoHeld⟩ (passAt 1 20) ⟨["q"], [], []⟩ (by decide) monotone_const (fun _ => rfl)
    (by decide +kernel)).few
  revert hfew
  decide +kernel

end Ticketing.AppServer
