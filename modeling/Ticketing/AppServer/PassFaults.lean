import Ticketing.AppServer.PassReports

namespace Ticketing.AppServer

open Python Interaction TicketingApi Repository Commands Orchestrator Reconciler
open Storage (seatKey)
open Reconciler.ReconciliationReport (total)

/-- Ids without a colon. -/
def PlainIds (db : Database ℚ) : Prop := ∀ r ∈ db.tables.reservations,
  ':' ∉ r.reservationId.toList ∧ ':' ∉ r.eventId.toList ∧ ':' ∉ r.seatId.toList

theorem sweptRow_of_not_held (times : List ℚ) {r : Reservation ℚ} (h : r.status ≠ .held) : sweptRow times r = r := by
  induction times with
  | nil => rfl
  | cons now times ih => rwa [sweptRow, List.foldl_cons, expiredAt_of_not_held h]

theorem confirmedRows_sweep (times : List ℚ) (db : Database ℚ) :
    confirmedRows (db.sweep times).tables = confirmedRows db.tables := by
  have hstatus (r : Reservation ℚ) : (sweptRow times r).status = .confirmed ↔ r.status = .confirmed := by
    rw [sweptRow_status]
    split
    next hs =>
      obtain ⟨now, _, hheld, _⟩ := hs
      simp [hheld]
    next => rfl
  have hfilter : db.tables.reservations.filter ((fun r => decide (r.status = .confirmed)) ∘ sweptRow times) =
      db.tables.reservations.filter (fun r => r.status = .confirmed) :=
    List.filter_congr fun r _ => decide_eq_decide.mpr (hstatus r)
  rw [confirmedRows, sweep_reservations, List.filter_map, hfilter]
  refine congrArg (List.insertionSort _) ((List.map_congr_left fun r hr => ?_).trans (List.map_id _))
  apply sweptRow_of_not_held
  rw [of_decide_eq_true (List.mem_filter.mp hr).2]
  simp

namespace Pass

variable {p : Pass} {w : World}

/-- No call of the DB fails. -/
def DbAnswers (p : Pass) (w : World) : Prop := ∀ ev ∈ p.events w, ∀ call, ev.op = .db call → ev.env.fault = .none

/-- The confirmed rows that the pass lists. -/
def batch (p : Pass) (db : Database ℚ) : List (Reservation ℚ) := limitRows p.limit (confirmedRows db.tables)

def isListing : AppOp → Bool
  | .db (.listConfirmedReservations _) => true
  | _ => false

/-- The calls of a pass from the listing of the confirmed rows on. -/
def repairEvents (events : List (Program.Event Env World AppOp)) : List (Program.Event Env World AppOp) :=
  events.dropWhile (fun ev => !isListing ev.op)

/-- The two phases of a pass that returns. -/
structure Phases (p : Pass) (w : World) (records : List (ReservationRecord ℚ)) (w₀ w₁ : World) (env₁ : ℕ → Env)
    (listing : Program.Event Env World AppOp) (released repaired : List ReconciliationReport) : Prop where
  releases : (collect releaseItem records).run appStep w₀ p.env = (.ok released, w₁)
  repairs : (collect repairItem (p.batch w.db)).run appStep w₁ env₁ = (.ok repaired, (p.run w).2)
  report : (p.run w).1 = .ok ((total released).append (total repaired))
  listed : isListing listing.op = true
  events : p.events w = (collect releaseItem records).events appStep w₀ p.env ++
    listing :: (collect repairItem (p.batch w.db)).events appStep w₁ env₁

theorem listing_mem (limit : Int) {records : List (ReservationRecord ℚ)} {w w₁ : World} {env : ℕ → Env}
    {released : List ReconciliationReport} (h : (collect releaseItem records).run appStep w env = (.ok released, w₁)) :
    ⟨afterReleases records w env 0, w₁, .db (.listConfirmedReservations limit),
        (appStep (afterReleases records w env 0) w₁ (.db (.listConfirmedReservations limit))).2⟩ ∈
      (afterExpiry limit (records.map some)).events appStep w env := by
  rw [afterExpiry_eq, Program.events_bind, h]
  simp only [Orchestrator.db, Program.invoke_bind, Program.events_call]
  exact List.mem_append_right _ List.mem_cons_self

theorem phases {records : List (ReservationRecord ℚ)} {times : List ℚ}
    (hexpiry : p.expiry w.db = (.ok (records.map some), w.db.sweep times)) (hlimit : IsInt64 p.limit)
    (hdb : p.DbAnswers w) : ∃ w₁ m listing released repaired,
      Phases p w records { w with db := w.db.sweep times } w₁ (fun n => p.env (n + m)) listing released repaired := by
  obtain ⟨released, hreleased, _⟩ :=
    local_seats.collect_run calls_releaseItem releaseItem_returns records { w with db := w.db.sweep times } p.env
  obtain ⟨w₁, hw₁⟩ : ∃ w₁, (collect releaseItem records).run appStep { w with db := w.db.sweep times } p.env =
      (.ok released, w₁) := ⟨_, Prod.ext hreleased rfl⟩
  have hflow : p.flow w = afterExpiry p.limit (records.map some) := by
    rw [flow, hexpiry, Program.ofExcept_ok, Program.bind_ret]
  have hevents : p.events w = (afterExpiry p.limit (records.map some)).events appStep { w with db := w.db.sweep times } p.env := by
    rw [events, hflow, hexpiry]
  have hrun : p.run w = (afterExpiry p.limit (records.map some)).run appStep { w with db := w.db.sweep times } p.env := by
    rw [run, hflow, hexpiry]
  have hw₁db : w₁.db = w.db.sweep times := by
    have hcalls : (collect releaseItem records).Calls Undemanding := calls_collect fun x _ => (calls_releaseItem x).mono
      fun op hop => by
        obtain ⟨tokens, rfl⟩ := seatPart_redis hop
        trivial
    have h := run_undemanding hcalls { w with db := w.db.sweep times } p.env
    rwa [hw₁] at h
  have hfault : (afterReleases records { w with db := w.db.sweep times } p.env 0).fault = .none := by
    have hmem := listing_mem p.limit hw₁
    rw [← hevents] at hmem
    exact hdb _ hmem _ rfl
  have hlist : appStep (afterReleases records { w with db := w.db.sweep times } p.env 0) w₁
      (.db (.listConfirmedReservations p.limit)) = (.ok (p.batch w.db), w₁) := by
    simp only [appStep, hfault, withFault, dbStep_listConfirmedReservations, hw₁db, confirmedRows_sweep]
    rw [withLimit, if_pos hlimit, ← hw₁db]
    rfl
  obtain ⟨repaired, hrepaired, _⟩ := local_seats.collect_run calls_repairItem repairItem_returns (p.batch w.db) w₁
    fun n => afterReleases records { w with db := w.db.sweep times } p.env (n + 1)
  obtain ⟨hend, hevs⟩ := run_afterExpiry hw₁ hlist (Prod.ext hrepaired rfl)
  rw [← hrun] at hend
  rw [← hevents] at hevs
  have henv (n : ℕ) : afterReleases records { w with db := w.db.sweep times } p.env (n + 1) = p.env (n +
      (1 + ((collect releaseItem records).events appStep { w with db := w.db.sweep times } p.env).length)) := by
    rw [afterReleases, Program.rest, Nat.add_assoc]
  simp only [henv] at hrepaired hend hevs
  refine ⟨w₁, _, _, released, repaired, hw₁, Prod.ext hrepaired (congrArg Prod.snd hend).symm, congrArg Prod.fst hend,
    rfl, hevs⟩

theorem repairEvents_eq {xs ys : List (Program.Event Env World AppOp)} {listing : Program.Event Env World AppOp}
    (hxs : ∀ ev ∈ xs, ∃ key, seatPart ev.op = some key) (hlisting : isListing listing.op = true) :
    repairEvents (xs ++ listing :: ys) = listing :: ys := by
  have hno (ev : Program.Event Env World AppOp) (hev : ev ∈ xs) : (!isListing ev.op) = true := by
    obtain ⟨key, hkey⟩ := hxs ev hev
    obtain ⟨tokens, htokens⟩ := seatPart_redis hkey
    rw [htokens]
    rfl
  rw [repairEvents, List.dropWhile_append_of_pos hno, List.dropWhile_cons_of_neg (by simp [hlisting])]

theorem mem_batch {db : Database ℚ} {r : Reservation ℚ} (h : r ∈ p.batch db) :
    r ∈ db.tables.reservations ∧ r.status = .confirmed :=
  mem_confirmedRows.mp ((limitRows_sublist _ _).mem h)

theorem batch_seats (p : Pass) (db : Database ℚ) : ((p.batch db).map Reservation.seat).Nodup := by
  have hperm := (confirmedRows_perm db.tables).map Reservation.seat
  exact (hperm.nodup_iff.mpr db.valid.confirmedSeats).sublist ((limitRows_sublist _ _).map _)

/-- Of two confirmed rows with plain ids, no two are for one seat of Redis. -/
theorem confirmed_eq {db : Database ℚ} (hplain : PlainIds db) {r r' : Reservation ℚ}
    (hr : r ∈ db.tables.reservations ∧ r.status = .confirmed) (hr' : r' ∈ db.tables.reservations ∧ r'.status = .confirmed)
    (hkey : rowKey r = rowKey r') : r = r' := by
  obtain ⟨_, he, hs⟩ := hplain r hr.1
  obtain ⟨he, hs⟩ := Storage.seatKey_plain he hs hkey
  have hmem {r : Reservation ℚ} (hr : r ∈ db.tables.reservations ∧ r.status = .confirmed) :
      r ∈ db.tables.reservations.filter (fun r => r.status = .confirmed) :=
    List.mem_filter.mpr ⟨hr.1, decide_eq_true hr.2⟩
  exact List.inj_on_of_nodup_map db.valid.confirmedSeats (hmem hr) (hmem hr') (Prod.ext he hs)

theorem batch_keys {db : Database ℚ} (hplain : PlainIds db) : ((p.batch db).map rowKey).Nodup := by
  refine (List.nodup_map_iff_inj_on (batch_seats p db).of_map).mpr fun r hr r' hr' hkey => ?_
  exact confirmed_eq hplain (mem_batch hr) (mem_batch hr') hkey

theorem batch_ids (p : Pass) (db : Database ℚ) : ((p.batch db).map Reservation.reservationId).Nodup := by
  refine (List.nodup_map_iff_inj_on (batch_seats p db).of_map).mpr fun r hr r' hr' he => ?_
  exact List.inj_on_of_nodup_map db.valid.reservationIds (mem_batch hr).1 (mem_batch hr').1 he

theorem lookup_mem (r : Reservation ℚ) (w : World) (env : ℕ → Env) :
    ⟨env 0, w, lookupSeat r, (appStep (env 0) w (lookupSeat r)).2⟩ ∈ (repairItem r).events appStep w env := by
  rw [repairItem, repairConfirmed_eq, Program.events_call]
  exact List.mem_cons_self

/-! ### What a pass reports of one confirmed row -/

/-- Redis has the seat sold to the row's user when the repair looks it up, and the row is not reported. -/
def FoundSold (p : Pass) (w : World) (report : ReconciliationReport) (r : Reservation ℚ) : Prop :=
  (∃ ev ∈ repairEvents (p.events w), ev.op = lookupSeat r ∧
    Reports ev.before.redis r.eventId r.seatId ev.env.now "CONFIRMED" (some r.userId)) ∧
  about r.reservationId report = ⟨[], [], []⟩

def Mended (p : Pass) (w : World) (report : ReconciliationReport) (r : Reservation ℚ) : Prop :=
  r.reservationId ∈ report.repairedReservationIds ∧
    ∀ now, Reports (p.run w).2.redis r.eventId r.seatId now "CONFIRMED" (some r.userId)

def Complained (report : ReconciliationReport) (r : Reservation ℚ) : Prop :=
  (about r.reservationId report).errors.length = 1

def OneOf (a b c : Prop) : Prop := a ∧ ¬ b ∧ ¬ c ∨ ¬ a ∧ b ∧ ¬ c ∨ ¬ a ∧ ¬ b ∧ c

theorem mem_about {id : String} {report : ReconciliationReport} :
    id ∈ report.repairedReservationIds ↔ id ∈ (about id report).repairedReservationIds := by
  simp [about]

variable {records : List (ReservationRecord ℚ)} {w₀ w₁ : World} {env₁ : ℕ → Env}
  {listing : Program.Event Env World AppOp} {released repaired : List ReconciliationReport}

theorem Phases.repairEvents (h : Phases p w records w₀ w₁ env₁ listing released repaired) :
    repairEvents (p.events w) = listing :: (collect repairItem (p.batch w.db)).events appStep w₁ env₁ := by
  rw [h.events]
  refine repairEvents_eq (fun ev hev => ?_) h.listed
  exact (calls_collect (P := fun op => ∃ key, seatPart op = some key)
    fun x _ => (calls_releaseItem x).mono fun op hop => ⟨_, hop⟩).events _ _ ev hev

/-- What the repair of a row comes to, within the pass. -/
theorem oneOf_repair (h : Phases p w records w₀ w₁ env₁ listing released repaired) (hplain : PlainIds w.db)
    (hrecords : ∀ x ∈ records, ':' ∉ x.reservation.reservationId.toList)
    (hother : ∀ x ∈ records, ∀ r ∈ p.batch w.db, x.reservation.reservationId ≠ r.reservationId) :
    ∀ r ∈ p.batch w.db, OneOf (p.FoundSold w ((total released).append (total repaired)) r)
      (p.Mended w ((total released).append (total repaired)) r)
      (Complained ((total released).append (total repaired)) r) := by
  intro r hr
  have hid := (hplain r (mem_batch hr).1).1
  obtain ⟨repaired', hrepaired, hitems⟩ :=
    local_seats.collect_run calls_repairItem repairItem_returns (p.batch w.db) w₁ env₁
  rw [h.repairs] at hrepaired hitems
  cases hrepaired
  obtain ⟨d, ⟨s₁, n, hrun, hevents, hview⟩, hd⟩ := about_total_own Reservation.reservationId hitems
    (fun r hr d hd => ⟨(hplain r (mem_batch hr).1).1, by
      obtain ⟨s₁, n, hrun, _⟩ := hd
      exact concerns_repair (repairItem_report hrun) (hplain r (mem_batch hr).1).1⟩) (batch_ids p w.db) r hr
  have hnone : about r.reservationId (total released) = ⟨[], [], []⟩ := by
    refine about_total_none (fun x : ReservationRecord ℚ => x.reservation.reservationId)
      (forall₂_imp (released_forall₂ (congrArg Prod.fst h.releases)) fun x hx d hd => ?_) hid fun x hx => hother x hx r hr
    exact concerns_released hd (hrecords x hx)
  have habout : about r.reservationId ((total released).append (total repaired)) = d := by
    rw [about_append, hnone, hd]
    rfl
  rw [OneOf, FoundSold, Mended, Complained, mem_about, habout]
  cases run_repairItem r s₁ fun i => env₁ (i + n) with
  | kept hstatus hrun' =>
      cases hrun'.symm.trans hrun
      have hmem := List.mem_cons_of_mem listing (hevents (lookup_mem r s₁ fun i => env₁ (i + n)))
      rw [← h.repairEvents] at hmem
      exact .inl ⟨⟨⟨_, hmem, rfl, hstatus⟩, rfl⟩, by simp, by simp⟩
  | repaired hseat hrun' =>
      cases hrun'.symm.trans hrun
      refine .inr (.inl ⟨by simp, ⟨by simp, fun now => ⟨-1, reported_owned ?_ now⟩⟩, by simp⟩)
      exact (hview (batch_keys hplain)).2.trans hseat
  | failed message hrun' =>
      cases hrun'.symm.trans hrun
      exact .inr (.inr ⟨by simp, by simp, by simp⟩)

/-! ### Failures on other seats -/

theorem Phases.onPart_eq (h : Phases p w records w₀ w₁ env₁ listing released repaired) (key : String) :
    onPart seatPart key (p.events w) = onPart seatPart key ((collect releaseItem records).events appStep w₀ p.env) ++
      onPart seatPart key ((collect repairItem (p.batch w.db)).events appStep w₁ env₁) := by
  have hlisting : seatPart listing.op ≠ some key := by
    obtain ⟨_, _, op, _⟩ := listing
    have hop := h.listed
    cases op with
    | redis tokens => simp [isListing] at hop
    | db call => simp [seatPart]
    | _ => simp [seatPart]
  rw [h.events, onPart_append, ← List.singleton_append, onPart_append]
  refine congrArg _ (congrArg (· ++ _) (onPart_eq_nil fun ev hev => ?_))
  rw [List.mem_singleton.mp hev]
  exact hlisting

variable {env' : ℕ → Env} {w₁' : World} {env₁' : ℕ → Env} {listing' : Program.Event Env World AppOp}
  {released' repaired' : List ReconciliationReport} {key : String}

/-- What a pass does on a seat, and reports of a reservation there, depends on what its calls on the seat meet. -/
theorem Phases.apart (h : Phases p w records w₀ w₁ env₁ listing released repaired)
    (h' : Phases { p with env := env' } w records w₀ w₁' env₁' listing' released' repaired')
    (hplain : PlainIds w.db) (hrecords : ∀ x ∈ records, ∃ r ∈ w.db.tables.reservations, SameRow r x.reservation)
    (halike : Alike SameChance (onPart seatPart key (p.events w)) (onPart seatPart key (({ p with env := env' } : Pass).events w))) :
    (onPart seatPart key (p.events w)).map Program.Event.op =
        (onPart seatPart key (({ p with env := env' } : Pass).events w)).map Program.Event.op ∧
      entryAt key (p.run w).2 = entryAt key (({ p with env := env' } : Pass).run w).2 ∧
      ∀ r ∈ w.db.tables.reservations, rowKey r = key →
        about r.reservationId ((total released).append (total repaired)) =
          about r.reservationId ((total released').append (total repaired')) := by
  rw [h.onPart_eq, h'.onPart_eq] at halike ⊢
  obtain ⟨ds, ds', hds, hds', hitems, hview, hops⟩ := local_seats.collect_eq calls_releaseItem releaseItem_returns records
    (rfl : entryAt key w₀ = entryAt key w₀) halike.left
  rw [h.releases] at hds hview
  rw [h'.releases] at hds' hview
  cases hds
  cases hds'
  have hlen := congrArg List.length hops
  rw [List.length_map, List.length_map] at hlen
  obtain ⟨rs, rs', hrs, hrs', hitems', hview', hops'⟩ := local_seats.collect_eq calls_repairItem repairItem_returns
    (p.batch w.db) hview (halike.right hlen)
  have hrepairs : (collect repairItem (p.batch w.db)).run appStep w₁' env₁' =
      (.ok repaired', (({ p with env := env' } : Pass).run w).2) := h'.repairs
  rw [h.repairs] at hrs hview'
  rw [hrepairs] at hrs' hview'
  cases hrs
  cases hrs'
  refine ⟨by rw [List.map_append, List.map_append, hops]; exact congrArg _ hops', hview', fun r hr hkey => ?_⟩
  have hid := (hplain r hr).1
  have hown {r' : Reservation ℚ} (hr' : r' ∈ w.db.tables.reservations) (he : r'.reservationId = r.reservationId) :
      r' = r := List.inj_on_of_nodup_map w.db.valid.reservationIds hr' hr he
  have hreleased {ds : List ReconciliationReport} (hds : List.Forall₂ Released records ds) :
      List.Forall₂ (fun x d => Concerns x.reservation.reservationId d) records ds :=
    forall₂_imp hds fun x hx d hd => by
      obtain ⟨r', hr', hsame⟩ := hrecords x hx
      exact concerns_released hd (hsame.reservationId ▸ (hplain r' hr').1)
  have hrepaired {rs : List ReconciliationReport} (hrs : List.Forall₂ RepairReport (p.batch w.db) rs) :
      List.Forall₂ (fun r d => Concerns r.reservationId d) (p.batch w.db) rs :=
    forall₂_imp hrs fun r' hr' d hd => concerns_repair hd (hplain r' (mem_batch hr').1).1
  rw [about_append, about_append]
  refine congrArg₂ _ ?_ ?_
  · refine about_total_eq (hreleased (released_forall₂ (congrArg Prod.fst h.releases)))
      (hreleased (released_forall₂ (congrArg Prod.fst h'.releases))) hitems hid fun x hx he => ?_
    obtain ⟨r', hr', hsame⟩ := hrecords x hx
    rw [rowKey, hsame.eventId, hsame.seatId, hown hr' (hsame.reservationId.symm.trans he)]
    exact hkey
  · refine about_total_eq (hrepaired (repairs_forall₂ (congrArg Prod.fst h.repairs)))
      (hrepaired (repairs_forall₂ (congrArg Prod.fst h'.repairs))) hitems' hid fun r' hr' he => ?_
    rwa [hown (mem_batch hr').1 he]

/-! ### Passes under failures -/

/-- The rows that the pass lists as stale. -/
def listed (p : Pass) (db : Database ℚ) : List (Reservation ℚ) := limitRows p.limit (staleRows db.tables (p.clock 0))

/-- The pass lists no row, or every row that is stale by its last lookup. -/
def AllListed (p : Pass) (db : Database ℚ) : Prop :=
  p.listed db = [] ∨ ∀ r ∈ db.tables.reservations, Stale r (p.clock (3 * (p.listed db).length - 1)) → r ∈ p.listed db

instance (p : Pass) (db : Database ℚ) : Decidable (p.AllListed db) := inferInstanceAs (Decidable (_ ∨ _))

/-- A pass reports every reservation that it expires and what becomes of each confirmed one of its batch,
and nothing that happens to it on other seats changes what it does and reports on a seat. -/
structure Robust (p : Pass) (w : World) (report : ReconciliationReport) : Prop where
  returned : (p.run w).1 = .ok report
  expired : ∀ r ∈ expiredRows w.db (p.run w).2.db, r.reservationId ∈ report.expiredReservationIds
  confirmed : ∀ r ∈ p.batch w.db, OneOf (p.FoundSold w report r) (p.Mended w report r) (Complained report r)
  apart : ∀ (p' : Pass) (report' : ReconciliationReport) (key : String), p'.limit = p.limit → p'.clock = p.clock →
    p'.DbAnswers w → (p'.run w).1 = .ok report' →
      Alike SameChance (onPart seatPart key (p.events w)) (onPart seatPart key (p'.events w)) →
        (onPart seatPart key (p.events w)).map Program.Event.op = (onPart seatPart key (p'.events w)).map Program.Event.op ∧
          entryAt key (p.run w).2 = entryAt key (p'.run w).2 ∧
          ∀ r ∈ w.db.tables.reservations, rowKey r = key → about r.reservationId report = about r.reservationId report'

theorem mem_listed {db : Database ℚ} {r : Reservation ℚ} (h : r ∈ p.listed db) :
    r ∈ db.tables.reservations ∧ Stale r (p.clock 0) :=
  mem_staleRows.mp ((limitRows_sublist _ _).mem h)

theorem mem_expiredRows (hclock : Monotone p.clock) (hlimit : IsInt64 p.limit) {r : Reservation ℚ} :
    r ∈ expiredRows w.db (p.run w).2.db ↔
      r ∈ w.db.tables.reservations ∧ ∃ now ∈ p.lookups (p.listed w.db), Stale r now := by
  obtain ⟨hdb, _⟩ := run_listed (w := w) hclock (if_pos hlimit)
  rw [hdb, expiredRows_sweep, List.mem_filter, decide_eq_true_eq]
  rfl

theorem AllListed.listed {db : Database ℚ} (h : p.AllListed db) (hclock : Monotone p.clock) {r : Reservation ℚ}
    (hr : r ∈ db.tables.reservations) (hs : ∃ now ∈ p.lookups (p.listed db), Stale r now) : r ∈ p.listed db := by
  have hne : p.listed db ≠ [] := by
    rintro hnil
    rw [hnil] at hs
    simp [lookups, lookupTimes] at hs
  exact h.resolve_left hne r hr ((stale_lookups hclock hne r).mp hs)

theorem Robust.allListed {report : ReconciliationReport} (h : Robust p w report) (hclock : Monotone p.clock) :
    IsInt64 p.limit ∧ p.AllListed w.db := by
  obtain ⟨hlimit, hrows⟩ := withLimit_run h.returned
  refine ⟨hlimit, or_iff_not_imp_left.mpr fun hne r hr hs => ?_⟩
  have hid := h.expired r ((mem_expiredRows hclock hlimit).mpr ⟨hr, (stale_lookups hclock hne r).mpr hs⟩)
  rw [(run_listed hclock hrows).2 report h.returned, List.mem_map] at hid
  obtain ⟨r', hr', he⟩ := hid
  rwa [← List.inj_on_of_nodup_map w.db.valid.reservationIds (mem_listed hr').1 hr he]

/-- No row is both listed as stale and in the batch of the confirmed ones. -/
theorem listed_apart {db : Database ℚ} {r r' : Reservation ℚ} (hr : r ∈ p.listed db) (hr' : r' ∈ p.batch db) :
    r.reservationId ≠ r'.reservationId := by
  intro he
  obtain ⟨hmem, hheld, _⟩ := mem_listed hr
  obtain ⟨hmem', hconfirmed⟩ := mem_batch hr'
  rw [List.inj_on_of_nodup_map db.valid.reservationIds hmem hmem' he, hconfirmed] at hheld
  cases hheld

theorem AllListed.robust (h : p.AllListed w.db) (hlimit : IsInt64 p.limit) (hclock : Monotone p.clock) (hplain : PlainIds w.db)
    (hdb : p.DbAnswers w) : ∃ report, Robust p w report := by
  have hrows : withLimit p.limit (staleRows w.db.tables (p.clock 0)) = .ok (p.listed w.db) := if_pos hlimit
  obtain ⟨records, hexpiry, hsame⟩ := expiry_listed hclock hrows
  have hrecords : ∀ x ∈ records, ∃ r ∈ p.listed w.db, SameRow r x.reservation := exists_of_forall₂ hsame.flip
  obtain ⟨w₁, m, listing, released, repaired, hphases⟩ := phases hexpiry hlimit hdb
  refine ⟨_, hphases.report, fun r hr => ?_, oneOf_repair hphases hplain (fun x hx => ?_) fun x hx r hr => ?_, ?_⟩
  · obtain ⟨hmem, hs⟩ := (mem_expiredRows hclock hlimit).mp hr
    rw [(run_listed hclock hrows).2 _ hphases.report]
    exact List.mem_map_of_mem (h.listed hclock hmem hs)
  · obtain ⟨r, hr, hsame⟩ := hrecords x hx
    exact hsame.reservationId ▸ (hplain r (mem_listed hr).1).1
  · obtain ⟨r', hr', hsame⟩ := hrecords x hx
    rw [hsame.reservationId]
    exact listed_apart hr' hr
  · rintro ⟨_, _, env'⟩ report' key rfl rfl hdb' hrun' halike
    obtain ⟨w₁', m', listing', released', repaired', hphases'⟩ :=
      phases (p := { p with env := env' }) (w := w) hexpiry hlimit hdb'
    cases hphases'.report.symm.trans hrun'
    refine hphases.apart hphases' hplain (fun x hx => ?_) halike
    obtain ⟨r, hr, hsame⟩ := hrecords x hx
    exact ⟨r, (mem_listed hr).1, hsame⟩

/-- With all the DB calls answered, a pass copes with any failures of its Redis calls exactly where its limit
fits SQLite and it lists all that it expires. -/
theorem robust_iff (p : Pass) (w : World) (hclock : Monotone p.clock) (hplain : PlainIds w.db) (hdb : p.DbAnswers w) :
    (∃ report, Robust p w report) ↔ IsInt64 p.limit ∧ p.AllListed w.db := by
  constructor
  · rintro ⟨report, h⟩
    exact h.allListed hclock
  · rintro ⟨hlimit, hall⟩
    exact hall.robust hlimit hclock hplain hdb

theorem dbAnswers_of_faultless (h : ∀ n, (p.env n).fault = .none) : p.DbAnswers w := by
  intro ev hev _ _
  obtain ⟨n, hn⟩ := Program.events_env hev
  rw [hn]
  exact h n

end Pass

theorem plainIds_twoStale : PlainIds twoStale := by
  unfold PlainIds
  decide +kernel

instance (fault : Fault) : Decidable (fault = .none) :=
  match fault with
  | .none => .isTrue rfl
  | .fail _ _ => .isFalse (by simp)

/-- A pass of which the first `RELEASE_SEAT` is carried out, but not answered. -/
def lostRelease : Pass :=
  ⟨2, fun _ => 20, fun n => ⟨20, "", if n = 1 then .fail true ⟨.upstreamError, "timeout"⟩ else .none⟩⟩

theorem lostRelease_dbAnswers : lostRelease.DbAnswers ⟨twoStale, twoHeld⟩ := by
  have hfault : ∀ ev ∈ lostRelease.events ⟨twoStale, twoHeld⟩,
      ev.env.fault = .none ∨ ev.op.tokens = ["RELEASE_SEAT", "e", "b", "u"] := by decide +kernel
  intro ev hev call hop
  refine (hfault ev hev).resolve_right fun htokens => ?_
  rw [hop] at htokens
  cases htokens

theorem lostRelease_robust : ∃ report, Pass.Robust lostRelease ⟨twoStale, twoHeld⟩ report :=
  (Pass.robust_iff _ _ monotone_const plainIds_twoStale lostRelease_dbAnswers).mpr (by decide +kernel)

theorem passAt_frail : ¬ ∀ (p : Pass) (w : World), Monotone p.clock → PlainIds w.db → p.DbAnswers w →
    ∃ report, Pass.Robust p w report := by
  intro h
  obtain ⟨report, hreport⟩ := h (passAt 1 20) ⟨twoStale, twoHeld⟩ monotone_const plainIds_twoStale
    (Pass.dbAnswers_of_faultless fun _ => rfl)
  have hrun : ((passAt 1 20).run ⟨twoStale, twoHeld⟩).1 = .ok ⟨["q"], [], []⟩ := by decide +kernel
  cases hreport.returned.symm.trans hrun
  have hexpired := hreport.expired
  revert hexpired
  decide +kernel

end Ticketing.AppServer
