import Ticketing.AppServer.PassEffects
import Mathlib.Order.Filter.AtTopBot.Basic
import Mathlib.Order.Filter.Finite
import Mathlib.Order.OrderIsoNat

namespace Ticketing.AppServer

open Python JsonText Interaction TicketingApi Repository Commands Orchestrator Reconciler
open Storage (Store seatKey Records)
open Reconciler.ReconciliationReport (total)
open Filter (atTop eventually_atTop)

/-! ### The stale holds run out -/

section Holds

variable {db : Database ℚ} {times : List ℚ}

theorem countP_lt {α : Type} {p q : α → Bool} {l : List α} (h : ∀ a ∈ l, p a = true → q a = true) {a : α} (ha : a ∈ l)
    (hp : p a = false) (hq : q a = true) : l.countP p < l.countP q := by
  obtain ⟨l₁, l₂, rfl⟩ := List.append_of_mem ha
  have hleft := List.countP_mono_left fun b hb => h b (List.mem_append_left _ hb)
  have hright := List.countP_mono_left fun b hb => h b (List.mem_append_right _ (List.mem_cons_of_mem a hb))
  rw [List.countP_append, List.countP_append, List.countP_cons, List.countP_cons, hp, hq]
  simp only [Bool.false_eq_true, if_false, if_true]
  omega

def heldRows (db : Database ℚ) : ℕ := db.tables.reservations.countP (fun r => r.status = .held)

theorem held_of_sweptRow {r : Reservation ℚ} (h : (sweptRow times r).status = .held) :
    r.status = .held ∧ ¬ ∃ now ∈ times, Stale r now := by
  rw [sweptRow_status] at h
  split at h
  · cases h
  next hno => exact ⟨h, hno⟩

theorem heldRows_sweep (db : Database ℚ) (times : List ℚ) : heldRows (db.sweep times) ≤ heldRows db := by
  rw [heldRows, sweep_reservations, List.countP_map]
  refine List.countP_mono_left fun r _ h => ?_
  exact decide_eq_true (held_of_sweptRow (of_decide_eq_true h)).1

theorem heldRows_sweep_lt {r : Reservation ℚ} (hr : r ∈ db.tables.reservations) (h : ∃ now ∈ times, Stale r now) :
    heldRows (db.sweep times) < heldRows db := by
  obtain ⟨now, hnow, hs⟩ := id h
  rw [heldRows, sweep_reservations, List.countP_map]
  refine countP_lt (fun r _ h => ?_) hr ?_ (decide_eq_true hs.1)
  · exact decide_eq_true (held_of_sweptRow (of_decide_eq_true h)).1
  · exact decide_eq_false fun hheld => (held_of_sweptRow hheld).2 h

end Holds

namespace Pass

variable {p : Pass} {w : World} {limit : Int}

theorem Faultless.sweeps (h : p.Faultless) (w : World) : ∃ times, (p.run w).2.db = w.db.sweep times ∧
    (IsInt64 p.limit → times = p.lookups (p.listed w.db)) := by
  by_cases hlimit : IsInt64 p.limit
  · exact ⟨_, (run_listed h.clock (if_pos hlimit)).1, fun _ => rfl⟩
  · obtain ⟨x, hrun⟩ := run_overflow w hlimit
    exact ⟨[], by rw [hrun]; rfl, fun hl => absurd hl hlimit⟩

/-- A pass that lists a stale row leaves fewer rows held. -/
theorem Faultless.expires (h : p.Faultless) (hlimit : IsInt64 p.limit) (hne : p.listed w.db ≠ []) :
    heldRows (p.run w).2.db < heldRows w.db := by
  obtain ⟨times, hdb, htimes⟩ := h.sweeps w
  obtain ⟨r, hr⟩ := List.exists_mem_of_ne_nil _ hne
  obtain ⟨hmem, hs⟩ := mem_listed hr
  rw [hdb, htimes hlimit]
  refine heldRows_sweep_lt hmem ((stale_lookups h.clock hne r).mpr ?_)
  exact hs.later (h.clock (Nat.zero_le _))

/-! ### A pass with nothing to do -/

/-- Every confirmed reservation's seat is sold in Redis to its user, and a pass repairs nothing and changes nothing. -/
structure Settled (p : Pass) (w : World) : Prop where
  confirmed : ∀ r ∈ w.db.tables.reservations, r.status = .confirmed →
    Reports w.redis r.eventId r.seatId (p.clock 0) "CONFIRMED" (some r.userId)
  idle : ∀ report, (p.run w).1 = .ok report → report.repairedReservationIds = []
  unchanged : (p.run w).2 = w

theorem repairs_sold (rows : List (Reservation ℚ)) (env : ℕ → Env) (hfault : ∀ n, (env n).fault = .none)
    (h : ∀ r ∈ rows, ∀ n, Reports w.redis r.eventId r.seatId (env n).now "CONFIRMED" (some r.userId)) :
    ∃ reports, (collect repairItem rows).run appStep w env = (.ok reports, w) ∧ total reports = ⟨[], [], []⟩ := by
  induction rows generalizing env with
  | nil => exact ⟨[], rfl, rfl⟩
  | cons r rows ih =>
      have hitem := repairItem_sold (hfault 0) (h r List.mem_cons_self 0)
      obtain ⟨reports, hrest, htotal⟩ := ih (Program.rest appStep (repairItem r) w env) (fun n => hfault _)
        fun r' hr' n => h r' (List.mem_cons_of_mem r hr') _
      refine ⟨⟨[], [], []⟩ :: reports, ?_, htotal⟩
      rw [run_collect_cons repairItem r rows w env (congrArg Prod.fst hitem) (by rw [hitem]; exact congrArg Prod.fst hrest),
        hitem, hrest]

theorem Faultless.settled (h : p.Faultless) (hquiet : IsInt64 p.limit → p.listed w.db = [])
    (hstart : ∀ r ∈ w.db.tables.reservations, r.status = .confirmed →
      Reports w.redis r.eventId r.seatId (p.clock 0) "CONFIRMED" (some r.userId))
    (hsold : ∀ r ∈ w.db.tables.reservations, r.status = .confirmed → ∀ n,
      Reports w.redis r.eventId r.seatId (p.env n).now "CONFIRMED" (some r.userId)) : Settled p w := by
  have hrun : (∃ x, p.run w = (.error x, w)) ∨ p.run w = (.ok ⟨[], [], []⟩, w) := by
    by_cases hlimit : IsInt64 p.limit
    · obtain ⟨records, w₁, m, listing, released, repaired, hrecords, hphases⟩ := h.phases hlimit w
      rw [hquiet hlimit] at hrecords hphases
      cases hrecords
      have hreleases := hphases.releases
      cases hreleases
      obtain ⟨reports, hrepairs, htotal⟩ := repairs_sold (w := w) (p.batch w.db) (fun n => p.env (n + m))
        (fun n => h.answered _) fun r hr n => hsold r (mem_batch hr).1 (mem_batch hr).2 _
      obtain ⟨hreports, hend⟩ := Prod.ext_iff.mp (hphases.repairs.symm.trans hrepairs)
      cases hreports
      refine .inr (Prod.ext ?_ hend)
      rw [hphases.report, htotal]
      rfl
    · exact .inl (run_overflow w hlimit)
  refine ⟨hstart, fun report hreport => ?_, ?_⟩
  · rcases hrun with ⟨x, hrun⟩ | hrun <;> rw [hrun] at hreport <;> cases hreport
    rfl
  · rcases hrun with ⟨x, hrun⟩ | hrun <;> rw [hrun]

/-! ### Passes one after another -/

/-- The world after so many of the passes. -/
def world (p : ℕ → Pass) (w : World) : ℕ → World
  | 0 => w
  | k + 1 => ((p k).run (world p w k)).2

/-- Passes with one limit in which no call fails, each of which begins when the one before it is over. -/
structure Series (limit : Int) (p : ℕ → Pass) : Prop where
  limit : ∀ k, (p k).limit = limit
  faultless : ∀ k, (p k).Faultless
  begins : ∀ k n, (p k).clock 0 ≤ ((p k).env n).now
  ends : ∀ k n, ((p k).env n).now ≤ (p (k + 1)).clock 0

/-- The passes list the row among the confirmed ones. -/
def Lists (limit : Int) (db : Database ℚ) (r : Reservation ℚ) : Prop :=
  ∃ rows, withLimit limit (confirmedRows db.tables) = .ok rows ∧ r ∈ rows

/-- From some pass on, every pass is settled. -/
def Converges (p : ℕ → Pass) (w : World) : Prop := ∀ᶠ k in atTop, Settled (p k) (world p w k)

/-- The passes list the row, and Redis, as it was at first, would answer a lookup of its seat at the start of one of them. -/
def Mendable (limit : Int) (p : ℕ → Pass) (w : World) (r : Reservation ℚ) : Prop :=
  Lists limit w.db r ∧ ∃ k status, reported w.redis r.eventId r.seatId ((p k).clock 0) = .ok status

/-- Redis, as it was at first, has the row's seat sold to the row's user at the start of every pass from some pass on. -/
def SoldForGood (p : ℕ → Pass) (w : World) (r : Reservation ℚ) : Prop :=
  ∀ᶠ k in atTop, Reports w.redis r.eventId r.seatId ((p k).clock 0) "CONFIRMED" (some r.userId)

theorem lists_iff {p : Pass} {db : Database ℚ} {r : Reservation ℚ} : Lists p.limit db r ↔ IsInt64 p.limit ∧ r ∈ p.batch db := by
  constructor
  · rintro ⟨rows, hrows, hr⟩
    rw [withLimit] at hrows
    split at hrows
    next hlimit =>
      cases hrows
      exact ⟨hlimit, hr⟩
    next => cases hrows
  · rintro ⟨hlimit, hr⟩
    exact ⟨_, if_pos hlimit, hr⟩

section Series

variable {p : ℕ → Pass} {r : Reservation ℚ} (h : Series limit p)

include h

theorem Series.starts : Monotone fun k => (p k).clock 0 :=
  monotone_nat_of_le_succ fun k => (h.begins k 0).trans (h.ends k 0)

theorem Series.sweeps (w : World) (k : ℕ) : ∃ times, (world p w k).db = w.db.sweep times := by
  induction k with
  | zero => exact ⟨[], rfl⟩
  | succ k ih =>
      obtain ⟨times, hdb⟩ := ih
      obtain ⟨times', hrun, _⟩ := (h.faultless k).sweeps (world p w k)
      refine ⟨times ++ times', ?_⟩
      rw [world, hrun, hdb, Database.sweep, Database.sweep, Database.sweep, List.foldl_append]

theorem Series.confirmedRows (w : World) (k : ℕ) :
    confirmedRows (world p w k).db.tables = Repository.confirmedRows w.db.tables := by
  obtain ⟨times, hdb⟩ := h.sweeps w k
  rw [hdb, confirmedRows_sweep]

theorem Series.confirmed (w : World) (k : ℕ) : r ∈ (world p w k).db.tables.reservations ∧ r.status = .confirmed ↔
    r ∈ w.db.tables.reservations ∧ r.status = .confirmed := by
  rw [← mem_confirmedRows, h.confirmedRows, mem_confirmedRows]

theorem Series.plainIds (hplain : PlainIds w.db) (k : ℕ) : PlainIds (world p w k).db := by
  obtain ⟨times, hdb⟩ := h.sweeps w k
  intro r hr
  rw [hdb, sweep_reservations] at hr
  obtain ⟨r', hr', rfl⟩ := List.mem_map.mp hr
  have hsame := sweptRow_sameRow times r'
  rw [hsame.reservationId, hsame.eventId, hsame.seatId]
  exact hplain r' hr'

theorem Series.lists (w : World) (k : ℕ) : Lists limit w.db r ↔ IsInt64 (p k).limit ∧ r ∈ (p k).batch (world p w k).db := by
  rw [← lists_iff, h.limit, Lists, Lists, h.confirmedRows]

/-- In the end no pass lists a stale row. -/
theorem Series.quiet (w : World) : ∀ᶠ k in atTop, IsInt64 (p k).limit → (p k).listed (world p w k).db = [] := by
  have hmono : Antitone fun k => heldRows (world p w k).db := by
    refine antitone_nat_of_succ_le fun k => ?_
    obtain ⟨times, hrun, _⟩ := (h.faultless k).sweeps (world p w k)
    rw [world, hrun]
    exact heldRows_sweep _ times
  obtain ⟨N, hN⟩ := WellFoundedGT.monotone_chain_condition (α := ℕᵒᵈ) ⟨_, hmono.dual_right⟩
  refine eventually_atTop.mpr ⟨N, fun k hk hlimit => ?_⟩
  by_contra hne
  have hfewer := (h.faultless k).expires hlimit hne
  have hk' : heldRows (world p w N).db = heldRows (world p w k).db := hN k hk
  have hsucc : heldRows (world p w N).db = heldRows (world p w (k + 1)).db := hN (k + 1) (hk.trans (Nat.le_succ k))
  exact absurd (hsucc.symm.trans hk') (ne_of_lt hfewer)

/-- A pass records the sale of a listed row's seat, or leaves the seat as it is and finds it sold or unanswered. -/
theorem Series.repaired (hplain : PlainIds w.db) (hl : Lists limit w.db r) (k : ℕ) :
    Records (world p w (k + 1)).redis (rowKey r) (.owned r.userId) ∨
      (world p w (k + 1)).redis.lookup (rowKey r) = (world p w k).redis.lookup (rowKey r) ∧ ∃ n,
        (∀ status, answerAt (world p w k).redis (rowKey r) ((p k).env n).now ≠ .ok status) ∨
          Reports (world p w k).redis r.eventId r.seatId ((p k).env n).now "CONFIRMED" (some r.userId) := by
  obtain ⟨hlimit, hr⟩ := (h.lists w k).mp hl
  exact (h.faultless k).repaired (h.plainIds hplain k) hlimit hr

/-- A pass leaves the seat of a row that it does not list as it is, or frees it. -/
theorem Series.beyond (hplain : PlainIds w.db) (hr : r ∈ w.db.tables.reservations ∧ r.status = .confirmed)
    (hl : ¬ Lists limit w.db r) (k : ℕ) :
    ((world p w (k + 1)).redis.lookup (rowKey r) = (world p w k).redis.lookup (rowKey r) ∨
        (world p w (k + 1)).redis.lookup (rowKey r) = none) ∧
      ((∀ n, Steadfast (world p w k).redis (rowKey r) ((p k).env n).now) →
        (world p w (k + 1)).redis.lookup (rowKey r) = (world p w k).redis.lookup (rowKey r)) := by
  refine (h.faultless k).beyond fun hlimit r' hr' hkey => hl ((h.lists w k).mpr ⟨hlimit, ?_⟩)
  rwa [← confirmed_eq (h.plainIds hplain k) (mem_batch hr') ((h.confirmed w k).mpr hr) hkey]

/-! ### The seats of the confirmed rows -/

/-- At every time of the pass, Redis has the row's seat sold to the row's user. -/
def SoldThroughout (p : ℕ → Pass) (w : World) (r : Reservation ℚ) (k : ℕ) : Prop := ∀ t, (p k).clock 0 ≤ t →
  t ≤ (p (k + 1)).clock 0 → Reports (world p w k).redis r.eventId r.seatId t "CONFIRMED" (some r.userId)

theorem Series.mended (hplain : PlainIds w.db) (hm : Mendable limit p w r) : ∀ᶠ k in atTop, SoldThroughout p w r k := by
  obtain ⟨hl, k₀, status, hanswered⟩ := hm
  rw [reported_answerAt] at hanswered
  by_cases howned : ∃ k, Records (world p w k).redis (rowKey r) (.owned r.userId)
  · obtain ⟨N, hN⟩ := howned
    have howned (k : ℕ) (hk : N ≤ k) : Records (world p w k).redis (rowKey r) (.owned r.userId) := by
      induction k, hk using Nat.le_induction with
      | base => exact hN
      | succ k _ ih =>
          rcases h.repaired hplain hl k with howned | ⟨hsame, _⟩
          · exact howned
          · exact hsame.trans ih
    exact eventually_atTop.mpr ⟨N, fun k hk t _ _ => ⟨-1, reported_owned (howned k hk) t⟩⟩
  · have hfound (k : ℕ) := (h.repaired hplain hl k).resolve_left fun howned' => howned ⟨k + 1, howned'⟩
    have hsame (k : ℕ) : (world p w k).redis.lookup (rowKey r) = w.redis.lookup (rowKey r) := by
      induction k with
      | zero => rfl
      | succ k ih => exact (hfound k).1.trans ih
    refine eventually_atTop.mpr ⟨k₀, fun k hk t hstart hend => ?_⟩
    -- the next pass answers for this one
    obtain ⟨_, n, hnext⟩ := hfound (k + 1)
    have hlast : t ≤ ((p (k + 1)).env n).now := hend.trans (h.begins (k + 1) n)
    have hfirst : (p k₀).clock 0 ≤ t := (h.starts hk).trans hstart
    obtain ⟨status', hthen, _⟩ := answered_later hanswered (hfirst.trans hlast)
    have hsold := hnext.resolve_left fun hno => hno status' ((answerAt_lookup (hsame (k + 1)) _).trans hthen)
    refine (reports_live (lookup_live (hsame k) t)).mpr ?_
    exact sold_between hanswered hfirst ((reports_live (lookup_live (hsame (k + 1)) _)).mp hsold) hlast

theorem Series.soldForGood (hplain : PlainIds w.db) (hr : r ∈ w.db.tables.reservations ∧ r.status = .confirmed)
    (hlast : SoldForGood p w r) : ∀ᶠ k in atTop, SoldThroughout p w r k := by
  obtain ⟨N, hN⟩ := eventually_atTop.mp hlast
  by_cases hl : Lists limit w.db r
  · obtain ⟨ttl, hstatus⟩ := hN N le_rfl
    exact h.mended hplain ⟨hl, N, _, hstatus⟩
  · have hsame (k : ℕ) : (world p w k).redis.lookup (rowKey r) = w.redis.lookup (rowKey r) := by
      induction k with
      | zero => rfl
      | succ k ih =>
          refine ((h.beyond hplain hr hl k).2 fun n => ?_).trans ih
          have hsteadfast := steadfast_of_sold (hN (max (k + 1) N) (le_max_right _ _))
            ((h.ends k n).trans (h.starts (le_max_left _ _)))
          exact hsteadfast.lookup ih
    refine eventually_atTop.mpr ⟨N, fun k hk t hstart hend => ?_⟩
    obtain ⟨ttl, hanswered⟩ := hN k hk
    rw [reported_answerAt] at hanswered
    refine (reports_live (lookup_live (hsame k) t)).mpr ?_
    exact sold_between hanswered hstart (hN (k + 1) (hk.trans (Nat.le_succ k))) hend

/-- A seat that no lookup would find answered stays as it is, when its row is listed. -/
theorem Series.unanswered (hplain : PlainIds w.db) (hl : Lists limit w.db r)
    (hno : ∀ k status, answerAt w.redis (rowKey r) ((p k).clock 0) ≠ .ok status) (k : ℕ) :
    (world p w k).redis.lookup (rowKey r) = w.redis.lookup (rowKey r) := by
  induction k with
  | zero => rfl
  | succ k ih =>
      obtain ⟨hlimit, hr⟩ := (h.lists w k).mp hl
      refine ((h.faultless k).unanswered (h.plainIds hplain k) hlimit hr fun n status hs => ?_).trans ih
      rw [answerAt_lookup ih] at hs
      obtain ⟨status', hs', _⟩ := answered_later hs (h.ends k n)
      exact hno (k + 1) status' hs'

/-- The seat of a row that is not listed is never sold again. -/
theorem Series.unlisted (hplain : PlainIds w.db) (hr : r ∈ w.db.tables.reservations ∧ r.status = .confirmed)
    (hl : ¬ Lists limit w.db r) (k : ℕ) : (world p w k).redis.lookup (rowKey r) = w.redis.lookup (rowKey r) ∨
      (world p w k).redis.lookup (rowKey r) = none := by
  induction k with
  | zero => exact .inl rfl
  | succ k ih =>
      rcases (h.beyond hplain hr hl k).1 with hsame | hnone
      · rwa [hsame]
      · exact .inr hnone

end Series

/-- Passes without end lead to a settled state if and only if every confirmed row is one that they list and whose
seat can be looked up, or has its seat sold to its user in Redis already, and for good. -/
theorem converges_iff (w : World) (limit : Int) (p : ℕ → Pass) (h : Series limit p) (hplain : PlainIds w.db) :
    Converges p w ↔ ∀ r ∈ w.db.tables.reservations, r.status = .confirmed → Mendable limit p w r ∨ SoldForGood p w r := by
  constructor
  · intro hconverges r hr hconfirmed
    obtain ⟨N, hN⟩ := eventually_atTop.mp hconverges
    have hsold (k : ℕ) (hk : N ≤ k) : Reports (world p w k).redis r.eventId r.seatId ((p k).clock 0) "CONFIRMED" (some r.userId) :=
      (hN k hk).confirmed r ((h.confirmed w k).mpr ⟨hr, hconfirmed⟩).1 hconfirmed
    by_cases hl : Lists limit w.db r
    · refine .inl ⟨hl, ?_⟩
      by_contra hno
      have hsame := h.unanswered hplain hl (fun k status hs => hno ⟨k, status, (reported_answerAt _ _ _ _).trans hs⟩) N
      obtain ⟨ttl, hstatus⟩ := (reports_live (lookup_live hsame _)).mp (hsold N le_rfl)
      exact hno ⟨N, _, hstatus⟩
    · refine .inr (eventually_atTop.mpr ⟨N, fun k hk => ?_⟩)
      rcases h.unlisted hplain ⟨hr, hconfirmed⟩ hl k with hsame | hnone
      · exact (reports_live (lookup_live hsame _)).mp (hsold k hk)
      · refine absurd ?_ (live_of_reports (hsold k hk) (by decide))
        rw [Storage.live, show (world p w k).redis.lookup (seatKey r.eventId r.seatId) = none from hnone]
        rfl
  · intro hrows
    have hsold : ∀ᶠ k in atTop, ∀ r ∈ {r | r ∈ Repository.confirmedRows w.db.tables}, SoldThroughout p w r k := by
      refine (Filter.eventually_all_finite (List.finite_toSet _)).mpr fun r hr => ?_
      obtain ⟨hmem, hconfirmed⟩ := mem_confirmedRows.mp hr
      rcases hrows r hmem hconfirmed with hm | hlast
      · exact h.mended hplain hm
      · exact h.soldForGood hplain ⟨hmem, hconfirmed⟩ hlast
    filter_upwards [hsold, h.quiet w] with k hsold hquiet
    have hthroughout {r : Reservation ℚ} (hr : r ∈ (world p w k).db.tables.reservations) (hconfirmed : r.status = .confirmed) :=
      hsold r (mem_confirmedRows.mpr ((h.confirmed w k).mp ⟨hr, hconfirmed⟩))
    refine (h.faultless k).settled hquiet (fun r hr hconfirmed => ?_) fun r hr hconfirmed n => ?_
    · exact hthroughout hr hconfirmed _ le_rfl ((h.begins k 0).trans (h.ends k 0))
    · exact hthroughout hr hconfirmed _ (h.begins k n) (h.ends k n)

/-! ### Two sold seats -/

/-- Two confirmed reservations. -/
def twoSold : Database ℚ where
  tables :=
    { events := [⟨"e", "title", "venue", "2026-03-19", "2026-03-18", 0⟩]
      users := [⟨"u", "Mina", "mina@example.com", 0⟩]
      seats := [⟨"e", "a", "A-1", "A", "1", 1, 100, 0⟩, ⟨"e", "b", "A-2", "A", "1", 2, 100, 0⟩]
      reservations :=
        [⟨"r", "e", "a", "u", .confirmed, some "t", some 10, 0, 0, some 0, none⟩,
          ⟨"q", "e", "b", "u", .confirmed, some "t'", some 10, 0, 0, some 0, none⟩]
      payments := [] }
  valid := by decide +kernel

theorem series_passAt (limit : Int) (now : ℚ) : Series limit fun _ => passAt limit now :=
  ⟨fun _ => rfl, fun _ => ⟨monotone_const, fun _ => rfl⟩, fun _ _ => le_rfl, fun _ _ => le_rfl⟩

theorem plainIds_twoSold : PlainIds twoSold := by
  unfold PlainIds
  decide +kernel

theorem twoSold_converges : Converges (fun _ => passAt 2 20) ⟨twoSold, ∅⟩ := by
  refine (converges_iff _ 2 _ (series_passAt 2 20) plainIds_twoSold).mpr fun r hr _ => .inl ⟨⟨_, rfl, ?_⟩, 0, ⟨"AVAILABLE", none, -1⟩, ?_⟩
  · revert r
    decide +kernel
  · revert r
    decide +kernel

theorem twoSold_diverges : ¬ ∀ (w : World) (limit : Int) (p : ℕ → Pass), 1 ≤ limit → Series limit p → PlainIds w.db →
    Converges p w := by
  intro h
  have hseries := series_passAt 1 20
  obtain ⟨N, hN⟩ := eventually_atTop.mp (h ⟨twoSold, ∅⟩ 1 _ le_rfl hseries plainIds_twoSold)
  have hsold : ∃ r ∈ twoSold.tables.reservations, r.status = .confirmed ∧
      r ∉ limitRows 1 (Repository.confirmedRows twoSold.tables) := by decide +kernel
  obtain ⟨r, hr, hconfirmed, hno⟩ := hsold
  have hl : ¬ Lists 1 twoSold r := by
    rintro ⟨rows, hrows, hmem⟩
    cases hrows
    exact hno hmem
  have hfree : (world (fun _ => passAt 1 20) ⟨twoSold, ∅⟩ N).redis.lookup (rowKey r) = none :=
    (hseries.unlisted plainIds_twoSold ⟨hr, hconfirmed⟩ hl N).elim id id
  have hreports := (hN N le_rfl).confirmed r ((hseries.confirmed _ N).mpr ⟨hr, hconfirmed⟩).1 hconfirmed
  refine live_of_reports hreports (by decide) ?_
  rw [Storage.live, show AList.lookup (seatKey r.eventId r.seatId) _ = none from hfree]
  rfl

end Pass

end Ticketing.AppServer
