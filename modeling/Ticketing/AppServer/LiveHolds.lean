import Ticketing.AppServer.CurrentSeat
import Ticketing.AppServer.Turns

namespace Ticketing.AppServer

open Python Interaction TicketingApi Repository Commands
open Storage (Store seatKey Records SeatLease)
open Orchestrator (endOfTime)

variable {pending pending' : String → Prop} {now now' : ℚ} {w w' : World} {e s u : String}

/-! ### Live reservations and the seats that cover them -/

/-- A hold of the database that has not run out. -/
def Live (r : Reservation ℚ) (now : ℚ) : Prop := r.status = .held ∧ ∃ d ∈ r.expiresAt, now < d

instance (r : Reservation ℚ) (now : ℚ) : Decidable (Live r now) := inferInstanceAs (Decidable (_ ∧ ∃ d ∈ r.expiresAt, _))

def rowKey (r : Reservation ℚ) : String := seatKey r.eventId r.seatId

/-- The seat is the user's: sold, or held with a deadline that satisfies `P`. -/
def Belongs (l : SeatLease) (userId : String) (P : ℚ → Prop) : Prop :=
  l = .owned userId ∨ ∃ d, l = .held userId d ∧ P d

/-- Redis keeps every confirmation, and every live hold as long as the row; a
`pending` seat is its user's, but perhaps not for long enough. -/
structure Covered (pending : String → Prop) (now : ℚ) (w : World) : Prop where
  seats : ∀ e s, ∃ l, Shows w.redis (seatKey e s) now l ∧ Brief now l
  rows : ∀ r ∈ w.db.tables.reservations, r.status = .confirmed ∨ Live r now →
    ∃ l, Shows w.redis (rowKey r) now l ∧ Belongs l r.userId (fun d => pending (rowKey r) ∨ Stale r d)
  dates : ∀ r ∈ w.db.tables.reservations, ∀ x ∈ r.expiresAt, x < endOfTime

def Nothing (_ : String) : Prop := False

theorem Live.earlier {r : Reservation ℚ} (h : Live r now') (hle : now ≤ now') : Live r now := by
  obtain ⟨hs, d, hd, hlt⟩ := h
  exact ⟨hs, d, hd, hle.trans_lt hlt⟩

theorem Live.not_stale {r : Reservation ℚ} (h : Live r now) : ¬ Stale r now := by
  rintro ⟨_, d, hd, hle⟩
  obtain ⟨_, x, hx, hlt⟩ := h
  cases hd.symm.trans hx
  exact absurd hlt hle.not_gt

theorem Covered.mono (h : Covered pending now w) (hp : ∀ k, pending k → pending' k) : Covered pending' now w where
  seats := h.seats
  rows r hr hc := by
    obtain ⟨l, hl, hb⟩ := h.rows r hr hc
    refine ⟨l, hl, hb.imp id ?_⟩
    rintro ⟨d, hd, hx⟩
    exact ⟨d, hd, hx.imp (hp _) id⟩
  dates := h.dates

theorem Covered.later (h : Covered Nothing now w) (hle : now ≤ now') : Covered Nothing now' w where
  seats e s := by
    obtain ⟨l, hl, hb⟩ := h.seats e s
    exact ⟨_, hl.later hle, hb.later hle⟩
  rows r hr hc := by
    obtain ⟨l, hl, hb⟩ := h.rows r hr (hc.imp id fun hlive => hlive.earlier hle)
    refine ⟨_, hl.later hle, ?_⟩
    rcases hb with rfl | ⟨d, rfl, hd⟩
    · exact .inl rfl
    · obtain ⟨hheld, x, hx, hxd⟩ := hd.resolve_left id
      have hlive : now' < d := by
        rcases hc with hc | ⟨_, y, hy, hlt⟩
        · rw [hc] at hheld; cases hheld
        · cases hx.symm.trans hy
          exact hlt.trans_le hxd
      exact .inr ⟨d, Lease.current_held hlive _, .inr ⟨hheld, x, hx, hxd⟩⟩
  dates := h.dates

/-- The rows that count are rows that counted. -/
theorem Covered.fewer (h : Covered pending now w) {db : Database ℚ}
    (hrows : ∀ r ∈ db.tables.reservations, r ∈ w.db.tables.reservations ∨
      r.status ≠ .held ∧ r.status ≠ .confirmed ∧ ∃ r₀ ∈ w.db.tables.reservations, r.expiresAt = r₀.expiresAt) :
    Covered pending now { w with db := db } where
  seats := h.seats
  rows r hr hc := by
    rcases hrows r hr with hr | ⟨hheld, hconf, _⟩
    · exact h.rows r hr hc
    · exact absurd hc (by simp [Live, hheld, hconf])
  dates r hr x hx := by
    rcases hrows r hr with hr | ⟨_, _, r₀, hr₀, he⟩
    · exact h.dates r hr x hx
    · exact h.dates r₀ hr₀ x (he ▸ hx)

theorem Covered.expire (h : Covered pending now w) (t : ℚ) : Covered pending now { w with db := w.db.expire t } := by
  refine h.fewer fun r hr => ?_
  obtain ⟨r₀, hr₀, rfl⟩ := List.mem_map.mp hr
  by_cases hs : Stale r₀ t
  · exact .inr ⟨by simp [hs], by simp [hs], r₀, hr₀, by simp [hs]⟩
  · exact .inl (by simpa [hs] using hr₀)

/-- Only one seat of Redis changes. -/
theorem Covered.put (h : Covered pending now w) {redis : Store} {l : SeatLease}
    (hother : ∀ k, k ≠ seatKey e s → redis.lookup k = w.redis.lookup k) (hl : Shows redis (seatKey e s) now l)
    (hb : Brief now l) (hp : ∀ k, k ≠ seatKey e s → pending k → pending' k)
    (hrows : ∀ r ∈ w.db.tables.reservations, r.status = .confirmed ∨ Live r now → rowKey r = seatKey e s →
      Belongs l r.userId (fun d => pending' (seatKey e s) ∨ Stale r d)) :
    Covered pending' now { w with redis := redis } where
  seats e' s' := by
    by_cases hk : seatKey e' s' = seatKey e s
    · rw [hk]
      exact ⟨l, hl, hb⟩
    · obtain ⟨l', hl', hb'⟩ := h.seats e' s'
      exact ⟨l', hl'.lookup (hother _ hk), hb'⟩
  rows r hr hc := by
    by_cases hk : rowKey r = seatKey e s
    · rw [hk]
      exact ⟨l, hl, hrows r hr hc hk⟩
    · obtain ⟨l', hl', hb'⟩ := h.rows r hr hc
      refine ⟨l', hl'.lookup (hother _ hk), hb'.imp id ?_⟩
      rintro ⟨d, hd, hx⟩
      exact ⟨d, hd, hx.imp (hp _ hk) id⟩
  dates := h.dates

/-- What the other seats and this one show is what they showed. -/
theorem Covered.look (h : Covered pending now w) {redis : Store}
    (hk : ∀ key l, Shows w.redis key now l → Shows redis key now l) : Covered pending now { w with redis := redis } where
  seats e s := by
    obtain ⟨l, hl, hb⟩ := h.seats e s
    exact ⟨l, hk _ l hl, hb⟩
  rows r hr hc := by
    obtain ⟨l, hl, hb⟩ := h.rows r hr hc
    exact ⟨l, hk _ l hl, hb⟩
  dates := h.dates

/-- The rows of a seat that is held are its holder's. -/
theorem Covered.user (h : Covered pending now w) {l : SeatLease} (hl : Shows w.redis (seatKey e s) now l)
    {r : Reservation ℚ} (hr : r ∈ w.db.tables.reservations) (hc : r.status = .confirmed ∨ Live r now)
    (hk : rowKey r = seatKey e s) : Belongs l r.userId (fun d => pending (seatKey e s) ∨ Stale r d) := by
  obtain ⟨l', hl', hb⟩ := h.rows r hr hc
  rw [hk] at hl' hb
  rwa [hl.unique hl']

/-- Nothing is pending once every row of the seat ends with the hold. -/
theorem Covered.settle (h : Covered (· = seatKey e s) now w) {d : ℚ} (hl : Shows w.redis (seatKey e s) now (.held u d))
    (hends : ∀ r ∈ w.db.tables.reservations, r.status = .confirmed ∨ Live r now → rowKey r = seatKey e s → Stale r d) :
    Covered Nothing now w where
  seats := h.seats
  rows r hr hc := by
    obtain ⟨l, hl', hb⟩ := h.rows r hr hc
    refine ⟨l, hl', ?_⟩
    rcases hb with hb | ⟨x, rfl, hx⟩
    · exact .inl hb
    · refine .inr ⟨x, rfl, .inr (hx.elim (fun hk => ?_) id)⟩
      have hstale := hends r hr hc hk
      rw [hk] at hl'
      cases hl.unique hl'
      exact hstale
  dates := h.dates

/-- A live hold of the database is not available in Redis, and is reported with its user. -/
theorem Covered.reports (h : Covered Nothing now w) {r : Reservation ℚ} (hr : r ∈ w.db.tables.reservations)
    (hc : Live r now) : ∃ state, state ≠ "AVAILABLE" ∧ Reports w.redis r.eventId r.seatId now state (some r.userId) := by
  obtain ⟨l, hl, hb⟩ := h.rows r hr (.inr hc)
  obtain ⟨l', hl', hbrief⟩ := h.seats r.eventId r.seatId
  cases hl.unique hl'
  have hs := hl'.status hbrief
  rcases hb with rfl | ⟨d, rfl, _⟩
  · exact ⟨"CONFIRMED", by decide, _, hs⟩
  · exact ⟨"HELD", by decide, _, hs⟩

end Ticketing.AppServer
