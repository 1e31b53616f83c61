import Ticketing.AppServer.ConfirmFlows
import Ticketing.AppServer.SaleRuns
import Ticketing.Lib.Trace

namespace Ticketing.AppServer

open Python Interaction TicketingApi Repository
open Storage (seatKey)
open Trace (Along)
open Interaction.Program (Sat)

/-! ### Runs of calls on a common clock -/

structure Moment where
  world : World
  now : ℚ

/-- The next call, which runs at one instant of the clock. -/
def Moment.next (m : Moment) (x : Turn) : Moment := ⟨x.after m.world, (x.env 0).now⟩

/-- An operation of the app server; the row that it passes, if there is one, has the seat and the user that it passes. -/
def Operation (db : Database ℚ) : AppCall → Prop
  | .confirmReservation id e s u => RowIs db id e s u
  | .cancelReservation id e s u => RowIs db id e s u
  | .runOnce _ => False
  | _ => True

instance (db : Database ℚ) (call : AppCall) : Decidable (Operation db call) :=
  match call with
  | .confirmReservation id e s u => inferInstanceAs (Decidable (RowIs db id e s u))
  | .cancelReservation id e s u => inferInstanceAs (Decidable (RowIs db id e s u))
  | .runOnce _ => .isFalse id
  | .holdReservation .. => .isTrue trivial
  | .purchaseSeat .. => .isTrue trivial

structure OnTime (m : Moment) (x : Turn) : Prop where
  operation : Operation m.world.db x.call
  verbatim : x.Verbatim m.world
  clock : m.now ≤ (x.env 0).now
  instant : ∀ n, Instant (x.env 0).now m.world.db (x.env n)

/-- The call neither shortens nor releases the Redis hold of another live row of its user. -/
def SparesHolds (m : Moment) (x : Turn) : Prop :=
  match x.call with
  | .holdReservation e s u n => 0 < n → Reports m.world.redis e s (x.env 0).now "HELD" (some u) →
      ∀ r ∈ m.world.db.tables.reservations, Live r (x.env 0).now → rowKey r = seatKey e s → r.userId = u →
        Stale r ((x.env 0).now + n)
  | .cancelReservation id e s u => Reports m.world.redis e s (x.env 0).now "HELD" (some u) →
      ∀ row, findReservation (m.world.db.expire (x.env 0).now).tables id = some row →
        row.status = .cancelled ∨ row.status = .held → OnlyHold (x.env 0).now id e s u m.world
  | _ => True

variable {m : Moment} {x : Turn} {t : ℚ} {w w' : World} {e s u : String}

theorem Granted.settled (h : Covered Nothing t w) {d : ℚ} {id : String} (hg : Granted e s u d t w id w')
    (hends : Reports w.redis e s t "HELD" (some u) → ∀ r ∈ w.db.tables.reservations, Live r t →
      rowKey r = seatKey e s → r.userId = u → Stale r d) : Covered Nothing t w' := by
  obtain ⟨l, hl, hfree⟩ := hg.free
  obtain ⟨l', hl', hb⟩ := h.seats e s
  cases hl.unique hl'
  refine hg.covered.settle hg.shows fun r hr hc hk => ?_
  rcases hg.rows r hr hc with hr | ⟨hheld, hexp⟩
  · rcases hc with hc | hlive
    · exact absurd hk (h.unsold hl hfree hr hc)
    · rcases h.user hl hr (.inr hlive) hk with rfl | ⟨d₀, rfl, _⟩
      · simp at hfree
      · obtain ⟨_, hu⟩ := hfree.resolve_left (by simp)
        cases hu
        exact hends ⟨_, hl.status hb⟩ r hr hlive hk rfl
  · exact ⟨hheld, d, hexp, le_rfl⟩

theorem turn_covered (hx : OnTime m x) (hs : SparesHolds m x) (hc : Covered Nothing m.now m.world) :
    Covered Nothing (m.next x).now (m.next x).world := by
  have h := hc.later hx.clock
  obtain ⟨call, env⟩ := x
  have ends {α : Type} {p : Flow α} {f : α → AppResult}
      (hp : Ends (env 0).now m.world.db (fun _ w' => Covered Nothing (env 0).now w') p m.world) :
      Covered Nothing (env 0).now ((p >>= fun a => pure (f a)).run appStep m.world env).2 := by
    have hf : Ends (env 0).now m.world.db (fun _ w' => Covered Nothing (env 0).now w') (p >>= fun a => pure (f a)) m.world :=
      hp.bind (fun _ _ h => does_ret h) fun _ _ h => h
    refine (Does.run hf fun ev hev => ?_).1
    obtain ⟨n, hn⟩ := Program.events_env hev
    exact hn ▸ hx.instant n
  have hop := hx.operation
  cases call with
  | holdReservation e s u n =>
      refine ends (Sat.mono (ends_holdReservation h e s u n) fun x w' hw => ?_)
      cases x with
      | error x => exact hw
      | ok r =>
          have hlive := hw.shows.live
          have hn : (0 : ℚ) < n := by linarith
          exact hw.settled h (hs (by exact_mod_cast hn))
  | confirmReservation id e s u =>
      refine ends (Sat.mono (ends_confirmReservation h (fun _ hp => hp.elim) hop) fun x w' hw => ?_)
      cases x with
      | error x => exact hw.1
      | ok r => exact hw
  | cancelReservation id e s u =>
      refine ends (ends_cancelReservation h fun row hrow hS d hd => ?_)
      obtain ⟨l, hl, hb⟩ := h.seats e s
      cases hl.unique hd
      exact hs ⟨_, hl.status hb⟩ row hrow hS
  | purchaseSeat e s u n => exact ends (ends_purchaseSeat h e s u n)
  | runOnce limit => exact hop.elim

theorem covered_empty (db : Database ℚ) (hnew : db.tables.reservations = []) (now : ℚ) : Covered Nothing now ⟨db, ∅⟩ where
  seats _ _ := ⟨.free, ⟨.free, rfl, rfl⟩, by simp [Brief]⟩
  rows := by simp [hnew]
  dates := by simp [hnew]

/-- Every live hold of the database is its user's in Redis, and no two users hold a seat. -/
def HoldsCovered (w : World) (now : ℚ) : Prop :=
  (∀ r ∈ w.db.tables.reservations, Live r now →
    ∃ state, state ≠ "AVAILABLE" ∧ Reports w.redis r.eventId r.seatId now state (some r.userId)) ∧
  ∀ r ∈ w.db.tables.reservations, ∀ r' ∈ w.db.tables.reservations, Live r now → Live r' now →
    r.seat = r'.seat → r.userId = r'.userId

theorem Covered.holds {now : ℚ} (h : Covered Nothing now w) : HoldsCovered w now := by
  refine ⟨fun r hr hlive => h.reports hr hlive, fun r hr r' hr' hlive hlive' hseat => ?_⟩
  obtain ⟨_, _, _, hx⟩ := h.reports hr hlive
  obtain ⟨_, _, _, hx'⟩ := h.reports hr' hlive'
  obtain ⟨he, hs⟩ := Prod.ext_iff.mp hseat
  simp only [Reservation.seat] at he hs
  rw [← he, ← hs] at hx'
  exact Option.some.inj (congrArg SeatStatus.userId (Except.ok.inj (hx.symm.trans hx')))

theorem holdsCovered_of_spared (db : Database ℚ) (hnew : db.tables.reservations = []) (start : ℚ) (turns : List Turn)
    (hrun : Along Moment.next OnTime ⟨⟨db, ∅⟩, start⟩ turns)
    (hspared : Along Moment.next SparesHolds ⟨⟨db, ∅⟩, start⟩ turns) (now : ℚ)
    (hnow : (turns.foldl Moment.next ⟨⟨db, ∅⟩, start⟩).now ≤ now) :
    HoldsCovered (turns.foldl Moment.next ⟨⟨db, ∅⟩, start⟩).world now := by
  have hstep : ∀ m x, OnTime m x ∧ SparesHolds m x → Covered Nothing m.now m.world →
      Covered Nothing (m.next x).now (m.next x).world := fun m x hx hm => turn_covered hx.1 hx.2 hm
  have hend := Along.invariant hstep (hrun.and hspared) (covered_empty db hnew start)
  exact (hend.later hnow).holds

/-- A call that runs at one instant without failures. -/
def AppCall.at (call : AppCall) (now : ℚ) (uuid : String) : Turn := ⟨call, fun _ => ⟨now, uuid, .none⟩⟩

instance (db : Database ℚ) (uuid : String) : Decidable (Fresh db uuid) :=
  decidable_of_iff (findReservation db.tables ("res-" ++ uuid) = none ∧
    "hold-" ++ uuid ∉ db.tables.reservations.filterMap Reservation.holdToken ∧
    "pay-" ++ uuid ∉ db.tables.payments.map Payment.paymentId)
    ⟨fun ⟨h1, h2, h3⟩ => ⟨h1, h2, h3⟩, fun ⟨h1, h2, h3⟩ => ⟨h1, h2, h3⟩⟩

theorem onTime_at {m : Moment} {call : AppCall} {now : ℚ} {uuid : String}
    (h : Operation m.world.db call ∧ (call.at now uuid).Verbatim m.world ∧ m.now ≤ now ∧ Fresh m.world.db uuid) :
    OnTime m (call.at now uuid) :=
  ⟨h.1, h.2.1, h.2.2.1, fun _ => ⟨rfl, rfl, h.2.2.2⟩⟩

/-- A hold of 10 seconds that its user extends, and the cancellation of the second row once the first has run out. -/
def extendedHold : List Turn :=
  [(AppCall.holdReservation "e" "a" "u" 10).at 0 "0", (AppCall.holdReservation "e" "a" "u" 100).at 5 "1",
    (AppCall.holdReservation "e" "b" "v" 100).at 6 "2", (AppCall.cancelReservation "res-1" "e" "a" "u").at 20 "3"]

theorem extendedHold_covered : HoldsCovered (extendedHold.foldl Moment.next ⟨⟨openSale, ∅⟩, 0⟩).world 30 :=
  holdsCovered_of_spared openSale rfl 0 extendedHold
    ⟨onTime_at (by decide +kernel), onTime_at (by decide +kernel), onTime_at (by decide +kernel),
      onTime_at (by decide +kernel), trivial⟩
    ⟨fun _ _ => by decide +kernel, fun _ _ => by decide +kernel, fun _ _ => by decide +kernel,
      fun _ _ _ _ => by unfold OnlyHold; decide +kernel, trivial⟩ 30 (by decide +kernel)

/-- A hold of 100 seconds, and a hold of 10 seconds of the same seat and user. -/
def shortenedHold : List Turn :=
  [(AppCall.holdReservation "e" "a" "u" 100).at 0 "0", (AppCall.holdReservation "e" "a" "u" 10).at 0 "1"]

theorem shortenedHold_onTime : Along Moment.next OnTime ⟨⟨openSale, ∅⟩, 0⟩ shortenedHold :=
  ⟨onTime_at (by decide +kernel), onTime_at (by decide +kernel), trivial⟩

theorem shortenedHold_uncovered :
    ¬ ∀ (db : Database ℚ) (start : ℚ) (turns : List Turn), db.tables.reservations = [] →
      Along Moment.next OnTime ⟨⟨db, ∅⟩, start⟩ turns → ∀ now, (turns.foldl Moment.next ⟨⟨db, ∅⟩, start⟩).now ≤ now →
      HoldsCovered (turns.foldl Moment.next ⟨⟨db, ∅⟩, start⟩).world now := by
  intro h
  have hcovered := (h openSale 0 shortenedHold rfl shortenedHold_onTime 50 (by decide +kernel)).1
  have hrow : ∃ r ∈ (shortenedHold.foldl Moment.next ⟨⟨openSale, ∅⟩, 0⟩).world.db.tables.reservations,
      Live r 50 ∧ r.eventId = "e" ∧ r.seatId = "a" := by decide +kernel
  obtain ⟨r, hr, hlive, he, hs⟩ := hrow
  obtain ⟨state, hstate, _, hreport⟩ := hcovered r hr hlive
  have hfree : reported (shortenedHold.foldl Moment.next ⟨⟨openSale, ∅⟩, 0⟩).world.redis "e" "a" 50 =
      .ok ⟨"AVAILABLE", none, -1⟩ := by decide +kernel
  rw [he, hs, hfree] at hreport
  exact hstate (congrArg SeatStatus.state (Except.ok.inj hreport)).symm

end Ticketing.AppServer
