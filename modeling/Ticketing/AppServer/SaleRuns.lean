import Ticketing.AppServer.SoldSeats
import Ticketing.Lib.Pool

namespace Ticketing.AppServer

open Python Interaction TicketingApi Repository
open Interaction.Program (Sat)
open Storage (seatKey Records)

/-! ### Runs -/

/-- The reservation that a call has sold. -/
structure Sale where
  reservationId : String
  eventId : String
  seatId : String
  userId : String
  deriving DecidableEq

/-- What a call has sold by returning a result. -/
def AppCall.sale : AppCall → AppResult → Option Sale
  | .confirmReservation _ e s u, .confirmed r => some ⟨r.reservation.reservation.reservationId, e, s, u⟩
  | .purchaseSeat e s u _, .purchased r _ => some ⟨r.reservation.reservation.reservationId, e, s, u⟩
  | _, _ => none

def returned (call : AppCall) : Flow AppResult → Option Sale
  | .ret result => call.sale result
  | _ => none

/-- A confirmation finds in the row, if there is one, what the call passes. -/
def RowMatches (call : AppCall) (w : World) (op : AppOp) : Prop :=
  match call, op with
  | .confirmReservation _ e s u, .db (.confirmReservation id _) => RowIs w.db id e s u
  | _, _ => True

instance (call : AppCall) (w : World) (op : AppOp) : Decidable (RowMatches call w op) := by
  unfold RowMatches
  split <;> infer_instance

/-- Both stores keep a sale. -/
def SaleStands (x : Sale) (w : World) : Prop :=
  SoldRow w.db x.reservationId x.eventId x.seatId x.userId ∧ SoldSeat x.eventId x.seatId x.userId w

theorem saleStands_stable (x : Sale) : Stable (SaleStands x) :=
  fun _ _ hm h => ⟨h.1.evolves hm.evolves, soldSeat_stable _ _ _ _ _ hm h.2⟩

theorem flow_meets (call : AppCall) (w : World) :
    Meets (RowMatches call) (fun result w' => ∀ x, call.sale result = some x → SaleStands x w') call.flow w := by
  have sold {x : Sale} {w w' : World} (hm : Moves w w') (h : SaleStands x w) : ∀ y, some x = some y → SaleStands y w' := by
    rintro y hy
    cases hy
    exact saleStands_stable x _ _ hm h
  cases call with
  | holdReservation e s u n =>
      exact (meets_holdReservation e s u n w).seq Moves.refl fun r w _ => meets_ret fun w' _ => by simp [AppCall.sale]
  | cancelReservation id e s u =>
      exact (meets_gentle (calls_cancelReservation gentleOp_basic.usual id (gentle_releaseSeat e s u)) w).seq Moves.refl
        fun r w _ => meets_ret fun w' _ => by simp [AppCall.sale]
  | runOnce limit =>
      exact (meets_runOnce limit w).seq Moves.refl fun r w _ => meets_ret fun w' _ => by simp [AppCall.sale]
  | confirmReservation id e s u =>
      refine Sat.seq Moves.refl (meets_confirmReservation (I := fun _ => True) (fun _ _ _ _ => trivial) ?_ trivial)
        fun r w h => meets_ret fun w' hm => sold (x := ⟨_, e, s, u⟩) hm h
      intro w payload _ hC
      exact hC
  | purchaseSeat e s u n =>
      exact (meets_purchaseSeat e s u n w).seq Moves.refl
        fun r w h => meets_ret fun w' hm => sold (x := ⟨_, e, s, u⟩) hm h

variable {ι : Type} [DecidableEq ι]

/-- Calls that run at the same time. -/
abbrev Flows (ι : Type) := Pool ι World AppOp AppOp.Res Error AppResult

def started (w : World) (calls : ι → AppCall) : Flows ι := ⟨w, fun i => (calls i).flow⟩

/-- Every confirmation of the schedule meets the row that its call passes. -/
def RowsMatch (calls : ι → AppCall) (c : Flows ι) (t : ι × Env) : Prop :=
  ∀ op, c.nextOp t.1 = some op → RowMatches (calls t.1) c.state op

instance (calls : ι → AppCall) (c : Flows ι) (t : ι × Env) : Decidable (RowsMatch calls c t) :=
  inferInstanceAs (Decidable (∀ op ∈ c.nextOp t.1, RowMatches (calls t.1) c.state op))

def Sold (calls : ι → AppCall) (c : Flows ι) (x : Sale) : Prop := ∃ i, returned (calls i) (c.threads i) = some x

/-- Every call does what it promises, whatever the others still do. -/
def Meeting (calls : ι → AppCall) (c : Flows ι) : Prop :=
  ∀ i, Meets (RowMatches (calls i)) (fun result w => ∀ x, (calls i).sale result = some x → SaleStands x w)
    (c.threads i) c.state

variable {calls : ι → AppCall} {c : Flows ι} {ts us : List (ι × Env)} {w : World}

omit [DecidableEq ι] in
theorem meeting_started (w : World) (calls : ι → AppCall) : Meeting calls (started w calls) :=
  fun i => flow_meets (calls i) w

theorem meeting_runs (h : Pool.Throughout appStep (RowsMatch calls) c ts) (hc : Meeting calls c) :
    Moves c.state (c.runs appStep ts).state ∧ Meeting calls (c.runs appStep ts) :=
  Pool.runs_sat Moves.refl Moves.trans (fun _ _ _ _ _ => steps_moves)
    (h.mono fun _ t ht op hop => ⟨ht op hop, t.2, rfl⟩) hc

omit [DecidableEq ι] in
theorem Meeting.stands (hc : Meeting calls c) {x : Sale} (hx : Sold calls c x) : SaleStands x c.state := by
  obtain ⟨i, hi⟩ := hx
  have hm := hc i
  unfold returned at hi
  split at hi
  next result hp =>
    rw [hp] at hm
    exact hm c.state (Moves.refl _) x hi
  next => cases hi

/-! ### Sales -/

def openSale : Database ℚ where
  tables :=
    { events := [⟨"e", "title", "venue", "2026-03-19", "2026-03-18", 0⟩]
      users := [⟨"u", "Mina", "mina@example.com", 0⟩, ⟨"v", "Jiho", "jiho@example.com", 0⟩]
      seats := [⟨"e", "a", "A-1", "A", "1", 1, 100, 0⟩, ⟨"e", "b", "A-2", "A", "1", 2, 100, 0⟩]
      reservations := []
      payments := [] }
  valid := by decide +kernel

def turns (i : Fin 3) (n : Nat) : List (Fin 3 × Env) :=
  List.replicate n (i, ⟨i.val, toString i.val, .none⟩)

def holdAndConfirm : Fin 3 → AppCall
  | 0 => .holdReservation "e" "a" "u" 60
  | 1 => .confirmReservation "res-0" "e" "a" "u"
  | 2 => .runOnce 100

/-- At most one user buys a seat, and what is sold stays sold in both stores. -/
theorem sold_seats_final (w : World) (calls : ι → AppCall) (schedule : List (ι × Env))
    (h : Pool.Throughout appStep (RowsMatch calls) (started w calls) schedule) :
    (∀ x y, Sold calls ((started w calls).runs appStep schedule) x →
      Sold calls ((started w calls).runs appStep schedule) y → x.eventId = y.eventId → x.seatId = y.seatId →
      x.userId = y.userId) ∧
    ∀ ts us, schedule = ts ++ us → ∀ x, Sold calls ((started w calls).runs appStep ts) x →
      SoldRow ((started w calls).runs appStep schedule).state.db x.reservationId x.eventId x.seatId x.userId ∧
        (ColonFree x.eventId x.seatId → ∀ now,
          Reports ((started w calls).runs appStep schedule).state.redis x.eventId x.seatId now "CONFIRMED"
            (some x.userId)) := by
  have hstart := meeting_started w calls
  constructor
  · rintro x ⟨id, e, s, u⟩ hx hy rfl rfl
    have hend := (meeting_runs h hstart).2
    exact (hend.stands hx).1.confirmedSeat.unique (hend.stands hy).1.confirmedSeat
  · rintro ts us rfl x hx
    obtain ⟨hts, hus⟩ := Pool.throughout_append.mp h
    have hmid := (meeting_runs hts hstart).2
    have hstands := saleStands_stable x _ _ (meeting_runs hus hmid).1 (hmid.stands hx)
    rw [Pool.runs_append]
    exact ⟨hstands.1, fun hp now => ⟨-1, reported_owned (hstands.2.2 hp) now⟩⟩

theorem holdAndConfirm_sold :
    SoldRow ((started ⟨openSale, ∅⟩ holdAndConfirm).runs appStep (turns 0 8 ++ turns 1 7 ++ turns 2 4)).state.db
      "res-0" "e" "a" "u" :=
  ((sold_seats_final ⟨openSale, ∅⟩ holdAndConfirm (turns 0 8 ++ turns 1 7 ++ turns 2 4) (by decide +kernel)).2
    (turns 0 8 ++ turns 1 7) (turns 2 4) rfl ⟨"res-0", "e", "a", "u"⟩ ⟨1, by decide +kernel⟩).1

/-- Redis calls a seat `CONFIRMED` only where the database has sold it to that user. -/
def RedisTellsTruth (w : World) : Prop :=
  ∀ e s u now, ColonFree e s → Reports w.redis e s now "CONFIRMED" (some u) → ConfirmedSeat w.db e s u

theorem truthful_empty (db : Database ℚ) : Truthful ⟨db, ∅⟩ :=
  fun _ _ _ => ⟨.free, rfl, by simp⟩

theorem Truthful.tells (h : Truthful w) : RedisTellsTruth w := by
  intro e s u now hp hr
  obtain ⟨l, hl, hc⟩ := h e s hp
  exact hc u (reports_confirmed hl hr)

/-- The ids of the turn's DB call come through verbatim, and a confirmation meets the row that its call passes. -/
def Matched (calls : ι → AppCall) (c : Flows ι) (t : ι × Env) : Prop :=
  ∀ op, c.nextOp t.1 = some op → op.Verbatim ∧ RowMatches (calls t.1) c.state op

instance (calls : ι → AppCall) (c : Flows ι) (t : ι × Env) : Decidable (Matched calls c t) :=
  inferInstanceAs (Decidable (∀ op ∈ c.nextOp t.1, op.Verbatim ∧ RowMatches (calls t.1) c.state op))

omit [DecidableEq ι] in
theorem Matched.rowsMatch {t : ι × Env} (h : Matched calls c t) : RowsMatch calls c t := fun op hop => (h op hop).2

theorem redisTellsTruth_of_matched (db : Database ℚ) (calls : ι → AppCall) (schedule : List (ι × Env))
    (h : Pool.Throughout appStep (Matched calls) (started ⟨db, ∅⟩ calls) schedule) :
    RedisTellsTruth ((started ⟨db, ∅⟩ calls).runs appStep schedule).state := by
  have hmoves := (meeting_runs (h.mono fun _ _ => Matched.rowsMatch) (meeting_started _ calls)).1
  exact (hmoves.truthful (truthful_empty db)).tells

theorem holdAndConfirm_tells_truth :
    RedisTellsTruth ((started ⟨openSale, ∅⟩ holdAndConfirm).runs appStep (turns 0 8 ++ turns 1 7)).state :=
  redisTellsTruth_of_matched openSale holdAndConfirm _ (by decide +kernel)

/-- The reservation of one seat confirmed with another seat of the same user. -/
def crossedConfirm : Fin 3 → AppCall
  | 0 => .holdReservation "e" "a" "u" 60
  | 1 => .holdReservation "e" "b" "u" 60
  | 2 => .confirmReservation "res-0" "e" "b" "u"

theorem crossedConfirm_lies :
    ¬ RedisTellsTruth ((started ⟨openSale, ∅⟩ crossedConfirm).runs appStep
      (turns 0 9 ++ turns 1 9 ++ turns 2 9)).state := by
  intro h
  have hr : reported ((started ⟨openSale, ∅⟩ crossedConfirm).runs appStep
      (turns 0 9 ++ turns 1 9 ++ turns 2 9)).state.redis "e" "b" 3 = .ok ⟨"CONFIRMED", some "u", -1⟩ := by
    decide +kernel
  have hc := h "e" "b" "u" 3 ⟨by decide, by decide⟩ ⟨-1, hr⟩
  revert hc
  unfold ConfirmedSeat
  decide +kernel

end Ticketing.AppServer
