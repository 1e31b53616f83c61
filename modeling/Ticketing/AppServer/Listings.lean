import Ticketing.AppServer.Revenue
import Ticketing.AppServer.CurrentSeat

namespace Ticketing.AppServer

open Python Interaction TicketingApi Repository
open Interaction.Program (Sat onOk)
open Storage (seatKey Records)

namespace Orchestrator

/-- The views of the seats that the DB has listed, each with the answer of a Redis command of its own. -/
def viewSeats (eventId : String) : List (SeatRecord ℚ) → Flow (List SeatView)
  | [] => return []
  | seat :: seats => do
    let view := seatView seat (← seatStatus eventId seat.seat.seatId)
    return view :: (← viewSeats eventId seats)

def listEventSeats (eventId : String) : Flow (List SeatView) := do
  viewSeats eventId (← db (.listEventSeats eventId))

end Orchestrator

/-! ### What a user sees -/

def SeatSold (db : Database ℚ) (seat : String × String) : Prop := ∃ u, ConfirmedSeat db seat.1 seat.2 u

/-- A view made between two states of the world: what was sold in the first is shown, and what is shown is sold in
the second. -/
structure Shown (w : World) (view : Orchestrator.SeatView) (w' : World) : Prop where
  sold : SeatSold w.db view.seat.seat.key → view.status = "CONFIRMED"
  shown : view.status = "CONFIRMED" → ColonFree view.seat.seat.eventId view.seat.seat.seatId →
    SeatSold w'.db view.seat.seat.key

theorem SeatSold.evolves {db db' : Database ℚ} {seat : String × String} (h : SeatSold db seat) (hev : Evolves db db') :
    SeatSold db' seat := by
  obtain ⟨u, hu⟩ := h
  exact ⟨u, hu.evolves hev⟩

theorem seatSold_iff {db : Database ℚ} {e s : String} :
    SeatSold db (e, s) ↔ hasConfirmedReservation db.tables e s = true := by
  simp only [SeatSold, ConfirmedSeat, hasConfirmedReservation, List.any_eq_true, decide_eq_true_eq]
  constructor
  · rintro ⟨u, r, hr, hS, he, hs, -⟩
    exact ⟨r, hr, he, hs, hS⟩
  · rintro ⟨r, hr, he, hs, hS⟩
    exact ⟨r.userId, r, hr, hS, he, hs, rfl⟩

/-- What happens to the world while a user looks: calls move it, and the seats stay as they are. -/
structure Passes (w w' : World) : Prop where
  moves : Moves w w'
  seats : w'.db.tables.seats = w.db.tables.seats

theorem Passes.refl (w : World) : Passes w w := ⟨Moves.refl w, rfl⟩

theorem Passes.trans (a b c : World) (h : Passes a b) (h' : Passes b c) : Passes a c :=
  ⟨h.moves.trans _ _ _ h'.moves, h'.seats.trans h.seats⟩

theorem appStep_seats (env : Env) (w : World) (op : AppOp) :
    (appStep env w op).2.db.tables.seats = w.db.tables.seats := by
  cases op with
  | uuid4 => rfl
  | now => rfl
  | redis tokens => rcases appStep_redis env w tokens with hw | hw <;> rw [hw]
  | db call =>
      rcases appStep_db env w call with hw | hw <;> rw [hw]
      exact (dbStep_frame env.now w.db call).2.1

/-- A flow that users run while other calls move the world. -/
abbrev Watches {α : Type} (C : World → AppOp → Prop) (Q : α → World → Prop) (p : Flow α) (w : World) : Prop :=
  p.Sat Passes (Steps C) (fun w op _ => Allowed w op) (onOk Q) w

section Watching

variable {C : World → AppOp → Prop} {w w' : World} {e s : String}

theorem steps_passes {op : AppOp} {x : Except Error op.Res} (h : Steps C w op x w') (ha : Allowed w op) :
    Passes w w' := by
  refine ⟨steps_moves h ha, ?_⟩
  obtain ⟨_, env, he⟩ := h
  have hw : w' = (appStep env w op).2 := by rw [he]
  rw [hw]
  exact appStep_seats env w op

theorem Shown.before {view : Orchestrator.SeatView} {w₀ : World} (hm : Moves w₀ w) (h : Shown w view w') :
    Shown w₀ view w' :=
  ⟨fun hs => h.sold (hs.evolves hm.evolves), h.shown⟩

theorem Shown.after {view : Orchestrator.SeatView} {w'' : World} (h : Shown w view w') (hm : Moves w' w'') :
    Shown w view w'' :=
  ⟨h.sold, fun hs hp => (h.shown hs hp).evolves hm.evolves⟩

/-- A seat that Redis calls `CONFIRMED` is sold in the database. -/
theorem reported_sold (ht : Truthful w) {status : SeatStatus} {now : ℚ} (h : reported w.redis e s now = .ok status)
    (hp : ColonFree e s) (hS : status.state = "CONFIRMED") : SeatSold w.db (e, s) := by
  obtain ⟨l, hl, hsold⟩ := ht e s hp
  have hshows : Shows w.redis (seatKey e s) now (l.current now) := ⟨l, hl, rfl⟩
  have hstate := (hshows.reported_eq h).1
  rw [hS] at hstate
  cases hc : l.current now with
  | free => simp [hc, stateText] at hstate
  | held u d => simp [hc, stateText] at hstate
  | owned u => exact ⟨u, hsold u ((Lease.current_eq_owned (τ := ℚ)).mp hc)⟩

theorem watches_seatStatus (ht : Truthful w) :
    Watches C (fun status w' => status.state = "CONFIRMED" → ColonFree e s → SeatSold w'.db (e, s))
      (Orchestrator.seatStatus e s) w := by
  refine Sat.seq (Q := fun reply w' => ∀ status, decodeSeatStatus reply = .ok status → status.state = "CONFIRMED" →
    ColonFree e s → SeatSold w'.db (e, s)) Passes.refl ?_ fun reply w' h => ?_
  · intro w₁ hm x w₂ hstep
    have hallowed : Allowed w₁ (.redis ["SEAT_STATUS", e, s]) := .inl (gentle_seatStatus e s)
    have hpasses := steps_passes hstep hallowed
    obtain ⟨_, env, he⟩ := hstep
    refine ⟨hallowed, ?_⟩
    cases x with
    | error err => exact fun _ _ => trivial
    | ok reply =>
        intro w' hm' status hstatus hS hp
        have hreport : reported w₁.redis e s env.now = .ok status := by
          rw [reported, (appStep_redis_ok he).1]
          exact hstatus
        exact (reported_sold (hm.moves.truthful ht) hreport hp hS).evolves (hpasses.trans _ _ _ hm').moves.evolves
  · cases hd : decodeSeatStatus reply with
    | error err => exact fun _ _ => trivial
    | ok status => exact fun w'' hm hS hp => (h status hd hS hp).evolves hm.moves.evolves

/-- A row of the DB and a status of Redis make a view of the time between them. -/
theorem shown_seatView {row : SeatRecord ℚ} {status : SeatStatus}
    (hsold : SeatSold w.db row.seat.key → row.status = .confirmed)
    (hrow : row.status = .confirmed → SeatSold w'.db row.seat.key)
    (hstatus : status.state = "CONFIRMED" → ColonFree row.seat.eventId row.seat.seatId → SeatSold w'.db row.seat.key) :
    Shown w (Orchestrator.seatView row status) w' := by
  unfold Orchestrator.seatView
  split
  next hc =>
    refine ⟨fun _ => rfl, fun _ hp => ?_⟩
    rcases hc with hc | hc
    · exact hrow hc
    · exact hstatus hc hp
  next hc =>
    have hno : ¬ SeatSold w.db row.seat.key := fun hs => hc (.inl (hsold hs))
    split
    · exact ⟨fun hs => absurd hs hno, fun h => by simp at h⟩
    · exact ⟨fun hs => absurd hs hno, fun h => by simp at h⟩

theorem seatView_seat (row : SeatRecord ℚ) (status : SeatStatus) : (Orchestrator.seatView row status).seat = row := by
  unfold Orchestrator.seatView
  split
  · rfl
  · split <;> rfl

/-- A row as the DB has listed it, for a view that is begun in `w`. -/
structure Row (w : World) (eventId : String) (row : SeatRecord ℚ) (w' : World) : Prop where
  event : row.seat.eventId = eventId
  sold : SeatSold w.db row.seat.key → row.status = .confirmed
  shown : row.status = .confirmed → SeatSold w'.db row.seat.key

theorem Row.after {row : SeatRecord ℚ} {w'' : World} (h : Row w e row w') (hm : Moves w' w'') : Row w e row w'' :=
  ⟨h.event, h.sold, fun hc => (h.shown hc).evolves hm.evolves⟩

theorem row_listed {db : Database ℚ} (hdb : Evolves w.db db) {row : SeatRecord ℚ} (h : row ∈ listSeats db.tables e)
    {w' : World} (hev : Evolves db w'.db) : Row w e row w' := by
  have hstatus : row.status = .confirmed ↔ SeatSold db row.seat.key := by
    simp only [listSeats, List.mem_map] at h
    obtain ⟨seat, -, rfl⟩ := h
    rw [Seat.key, seatSold_iff]
    dsimp only
    split <;> simp_all
  exact ⟨(mem_listSeats h).2, fun hs => hstatus.mpr (hs.evolves hdb), fun hc => (hstatus.mp hc).evolves hev⟩

theorem listSeats_seats {t t' : Tables ℚ} (h : t'.seats = t.seats) (e : String) :
    (listSeats t' e).map SeatRecord.seat = (listSeats t e).map SeatRecord.seat := by
  simp only [listSeats, List.map_map, h]
  exact List.map_congr_left fun _ _ => rfl

theorem watches_dbSeats (w : World) (e : String) :
    Watches C (fun rows w' => rows.map SeatRecord.seat = (listSeats w.db.tables e).map SeatRecord.seat ∧
      ∀ row ∈ rows, Row w e row w') (Orchestrator.db (.listEventSeats e)) w := by
  intro w₁ hm x w₂ hstep
  have hallowed : Allowed w₁ (.db (.listEventSeats e)) := trivial
  obtain ⟨_, env, he⟩ := hstep
  refine ⟨hallowed, ?_⟩
  cases x with
  | error err => exact fun _ _ => trivial
  | ok rows =>
      intro w' hm'
      obtain ⟨hok, hw⟩ := appStep_db_ok he
      obtain ⟨hdb, hrows | ⟨-, err, herr⟩⟩ := dbStep_listEventSeats env.now w₁.db e
      · cases hrows.symm.trans hok
        have hev : Evolves w₁.db (w₁.db.expire env.now) := hdb ▸ dbStep_evolves env.now w₁.db (.listEventSeats e)
        have hw₂ : w₂.db = w₁.db.expire env.now := by rw [hw]; exact hdb
        refine ⟨listSeats_seats ?_ e, fun row hrow => row_listed (hm.moves.evolves.trans hev) hrow ?_⟩
        · exact hm.seats
        · rw [← hw₂]
          exact hm'.moves.evolves
      · cases herr.symm.trans hok

theorem Watches.seq {α β : Type} {Q : α → World → Prop} {Q' : β → World → Prop} {p : Flow α} {f : α → Flow β}
    (h : Watches C Q p w) (hf : ∀ a w', Q a w' → Watches C Q' (f a) w') : Watches C Q' (p >>= f) w :=
  Sat.seq Passes.refl h hf

theorem Watches.and {α : Type} {Q : α → World → Prop} {I : World → Prop} (hI : ∀ a b, Moves a b → I a → I b)
    {p : Flow α} (h : Watches C Q p w) (hs : I w) : Watches C (fun a w' => Q a w' ∧ I w') p w := by
  have hguar : ∀ s (op : AppOp) x s', Steps C s op x s' → Allowed s op → I s → I s' :=
    fun s op x s' ht hg => hI _ _ (steps_moves ht hg)
  refine (Sat.frame (fun a b hm => hI a b hm.moves) hguar h hs).mono fun x w' hx => ?_
  cases x with
  | ok a => exact hx
  | error err => trivial

theorem watches_ret {α : Type} {Q : α → World → Prop} {a : α} (h : ∀ w', Passes w w' → Q a w') :
    Watches C Q (pure a) w := h

theorem watches_view {w₀ : World} {row : SeatRecord ℚ} (ht : Truthful w) (h : Row w₀ e row w) :
    Watches C (fun status w' => Shown w₀ (Orchestrator.seatView row status) w' ∧ Truthful w')
      (Orchestrator.seatStatus e row.seat.seatId) w := by
  have hI : ∀ a b, Moves a b → Row w₀ e row a ∧ Truthful a → Row w₀ e row b ∧ Truthful b :=
    fun a b hm h => ⟨h.1.after hm, hm.truthful h.2⟩
  refine ((watches_seatStatus ht).and hI ⟨h, ht⟩).mono fun x w' hx => ?_
  cases x with
  | error err => trivial
  | ok status =>
      obtain ⟨hstatus, hrow, ht⟩ := hx
      refine ⟨shown_seatView hrow.sold hrow.shown fun hS hp => ?_, ht⟩
      rw [Seat.key, hrow.event]
      exact hstatus hS (hrow.event ▸ hp)

theorem watches_viewSeats {w₀ : World} (rows : List (SeatRecord ℚ)) (ht : Truthful w) (h : ∀ row ∈ rows, Row w₀ e row w) :
    Watches C (fun views w' => views.map (fun view => view.seat.seat) = rows.map SeatRecord.seat ∧
      ∀ view ∈ views, Shown w₀ view w') (Orchestrator.viewSeats e rows) w := by
  induction rows generalizing w with
  | nil => exact watches_ret fun _ _ => ⟨rfl, fun _ hv => absurd hv List.not_mem_nil⟩
  | cons row rows ih =>
      have hrest : ∀ a b, Moves a b → (∀ r ∈ rows, Row w₀ e r a) → ∀ r ∈ rows, Row w₀ e r b :=
        fun a b hm h r hr => (h r hr).after hm
      refine ((watches_view ht (h row List.mem_cons_self)).and hrest fun r hr => h r (List.mem_cons_of_mem _ hr)).seq
        fun status w' hw' => ?_
      obtain ⟨⟨hview, ht⟩, hrows⟩ := hw'
      have hkeep : ∀ a b, Moves a b → Shown w₀ (Orchestrator.seatView row status) a →
          Shown w₀ (Orchestrator.seatView row status) b := fun a b hm h => h.after hm
      refine ((ih ht hrows).and hkeep hview).seq fun views w'' h => watches_ret fun w₃ hm => ?_
      obtain ⟨⟨hseats, hviews⟩, hview⟩ := h
      refine ⟨?_, fun v hv => ?_⟩
      · rw [List.map_cons, List.map_cons, hseats, seatView_seat]
      · rcases List.mem_cons.mp hv with rfl | hv
        · exact hview.after hm.moves
        · exact (hviews v hv).after hm.moves

theorem watches_listEventSeats (ht : Truthful w) (e : String) :
    Watches C (fun views w' => views.map (fun view => view.seat.seat) = (listSeats w.db.tables e).map SeatRecord.seat ∧
      ∀ view ∈ views, Shown w view w') (Orchestrator.listEventSeats e) w := by
  refine ((watches_dbSeats w e).and (fun a b hm => hm.truthful) ht).seq fun rows w' h => ?_
  refine (watches_viewSeats rows h.2 h.1.2).mono fun x w'' hx => ?_
  cases x with
  | error err => trivial
  | ok views => exact ⟨hx.1.trans h.1.1, hx.2⟩

theorem watches_getEventSeat (ht : Truthful w) (e s : String) :
    Watches C (fun view w' => view.seat.seat.key = (e, s) ∧ Shown w view w') (Orchestrator.getEventSeat e s) w := by
  have hfind : Watches C (fun row w' => (Row w e row w' ∧ Truthful w') ∧ row.seat.seatId = s)
      (Orchestrator.findEventSeat e s) w := by
    refine ((watches_dbSeats w e).and (fun a b hm => hm.truthful) ht).seq fun rows w' h => ?_
    cases hf : rows.find? (fun seat => seat.seat.seatId = s) with
    | none => exact fun _ _ => trivial
    | some row =>
        have hid : row.seat.seatId = s := by simpa using List.find?_some hf
        have hrow := h.1.2 row (List.mem_of_find?_eq_some hf)
        exact watches_ret fun w'' hm => ⟨⟨hrow.after hm.moves, hm.moves.truthful h.2⟩, hid⟩
  refine hfind.seq fun row w' h => ?_
  obtain ⟨⟨hrow, ht⟩, rfl⟩ := h
  refine (watches_view ht hrow).seq fun status w'' h => watches_ret fun w₃ hm => ⟨?_, h.1.after hm.moves⟩
  rw [seatView_seat, Seat.key, hrow.event]

end Watching

/-! ### Users among other calls -/

/-- What a client of the app server may ask for. -/
inductive Visit
  | call (call : AppCall)
  | listEventSeats (eventId : String)
  | getEventSeat (eventId seatId : String)

inductive Answer
  | result (result : AppResult)
  | seats (views : List Orchestrator.SeatView)
  | seat (view : Orchestrator.SeatView)

def Visit.flow : Visit → Flow Answer
  | .call c => do return .result (← c.flow)
  | .listEventSeats eventId => do return .seats (← Orchestrator.listEventSeats eventId)
  | .getEventSeat eventId seatId => do return .seat (← Orchestrator.getEventSeat eventId seatId)

/-- A confirmation among the visits finds in the row what the call passes. -/
def VisitMatches : Visit → World → AppOp → Prop
  | .call call, w, op => RowMatches call w op
  | _, _, _ => True

instance (visit : Visit) (w : World) (op : AppOp) : Decidable (VisitMatches visit w op) :=
  match visit with
  | .call call => inferInstanceAs (Decidable (RowMatches call w op))
  | .listEventSeats _ => .isTrue trivial
  | .getEventSeat .. => .isTrue trivial

/-- What an answer shows that was asked for in `w`. -/
def Visit.Sees (w : World) : Visit → Answer → World → Prop
  | .listEventSeats e, .seats views, w' =>
    views.map (fun view => view.seat.seat) = (listSeats w.db.tables e).map SeatRecord.seat ∧
      ∀ view ∈ views, Shown w view w'
  | .getEventSeat e s, .seat view, w' => view.seat.seat.key = (e, s) ∧ Shown w view w'
  | .call _, .result _, _ => True
  | _, _, _ => False

theorem flow_watches {w : World} (ht : Truthful w) (visit : Visit) :
    Watches (VisitMatches visit) (fun answer w' => visit.Sees w answer w') visit.flow w := by
  cases visit with
  | call call =>
      have hcall : Watches (RowMatches call) (fun _ _ => True) call.flow w := by
        refine ((flow_meets call w).weaken fun _ _ h => h.moves).mono fun x w' _ => ?_
        cases x <;> trivial
      refine Watches.seq hcall fun result w' _ => ?_
      exact watches_ret fun _ _ => trivial
  | listEventSeats e =>
      refine Watches.seq (watches_listEventSeats ht e) fun views w' h => ?_
      exact watches_ret fun w'' hm => ⟨h.1, fun view hv => (h.2 view hv).after hm.moves⟩
  | getEventSeat e s =>
      refine Watches.seq (watches_getEventSeat ht e s) fun view w' h => ?_
      exact watches_ret fun w'' hm => ⟨h.1, h.2.after hm.moves⟩

theorem resend_watches {w : World} (ht : Truthful w) (visit : Visit) :
    Watches (VisitMatches visit) (fun answer w' => visit.Sees w answer w') (visit.flow.expand resend) w :=
  Sat.expand Passes.refl Passes.trans (refines_resend Passes.trans fun _ _ _ _ => steps_passes) (flow_watches ht visit)

variable {ι : Type} [DecidableEq ι]

abbrev Visits (ι : Type) := Pool ι World AppOp AppOp.Res Error Answer

def opened (w : World) (visits : ι → Visit) : Visits ι := ⟨w, fun i => (visits i).flow.expand resend⟩

/-- The ids of the turn's DB call come through verbatim, and a confirmation meets the row that its call passes. -/
def VisitsMatch (visits : ι → Visit) (c : Visits ι) (t : ι × Env) : Prop :=
  ∀ op, c.nextOp t.1 = some op → op.Verbatim ∧ VisitMatches (visits t.1) c.state op

instance (visits : ι → Visit) (c : Visits ι) (t : ι × Env) : Decidable (VisitsMatch visits c t) :=
  inferInstanceAs (Decidable (∀ op ∈ c.nextOp t.1, op.Verbatim ∧ VisitMatches (visits t.1) c.state op))

def Answer.views : Answer → List Orchestrator.SeatView
  | .result _ => []
  | .seats views => views
  | .seat view => [view]

theorem Visit.Sees.shown {w w' : World} {visit : Visit} {answer : Answer} (h : visit.Sees w answer w') :
    ∀ view ∈ answer.views, Shown w view w' := by
  cases visit with
  | call c =>
      cases answer with
      | result result => exact fun _ hv => absurd hv List.not_mem_nil
      | seats views => exact False.elim h
      | seat view => exact False.elim h
  | listEventSeats e =>
      cases answer with
      | result result => exact False.elim h
      | seats views => exact h.2
      | seat view => exact False.elim h
  | getEventSeat e s =>
      cases answer with
      | result result => exact False.elim h
      | seats views => exact False.elim h
      | seat view =>
          intro v hv
          rw [List.mem_singleton.mp hv]
          exact h.2

section Runs

variable {visits : ι → Visit} {c : Visits ι} {ts : List (ι × Env)}

theorem visits_run {P : ι → Answer → World → Prop} (h : Pool.Throughout appStep (VisitsMatch visits) c ts)
    (hc : ∀ i, Watches (VisitMatches (visits i)) (P i) (c.threads i) c.state) : Passes c.state (c.runs appStep ts).state ∧
      ∀ i, Watches (VisitMatches (visits i)) (P i) ((c.runs appStep ts).threads i) (c.runs appStep ts).state :=
  Pool.runs_sat Passes.refl Passes.trans (fun _ _ _ _ _ => steps_passes)
    (h.mono fun _ t ht op hop => ⟨(ht op hop).2, t.2, rfl⟩) hc

omit [DecidableEq ι] in
theorem Watches.answers {P : Answer → World → Prop} {visit : Visit} {p : Flow Answer} {w : World} {answer : Answer}
    (h : Watches (VisitMatches visit) P p w) (hp : p = .ret answer) : P answer w := by
  rw [hp] at h
  exact h w (Passes.refl w)

end Runs

/-- However many visits and calls run side by side, and whichever of their steps fail: an answer shows every seat that
was sold before its visit began, shows no seat as sold that is not sold in the end, and takes back nothing that an
answer before it has shown. -/
theorem answers_between {w : World} (hw : Truthful w) (visits : ι → Visit) (before after : List (ι × Env))
    (h : Pool.Throughout appStep (VisitsMatch visits) (opened w visits) (before ++ after)) (i : ι)
    (hi : ∀ t ∈ before, t.1 ≠ i) {answer : Answer}
    (hret : ((opened w visits).runs appStep (before ++ after)).threads i = .ret answer) :
    let mid := (opened w visits).runs appStep before
    (visits i).Sees mid.state answer ((opened w visits).runs appStep (before ++ after)).state ∧
      ∀ j earlier, mid.threads j = .ret earlier → ∀ view ∈ earlier.views,
        ColonFree view.seat.seat.eventId view.seat.seat.seatId → view.status = "CONFIRMED" →
        ∀ view' ∈ answer.views, view'.seat.seat.key = view.seat.seat.key → view'.status = "CONFIRMED" := by
  intro mid
  obtain ⟨hbefore, hafter⟩ := Pool.throughout_append.mp h
  obtain ⟨hpass, hmid⟩ := visits_run hbefore fun j => resend_watches hw (visits j)
  have hflow : mid.threads i = (visits i).flow.expand resend := Pool.runs_threads_ne _ hi
  have hstart (j : ι) : Watches (VisitMatches (visits j))
      (fun answer w' => j = i → (visits j).Sees mid.state answer w') (mid.threads j) mid.state := by
    by_cases hj : j = i
    · subst hj
      rw [hflow]
      refine (resend_watches (hpass.moves.truthful hw) (visits j)).mono fun x w' hx => ?_
      cases x with
      | error err => trivial
      | ok answer => exact fun _ => hx
    · refine (hmid j).mono fun x w' _ => ?_
      cases x with
      | error err => trivial
      | ok answer => exact fun he => absurd he hj
  rw [Pool.runs_append] at hret ⊢
  have hsees := ((visits_run hafter hstart).2 i).answers hret rfl
  refine ⟨hsees, fun j earlier hj view hview hp hS view' hview' hkey => ?_⟩
  have hsold := (((hmid j).answers hj).shown view hview).shown hS hp
  exact (hsees.shown view' hview').sold (hkey ▸ hsold)

/-- A sale between two looks at the seats of an event. -/
def lookAndBuy : Fin 4 → Visit
  | 0 => .call (.holdReservation "e" "a" "u" 60)
  | 1 => .call (.confirmReservation "res-0" "e" "a" "u")
  | 2 => .listEventSeats "e"
  | 3 => .listEventSeats "e"

def looks (i : Fin 4) (n : Nat) : List (Fin 4 × Env) := List.replicate n (i, ⟨i.val, toString i.val, .none⟩)

/-- The statuses that a visit has answered. -/
def statuses : Flow Answer → List String
  | .ret answer => answer.views.map Orchestrator.SeatView.status
  | _ => []

theorem lookAndBuy_shown : ∃ answer,
    ((opened ⟨openSale, ∅⟩ lookAndBuy).runs appStep
      (looks 0 8 ++ looks 2 3 ++ looks 1 7 ++ looks 3 3)).threads 3 = .ret answer ∧
    answer.views.map Orchestrator.SeatView.status = ["CONFIRMED", "AVAILABLE"] ∧
    ∀ view ∈ answer.views, Shown ((opened ⟨openSale, ∅⟩ lookAndBuy).runs appStep
      (looks 0 8 ++ looks 2 3 ++ looks 1 7)).state view
      ((opened ⟨openSale, ∅⟩ lookAndBuy).runs appStep (looks 0 8 ++ looks 2 3 ++ looks 1 7 ++ looks 3 3)).state := by
  have hstatuses : statuses (((opened ⟨openSale, ∅⟩ lookAndBuy).runs appStep
      (looks 0 8 ++ looks 2 3 ++ looks 1 7 ++ looks 3 3)).threads 3) = ["CONFIRMED", "AVAILABLE"] := by decide +kernel
  cases hp : ((opened ⟨openSale, ∅⟩ lookAndBuy).runs appStep
      (looks 0 8 ++ looks 2 3 ++ looks 1 7 ++ looks 3 3)).threads 3 with
  | ret answer =>
      rw [hp] at hstatuses
      exact ⟨answer, rfl, hstatuses, (answers_between (truthful_empty openSale) lookAndBuy
        (looks 0 8 ++ looks 2 3 ++ looks 1 7) (looks 3 3) (by decide +kernel) 3 (by decide) hp).1.shown⟩
  | raise err =>
      rw [hp] at hstatuses
      cases hstatuses
  | call op k =>
      rw [hp] at hstatuses
      cases hstatuses

end Ticketing.AppServer
