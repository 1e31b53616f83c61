import Ticketing.TicketingApi.Races
import Ticketing.AppServer.Attempts
import Ticketing.AppServer.Releases

namespace Ticketing.AppServer

open Python Interaction TicketingApi Repository
open Interaction.Program (Calls Sat onOk)

/-! ### Prices and charges -/

def price (t : Tables ℚ) (seat : String × String) : Int :=
  ((t.seats.find? (fun s => s.key = seat)).map Seat.price).getD 0

theorem price_of_mem {t : Tables ℚ} (ht : Valid t) {seat : Seat ℚ} (h : seat ∈ t.seats) :
    price t seat.key = seat.price := by
  have hfind : t.seats.find? (fun s => s.key = seat.key) = some seat := by
    cases hf : t.seats.find? (fun s => s.key = seat.key) with
    | none => simpa using List.find?_eq_none.mp hf seat h
    | some s =>
        have hkey : s.key = seat.key := by simpa using List.find?_some hf
        rw [List.inj_on_of_nodup_map ht.seatKeys (List.mem_of_find?_eq_some hf) h hkey]
  rw [price, hfind]
  rfl

/-- The payment is of a sold reservation, and of the price of its seat. -/
structure Charge (db : Database ℚ) (p : Payment ℚ) (r : Reservation ℚ) : Prop where
  row : findReservation db.tables p.reservationId = some r
  sold : r.status = .confirmed
  amount : p.amount = price db.tables r.seat
  provider : p.provider = Orchestrator.mockPaymentProvider
  providerRef : p.providerRef = p.paymentId

structure Billing (db : Database ℚ) : Prop where
  booked : AllBooked db.tables
  charged : ∀ p ∈ db.tables.payments, ∃ r, Charge db p r

variable {db db' : Database ℚ} {now : ℚ}

theorem price_seats {t t' : Tables ℚ} (h : t'.seats = t.seats) (seat : String × String) :
    price t' seat = price t seat := by
  rw [price, price, h]

theorem Charge.evolves {p : Payment ℚ} {r : Reservation ℚ} (h : Charge db p r) (hev : Evolves db db')
    (hseats : db'.tables.seats = db.tables.seats) : ∃ r', Charge db' p r' := by
  obtain ⟨r', hr', hsame, hst⟩ := hev _ r h.row
  refine ⟨r', hr', ?_, ?_, h.provider, h.providerRef⟩
  · rcases hst with hst | hst
    · exact hst.trans h.sold
    · cases h.sold.symm.trans hst
  · rw [h.amount, hsame.seat, price_seats hseats]

/-! ### One DB call -/

/-- The operation leaves the payments alone. -/
def Uncharging : RepoOp ℚ → Prop
  | .confirmReservation .. => False
  | .cancelReservation _ _ (some _) => False
  | _ => True

theorem uncharging_of_sparesRows (op : RepoOp ℚ) (h : Service.SparesRows op) : Uncharging op := by
  cases op with
  | confirmReservation | cancelReservation => cases h
  | _ => trivial

/-- No operation changes a seat, and only those of a confirmation and of a paid cancellation change a payment. -/
theorem exec_frame (clock : ℚ) (db : Database ℚ) (op : RepoOp ℚ) :
    (exec clock db op).2.tables.seats = db.tables.seats ∧
      (Uncharging op → (exec clock db op).2.tables.payments = db.tables.payments) := by
  have commits {P : Prop} (f : Tables ℚ → Tables ℚ)
      (hf : (f db.tables).seats = db.tables.seats ∧ (P → (f db.tables).payments = db.tables.payments)) :
      (transaction db f).2.tables.seats = db.tables.seats ∧
        (P → (transaction db f).2.tables.payments = db.tables.payments) := by
    rcases transaction_cases db f with ⟨-, hc⟩ | ⟨-, hc⟩
    · rwa [hc]
    · rw [hc]
      exact ⟨rfl, fun _ => rfl⟩
  cases op with
  | expireStaleReservations now => exact commits _ ⟨rfl, fun _ => rfl⟩
  | createUser userId displayName email createdAt =>
      refine commits _ ?_
      unfold createUser
      split <;> exact ⟨rfl, fun _ => rfl⟩
  | createHeldReservation => exact commits _ ⟨rfl, fun _ => rfl⟩
  | confirmReservation id payment now =>
      simp only [exec, bindAmount]
      split
      · exact commits _ ⟨upsertPayment_seats id _ now _, fun hop => False.elim hop⟩
      · exact ⟨rfl, fun _ => rfl⟩
  | cancelReservation id now payment =>
      simp only [exec, bindAmount]
      split
      · cases payment with
        | none => exact commits _ ⟨rfl, fun _ => rfl⟩
        | some payment => exact commits _ ⟨upsertPayment_seats id payment now _, fun hop => False.elim hop⟩
      · exact ⟨rfl, fun _ => rfl⟩
  | expireReservation id now => exact commits _ ⟨rfl, fun _ => rfl⟩
  | _ => exact ⟨rfl, fun _ => rfl⟩

/-- Every DB call is a method that runs as one step; only a confirmation touches the payments. -/
theorem dbStep_method (now : ℚ) (db : Database ℚ) (call : DbCall) : ∃ (β : Type) (method : Service.Method ℚ β),
    (dbStep now db call).2 = (atomic now method db).2 ∧ method.Calls Books ∧
      ((∀ id payload, call ≠ .confirmReservation id payload) → method.Calls Uncharging) := by
  have books := books_of_sparesRows (T := ℚ)
  have spares := uncharging_of_sparesRows
  cases call with
  | listEventSeats eventId =>
      exact ⟨_, Service.listEventSeats eventId, rfl,
        Service.calls_reader books (Service.calls_requireEvent books eventId) trivial,
        fun _ => Service.calls_reader spares (Service.calls_requireEvent spares eventId) trivial⟩
  | createHeldReservation payload =>
      exact ⟨_, Service.createHeldReservation Except.ok payload, rfl,
        Service.calls_createHeldReservation books _ payload fun _ _ _ => trivial,
        fun _ => Service.calls_createHeldReservation spares _ payload fun _ _ _ => trivial⟩
  | confirmReservation id payload =>
      exact ⟨_, Service.confirmReservation id payload, rfl,
        Service.calls_confirmReservation books id payload fun _ _ => trivial, fun h => absurd rfl (h id payload)⟩
  | cancelReservation id =>
      refine ⟨_, Service.cancelReservation id noPayment, rfl,
        Service.calls_cancelReservation books id _ fun payment _ hp => ?_,
        fun _ => Service.calls_cancelReservation spares id _ fun payment _ hp => ?_⟩
      · cases hp
        trivial
      · cases hp
        trivial
  | expireReservation id =>
      exact ⟨_, Service.expireReservation id, rfl, Service.calls_expireReservation books id fun _ => trivial,
        fun _ => Service.calls_expireReservation spares id fun _ => trivial⟩
  | expireStaleReservations limit =>
      exact ⟨_, Service.expireStaleReservations limit, rfl,
        Service.calls_expireStaleReservations books (fun _ _ => trivial) limit,
        fun _ => Service.calls_expireStaleReservations spares (fun _ _ => trivial) limit⟩
  | listConfirmedReservations limit =>
      exact ⟨_, Service.listConfirmedReservations (some limit), rfl, Service.calls_call trivial,
        fun _ => Service.calls_call trivial⟩

theorem dbStep_frame (now : ℚ) (db : Database ℚ) (call : DbCall) :
    Onward db (dbStep now db call).2 ∧ (dbStep now db call).2.tables.seats = db.tables.seats ∧
      ((∀ id payload, call ≠ .confirmReservation id payload) →
        (dbStep now db call).2.tables.payments = db.tables.payments) := by
  obtain ⟨β, method, hdb, hbooks, hspares⟩ := dbStep_method now db call
  rw [hdb]
  refine ⟨?_, ?_, fun hcall => ?_⟩
  · refine Program.events_stable (I := Onward db) (fun ev hev hbefore => ?_) (.inl (Onward.refl db))
    rw [Program.events_after hev]
    exact hbefore.trans _ _ _ (exec_onward ev.env ev.before (hbooks.events _ _ ev hev))
  · refine Program.events_stable (I := fun db' : Database ℚ => db'.tables.seats = db.tables.seats)
      (fun ev hev hbefore => ?_) (.inl rfl)
    rw [Program.events_after hev]
    exact (exec_frame ev.env ev.before ev.op).1.trans hbefore
  · refine Program.events_stable (I := fun db' : Database ℚ => db'.tables.payments = db.tables.payments)
      (fun ev hev hbefore => ?_) (.inl rfl)
    rw [Program.events_after hev]
    exact ((exec_frame ev.env ev.before ev.op).2 ((hspares hcall).events _ _ ev hev)).trans hbefore

/-- A confirmation adds at most one payment, the one that it passes. -/
theorem confirm_payments (hb : AllBooked db.tables) (now : ℚ) (id : String) (payload : ConfirmReservationRequest) :
    (dbStep now db (.confirmReservation id payload)).2.tables.payments = db.tables.payments ∨
      ∃ row r, findReservation db.tables id = some row ∧ SameRow row r ∧
        findReservation (dbStep now db (.confirmReservation id payload)).2.tables id = some r ∧ r.status = .confirmed ∧
        (dbStep now db (.confirmReservation id payload)).2.tables.payments = db.tables.payments ++
          [⟨payload.paymentId, id, .succeeded, payload.amount, payload.provider, payload.providerRef, now, now⟩] := by
  have hexpire : Onward db (db.expire now) := onward_sweep rfl
  cases dbStep_confirm now db id payload with
  | failed e hx hdb => exact .inl (by rw [hdb]; rfl)
  | already row hrow hS hx hdb => exact .inl (by rw [hdb]; rfl)
  | written row hrow hheld r hx hget hdb =>
      have hnone : paymentsOf (db.expire now).tables id = [] := by
        obtain ⟨hmem, hid⟩ := findReservation_mem hrow
        exact hid ▸ ((hexpire.booked hb row hmem).held hheld).1
      obtain ⟨hfind, hconfirmed, before, hbefore, hsame⟩ := dbStep_confirmed hx
      refine .inr ⟨before, r.reservation, hbefore, hsame, hfind, hconfirmed, ?_⟩
      rw [hdb, Repository.confirmReservation, upsertPayment_fresh hnone]
      rfl

/-- The amount that a confirmation passes is the price of the row's own seat. -/
structure Right (db : Database ℚ) (id : String) (payload : ConfirmReservationRequest) : Prop where
  amount : ∀ r, findReservation db.tables id = some r → payload.amount = price db.tables r.seat
  provider : payload.provider = Orchestrator.mockPaymentProvider
  providerRef : payload.providerRef = payload.paymentId

theorem Billing.dbStep (h : Billing db) (now : ℚ) {call : DbCall}
    (hcall : ∀ id payload, call = .confirmReservation id payload → Right db id payload) :
    Billing (dbStep now db call).2 ∧ db.tables.payments ⊆ (dbStep now db call).2.tables.payments := by
  obtain ⟨honward, hseats, hpayments⟩ := dbStep_frame now db call
  have hev := dbStep_evolves now db call
  have kept (p : Payment ℚ) (hp : p ∈ db.tables.payments) : ∃ r, Charge (AppServer.dbStep now db call).2 p r := by
    obtain ⟨r, hr⟩ := h.charged p hp
    exact hr.evolves hev hseats
  by_cases hconfirm : ∃ id payload, call = .confirmReservation id payload
  · obtain ⟨id, payload, rfl⟩ := hconfirm
    have hright := hcall id payload rfl
    rcases confirm_payments h.booked now id payload with hsame | ⟨row, r, hrow, hsame, hr, hS, hnew⟩
    · rw [hsame]
      exact ⟨⟨honward.booked h.booked, fun p hp => kept p (hsame ▸ hp)⟩, List.Subset.refl _⟩
    · rw [hnew]
      refine ⟨⟨honward.booked h.booked, fun p hp => ?_⟩, List.subset_append_left _ _⟩
      rw [hnew] at hp
      rcases List.mem_append.mp hp with hp | hp
      · exact kept p hp
      · obtain rfl := List.mem_singleton.mp hp
        refine ⟨r, hr, hS, ?_, hright.provider, hright.providerRef⟩
        rw [hsame.seat, price_seats hseats]
        exact hright.amount row hrow
  · have hsame := hpayments fun id payload he => hconfirm ⟨id, payload, he⟩
    rw [hsame]
    exact ⟨⟨honward.booked h.booked, fun p hp => kept p (hsame ▸ hp)⟩, List.Subset.refl _⟩

/-! ### A flow among others -/

/-- What may happen to the world between two steps of a flow. -/
structure Bills (w w' : World) : Prop where
  evolves : Evolves w.db w'.db
  seats : w'.db.tables.seats = w.db.tables.seats
  billing : Billing w.db → Billing w'.db ∧ w.db.tables.payments ⊆ w'.db.tables.payments

theorem Bills.refl (w : World) : Bills w w := ⟨Evolves.refl w.db, rfl, fun h => ⟨h, List.Subset.refl _⟩⟩

theorem Bills.trans (a b c : World) (h : Bills a b) (h' : Bills b c) : Bills a c where
  evolves := h.evolves.trans h'.evolves
  seats := h'.seats.trans h.seats
  billing := fun hb => by
    obtain ⟨hb, hsub⟩ := h.billing hb
    obtain ⟨hb', hsub'⟩ := h'.billing hb
    exact ⟨hb', List.Subset.trans hsub hsub'⟩

def Billed (w : World) (op : AppOp) : Prop :=
  ∀ id payload, op = .db (.confirmReservation id payload) → Right w.db id payload

theorem billed_idle {op : AppOp} (h : Idle op) (w : World) : Billed w op :=
  fun id payload he => absurd he (h id payload)

theorem appStep_bills {env : Env} {w : World} {op : AppOp} (h : Billed w op) : Bills w (appStep env w op).2 := by
  cases op with
  | uuid4 => exact Bills.refl w
  | now => exact Bills.refl w
  | redis tokens =>
      rcases appStep_redis env w tokens with hw | hw <;> rw [hw]
      · exact ⟨Evolves.refl w.db, rfl, fun hb => ⟨hb, List.Subset.refl _⟩⟩
      · exact Bills.refl w
  | db call =>
      rcases appStep_db env w call with hw | hw <;> rw [hw]
      · exact ⟨dbStep_evolves env.now w.db call, (dbStep_frame env.now w.db call).2.1,
          fun hb => hb.dbStep env.now fun id payload he => h id payload (congrArg AppOp.db he)⟩
      · exact Bills.refl w

/-- A flow among others: its confirmations pass the right amounts, and its results satisfy `Q`. -/
abbrev Pays {α : Type} (C : World → AppOp → Prop) (Q : α → World → Prop) (p : Flow α) (w : World) : Prop :=
  p.Sat Bills (Steps C) (fun w op _ => Billed w op) (onOk Q) w

def Solid (I : World → Prop) : Prop := ∀ a b, Bills a b → I a → I b

theorem Solid.and {I J : World → Prop} (hI : Solid I) (hJ : Solid J) : Solid fun w => I w ∧ J w :=
  fun a b hm h => ⟨hI a b hm h.1, hJ a b hm h.2⟩

section Interference

variable {α β : Type} {C : World → AppOp → Prop} {Q : α → World → Prop} {Q' : β → World → Prop} {I : World → Prop}
  {w w' : World} {e s u id : String}

theorem steps_bills {op : AppOp} {x : Except Error op.Res} (h : Steps C w op x w') (hb : Billed w op) : Bills w w' := by
  obtain ⟨_, env, he⟩ := h
  have hw : w' = (appStep env w op).2 := by rw [he]
  rw [hw]
  exact appStep_bills hb

theorem pays_idle (hI : Solid I) {p : Flow α} (hp : p.Calls Idle) (hs : I w) : Pays C (fun _ w' => I w') p w := by
  have hsat : p.Sat Bills (Steps C) (fun w op _ => Billed w op) (fun _ w' => I w') w := by
    refine hp.sat hI ?_ hs
    rintro s op x s' hop ht hs
    exact ⟨billed_idle hop s, hI _ _ (steps_bills ht (billed_idle hop s)) hs⟩
  refine hsat.mono fun x w' h => ?_
  cases x with
  | ok a => exact h
  | error e => trivial

theorem Pays.seq {p : Flow α} {f : α → Flow β} (h : Pays C Q p w) (hf : ∀ a w', Q a w' → Pays C Q' (f a) w') :
    Pays C Q' (p >>= f) w :=
  Sat.seq Bills.refl h hf

theorem Pays.frame (hI : Solid I) {p : Flow α} {post : Except Error α → World → Prop}
    (h : p.Sat Bills (Steps C) (fun w op _ => Billed w op) post w) (hs : I w) :
    p.Sat Bills (Steps C) (fun w op _ => Billed w op) (fun x w' => post x w' ∧ I w') w := by
  refine Sat.frame hI ?_ h hs
  rintro s op x s' ht hg
  exact hI _ _ (steps_bills ht hg)

theorem Pays.and (hI : Solid I) {p : Flow α} (h : Pays C Q p w) (hs : I w) :
    Pays C (fun a w' => Q a w' ∧ I w') p w := by
  refine (Pays.frame hI h hs).mono fun x w' hx => ?_
  cases x with
  | ok a => exact hx
  | error e => trivial

theorem Pays.tryCatch (hI : Solid I) {p : Flow α} {f : Error → Flow α} (h : Pays C Q p w) (hs : I w)
    (hf : ∀ e w', I w' → Pays C Q (f e) w') : Pays C Q (tryCatch p f) w :=
  Sat.tryCatch Bills.refl (Pays.frame hI h hs) (fun _ _ hx => hx.1) fun e w' hx => hf e w' hx.2

theorem pays_ret {a : α} (h : ∀ w', Bills w w' → Q a w') : Pays C Q (pure a) w := h

theorem pays_throw (e : Error) : Pays C Q (throw e) w := fun _ _ => trivial

theorem pays_db {call : DbCall} {Q : call.Res → World → Prop}
    (h : ∀ w₁, Bills w w₁ → C w₁ (.db call) → Billed w₁ (.db call) ∧ ∀ now a w', (dbStep now w₁.db call).1 = .ok a →
      Bills w₁ { w₁ with db := (dbStep now w₁.db call).2 } → Bills { w₁ with db := (dbStep now w₁.db call).2 } w' →
      Q a w') : Pays C Q (Orchestrator.db call) w := by
  intro w₁ hm x w₂ ht
  obtain ⟨hb, hok⟩ := h w₁ hm ht.1
  have hstep := steps_bills ht hb
  obtain ⟨_, env, he⟩ := ht
  refine ⟨hb, ?_⟩
  cases x with
  | error e => exact fun _ _ => trivial
  | ok a =>
      intro w' hm'
      obtain ⟨hres, hw⟩ := appStep_db_ok he
      rw [hw] at hm' hstep
      exact hok env.now a w' hres hstep hm'

/-! ### The flows -/

/-- The payment that a result shows is booked for its reservation, at the price of the seat. -/
def Receipt (e s : String) (r : Orchestrator.ConfirmResult) (w : World) : Prop :=
  r.payment.amount = price w.db.tables (e, s) ∧ ∃ p ∈ w.db.tables.payments,
    p.reservationId = r.reservation.reservation.reservationId ∧ p.paymentId = r.payment.paymentId ∧
      p.amount = r.payment.amount ∧ p.status = .succeeded

theorem solid_billing : Solid fun w => Billing w.db := fun _ _ hm hb => (hm.billing hb).1

theorem solid_price (seat : String × String) (n : Int) : Solid fun w => price w.db.tables seat = n :=
  fun _ _ hm h => (price_seats hm.seats seat).trans h

theorem solid_receipt (e s : String) (r : Orchestrator.ConfirmResult) :
    Solid fun w => Billing w.db ∧ Receipt e s r w := by
  rintro a b hm ⟨hb, hprice, p, hp, hpaid⟩
  obtain ⟨hb', hsub⟩ := hm.billing hb
  exact ⟨hb', hprice.trans (price_seats hm.seats _).symm, p, hsub hp, hpaid⟩

theorem pays_findEventSeat (hs : Billing w.db) (e s : String) :
    Pays C (fun seat w' => Billing w'.db ∧ price w'.db.tables (e, s) = seat.seat.price)
      (Orchestrator.findEventSeat e s) w := by
  refine Pays.seq (Q := fun rows w' => Billing w'.db ∧ ∀ seat ∈ rows,
    price w'.db.tables seat.seat.key = seat.seat.price ∧ seat.seat.eventId = e)
    (pays_db fun w₁ hm _ => ⟨nofun, fun now rows w' hok hstep hm' => ?_⟩) fun rows w' h => ?_
  · refine ⟨solid_billing _ _ hm' (solid_billing _ _ hstep (solid_billing _ _ hm hs)), fun seat hseat => ?_⟩
    obtain ⟨hdb, hrows | ⟨-, err, herr⟩⟩ := dbStep_listEventSeats now w₁.db e
    · cases hrows.symm.trans hok
      obtain ⟨hmem, he⟩ := mem_listSeats hseat
      refine ⟨solid_price _ _ _ _ hm' ?_, he⟩
      show price (dbStep now w₁.db (.listEventSeats e)).2.tables _ = _
      rw [hdb]
      exact price_of_mem (w₁.db.expire now).valid hmem
    · cases herr.symm.trans hok
  · cases hf : rows.find? (fun seat => seat.seat.seatId = s) with
    | none => exact pays_throw _
    | some seat =>
        obtain ⟨hprice, he⟩ := h.2 seat (List.mem_of_find?_eq_some hf)
        have hid : seat.seat.seatId = s := by simpa using List.find?_some hf
        rw [Seat.key, he, hid] at hprice
        exact pays_ret fun w'' hm => ⟨solid_billing _ _ hm h.1, solid_price _ _ _ _ hm hprice⟩

theorem matches_written {payload : ConfirmReservationRequest} {r : ReservationRecord ℚ}
    (hdb : db'.tables = Repository.confirmReservation id
      ⟨payload.paymentId, .succeeded, payload.amount, payload.provider, payload.providerRef⟩ now db.tables)
    (hget : getReservation db'.tables id = some r) : Service.confirmRequestMatches r payload = true := by
  obtain ⟨row, hrow, rfl⟩ := Option.map_eq_some_iff.mp hget
  obtain ⟨q, hq, hstatus, hpaymentId, hamount, hprovider, hproviderRef⟩ := paymentsOf_upsert db.valid id
    ⟨payload.paymentId, .succeeded, payload.amount, payload.provider, payload.providerRef⟩ now
  have hlist : (record db'.tables row).payment.toList = [q] := by
    rw [← paymentsOf_record db'.valid, (findReservation_mem hrow).2, hdb]
    exact hq
  have hpayment : (record db'.tables row).payment = some q := by simpa using hlist
  simp [Service.confirmRequestMatches, hpayment, hstatus, hpaymentId, hamount, hprovider, hproviderRef]

/-- What the DB answers to a confirmation is the row and the payment that it now has. -/
theorem confirmed_payment {payload : ConfirmReservationRequest} {r : ReservationRecord ℚ}
    (h : (dbStep now db (.confirmReservation id payload)).1 = .ok r) :
    ∃ p ∈ (dbStep now db (.confirmReservation id payload)).2.tables.payments,
      p.reservationId = r.reservation.reservationId ∧ p.paymentId = payload.paymentId ∧ p.amount = payload.amount ∧
        p.status = .succeeded := by
  have hmatch : getReservation (dbStep now db (.confirmReservation id payload)).2.tables id = some r ∧
      Service.confirmRequestMatches r payload = true := by
    cases dbStep_confirm now db id payload with
    | failed e hx hdb => cases hx.symm.trans h
    | already row hrow hS hx hdb =>
        cases hx.symm.trans h
        refine ⟨by rw [hdb, getReservation, hrow]; rfl, ?_⟩
        have hok : (Program.atomically exec now (Service.confirmReservation id payload) db).1 = .ok (some _) :=
          response_ok h
        have hr : (record (db.expire now).tables row).reservation = row := rfl
        rw [Service.confirmReservation, atomically_requireReservation, hrow] at hok
        simp only [hr, hS, if_true] at hok
        split at hok
        next hmatch => exact hmatch
        next => cases hok
    | written row hrow hheld r' hx hget hdb =>
        cases hx.symm.trans h
        exact ⟨hget, matches_written hdb hget⟩
  obtain ⟨hget, hmatch⟩ := hmatch
  obtain ⟨row, hrow, rfl⟩ := Option.map_eq_some_iff.mp hget
  unfold Service.confirmRequestMatches at hmatch
  split at hmatch
  next => cases hmatch
  next p hp =>
    have hmatch := of_decide_eq_true hmatch
    refine ⟨p, List.mem_of_find?_eq_some hp, ?_, hmatch.1, hmatch.2.1, hmatch.2.2.2.2⟩
    have hid := List.find?_some hp
    exact of_decide_eq_true hid

theorem pays_confirmReservation (hI : Solid I)
    (hrow : ∀ w payload, I w → C w (.db (.confirmReservation id payload)) → RowIs w.db id e s u) (hs : I w)
    (hb : Billing w.db) :
    Pays C (fun r w' => Billing w'.db ∧ Receipt e s r w') (Orchestrator.confirmReservation id e s u) w := by
  refine ((pays_findEventSeat hb e s).and hI hs).seq fun seat w h => ?_
  have hJ : Solid fun w => (Billing w.db ∧ price w.db.tables (e, s) = seat.seat.price) ∧ I w :=
    (solid_billing.and (solid_price _ _)).and hI
  refine (pays_idle hJ (calls_seatStatus usual_idle.seatStatus e s) h).seq fun status w h => ?_
  split
  · exact (pays_idle hJ (calls_safeExpire (by simp [Idle])) h).seq fun _ _ _ => pays_throw _
  split
  · exact pays_throw _
  split
  · exact pays_throw _
  have hpayment : Pays C (fun payment w' => ((Billing w'.db ∧ price w'.db.tables (e, s) = seat.seat.price) ∧ I w') ∧
      payment.amount = seat.seat.price ∧ payment.provider = Orchestrator.mockPaymentProvider ∧
        payment.providerRef = payment.paymentId) (Orchestrator.buildMockPayment seat.seat.price) w :=
    (pays_idle hJ (calls_uuid4 usual_idle) h).seq fun _ w' h => pays_ret fun w'' hm => ⟨hJ _ _ hm h, rfl, rfl, rfl⟩
  refine hpayment.seq fun payment w h => ?_
  obtain ⟨h, hamount, hprovider, hproviderRef⟩ := h
  refine Pays.seq (Q := fun record w' => Billing w'.db ∧ ∀ view, Receipt e s ⟨record, view, payment⟩ w')
    (pays_db fun w₁ hm hC => ⟨?_, fun now record w' hok hstep hm' => ?_⟩) fun record w h => ?_
  · obtain ⟨⟨-, hprice⟩, hi⟩ := hJ _ _ hm h
    intro id' payload he
    cases he
    refine ⟨fun r hr => ?_, hprovider, hproviderRef⟩
    obtain ⟨he, hs, -⟩ := hrow w₁ _ hi hC r hr
    rw [Reservation.seat, he, hs, hprice]
    exact hamount
  · obtain ⟨⟨hb, hprice⟩, -⟩ := hJ _ _ hm h
    obtain ⟨p, hp, hrow, hid, hpaid, hS⟩ := confirmed_payment hok
    have hreceipt (view : Orchestrator.SeatView) := solid_receipt e s ⟨record, view, payment⟩ _ _ hm'
      ⟨solid_billing _ _ hstep hb, hamount.trans (solid_price _ _ _ _ hstep hprice).symm, p, hp, hrow, hid, hpaid, hS⟩
    exact ⟨(hreceipt ⟨seat, "", none, none⟩).1, fun view => (hreceipt view).2⟩
  · have hK : Solid fun w => Billing w.db ∧ ∀ view, Receipt e s ⟨record, view, payment⟩ w := fun a b hm h =>
      ⟨solid_billing _ _ hm h.1, fun view => (solid_receipt e s _ _ _ hm ⟨h.1, h.2 view⟩).2⟩
    refine (pays_idle hK (calls_finalizeAttempts (idle_redis _) _ _) h).seq fun result w h => ?_
    split
    · exact pays_throw _
    · exact (pays_idle hK (calls_getEventSeat usual_idle e s) h).seq fun view w h => pays_ret fun w' hm =>
        solid_receipt e s _ _ _ hm ⟨h.1, h.2 view⟩

theorem solid_rowHas (id e s u : String) : Solid fun w => RowHas w.db id e s u := by
  rintro a b hm ⟨r, hr, rfl, rfl, rfl⟩
  obtain ⟨r', hr', hsame, _⟩ := hm.evolves id r hr
  exact ⟨r', hr', hsame.eventId, hsame.seatId, hsame.userId⟩

theorem pays_holdReservation (e s u : String) (n : Int) (hb : Billing w.db) :
    Pays C (fun r w' => RowHas w'.db r.reservation.reservation.reservationId e s u ∧ Billing w'.db)
      (Orchestrator.holdReservation e s u n) w := by
  have idle {α : Type} {p : Flow α} (hp : p.Calls Idle) {w : World} (hb : Billing w.db) :
      Pays C (fun _ w' => Billing w'.db) p w := pays_idle solid_billing hp hb
  refine (idle (calls_findEventSeat usual_idle e s) hb).seq fun _ w hb => ?_
  refine (idle (calls_reserveSeat (fun _ => idle_redis _) n) hb).seq fun reserved w hb => ?_
  split
  · exact pays_throw _
  refine (idle (calls_uuid4 usual_idle) hb).seq fun id w hb => ?_
  refine (idle (calls_uuid4 usual_idle) hb).seq fun token w hb => ?_
  refine (idle (calls_currentTime usual_idle) hb).seq fun now w hb => ?_
  refine (idle (Calls.ofExcept Idle _) hb).seq fun expiresAt w hb => ?_
  refine Pays.seq (Q := fun created w' => RowHas w'.db created.1.reservation.reservationId e s u ∧ Billing w'.db)
    (Pays.tryCatch solid_billing ?_ hb fun err w hb => ?_) fun created w h => ?_
  · refine pays_db fun w₁ hm _ => ⟨nofun, fun now created w' hok hstep hm' => ?_⟩
    obtain ⟨hfind, hrow⟩ := dbStep_created hok
    refine (solid_rowHas _ e s u).and solid_billing _ _ hm' ⟨⟨created.1.reservation, ?_, hrow⟩, ?_⟩
    · rw [(findReservation_mem hfind).2]
      exact hfind
    · exact solid_billing _ _ hstep (solid_billing _ _ hm hb)
  · exact (idle (calls_safeRelease usual_idle (idle_redis _)) hb).seq fun _ _ _ => pays_throw _
  · have hJ : Solid fun w => RowHas w.db created.1.reservation.reservationId e s u ∧ Billing w.db :=
      (solid_rowHas _ e s u).and solid_billing
    exact (pays_idle hJ (calls_getEventSeat usual_idle e s) h).seq fun _ w h => pays_ret fun w' hm => hJ _ _ hm h

theorem pays_purchaseSeat (e s u : String) (n : Int) (hb : Billing w.db) :
    Pays C (fun r w' => Billing w'.db ∧ Receipt e s r.1 w') (Orchestrator.purchaseSeat e s u n) w := by
  refine (pays_holdReservation e s u n hb).seq fun hold w h => ?_
  refine Pays.seq (Q := fun r w' => Billing w'.db ∧ Receipt e s r w')
    (Pays.tryCatch solid_billing ?_ h.2 fun err w hb => ?_)
    fun r w h => pays_ret fun w' hm => solid_receipt e s r _ _ hm h
  · exact pays_confirmReservation (solid_rowHas _ e s u) (fun _ _ h _ => h.rowIs) h.1 h.2
  · exact (pays_idle solid_billing (calls_safeCancel usual_idle _ (idle_redis _)) hb).seq fun _ _ _ => pays_throw _

/-- The receipt that a call hands out by returning. -/
def AppCall.Receipt : AppCall → AppResult → World → Prop
  | .confirmReservation _ e s _, .confirmed r, w => AppServer.Receipt e s r w
  | .purchaseSeat e s _ _, .purchased r _, w => AppServer.Receipt e s r w
  | _, _, _ => True

theorem flow_pays (call : AppCall) (hb : Billing w.db) :
    Pays (RowMatches call) (fun result w' => call.Receipt result w') call.flow w := by
  have idle {p : Flow AppResult} (hp : p.Calls Idle) (hcall : ∀ result w', call.Receipt result w') :
      Pays (RowMatches call) (fun result w' => call.Receipt result w') p w :=
    (pays_idle (C := RowMatches call) solid_billing hp hb).mono fun x w' _ => by
      cases x with
      | ok result => exact hcall result w'
      | error e => trivial
  cases call with
  | holdReservation e s u n =>
      refine idle ?_ fun _ _ => trivial
      exact (calls_holdReservation usual_idle (idle_redis _) (fun _ => idle_redis _) n).bind fun _ => trivial
  | cancelReservation id e s u =>
      refine idle ?_ fun _ _ => trivial
      exact (calls_cancelReservation usual_idle id (idle_redis _)).bind fun _ => trivial
  | runOnce limit =>
      refine idle ?_ fun _ _ => trivial
      exact (calls_runOnce usual_idle (fun _ _ _ => idle_redis _) (fun _ _ _ => idle_redis _) limit).bind
        fun _ => trivial
  | confirmReservation id e s u =>
      exact (pays_confirmReservation (I := fun _ => True) (fun _ _ _ _ => trivial) (fun _ _ _ hC => hC) trivial hb).seq
        fun r w h => pays_ret fun w' hm => (solid_receipt e s r _ _ hm h).2
  | purchaseSeat e s u n =>
      exact (pays_purchaseSeat e s u n hb).seq
        fun r w h => pays_ret fun w' hm => (solid_receipt e s r.1 _ _ hm h).2

end Interference

/-! ### Runs -/

def soldRows (db : Database ℚ) : List (Reservation ℚ) :=
  db.tables.reservations.filter (fun r => r.status = .confirmed)

def revenue (db : Database ℚ) : Int := (db.tables.payments.map Payment.amount).sum

/-- Every sold reservation has its payment, and every payment its sold reservation. -/
theorem Billing.paid (h : Billing db) :
    (db.tables.payments.map Payment.reservationId).Perm ((soldRows db).map Reservation.reservationId) := by
  have hsold : ((soldRows db).map Reservation.reservationId).Nodup :=
    (List.Sublist.map _ List.filter_sublist).nodup db.valid.reservationIds
  refine (List.perm_ext_iff_of_nodup db.valid.paymentReservationIds hsold).mpr fun id => ?_
  simp only [List.mem_map, soldRows, List.mem_filter, decide_eq_true_eq]
  constructor
  · rintro ⟨p, hp, rfl⟩
    obtain ⟨r, hr⟩ := h.charged p hp
    obtain ⟨hmem, hid⟩ := findReservation_mem hr.row
    exact ⟨r, ⟨hmem, hr.sold⟩, hid⟩
  · rintro ⟨r, ⟨hr, hS⟩, rfl⟩
    obtain ⟨-, p, hp, -⟩ := (h.booked r hr).confirmed hS
    obtain ⟨hmem, hid⟩ :=
      List.mem_filter.mp (hp ▸ List.mem_singleton_self p : p ∈ paymentsOf db.tables r.reservationId)
    exact ⟨p, hmem, of_decide_eq_true hid⟩

theorem Billing.revenue_eq (h : Billing db) :
    revenue db = ((soldRows db).map (fun r => price db.tables r.seat)).sum := by
  let owed (id : String) : Int := ((findReservation db.tables id).map (fun r => price db.tables r.seat)).getD 0
  have hpayments : db.tables.payments.map Payment.amount = (db.tables.payments.map Payment.reservationId).map owed := by
    rw [List.map_map]
    refine List.map_congr_left fun p hp => ?_
    obtain ⟨r, hr⟩ := h.charged p hp
    simp only [Function.comp_apply, owed, hr.row, hr.amount, Option.map_some, Option.getD_some]
  have hsold : (soldRows db).map (fun r => price db.tables r.seat) =
      ((soldRows db).map Reservation.reservationId).map owed := by
    rw [List.map_map]
    refine List.map_congr_left fun r hr => ?_
    simp only [Function.comp_apply, owed, findReservation_of_mem db.valid (List.mem_filter.mp hr).1, Option.map_some,
      Option.getD_some]
  rw [revenue, hpayments, hsold]
  exact (h.paid.map owed).sum_eq

variable {ι : Type} [DecidableEq ι]

/-- Whatever calls run side by side, and whichever of them fail, the money that was taken is the price of the seats
that are sold, each of them once, and no receipt is for anything else. -/
theorem revenue_is_sales (w : World) (hw : w.db.tables.reservations = []) (calls : ι → AppCall)
    (schedule : List (ι × Env)) (h : Pool.Throughout appStep (Matched calls) (resending w calls) schedule) :
    let c := (resending w calls).runs appStep schedule
    revenue c.state.db = ((soldRows c.state.db).map (fun r => price w.db.tables r.seat)).sum ∧
      ((soldRows c.state.db).map Reservation.seat).Nodup ∧
      (∀ p ∈ c.state.db.tables.payments, ∃ r, Charge c.state.db p r) ∧
      ∀ i result, c.threads i = .ret result → (calls i).Receipt result c.state := by
  intro c
  have hbilling : Billing w.db := by
    refine ⟨fun r hr => absurd hr (hw ▸ List.not_mem_nil), fun p hp => ?_⟩
    have := w.db.valid.paymentReservations p hp
    rw [hw] at this
    exact absurd this List.not_mem_nil
  have hstart (i : ι) : Pays (RowMatches (calls i)) (fun result w' => (calls i).Receipt result w')
      ((resending w calls).threads i) (resending w calls).state :=
    Sat.expand Bills.refl Bills.trans (refines_resend Bills.trans fun _ _ _ _ => steps_bills)
      (flow_pays (calls i) hbilling)
  obtain ⟨hbills, hflows⟩ := Pool.runs_sat Bills.refl Bills.trans (fun _ _ _ _ _ => steps_bills)
    (h.mono fun _ t ht op hop => ⟨ht.rowsMatch op hop, t.2, rfl⟩) hstart
  obtain ⟨hend, -⟩ := hbills.billing hbilling
  refine ⟨?_, c.state.db.valid.confirmedSeats, hend.charged, fun i result hret => ?_⟩
  · rw [hend.revenue_eq]
    exact congrArg List.sum (List.map_congr_left fun r _ => price_seats hbills.seats r.seat)
  · have hi := hflows i
    rw [show ((resending w calls).runs appStep schedule).threads i = .ret result from hret] at hi
    exact hi c.state (Bills.refl c.state)

/-- A command that is carried out and whose reply is lost. -/
def unheard (i : Fin 3) : Fin 3 × Env := (i, ⟨i.val, toString i.val, .fail true ⟨.osError, "timed out"⟩⟩)

theorem holdAndConfirm_revenue :
    revenue ((resending ⟨openSale, ∅⟩ holdAndConfirm).runs appStep
      (turns 0 8 ++ turns 1 4 ++ unheard 1 :: turns 1 3)).state.db = 100 := by
  have h := (revenue_is_sales ⟨openSale, ∅⟩ rfl holdAndConfirm (turns 0 8 ++ turns 1 4 ++ unheard 1 :: turns 1 3)
    (by decide +kernel)).1
  exact h.trans (by decide +kernel)

end Ticketing.AppServer
