import Ticketing.AppServer.HoldFlows
import Ticketing.AppServer.SoldSeats

namespace Ticketing.AppServer

open Python Interaction TicketingApi Repository Commands Orchestrator
open Storage (Store seatKey SeatLease)
open Interaction.Program (Sat)

variable {t : ℚ} {db₀ : Database ℚ} {w w' : World} {id e s u : String} {pending : String → Prop} {l : SeatLease}

/-! ### The end of a reservation -/

/-- A row that is given up no longer counts. -/
theorem Covered.given (h : Covered pending t w) {f : Reservation ℚ → Reservation ℚ}
    (hf : ∀ r, (f r).status ≠ .held ∧ (f r).status ≠ .confirmed ∧ (f r).expiresAt = r.expiresAt) {db : Database ℚ}
    (hdb : db.tables = updateReservation id f (w.db.expire t).tables) : Covered pending t { w with db := db } := by
  refine (h.expire t).fewer fun r hr => ?_
  rw [hdb] at hr
  rcases mem_updateReservation hr with ⟨hr, _⟩ | ⟨r₀, hr₀, _, rfl⟩
  · exact .inl hr
  · exact .inr ⟨(hf r₀).1, (hf r₀).2.1, r₀, hr₀, (hf r₀).2.2⟩

theorem ends_safeExpire (h : Covered pending t w) (id : String) :
    Ends t db₀ (fun _ w' => Covered pending t w') (safeExpire id) w := by
  refine Does.tryCatch (P := fun _ w' => Covered pending t w') ?_ (fun _ _ h => h) fun _ _ h => does_ret h
  refine Does.bind (P := fun _ w' => Covered pending t w') (ends_db ?_) (fun _ _ h => does_ret h) fun _ _ h => h
  cases dbStep_expire t w.db id with
  | failed _ _ hdb => exact hdb ▸ h.expire t
  | already _ _ _ _ hdb => exact hdb ▸ h.expire t
  | written _ _ _ _ _ _ hdb => exact h.given (f := fun r => { r with status := .expired, updatedAt := t }) (fun r => by simp) hdb

/-- The only live hold of a seat is the one that is given up. -/
def OnlyHold (t : ℚ) (id e s u : String) (w : World) : Prop :=
  ∀ r ∈ w.db.tables.reservations, Live r t → rowKey r = seatKey e s → r.userId = u → r.reservationId = id

theorem Covered.vacant (h : Covered Nothing t w) {d : ℚ} (hs : Shows w.redis (seatKey e s) t (.held u d))
    (honly : OnlyHold t id e s u w) {r : Reservation ℚ} (hr : r ∈ (w.db.expire t).tables.reservations)
    (hc : r.status = .confirmed ∨ Live r t) (hid : r.reservationId ≠ id) : rowKey r ≠ seatKey e s := by
  intro hk
  have hr := mem_of_counts hr hc
  rcases hc with hc | hlive
  · exact h.unsold hs (.inr ⟨d, rfl⟩) hr hc hk
  · rcases h.user hs hr (.inr hlive) hk with hb | ⟨_, hb, _⟩
    · cases hb
    · cases hb
      exact hid (honly r hr hlive hk rfl)

theorem ends_cancelReservation (h : Covered Nothing t w) (honly : ∀ row, findReservation (w.db.expire t).tables id = some row →
      row.status = .cancelled ∨ row.status = .held → ∀ d, Shows w.redis (seatKey e s) t (.held u d) → OnlyHold t id e s u w) :
    Ends t db₀ (fun _ w' => Covered Nothing t w') (cancelReservation id e s u) w := by
  refine Does.bind (P := fun x w' => Covered Nothing t w' ∧ w'.redis = w.redis ∧ ∀ r, x = .ok r →
      ∀ d, Shows w.redis (seatKey e s) t (.held u d) →
        ∀ r ∈ w'.db.tables.reservations, r.status = .confirmed ∨ Live r t → rowKey r ≠ seatKey e s)
    (ends_db ?_) (fun r w₁ h₁ => ?_) fun _ _ h₁ => h₁.1
  · refine ⟨?_, rfl, fun r hx d hs => ?_⟩
    · cases dbStep_cancel t w.db id with
      | failed _ _ hdb => exact hdb ▸ h.expire t
      | already _ _ _ _ hdb => exact hdb ▸ h.expire t
      | written _ _ _ _ _ _ hdb =>
          exact h.given (f := fun r => { r with status := .cancelled, updatedAt := t, cancelledAt := some t })
            (fun r => by simp) hdb
    · cases dbStep_cancel t w.db id with
      | failed _ hx' _ => cases hx.symm.trans hx'
      | already row hrow hS _ hdb =>
          rw [hdb]
          refine fun r hr hc => h.vacant hs (honly row hrow (.inl hS) d hs) hr hc fun hid => ?_
          cases (hid ▸ findReservation_of_mem (w.db.expire t).valid hr).symm.trans hrow
          simp [hS, Live] at hc
      | written row hrow hheld _ _ _ hdb =>
          intro r hr hc
          rw [hdb] at hr
          rcases mem_updateReservation hr with ⟨hr, hid⟩ | ⟨r₀, _, _, rfl⟩
          · exact h.vacant hs (honly row hrow (.inr hheld) d hs) hr hc hid
          · simp [Live] at hc
  · obtain ⟨db₁, redis₁⟩ := w₁
    obtain ⟨h₁, rfl, hno⟩ := h₁
    refine (ends_safeRelease h₁ (hno r rfl)).bind (fun _ w₂ h₂ => ?_) fun _ _ h₂ => h₂
    exact (ends_getEventSeat (e := e) (s := s) w₂).bind (fun _ _ h₃ => does_ret (h₂.looked h₃.1)) fun _ _ h₃ => h₂.looked h₃.1

/-! ### A confirmation -/

/-- Everything that a confirmation needs is there. -/
structure Ready (t : ℚ) (db₀ : Database ℚ) (id e s u : String) (w : World) : Prop where
  seat : (e, s) ∈ w.db.tables.seats.map Seat.key
  held : ∃ d, Shows w.redis (seatKey e s) t (.held u d) ∧ Brief t (.held u d)
  confirms : ∀ uuid price, Fresh db₀ uuid → IsInt64 price → ∃ r, (dbStep t (w.db.expire t) (.confirmReservation id
    ⟨"pay-" ++ uuid, price, mockPaymentProvider, "pay-" ++ uuid⟩)).1 = .ok r

/-- Redis has made a held seat its user's for good. -/
structure Finalized (t : ℚ) (e s u : String) (w w' : World) : Prop where
  db : w'.db = w.db
  covered : Covered Nothing t w'
  shows : Shows w'.redis (seatKey e s) t (.owned u)

theorem ends_finalizeConfirmedSeat (h : Covered (· = seatKey e s) t w) {d : ℚ}
    (hs : Shows w.redis (seatKey e s) t (.held u d)) :
    Ends t db₀ (fun x w' => x = .ok ⟨true, "CONFIRMED", some u, -1⟩ ∧ Finalized t e s u w w')
      (finalizeConfirmedSeat e s u) w := by
  have hforced : Finalized t e s u w { w with redis := step w.redis (t, ["FORCE_CONFIRM_SEAT", e, s, u]) } := by
    refine ⟨rfl, h.put (fun k hk => step_lookup_ne rfl hk) (shows_force _ e s u t) (by simp [Brief])
      (fun k hk hp => hk hp) fun r hr hc hk => ?_, shows_force _ e s u t⟩
    rcases h.user hs hr hc hk with hb | ⟨_, hb, _⟩
    · cases hb
    · cases hb
      exact .inl rfl
  have hforce : Ends t db₀ (fun x w' => x = .ok ⟨true, "CONFIRMED", some u, -1⟩ ∧ Finalized t e s u w w')
      (forceConfirmSeat e s u) w := by
    exact ends_command ⟨force_reply _ e s u t, hforced⟩
  have hattempt : Ends t db₀ (fun x w' => x = .ok (.ok ⟨true, "CONFIRMED", some u, -1⟩) ∧ Finalized t e s u w w')
      (tryCatch (do return Except.ok (← forceConfirmSeat e s u))
        (fun x => if x.kind = .upstreamError then return Except.error x else throw x)) w := by
    refine Does.tryCatch (hforce.bind (Q := fun x w' => x = .ok (.ok ⟨true, "CONFIRMED", some u, -1⟩) ∧
      Finalized t e s u w w') (fun r w₁ h₁ => ?_) fun _ _ h₁ => by cases h₁.1) (fun _ _ h => h) fun _ _ h₁ => by cases h₁.1
    cases h₁.1
    exact does_ret ⟨rfl, h₁.2⟩
  unfold finalizeConfirmedSeat redisConfirmRetryAttempts finalizeAttempts
  refine hattempt.bind (fun r w₁ h₁ => ?_) fun _ _ h₁ => by cases h₁.1
  cases h₁.1
  dsimp only
  rw [if_pos ⟨rfl, rfl⟩]
  exact does_ret ⟨rfl, h₁.2⟩

theorem RowIs.expire {db : Database ℚ} (h : RowIs db id e s u) (t : ℚ) : RowIs (db.expire t) id e s u := by
  intro r hr
  rw [findReservation_expire] at hr
  obtain ⟨r₀, hr₀, rfl⟩ := Option.map_eq_some_iff.mp hr
  have hsame := expiredAt_sameRow t r₀
  rw [hsame.eventId, hsame.seatId, hsame.userId]
  exact h r₀ hr₀

/-- The DB keeps the confirmation; Redis may still have to. -/
theorem Covered.confirmed (h : Covered pending t w) (hp : ∀ k, pending k → k = seatKey e s) {d : ℚ}
    (hs : Shows w.redis (seatKey e s) t (.held u d)) (hrow : RowIs w.db id e s u) {payment : PaymentPayload}
    {db : Database ℚ} (hdb : db.tables = Repository.confirmReservation id payment t (w.db.expire t).tables) :
    Covered (· = seatKey e s) t { w with db := db } := by
  have h' := (h.expire t).mono hp
  have hmem {r : Reservation ℚ} (hr : r ∈ db.tables.reservations) : r ∈ (w.db.expire t).tables.reservations ∨
      ∃ r₀ ∈ (w.db.expire t).tables.reservations, r₀.reservationId = id ∧
        r = { r₀ with status := .confirmed, updatedAt := t, confirmedAt := some t } := by
    rw [hdb, Repository.confirmReservation] at hr
    rcases mem_updateReservation hr with ⟨hr, _⟩ | ⟨r₀, hr₀, hid, rfl⟩
    · exact .inl (upsertPayment_reservations id _ t _ ▸ hr)
    · exact .inr ⟨r₀, upsertPayment_reservations id _ t _ ▸ hr₀, hid, rfl⟩
  refine ⟨h.seats, fun r hr hc => ?_, fun r hr x hx => ?_⟩
  · rcases hmem hr with hr | ⟨r₀, hr₀, hid, rfl⟩
    · exact h'.rows r hr hc
    · obtain ⟨rfl, rfl, rfl⟩ := hrow.expire t r₀ (hid ▸ findReservation_of_mem (w.db.expire t).valid hr₀)
      exact ⟨_, hs, .inr ⟨d, rfl, .inl rfl⟩⟩
  · rcases hmem hr with hr | ⟨r₀, hr₀, _, rfl⟩
    · exact h'.dates r hr x hx
    · exact h'.dates r₀ hr₀ x hx

/-- The DB confirmation of a held seat, Redis after it, and the view. -/
theorem ends_confirm (h : Covered pending t w) (hp : ∀ k, pending k → k = seatKey e s) {d : ℚ}
    (hs : Shows w.redis (seatKey e s) t (.held u d)) (hrow : RowIs w.db id e s u)
    (hseat : (e, s) ∈ w.db.tables.seats.map Seat.key) (payload : ConfirmReservationRequest) {α : Type}
    (f : ReservationRecord ℚ → SeatView → α) :
    Ends t db₀ (fun x w' => match x with
      | .ok _ => Covered Nothing t w'
      | .error _ => Covered pending t w' ∧ ∀ r, (dbStep t w.db (.confirmReservation id payload)).1 ≠ .ok r) (do
        let reservation ← Orchestrator.db (.confirmReservation id payload)
        let result ← finalizeConfirmedSeat e s u
        if result.state ≠ "CONFIRMED" ∨ result.userId ≠ some u then
          throw ⟨.upstreamError, "DB confirmed the reservation but Redis could not finalize the seat"⟩
        else return f reservation (← getEventSeat e s)) w := by
  refine Does.bind (P := fun x w' => x = (dbStep t w.db (.confirmReservation id payload)).1 ∧
    w' = { w with db := (dbStep t w.db (.confirmReservation id payload)).2 }) (ends_db ⟨rfl, rfl⟩)
    (fun r w₁ h₁ => ?_) fun x w₁ h₁ => ?_
  · obtain ⟨hx, rfl⟩ := h₁
    obtain ⟨hcovered, hseats⟩ :
        Covered (· = seatKey e s) t { w with db := (dbStep t w.db (.confirmReservation id payload)).2 } ∧
          (dbStep t w.db (.confirmReservation id payload)).2.tables.seats = w.db.tables.seats := by
      cases dbStep_confirm t w.db id payload with
      | failed _ hx' _ => cases hx.trans hx'
      | already _ _ _ _ hdb => exact hdb ▸ ⟨(h.expire t).mono hp, rfl⟩
      | written _ _ _ _ _ _ hdb =>
          refine ⟨h.confirmed hp hs hrow hdb, ?_⟩
          rw [hdb]
          exact upsertPayment_seats id _ t _
    refine (ends_finalizeConfirmedSeat hcovered hs).bind (fun result w₂ h₂ => ?_) fun _ _ h₂ => by cases h₂.1
    obtain ⟨hresult, hfinal⟩ := h₂
    cases hresult
    rw [if_neg (by simp)]
    refine (ends_getEventSeat (e := e) (s := s) w₂).bind (fun view w₃ h₃ => ?_) fun _ w₃ h₃ => ?_
    · exact does_ret (hfinal.covered.looked h₃.1)
    · have hmem : (e, s) ∈ w₂.db.tables.seats.map Seat.key := by rwa [hfinal.db, hseats]
      obtain ⟨view, hview⟩ := h₃.2 hmem ⟨_, hfinal.shows, by simp [Brief]⟩
      cases hview
  · obtain ⟨hx, rfl⟩ := h₁
    refine ⟨?_, fun r hr => by cases hx.trans hr⟩
    cases dbStep_confirm t w.db id payload with
    | failed _ _ hdb => exact hdb ▸ h.expire t
    | already _ _ _ hx' _ => cases hx.trans hx'
    | written _ _ _ _ hx' _ _ => cases hx.trans hx'

theorem ends_confirmReservation (h : Covered pending t w) (hp : ∀ k, pending k → k = seatKey e s)
    (hrow : RowIs w.db id e s u) :
    Ends t db₀ (fun x w' => match x with
      | .ok _ => Covered Nothing t w'
      | .error _ => Covered pending t w' ∧ ¬ Ready t db₀ id e s u w) (confirmReservation id e s u) w := by
  obtain ⟨l, hl, hb⟩ := h.seats e s
  have hheld (hready : Ready t db₀ id e s u w) : ∃ d, l = .held u d := by
    obtain ⟨d, hd, _⟩ := hready.held
    exact ⟨d, hl.unique hd⟩
  refine (ends_findEventSeat e s w).bind (fun seat w₁ h₁ => ?_) fun _ _ h₁ => ?_
  · obtain ⟨rfl, hmem, hkey⟩ := h₁
    have hseat : (e, s) ∈ w.db.tables.seats.map Seat.key := List.mem_map.mpr ⟨_, hmem, hkey⟩
    have h₂ : Covered pending t ⟨w.db.expire t, Storage.purge w.redis (seatKey e s) t⟩ :=
      (h.expire t).look fun key l hl => hl.purge _
    refine Does.bind (P := fun x w' => x = reported w.redis e s t ∧
      w' = ⟨w.db.expire t, Storage.purge w.redis (seatKey e s) t⟩) (ends_seatStatus ⟨rfl, rfl⟩)
      (fun status w₂ hw₂ => ?_) fun x w₂ hw₂ => ?_
    · obtain ⟨hstatus, rfl⟩ := hw₂
      obtain ⟨hstate, huser⟩ := hl.reported_eq hstatus.symm
      split
      next hav =>
        refine (ends_safeExpire h₂ id).bind (fun _ w₃ h₃ => does_throw ⟨h₃, fun hready => ?_⟩) fun _ w₃ h₃ => ⟨h₃, fun hready => ?_⟩
        all_goals
          obtain ⟨d, rfl⟩ := hheld hready
          rw [hstate] at hav
          simp [stateText] at hav
      next =>
        split
        next hno =>
          refine does_throw ⟨h₂, fun hready => ?_⟩
          obtain ⟨d, rfl⟩ := hheld hready
          exact hno huser
        next hu =>
          split
          next hno =>
            refine does_throw ⟨h₂, fun hready => ?_⟩
            obtain ⟨d, rfl⟩ := hheld hready
            exact hno hstate
          next hs =>
            obtain ⟨d, rfl⟩ := stateText_held (hstate ▸ not_not.mp hs) (huser ▸ not_not.mp hu)
            unfold buildMockPayment
            rw [Program.bind_assoc]
            refine ends_uuid4 fun uuid huuid => ?_
            have hconfirm : Ends t db₀ _ _ _ := ends_confirm h₂ hp (hl.purge _) (hrow.expire t) hseat
              ⟨"pay-" ++ uuid, seat.seat.price, mockPaymentProvider, "pay-" ++ uuid⟩ fun reservation view =>
                ConfirmResult.mk reservation view ⟨"pay-" ++ uuid, seat.seat.price, mockPaymentProvider, "pay-" ++ uuid⟩
            refine Sat.mono hconfirm fun x w₃ h₃ => ?_
            cases x with
            | ok _ => exact h₃
            | error x =>
                refine ⟨h₃.1, fun hready => ?_⟩
                obtain ⟨r, hr⟩ := hready.confirms uuid seat.seat.price huuid (w.db.valid.seatIntegers _ hmem).2
                exact h₃.2 r hr
    · obtain ⟨hx, rfl⟩ := hw₂
      rw [hl.status hb] at hx
      cases hx
  · obtain ⟨rfl, hno⟩ := h₁
    exact ⟨h.expire t, fun hready => hno hready.seat⟩

/-! ### A purchase -/

theorem dbStep_confirms {now : ℚ} {db : Database ℚ} {payload : ConfirmReservationRequest} {row : Reservation ℚ}
    (hrow : findReservation (db.expire now).tables id = some row) (hheld : row.status = .held)
    (hamount : IsInt64 payload.amount) (hvalid : Valid (Repository.confirmReservation id
      ⟨payload.paymentId, .succeeded, payload.amount, payload.provider, payload.providerRef⟩ now (db.expire now).tables)) :
    ∃ r, (dbStep now db (.confirmReservation id payload)).1 = .ok r := by
  simp only [dbStep, atomic, confirmReservation_valid hrow hheld hamount hvalid, getReservation,
    findReservation_confirmReservation, hrow]
  exact ⟨_, rfl⟩

theorem Granted.ready (hw : Covered Nothing t w) {d : ℚ} (h : Granted e s u d t w id w') : Ready t w.db id e s u w' where
  seat := h.seats ▸ h.seat
  held := ⟨d, h.shows, h.brief⟩
  confirms uuid price hfresh hprice := by
    obtain ⟨row, hrow, hheld, hexp, he, hs, _⟩ := h.row
    have hrow' : findReservation (w'.db.expire t).tables id = some row := by
      rw [findReservation_expire, hrow]
      exact congrArg some (if_neg (not_stale_of_lt hexp h.shows.live))
    have hpayments : (w'.db.expire t).tables.payments = w.db.tables.payments := h.payments
    refine dbStep_confirms (by rw [expire_expire]; exact hrow') hheld hprice ?_
    rw [expire_expire]
    refine valid_confirm (w'.db.expire t).valid hrow' (fun r hr hc hk => ?_) (hpayments ▸ hfresh.payment) ?_ hprice
    · obtain ⟨l, hl, hfree⟩ := h.free
      have hkey : rowKey r = seatKey e s := by
        obtain ⟨hke, hks⟩ := Prod.ext_iff.mp hk
        exact congrArg₂ seatKey (hke.trans he) (hks.trans hs)
      rcases h.rows r (mem_of_counts hr (.inl hc)) (.inl hc) with hr | ⟨hheld, _⟩
      · exact hw.unsold hl hfree hr hc hkey
      · cases hc.symm.trans hheld
    · rw [hpayments]
      intro hid
      obtain ⟨p, hp, rfl⟩ := List.mem_map.mp hid
      obtain ⟨r, hr, hrid⟩ := List.mem_map.mp (w.db.valid.paymentReservations p hp)
      cases h.new.symm.trans (hrid ▸ findReservation_of_mem w.db.valid hr)

theorem ends_purchaseSeat (h : Covered Nothing t w) (e s u : String) (n : Int) :
    Ends t w.db (fun _ w' => Covered Nothing t w') (purchaseSeat e s u n) w := by
  refine (ends_holdReservation h e s u n).bind (fun hold w₁ h₁ => ?_) fun _ _ h₁ => h₁
  have hrow : RowIs w₁.db hold.reservation.reservation.reservationId e s u := by
    obtain ⟨row, hrow, _, _, hkey⟩ := h₁.row
    intro r hr
    cases hr.symm.trans hrow
    exact hkey
  refine Does.bind (P := fun _ w' => Covered Nothing t w') (Does.tryCatch
    (ends_confirmReservation h₁.covered (fun _ hk => hk) hrow) (fun _ _ h₂ => h₂)
    fun _ _ h₂ => absurd (h₁.ready h) h₂.2) (fun _ _ h₂ => does_ret h₂) fun _ _ h₂ => h₂

end Ticketing.AppServer
