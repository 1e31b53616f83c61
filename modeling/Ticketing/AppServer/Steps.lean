import Ticketing.AppServer.Reconciler
import Ticketing.Commands.SeatRuns
import Ticketing.TicketingApi.Guarded
import Ticketing.TicketingApi.Outcomes

namespace Ticketing.AppServer

open Python JsonText Interaction TicketingApi Repository Commands
open Storage (Store seatKey queueKey queueKey_ne_seatKey Records SeatLease)

/-! ### Steps of the world -/

variable {env : Env} {w w' : World}

theorem withFault_ok {α σ : Type} {fault : Fault} {s s' : σ} {r : Except Error α × σ} {a : α}
    (h : withFault fault s r = (.ok a, s')) : r = (.ok a, s') := by
  cases fault with
  | none => exact h
  | fail effect error => cases h

theorem withFault_snd {α σ : Type} (fault : Fault) (s : σ) (r : Except Error α × σ) :
    (withFault fault s r).2 = r.2 ∨ (withFault fault s r).2 = s := by
  cases fault with
  | none => exact .inl rfl
  | fail effect error => cases effect <;> simp [withFault]

theorem appStep_redis (env : Env) (w : World) (tokens : List String) :
    (appStep env w (.redis tokens)).2 = { w with redis := step w.redis (env.now, tokens) } ∨
      (appStep env w (.redis tokens)).2 = w :=
  withFault_snd _ _ _

theorem appStep_redis_ok {tokens : List String} {reply : Reply} (h : appStep env w (.redis tokens) = (.ok reply, w')) :
    (redisReply tokens env.now w.redis).1 = .ok reply ∧ w' = { w with redis := step w.redis (env.now, tokens) } := by
  have he := withFault_ok h
  exact ⟨congrArg Prod.fst he, (congrArg Prod.snd he).symm⟩

theorem appStep_db (env : Env) (w : World) (call : DbCall) :
    (appStep env w (.db call)).2 = { w with db := (dbStep env.now w.db call).2 } ∨ (appStep env w (.db call)).2 = w :=
  withFault_snd _ _ _

theorem appStep_db_ok {call : DbCall} {a : call.Res} (h : appStep env w (.db call) = (.ok a, w')) :
    (dbStep env.now w.db call).1 = .ok a ∧ w' = { w with db := (dbStep env.now w.db call).2 } := by
  have he := withFault_ok h
  exact ⟨congrArg Prod.fst he, (congrArg Prod.snd he).symm⟩

/-! ### DB calls -/

theorem dbStep_evolves (now : ℚ) (db : Database ℚ) (call : DbCall) : Evolves db (dbStep now db call).2 := by
  have evolves {α : Type} {method : Service.Method ℚ α} (h : Guarded none method) :
      Evolves db (atomic now method db).2 := h.evolves now (by simp)
  cases call with
  | listEventSeats eventId => exact evolves (guarded_reader (guarded_requireEvent none eventId) rfl)
  | createHeldReservation payload => exact evolves (guarded_createHeldReservation _ payload)
  | confirmReservation id payload => exact evolves (guarded_confirmReservation id payload)
  | cancelReservation id => exact evolves (guarded_cancelReservation id _)
  | expireReservation id => exact evolves (guarded_expireReservation id)
  | expireStaleReservations limit => exact evolves (guarded_expireStaleReservations limit)
  | listConfirmedReservations limit => exact evolves (guarded_call rfl none)

theorem appStep_evolves (env : Env) (w : World) (op : AppOp) : Evolves w.db (appStep env w op).2.db := by
  cases op with
  | uuid4 => exact Evolves.refl w.db
  | now => exact Evolves.refl w.db
  | redis tokens => rcases appStep_redis env w tokens with h | h <;> rw [h] <;> exact Evolves.refl w.db
  | db call =>
      rcases appStep_db env w call with h | h <;> rw [h]
      · exact dbStep_evolves env.now w.db call
      · exact Evolves.refl w.db

theorem response_ok {α : Type} {x : Except Error (Option α)} {a : α} (h : response x = .ok a) : x = .ok (some a) := by
  rcases x with e | _ | a'
  · cases h
  · cases h
  · cases h; rfl

theorem getReservation_some {t : Tables ℚ} {id : String} {r : ReservationRecord ℚ}
    (h : getReservation t id = some r) : findReservation t id = some r.reservation := by
  obtain ⟨row, hrow, rfl⟩ := Option.map_eq_some_iff.mp h
  exact hrow

/-- What the DB client makes of a transition of one reservation. -/
inductive Transition (db : Database ℚ) (id : String) (S : ReservationStatus) (write : Tables ℚ → Tables ℚ)
    (x : Except Error (ReservationRecord ℚ)) (db' : Database ℚ) : Prop
  | failed (e : Error) (hx : x = .error e) (hdb : db' = db)
  | already (row : Reservation ℚ) (hrow : findReservation db.tables id = some row) (hS : row.status = S)
      (hx : x = .ok (record db.tables row)) (hdb : db' = db)
  | written (row : Reservation ℚ) (hrow : findReservation db.tables id = some row) (hheld : row.status = .held)
      (r : ReservationRecord ℚ) (hx : x = .ok r) (hget : getReservation db'.tables id = some r)
      (hdb : db'.tables = write db.tables)

theorem transition_of_outcome {db : Database ℚ} {id : String} {S : ReservationStatus} {write : Tables ℚ → Tables ℚ}
    {r : Except Error (Option (ReservationRecord ℚ)) × Database ℚ}
    (hkeep : ∃ f, findReservation (write db.tables) id = (findReservation db.tables id).map f)
    (h : TicketingApi.Outcome db id S write r) : Transition db id S write (response r.1) r.2 := by
  rcases h with ⟨e, rfl⟩ | ⟨row, hrow, hS, rfl⟩ | ⟨row, hrow, hheld, hdb, hok⟩
  · exact .failed _ rfl rfl
  · exact .already row hrow hS rfl rfl
  · obtain ⟨f, hf⟩ := hkeep
    have hget : getReservation r.2.tables id = some (record r.2.tables (f row)) := by
      rw [getReservation, hdb, hf, hrow]
      rfl
    rw [hok, hget]
    exact .written row hrow hheld _ rfl hget hdb

theorem dbStep_confirm (now : ℚ) (db : Database ℚ) (id : String) (payload : ConfirmReservationRequest) :
    Transition (db.expire now) id .confirmed (Repository.confirmReservation id
        ⟨payload.paymentId, .succeeded, payload.amount, payload.provider, payload.providerRef⟩ now)
      (dbStep now db (.confirmReservation id payload)).1 (dbStep now db (.confirmReservation id payload)).2 := by
  exact transition_of_outcome ⟨_, findReservation_confirmReservation id _ now _⟩
    (confirmReservation_outcome now db id payload)

theorem dbStep_cancel (now : ℚ) (db : Database ℚ) (id : String) :
    Transition (db.expire now) id .cancelled (Repository.cancelReservation id now none)
      (dbStep now db (.cancelReservation id)).1 (dbStep now db (.cancelReservation id)).2 := by
  exact transition_of_outcome ⟨_, findReservation_updateReservation (by intro r; rfl) _ id⟩
    (cancelReservation_outcome now db id)

theorem dbStep_expire (now : ℚ) (db : Database ℚ) (id : String) :
    Transition (db.expire now) id .expired (Repository.expireReservation id now)
      (dbStep now db (.expireReservation id)).1 (dbStep now db (.expireReservation id)).2 := by
  exact transition_of_outcome ⟨_, findReservation_updateReservation (by intro r; rfl) _ id⟩
    (expireReservation_outcome now db id)

theorem dbStep_confirmed {now : ℚ} {db : Database ℚ} {id : String} {payload : ConfirmReservationRequest}
    {r : ReservationRecord ℚ} (h : (dbStep now db (.confirmReservation id payload)).1 = .ok r) :
    findReservation (dbStep now db (.confirmReservation id payload)).2.tables id = some r.reservation ∧
      r.reservation.status = .confirmed ∧
      ∃ row, findReservation db.tables id = some row ∧ SameRow row r.reservation := by
  have hev := dbStep_evolves now db (.confirmReservation id payload)
  have before {row row' : Reservation ℚ} (hrow : findReservation (db.expire now).tables id = some row)
      (hget : findReservation (dbStep now db (.confirmReservation id payload)).2.tables id = some row') :
      ∃ row, findReservation db.tables id = some row ∧ SameRow row row' := by
    rw [findReservation_expire] at hrow
    obtain ⟨row₀, hrow₀, _⟩ := Option.map_eq_some_iff.mp hrow
    obtain ⟨_, hrow', hsame, _⟩ := hev id row₀ hrow₀
    cases hget.symm.trans hrow'
    exact ⟨row₀, hrow₀, hsame⟩
  cases dbStep_confirm now db id payload with
  | failed e hx hdb => cases hx.symm.trans h
  | already row hrow hS hx hdb =>
      cases hx.symm.trans h
      rw [hdb] at before ⊢
      exact ⟨hrow, hS, before hrow hrow⟩
  | written row hrow hheld r' hx hget hdb =>
      cases hx.symm.trans h
      have hfind := getReservation_some hget
      refine ⟨hfind, ?_, before hrow hfind⟩
      rw [hdb, findReservation_confirmReservation] at hfind
      obtain ⟨r, _, hr⟩ := Option.map_eq_some_iff.mp hfind
      rw [← hr]

/-- A reservation with a new id is refused, or its row is appended. -/
theorem dbStep_create (now : ℚ) {db : Database ℚ} {payload : HeldReservationCreate ℚ}
    (hfresh : findReservation db.tables payload.reservationId = none) :
    (∃ e users, (dbStep now db (.createHeldReservation payload)).1 = .error e ∧
        Refused (db.expire now).tables payload ∧
        (dbStep now db (.createHeldReservation payload)).2.tables = { (db.expire now).tables with users := users }) ∨
      ∃ r users, (dbStep now db (.createHeldReservation payload)).1 = .ok (r, true) ∧
        r.reservation = heldRow payload payload.expiresAt now ∧
        (dbStep now db (.createHeldReservation payload)).2.tables = { (db.expire now).tables with
          users := users
          reservations := (db.expire now).tables.reservations ++ [heldRow payload payload.expiresAt now] } := by
  have ho : Creation (db.expire now) payload payload.expiresAt now
      (Program.atomically exec now (Service.createHeldReservation Except.ok payload) db) :=
    createHeldReservation_outcome rfl now db
  simp only [dbStep, atomic]
  generalize Program.atomically exec now (Service.createHeldReservation Except.ok payload) db = r at ho ⊢
  have hnew : findReservation (db.expire now).tables payload.reservationId = none := by
    rw [findReservation_expire, hfresh]
    rfl
  rcases ho with ⟨e, why, hdb, he⟩ | ⟨row, hrow, _⟩ | ⟨_, hdb, hok⟩
  · rw [he]
    exact .inl ⟨_, _, rfl, why, hdb⟩
  · cases hnew.symm.trans hrow
  · have hget : getReservation r.2.tables payload.reservationId =
        some (record r.2.tables (heldRow payload payload.expiresAt now)) := by
      rw [findReservation] at hnew
      rw [getReservation, findReservation, hdb, List.find?_append, hnew]
      simp [heldRow]
    rw [hok, hget]
    exact .inr ⟨_, _, rfl, rfl, hdb⟩

theorem dbStep_listEventSeats (now : ℚ) (db : Database ℚ) (eventId : String) :
    (dbStep now db (.listEventSeats eventId)).2 = db.expire now ∧
      ((dbStep now db (.listEventSeats eventId)).1 = .ok (listSeats (db.expire now).tables eventId) ∨
        eventId ∉ db.tables.events.map Event.eventId ∧
          ∃ e, (dbStep now db (.listEventSeats eventId)).1 = .error e) := by
  simp only [dbStep, atomic]
  rcases listEventSeats_cases now db eventId with ⟨hno, e, he⟩ | he
  · rw [he]
    exact ⟨rfl, .inr ⟨hno, _, rfl⟩⟩
  · rw [he]
    exact ⟨rfl, .inl rfl⟩

theorem dbStep_created {now : ℚ} {db : Database ℚ} {payload : HeldReservationCreate ℚ}
    {p : ReservationRecord ℚ × Bool} (h : (dbStep now db (.createHeldReservation payload)).1 = .ok p) :
    findReservation (dbStep now db (.createHeldReservation payload)).2.tables payload.reservationId =
        some p.1.reservation ∧ p.1.reservation.eventId = payload.eventId ∧
      p.1.reservation.seatId = payload.seatId ∧ p.1.reservation.userId = payload.userId := by
  replace h := response_ok h
  have ho : Creation (db.expire now) payload payload.expiresAt now
      (Program.atomically exec now (Service.createHeldReservation Except.ok payload) db) :=
    createHeldReservation_outcome rfl now db
  change findReservation (Program.atomically exec now _ db).2.tables _ = _ ∧ _
  change (Program.atomically exec now _ db).1.map _ = _ at h
  generalize Program.atomically exec now (Service.createHeldReservation Except.ok payload) db = r at h ho
  rcases ho with ⟨e, _, _, he⟩ | ⟨row, hrow, hmatch, hdb, hok⟩ | ⟨hfresh, hdb, hok⟩
  · simp [he, Except.map] at h
  · simp only [hok, Except.map, Except.ok.injEq, Option.map_eq_some_iff] at h
    obtain ⟨record, hget, rfl⟩ := h
    have hfind := getReservation_some hget
    have hr : record.reservation = row := by
      rw [findReservation, hdb] at hfind
      exact Option.some.inj (hfind.symm.trans hrow)
    exact ⟨hfind, by rw [hr]; exact ⟨hmatch.1, hmatch.2.1, hmatch.2.2.1⟩⟩
  · simp only [hok, Except.map, Except.ok.injEq, Option.map_eq_some_iff] at h
    obtain ⟨record, hget, rfl⟩ := h
    have hfind := getReservation_some hget
    have hr : record.reservation = heldRow payload payload.expiresAt now := by
      rw [findReservation, hdb, List.find?_append] at hfind
      rw [findReservation] at hfresh
      have hrow : some (heldRow payload payload.expiresAt now) = some record.reservation := by
        simpa [hfresh, heldRow] using hfind
      exact (Option.some.inj hrow).symm
    exact ⟨hfind, by rw [hr]; exact ⟨rfl, rfl, rfl⟩⟩

theorem dbStep_listConfirmedReservations (now : ℚ) (db : Database ℚ) (limit : Int) :
    dbStep now db (.listConfirmedReservations limit) = (withLimit limit (confirmedRows db.tables), db) :=
  atomically_invoke (.listConfirmedReservations (some limit)) now db

theorem dbStep_listed {now : ℚ} {db : Database ℚ} {limit : Int} {rows : List (Reservation ℚ)}
    (h : (dbStep now db (.listConfirmedReservations limit)).1 = .ok rows) :
    (dbStep now db (.listConfirmedReservations limit)).2 = db ∧
      withLimit limit (confirmedRows db.tables) = .ok rows := by
  rw [dbStep_listConfirmedReservations] at h ⊢
  exact ⟨rfl, h⟩

end Ticketing.AppServer
