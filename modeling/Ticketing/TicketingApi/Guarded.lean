import Ticketing.TicketingApi.Service
import Ticketing.TicketingApi.Transitions

namespace Ticketing.TicketingApi

open Python Interaction Repository Service

variable {T D α β : Type}

/-! ### Writes behind a check -/

/-- The row that was read as `HELD`, with nothing but the clock read since. -/
def nextGuard (g : Option String) : (op : RepoOp T) → Except Error op.Res → Option String
  | .getReservation reservationId, .ok (some r) => if r.reservation.status = .held then some reservationId else none
  | .currentTimestamp, _ => g
  | _, _ => none

/-- Every update of a row by its id follows a read that found the row `HELD`. -/
def Guarded : Option String → Method T α → Prop
  | _, .ret _ => True
  | _, .raise _ => True
  | g, .call op k => (∀ w, op.writes = some w → g = some w.1) ∧ ∀ x, Guarded (nextGuard g op x) (k x)

theorem Guarded.weaken {p : Method T α} (h : Guarded none p) (g : Option String) : Guarded g p := by
  induction p generalizing g with
  | ret a => trivial
  | raise e => trivial
  | call op k ih =>
      refine ⟨fun w hw => (nomatch h.1 w hw), fun x => ?_⟩
      cases op with
      | currentTimestamp => exact ih x (h.2 x) g
      | getReservation id =>
          rcases x with e | _ | r
          · exact h.2 (.error e)
          · exact h.2 (.ok none)
          · exact h.2 (.ok (some r))
      | _ => exact h.2 x

theorem Guarded.bind {g : Option String} {p : Method T α} {f : α → Method T β} (h : Guarded g p)
    (hf : ∀ a, Guarded none (f a)) : Guarded g (p >>= f) := by
  induction p generalizing g with
  | ret a => exact (hf a).weaken g
  | raise e => trivial
  | call op k ih => exact ⟨h.1, fun x => ih x (h.2 x)⟩

theorem Guarded.tryCatch {g : Option String} {p : Method T α} {f : Error → Method T α} (h : Guarded g p)
    (hf : ∀ e, Guarded none (f e)) : Guarded g (MonadExcept.tryCatch p f) := by
  induction p generalizing g with
  | ret a => trivial
  | raise e => exact (hf e).weaken g
  | call op k ih => exact ⟨h.1, fun x => ih x (h.2 x)⟩

theorem guarded_ofExcept (g : Option String) (x : Except Error α) :
    Guarded g (Program.ofExcept x : Method T α) := by
  cases x <;> trivial

theorem guarded_call {op : RepoOp T} (h : op.writes = none) (g : Option String) : Guarded g (Service.call op) :=
  ⟨by simp [h], fun x => guarded_ofExcept _ x⟩

theorem guarded_expireStale (g : Option String) : Guarded g (expireStale : Method T Unit) :=
  (guarded_call rfl g).bind fun _ => (guarded_call rfl none).bind fun _ => trivial

theorem guarded_requireEvent (g : Option String) (eventId : String) :
    Guarded g (requireEvent eventId : Method T (Event T)) := by
  refine (guarded_call rfl g).bind fun x => ?_
  cases x <;> trivial

theorem guarded_requireUser (g : Option String) (userId : String) :
    Guarded g (requireUser userId : Method T (User T)) := by
  refine (guarded_call rfl g).bind fun x => ?_
  cases x <;> trivial

theorem guarded_requireSeat (g : Option String) (eventId seatId : String) :
    Guarded g (requireSeat eventId seatId : Method T (Seat T)) := by
  refine (guarded_call rfl g).bind fun x => ?_
  cases x <;> trivial

theorem guarded_ensureUser (g : Option String) (userId : String) :
    Guarded g (ensureUser userId : Method T (Option (User T))) := by
  refine (guarded_call rfl g).bind fun x => ?_
  cases x with
  | some u => trivial
  | none =>
      dsimp only
      split
      · exact (guarded_call rfl none).bind fun _ => guarded_call rfl none
      · trivial

/-- After the check a method may update the row if it was `HELD`. -/
theorem guarded_requireReservation {reservationId : String} {f : ReservationRecord T → Method T β}
    (held : ∀ r, r.reservation.status = .held → Guarded (some reservationId) (f r))
    (other : ∀ r, r.reservation.status ≠ .held → Guarded none (f r)) (g : Option String) :
    Guarded g (requireReservation reservationId >>= f) := by
  unfold requireReservation
  rw [Program.bind_assoc]
  refine Guarded.bind (guarded_expireStale g) fun _ => ⟨by simp [RepoOp.writes], fun x => ?_⟩
  rcases x with e | _ | r
  · trivial
  · trivial
  · change Guarded (nextGuard none (.getReservation reservationId) (.ok (some r))) (f r)
    by_cases h : r.reservation.status = .held
    · simpa only [nextGuard, h, if_true] using held r h
    · simpa only [nextGuard, h, if_false] using other r h

theorem guarded_write {op : RepoOp T} {reservationId : String} {status : ReservationStatus}
    (h : op.writes = some (reservationId, status)) : Guarded (some reservationId) (Service.call op) :=
  ⟨fun w hw => by rw [h] at hw; cases hw; rfl, fun x => guarded_ofExcept _ x⟩

theorem guarded_timestamp {g : Option String} {m : T → Method T α} (h : ∀ now, Guarded g (m now)) :
    Guarded g (currentTimestamp >>= m) := by
  refine ⟨by simp [RepoOp.writes], fun x => ?_⟩
  cases x with
  | error e => trivial
  | ok now => exact h now

theorem guarded_conflictOnIntegrity {g : Option String} {p : Method T α} (h : Guarded g p) (message : String) :
    Guarded g (conflictOnIntegrity p message) :=
  h.tryCatch fun e => by split <;> trivial

theorem guarded_confirmReservation (reservationId : String) (request : ConfirmReservationRequest) :
    Guarded none (confirmReservation reservationId request : Method T _) := by
  refine guarded_requireReservation (fun r hr => ?_) (fun r hr => ?_) none
  · simp only [hr, reduceCtorEq, if_false, ne_eq, not_true_eq_false]
    refine guarded_conflictOnIntegrity (guarded_timestamp fun now => ?_) _
    exact guarded_write rfl
  · split
    · split <;> trivial
    · trivial

theorem guarded_cancelReservation (reservationId : String) (request : CancelReservationRequest) :
    Guarded none (cancelReservation reservationId request : Method T _) := by
  refine guarded_requireReservation (fun r hr => ?_) (fun r hr => ?_) none
  · simp only [hr, reduceCtorEq, if_false, ne_eq, not_true_eq_false]
    cases validateCancelPaymentPayload request with
    | error e => trivial
    | ok payment => exact guarded_timestamp fun _ => guarded_write rfl
  · split
    · trivial
    · trivial

theorem guarded_expireReservation (reservationId : String) :
    Guarded none (expireReservation reservationId : Method T _) := by
  refine guarded_requireReservation (fun r hr => ?_) (fun r hr => ?_) none
  · simp only [hr, reduceCtorEq, if_false, ne_eq, not_true_eq_false]
    exact guarded_timestamp fun _ => guarded_write rfl
  · split
    · trivial
    · trivial

theorem guarded_createHeldReservation [DecidableEq T] (normalizeTimestamp : D → Except Error T)
    (request : HeldReservationCreate D) :
    Guarded none (createHeldReservation normalizeTimestamp request) := by
  refine (guarded_expireStale none).bind fun _ => (guarded_requireEvent none _).bind fun _ =>
    (guarded_requireSeat none _ _).bind fun _ => (guarded_ensureUser none _).bind fun _ =>
    (guarded_call rfl none).bind fun existing => (guarded_ofExcept none _).bind fun expiresAt => ?_
  cases existing with
  | some existing =>
      dsimp only
      split <;> trivial
  | none =>
      refine (guarded_call rfl none).bind fun confirmed => ?_
      split
      · trivial
      · refine Guarded.bind (guarded_conflictOnIntegrity ?_ _) fun _ => trivial
        exact (guarded_call rfl none).bind fun _ => guarded_call rfl none

theorem guarded_expireListed (rows : List (Reservation T)) : Guarded none (expireListed rows) := by
  induction rows with
  | nil => trivial
  | cons r rows ih =>
      refine Guarded.bind (Guarded.tryCatch ?_ fun e => ?_) fun _ => ih.bind fun _ => trivial
      · exact (guarded_expireReservation _).bind fun _ => trivial
      · split <;> trivial

theorem guarded_expireStaleReservations (limit : Int) :
    Guarded none (expireStaleReservations limit : Method T _) := by
  refine Guarded.bind ?_ fun rows => guarded_expireListed rows
  exact (guarded_call rfl none).bind fun _ => guarded_call rfl none

theorem guarded_reader {check : Method T α} {op : RepoOp T} (hc : Guarded none check) (h : op.writes = none) :
    Guarded none (expireStale >>= fun _ => check >>= fun _ => Service.call op) :=
  (guarded_expireStale none).bind fun _ => hc.bind fun _ => guarded_call h none

/-! ### Calls on their own -/

variable [LinearOrder T]

theorem nextGuard_held {g : Option String} {op : RepoOp T} {clock : T} {db : Database T} {id : String}
    (h : nextGuard g op (exec clock db op).1 = some id) :
    op = .currentTimestamp ∧ g = some id ∨
      op = .getReservation id ∧ status (exec clock db op).2 id = some .held := by
  cases op with
  | currentTimestamp => exact .inl ⟨rfl, h⟩
  | getReservation rid =>
      simp only [exec, getReservation] at h ⊢
      cases hf : findReservation db.tables rid with
      | none => simp [hf, nextGuard] at h
      | some r =>
          simp only [hf, Option.map_some, nextGuard, record] at h
          split at h <;> cases h
          next hheld => exact .inr ⟨rfl, by simp [status, hf, hheld]⟩
  | _ => cases h

/-- A guarded method that runs as one step leaves every row that is not `HELD` as it is. -/
theorem Guarded.evolves {g : Option String} {p : Method T α} (h : Guarded g p) (clock : T) {db : Database T}
    (hg : ∀ id, g = some id → status db id = some .held) :
    Evolves db (Program.atomically exec clock p db).2 := by
  induction p generalizing g db with
  | ret a => exact Evolves.refl db
  | raise e => exact Evolves.refl db
  | call op k ih =>
      have hstep : Evolves db (exec clock db op).2 := by
        intro id r hr
        obtain ⟨r', hr', hsame, hst⟩ := exec_find clock op hr
        refine ⟨r', hr', hsame, ?_⟩
        rcases hst with hst | hst | ⟨hst, _⟩
        · exact .inl hst
        · have hheld := hg _ (h.1 _ hst)
          rw [(findReservation_mem hr).2] at hheld
          simp only [status, hr, Option.map_some, Option.some.injEq] at hheld
          exact .inr hheld
        · exact .inr hst
      refine hstep.trans (ih _ (h.2 _) fun id hid => ?_)
      rcases nextGuard_held hid with ⟨rfl, hid⟩ | ⟨_, hheld⟩
      · exact hg id hid
      · exact hheld

end Ticketing.TicketingApi
