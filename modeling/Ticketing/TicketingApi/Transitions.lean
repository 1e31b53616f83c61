import Ticketing.TicketingApi.Repository

namespace Ticketing.TicketingApi

open Python Repository

variable {T : Type}

/-! ### What one operation does to one row -/

/-- The row that an operation addresses by its id, and the status it gives it. -/
def RepoOp.writes : RepoOp T → Option (String × ReservationStatus)
  | .confirmReservation reservationId _ _ => some (reservationId, .confirmed)
  | .cancelReservation reservationId _ _ => some (reservationId, .cancelled)
  | .expireReservation reservationId _ => some (reservationId, .expired)
  | _ => none

/-- Two states of one row: only the status and the times of its changes may differ. -/
structure SameRow (r r' : Reservation T) : Prop where
  reservationId : r'.reservationId = r.reservationId
  eventId : r'.eventId = r.eventId
  seatId : r'.seatId = r.seatId
  userId : r'.userId = r.userId
  holdToken : r'.holdToken = r.holdToken
  expiresAt : r'.expiresAt = r.expiresAt

theorem SameRow.refl (r : Reservation T) : SameRow r r := ⟨rfl, rfl, rfl, rfl, rfl, rfl⟩

theorem SameRow.trans {a b c : Reservation T} (h : SameRow a b) (h' : SameRow b c) : SameRow a c :=
  ⟨h'.1.trans h.1, h'.2.trans h.2, h'.3.trans h.3, h'.4.trans h.4, h'.5.trans h.5, h'.6.trans h.6⟩

theorem SameRow.seat {r r' : Reservation T} (h : SameRow r r') : r'.seat = r.seat := by
  simp only [Reservation.seat, h.eventId, h.seatId]

theorem findReservation_update (f : Reservation T → Reservation T) (hf : ∀ r, (f r).reservationId = r.reservationId)
    (t : Tables T) (id : String) :
    findReservation (updateReservations f t) id = (findReservation t id).map f := by
  have hp : (fun r : Reservation T => decide (r.reservationId = id)) ∘ f = fun r => decide (r.reservationId = id) := by
    funext r
    simp [hf]
  simp only [findReservation, updateReservations, List.find?_map, hp]

theorem findReservation_mem {t : Tables T} {id : String} {r : Reservation T} (h : findReservation t id = some r) :
    r ∈ t.reservations ∧ r.reservationId = id :=
  ⟨List.mem_of_find?_eq_some h, by simpa using List.find?_some h⟩

theorem findReservation_of_mem {t : Tables T} (ht : Valid t) {r : Reservation T} (h : r ∈ t.reservations) :
    findReservation t r.reservationId = some r := by
  cases hf : findReservation t r.reservationId with
  | none => simpa using List.find?_eq_none.mp hf r h
  | some r' =>
      obtain ⟨hm, he⟩ := findReservation_mem hf
      rw [List.inj_on_of_nodup_map ht.reservationIds hm h he]

@[simp] theorem upsertPayment_reservations (id : String) (p : PaymentPayload) (now : T) (t : Tables T) :
    (upsertPayment id p now t).reservations = t.reservations := by
  unfold upsertPayment
  split <;> rfl

theorem upsertPayment_seats (id : String) (p : PaymentPayload) (now : T) (t : Tables T) :
    (upsertPayment id p now t).seats = t.seats := by
  unfold upsertPayment
  split <;> rfl

theorem transaction_cases (db : Database T) (f : Tables T → Tables T) :
    (transaction db f).1 = .ok () ∧ (transaction db f).2.tables = f db.tables ∨
      (transaction db f).1 = .error ⟨.integrityError, "constraint failed"⟩ ∧ (transaction db f).2 = db := by
  unfold transaction
  split
  · exact .inl ⟨rfl, rfl⟩
  · exact .inr ⟨rfl, rfl⟩

variable [LinearOrder T]

/-- How an operation may change a row. -/
def Becomes (op : RepoOp T) (r r' : Reservation T) : Prop :=
  SameRow r r' ∧ (r'.status = r.status ∨ op.writes = some (r.reservationId, r'.status) ∨
    r.status = .held ∧ r'.status = .expired ∧ ∃ now, op = .expireStaleReservations now ∧ Stale r now)

theorem Becomes.refl (op : RepoOp T) (r : Reservation T) : Becomes op r r := ⟨SameRow.refl r, .inl rfl⟩

theorem find_update {t t' : Tables T} {id id' : String} {r : Reservation T} {op : RepoOp T} {S : ReservationStatus}
    (g : Reservation T → Reservation T) (hg : ∀ r, SameRow r (g r) ∧ (g r).status = S)
    (hw : op.writes = some (id', S)) (ht : t'.reservations = t.reservations)
    (h : findReservation t id = some r) :
    ∃ r', findReservation (updateReservation id' g t') id = some r' ∧ Becomes op r r' := by
  have hid : r.reservationId = id := (findReservation_mem h).2
  have h' : findReservation t' id = some r := by rw [findReservation, ht]; exact h
  have hf : ∀ r, (if r.reservationId = id' then g r else r).reservationId = r.reservationId := by
    intro r
    split
    · exact (hg r).1.reservationId
    · rfl
  refine ⟨if r.reservationId = id' then g r else r, ?_, ?_⟩
  · rw [updateReservation, findReservation_update _ hf, h']
    rfl
  · split
    next he => exact ⟨(hg r).1, .inr (.inl (by rw [hw, (hg r).2, he]))⟩
    next => exact Becomes.refl op r

theorem exec_find (clock : T) {db : Database T} (op : RepoOp T) {id : String} {r : Reservation T}
    (h : findReservation db.tables id = some r) :
    ∃ r', findReservation (exec clock db op).2.tables id = some r' ∧ Becomes op r r' := by
  have same : ∃ r', findReservation db.tables id = some r' ∧ Becomes op r r' := ⟨r, h, Becomes.refl op r⟩
  have commits (f : Tables T → Tables T) (hf : ∃ r', findReservation (f db.tables) id = some r' ∧ Becomes op r r') :
      ∃ r', findReservation (transaction db f).2.tables id = some r' ∧ Becomes op r r' := by
    rcases transaction_cases db f with ⟨_, hc⟩ | ⟨_, hc⟩
    · rwa [hc]
    · rwa [hc]
  cases op with
  | expireStaleReservations now =>
      have hf : ∀ r : Reservation T,
          (if Stale r now then { r with status := .expired, updatedAt := now } else r).reservationId =
            r.reservationId := by
        intro r
        split <;> rfl
      refine commits _ ⟨if Stale r now then { r with status := .expired, updatedAt := now } else r, ?_, ?_⟩
      · rw [expireStaleReservations, findReservation_update _ hf, h]
        rfl
      · split
        next hs => exact ⟨⟨rfl, rfl, rfl, rfl, rfl, rfl⟩, .inr (.inr ⟨hs.1, rfl, now, rfl, hs⟩)⟩
        next => exact Becomes.refl _ r
  | createUser userId displayName email createdAt =>
      refine commits _ ?_
      unfold createUser
      split <;> exact same
  | createHeldReservation rid e s u tok exp now =>
      refine commits _ ⟨r, ?_, Becomes.refl _ r⟩
      rw [findReservation] at h
      simp [findReservation, createHeldReservation, List.find?_append, h]
  | confirmReservation rid payment now =>
      simp only [exec, bindAmount]
      split
      · exact commits _ (find_update _ (fun r => ⟨⟨rfl, rfl, rfl, rfl, rfl, rfl⟩, rfl⟩) rfl (by simp) h)
      · exact same
  | cancelReservation rid now payment =>
      simp only [exec, bindAmount]
      split
      · exact commits _ (find_update _ (fun r => ⟨⟨rfl, rfl, rfl, rfl, rfl, rfl⟩, rfl⟩) rfl (by split <;> simp) h)
      · exact same
  | expireReservation rid now =>
      exact commits _ (find_update (fun r => { r with status := .expired, updatedAt := now })
        (fun r => ⟨⟨rfl, rfl, rfl, rfl, rfl, rfl⟩, rfl⟩) rfl rfl h)
  | _ => exact same

def status (db : Database T) (reservationId : String) : Option ReservationStatus :=
  (findReservation db.tables reservationId).map Reservation.status

theorem exec_status (clock : T) {db : Database T} (op : RepoOp T) {id : String} {s : ReservationStatus}
    (h : status db id = some s) :
    ∃ s', status (exec clock db op).2 id = some s' ∧ (s' = s ∨ op.writes = some (id, s') ∨ s = .held) := by
  obtain ⟨r, hr, rfl⟩ := Option.map_eq_some_iff.mp h
  obtain ⟨r', hr', _, hb⟩ := exec_find clock op hr
  refine ⟨r'.status, by simp [status, hr'], ?_⟩
  rw [(findReservation_mem hr).2] at hb
  rcases hb with hb | hb | ⟨hb, _⟩
  · exact .inl hb
  · exact .inr (.inl hb)
  · exact .inr (.inr hb)

/-- What a whole call may do to the rows: they stay, and only a `HELD` row changes its status. -/
def Evolves (db db' : Database T) : Prop :=
  ∀ id r, findReservation db.tables id = some r →
    ∃ r', findReservation db'.tables id = some r' ∧ SameRow r r' ∧ (r'.status = r.status ∨ r.status = .held)

omit [LinearOrder T] in
theorem Evolves.refl (db : Database T) : Evolves db db := fun _ r h => ⟨r, h, SameRow.refl r, .inl rfl⟩

omit [LinearOrder T] in
theorem Evolves.trans {a b c : Database T} (h : Evolves a b) (h' : Evolves b c) : Evolves a c := by
  intro id r hr
  obtain ⟨r₁, hr₁, hs₁, hc₁⟩ := h id r hr
  obtain ⟨r₂, hr₂, hs₂, hc₂⟩ := h' id r₁ hr₁
  refine ⟨r₂, hr₂, hs₁.trans hs₂, ?_⟩
  rcases hc₁ with hc₁ | hc₁
  · rw [hc₁] at hc₂; exact hc₂
  · exact .inr hc₁

/-- The database says that a seat is sold to a user. -/
def ConfirmedSeat (db : Database T) (eventId seatId userId : String) : Prop :=
  ∃ r ∈ db.tables.reservations, r.status = .confirmed ∧ r.eventId = eventId ∧ r.seatId = seatId ∧ r.userId = userId

omit [LinearOrder T] in
/-- The unique index sells a seat once. -/
theorem ConfirmedSeat.unique {db : Database T} {e s u v : String} (h : ConfirmedSeat db e s u)
    (h' : ConfirmedSeat db e s v) : u = v := by
  obtain ⟨r, hr, hc, he, hs, rfl⟩ := h
  obtain ⟨r', hr', hc', he', hs', rfl⟩ := h'
  have hinj := List.inj_on_of_nodup_map db.valid.confirmedSeats
  have hrr : r = r' :=
    hinj (by simpa using ⟨hr, hc⟩) (by simpa using ⟨hr', hc'⟩) (by simp [Reservation.seat, he, hs, he', hs'])
  rw [hrr]

omit [LinearOrder T] in
theorem ConfirmedSeat.evolves {db db' : Database T} {e s u : String} (h : ConfirmedSeat db e s u)
    (hev : Evolves db db') : ConfirmedSeat db' e s u := by
  obtain ⟨r, hr, hc, rfl, rfl, rfl⟩ := h
  obtain ⟨r', hr', hs, hst⟩ := hev _ r (findReservation_of_mem db.valid hr)
  refine ⟨r', (findReservation_mem hr').1, ?_, hs.eventId, hs.seatId, hs.userId⟩
  rcases hst with hst | hst
  · rw [hst, hc]
  · rw [hc] at hst; cases hst

end Ticketing.TicketingApi
