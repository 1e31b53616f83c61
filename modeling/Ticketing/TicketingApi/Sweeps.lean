import Ticketing.TicketingApi.Outcomes

namespace Ticketing.TicketingApi

open Python Interaction Repository
open Interaction.Program (Returns returns_ret returns_invoke)

variable {T α : Type} [LinearOrder T] {db : Database T} {clock : ℕ → T} {times : List T} {id : String}

/-! ### Expiries at several times -/

theorem Repository.Stale.later {r : Reservation T} {now now' : T} (h : Stale r now) (hle : now ≤ now') : Stale r now' := by
  obtain ⟨hheld, d, hd, hdn⟩ := h
  exact ⟨hheld, d, hd, hdn.trans hle⟩

def sweptRow (times : List T) (r : Reservation T) : Reservation T := times.foldl (fun r now => expiredAt now r) r

/-- The database after `expire_stale_reservations` at each of the times. -/
def Database.sweep (times : List T) (db : Database T) : Database T := times.foldl (fun db now => db.expire now) db

theorem sweptRow_sameRow (times : List T) (r : Reservation T) : SameRow r (sweptRow times r) := by
  induction times generalizing r with
  | nil => exact SameRow.refl r
  | cons now times ih => exact (expiredAt_sameRow now r).trans (ih (expiredAt now r))

theorem stale_expiredAt {now now' : T} {r : Reservation T} :
    Stale (expiredAt now r) now' ↔ Stale r now' ∧ ¬ Stale r now := by
  by_cases h : Stale r now
  · have hs : ¬ Stale (expiredAt now r) now' := fun hs => by
      have hS := hs.1
      rw [expiredAt_status, if_pos h] at hS
      cases hS
    simp [hs, h]
  · simp [expiredAt, h]

theorem sweptRow_status (times : List T) (r : Reservation T) :
    (sweptRow times r).status = if ∃ now ∈ times, Stale r now then .expired else r.status := by
  induction times generalizing r with
  | nil => simp [sweptRow]
  | cons now times ih =>
      have hcons : sweptRow (now :: times) r = sweptRow times (expiredAt now r) := rfl
      rw [hcons, ih, expiredAt_status]
      by_cases h : Stale r now
      · simp [h, stale_expiredAt]
      · simp [h, stale_expiredAt]

theorem sweep_reservations (times : List T) (db : Database T) :
    (db.sweep times).tables.reservations = db.tables.reservations.map (sweptRow times) := by
  induction times generalizing db with
  | nil => exact (List.map_id' _).symm
  | cons now times ih =>
      have hcons : db.sweep (now :: times) = (db.expire now).sweep times := rfl
      rw [hcons, ih, expire_reservations, List.map_map]
      rfl

theorem findReservation_sweep (times : List T) (db : Database T) (id : String) :
    findReservation (db.sweep times).tables id = (findReservation db.tables id).map (sweptRow times) := by
  induction times generalizing db with
  | nil => exact Option.map_id'.symm ▸ rfl
  | cons now times ih =>
      have hcons : db.sweep (now :: times) = (db.expire now).sweep times := rfl
      rw [hcons, ih, findReservation_expire, Option.map_map]
      rfl

/-! ### Methods on a clock that moves -/

theorem returns_timestamp (db : Database T) (clock : ℕ → T) :
    Returns exec (Service.currentTimestamp : Service.Method T T) db clock (clock 0) db 1 :=
  returns_invoke rfl

theorem returns_call {op : RepoOp T} {a : op.Res} {db' : Database T} (h : exec (clock 0) db op = (.ok a, db')) :
    Returns exec (Service.call op) db clock a db' 1 := returns_invoke h

theorem exec_expireStale (now now' : T) (db : Database T) :
    exec now db (.expireStaleReservations now') =
      (.ok (db.tables.reservations.filter (fun r => Stale r now')).length, db.expire now') := by
  simp only [exec]
  rw [commit_valid (valid_expire now' db.valid)]
  rfl

theorem returns_expireStale (db : Database T) (clock : ℕ → T) :
    Returns exec (Service.expireStale : Service.Method T Unit) db clock () (db.expire (clock 0)) 2 := by
  rw [Service.expireStale]
  refine (returns_timestamp db clock).bind (n := 1) (m := 1) ?_
  exact Returns.bind (n := 1) (m := 0) (returns_call (exec_expireStale _ (clock 0) db)) (returns_ret () _ _)

theorem returns_requireReservation {row : Reservation T}
    (hrow : findReservation (db.expire (clock 0)).tables id = some row) :
    Returns exec (Service.requireReservation id) db clock (record (db.expire (clock 0)).tables row)
      (db.expire (clock 0)) 3 := by
  rw [Service.requireReservation]
  refine (returns_expireStale db clock).bind (n := 2) (m := 1) ?_
  refine Returns.bind (n := 1) (m := 0) (returns_call rfl) ?_
  rw [getReservation, hrow]
  exact returns_ret _ _ _

theorem returns_expireReservation {row : Reservation T}
    (hrow : findReservation (db.expire (clock 0)).tables id = some row) (hS : row.status = .expired) :
    Returns exec (Service.expireReservation id) db clock (some (record (db.expire (clock 0)).tables row))
      (db.expire (clock 0)) 3 := by
  rw [Service.expireReservation]
  refine (returns_requireReservation hrow).bind (n := 3) (m := 0) ?_
  have hr : (record (db.expire (clock 0)).tables row).reservation = row := rfl
  simp only [hr, hS, if_true]
  exact returns_ret _ _ _

/-! ### The expiry of the listed rows -/

/-- The times at which the expiry of `n` listed rows looks them up. -/
def lookupTimes (clock : ℕ → T) : ℕ → List T
  | 0 => []
  | n + 1 => clock 0 :: lookupTimes (fun i => clock (i + 3)) n

omit [LinearOrder T] in
theorem mem_lookupTimes {clock : ℕ → T} {n : ℕ} {now : T} : now ∈ lookupTimes clock n ↔ ∃ i < n, now = clock (3 * i) := by
  induction n generalizing clock with
  | zero => simp [lookupTimes]
  | succ n ih =>
      rw [lookupTimes, List.mem_cons, ih]
      constructor
      · rintro (rfl | ⟨i, hi, rfl⟩)
        · exact ⟨0, by omega, rfl⟩
        · exact ⟨i + 1, by omega, rfl⟩
      · rintro ⟨_ | i, hi, rfl⟩
        · exact .inl rfl
        · exact .inr ⟨i, by omega, rfl⟩

/-- Rows that have run out by the time of every lookup are all reported, and the lookups expire the rest. -/
theorem returns_expireListed (rows : List (Reservation T)) (clock : ℕ → T) (db : Database T)
    (hrows : ∀ r ∈ rows, ∃ times, findReservation db.tables r.reservationId = some (sweptRow times r) ∧
      ∀ i, Stale r (clock i)) :
    ∃ records : List (ReservationRecord T), Returns exec (Service.expireListed rows) db clock (records.map some)
        (db.sweep (lookupTimes clock rows.length)) (3 * rows.length) ∧
      List.Forall₂ (fun r x => SameRow r x.reservation) rows records := by
  induction rows generalizing db clock with
  | nil => exact ⟨[], returns_ret _ _ _, .nil⟩
  | cons r rows ih =>
      obtain ⟨times, hrow, hstale⟩ := hrows r (by simp)
      have hfind : findReservation (db.expire (clock 0)).tables r.reservationId =
          some (sweptRow [clock 0] (sweptRow times r)) := by
        rw [findReservation_expire, hrow]
        rfl
      have happend : sweptRow [clock 0] (sweptRow times r) = sweptRow (times ++ [clock 0]) r :=
        (List.foldl_append ..).symm
      rw [happend] at hfind
      have hS : (sweptRow (times ++ [clock 0]) r).status = .expired := by
        rw [sweptRow_status, if_pos ⟨clock 0, by simp, hstale 0⟩]
      obtain ⟨records, hrest, hsame⟩ := ih (fun i => clock (i + 3)) (db.expire (clock 0)) fun r' hr' => by
        obtain ⟨times', hrow', hstale'⟩ := hrows r' (by simp [hr'])
        refine ⟨times' ++ [clock 0], ?_, fun i => hstale' _⟩
        rw [findReservation_expire, hrow', sweptRow, sweptRow, List.foldl_append]
        rfl
      refine ⟨record (db.expire (clock 0)).tables (sweptRow (times ++ [clock 0]) r) :: records, ?_,
        .cons (sweptRow_sameRow _ r) hsame⟩
      have hexpire : Returns exec (do return [← Service.expireReservation r.reservationId]) db clock
          [some (record (db.expire (clock 0)).tables (sweptRow (times ++ [clock 0]) r))] (db.expire (clock 0)) 3 :=
        (returns_expireReservation hfind hS).bind (n := 3) (m := 0) (returns_ret _ _ _)
      have hn : 3 * (r :: rows).length = 3 + 3 * rows.length := by
        rw [List.length_cons]
        omega
      rw [Service.expireListed, hn]
      refine hexpire.tryCatch.bind (n := 3) (m := 3 * rows.length) ?_
      exact hrest.bind (n := 3 * rows.length) (m := 0) (returns_ret _ _ _)

/-- The call lists the rows that are stale when it begins, and its lookups expire every row that is stale then. -/
theorem returns_expireStaleReservations {limit : Int} {rows : List (Reservation T)} (db : Database T)
    (hmono : Monotone clock) (hrows : withLimit limit (staleRows db.tables (clock 0)) = .ok rows) :
    ∃ records : List (ReservationRecord T), Returns exec (Service.expireStaleReservations limit) db clock
        (records.map some) (db.sweep (lookupTimes (fun i => clock (i + 2)) rows.length)) (2 + 3 * rows.length) ∧
      List.Forall₂ (fun r x => SameRow r x.reservation) rows records := by
  obtain ⟨records, hlisted, hsame⟩ := returns_expireListed rows (fun i => clock (i + 2)) db fun r hr => by
    obtain ⟨hmem, hs⟩ := mem_staleRows.mp ((withLimit_sublist hrows).mem hr)
    exact ⟨[], findReservation_of_mem db.valid hmem, fun i => Stale.later hs (hmono (Nat.zero_le _))⟩
  refine ⟨records, ?_, hsame⟩
  have hlist : Returns exec (Service.listStaleHeldReservations limit) db clock rows db 2 := by
    rw [Service.listStaleHeldReservations]
    refine (returns_timestamp db clock).bind (n := 1) (m := 1) (returns_call ?_)
    simp only [exec, hrows]
  exact hlist.bind hlisted

theorem run_expireStaleReservations_error {limit : Int} {e : Error} (db : Database T) (clock : ℕ → T)
    (hrows : withLimit limit (staleRows db.tables (clock 0)) = .error e) :
    (Service.expireStaleReservations limit).run exec db clock = (.error e, db) := by
  have hlist : exec (clock 1) db (.listStaleHeldReservations (clock 0) limit) = (.error e, db) := by
    simp only [exec, hrows]
  rw [Service.expireStaleReservations, Service.listStaleHeldReservations, Program.bind_assoc,
    (returns_timestamp db clock).run_bind, Service.call, Program.invoke_bind, Program.run_call]
  simp only [Nat.zero_add, hlist]
  rfl

end Ticketing.TicketingApi
