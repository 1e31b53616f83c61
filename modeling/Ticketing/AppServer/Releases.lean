import Ticketing.AppServer.Expiries
import Ticketing.AppServer.HoldFailures
import Ticketing.TicketingApi.DemoData

namespace Ticketing.AppServer

open Python JsonText Interaction TicketingApi Repository Commands Orchestrator
open Interaction.Program (Calls)
open Storage (Store seatKey Records seatHeld seatAvailable)
open Trace (Along)

/-! ### What sells a seat -/

/-- The DB has sold the seat of a key to a user. -/
def SoldTo (db : Database ℚ) (key userId : String) : Prop :=
  ∃ e s, seatKey e s = key ∧ ConfirmedSeat db e s userId

variable {db : Database ℚ} {w : World} {env : ℕ → Env} {key e s u : String} {α : Type}

/-- The operations of the DB that confirm no reservation. -/
def Unselling : RepoOp ℚ → Prop
  | .confirmReservation .. => False
  | _ => True

theorem writes_unselling {op : RepoOp ℚ} (hop : Unselling op) {id : String} {S : ReservationStatus}
    (h : op.writes = some (id, S)) : S ≠ .confirmed := by
  cases op with
  | confirmReservation => exact hop.elim
  | cancelReservation =>
      cases h
      decide
  | expireReservation =>
      cases h
      decide
  | _ => cases h

theorem exec_unsold (clock : ℚ) {op : RepoOp ℚ} (hop : Unselling op) (h : ¬ SoldTo db key u) :
    ¬ SoldTo (exec clock db op).2 key u := by
  rintro ⟨e, s, hkey, r', hr', hconfirmed, he, hs, hu⟩
  obtain ⟨r, hr, hsame⟩ | ⟨_, _, _, _, _, _, _, _, rfl⟩ := exec_rows clock hr'
  · obtain ⟨r'', hr'', -, hstatus⟩ := exec_find clock op (findReservation_of_mem db.valid hr)
    rw [← hsame.reservationId, findReservation_of_mem (exec clock db op).2.valid hr'] at hr''
    cases hr''
    refine h ⟨e, s, hkey, r, hr, ?_, hsame.eventId ▸ he, hsame.seatId ▸ hs, hsame.userId ▸ hu⟩
    obtain hst | hw | ⟨-, hst, -⟩ := hstatus
    · exact hst.symm.trans hconfirmed
    · exact absurd hconfirmed (writes_unselling hop hw)
    · exact absurd (hconfirmed.symm.trans hst) (by decide)
  · cases hconfirmed

theorem atomic_unsold (now : ℚ) {method : Service.Method ℚ α} (hm : method.Calls Unselling) (h : ¬ SoldTo db key u) :
    ¬ SoldTo (atomic now method db).2 key u := by
  refine Program.events_stable (I := fun db => ¬ SoldTo db key u) (fun ev hev hbefore => ?_) (.inl h)
  rw [Program.events_after hev]
  exact exec_unsold ev.env (hm.events _ _ ev hev) hbefore

theorem unselling_of_sparesRows (op : RepoOp ℚ) (h : Service.SparesRows op) : Unselling op := by
  cases op with
  | confirmReservation => exact h
  | _ => trivial

theorem dbStep_unsold (now : ℚ) {call : DbCall} (hcall : ∀ id payload, call ≠ .confirmReservation id payload)
    (h : ¬ SoldTo db key u) : ¬ SoldTo (dbStep now db call).2 key u := by
  cases call with
  | listEventSeats eventId =>
      refine atomic_unsold now ?_ h
      exact Service.calls_reader unselling_of_sparesRows (Service.calls_requireEvent unselling_of_sparesRows eventId)
        trivial
  | createHeldReservation payload =>
      refine atomic_unsold now ?_ h
      exact Service.calls_createHeldReservation unselling_of_sparesRows _ payload fun _ _ _ => trivial
  | confirmReservation id payload => exact absurd rfl (hcall id payload)
  | cancelReservation id =>
      refine atomic_unsold now ?_ h
      exact Service.calls_cancelReservation unselling_of_sparesRows id _ fun _ _ _ => trivial
  | expireReservation id =>
      refine atomic_unsold now ?_ h
      exact Service.calls_expireReservation unselling_of_sparesRows id fun _ => trivial
  | expireStaleReservations limit =>
      refine atomic_unsold now ?_ h
      exact Service.calls_expireStaleReservations unselling_of_sparesRows (fun _ _ => trivial) limit
  | listConfirmedReservations limit =>
      refine atomic_unsold now ?_ h
      exact Service.calls_call trivial

/-- The operations of a flow that confirm no reservation. -/
def Idle (op : AppOp) : Prop := ∀ id payload, op ≠ .db (.confirmReservation id payload)

theorem usual_idle : Usual Idle where
  uuid4 := by simp [Idle]
  now := by simp [Idle]
  db call hcall id payload he := by
    cases he
    exact hcall
  seatStatus := by simp [Idle]

theorem idle_redis (tokens : List String) : Idle (.redis tokens) := by simp [Idle]

theorem appStep_unsold (env : Env) {op : AppOp} (hop : Idle op) (h : ¬ SoldTo w.db key u) :
    ¬ SoldTo (appStep env w op).2.db key u := by
  cases op with
  | uuid4 => exact h
  | now => exact h
  | redis tokens => rcases appStep_redis env w tokens with he | he <;> rwa [he]
  | db call =>
      rcases appStep_db env w call with he | he <;> rw [he]
      · exact dbStep_unsold env.now (fun id payload hc => hop id payload (congrArg AppOp.db hc)) h
      · exact h

theorem unsold_throughout (env : ℕ → Env) {p : Flow α} (hp : p.Calls Idle) (h : ¬ SoldTo w.db key u) :
    (∀ ev ∈ p.events appStep w env, ¬ SoldTo ev.before.db key u) ∧ ¬ SoldTo (p.run appStep w env).2.db key u := by
  have hstep : ∀ ev ∈ p.events appStep w env, ¬ SoldTo ev.before.db key u → ¬ SoldTo ev.after.db key u := by
    intro ev hev hbefore
    rw [Program.events_after hev]
    exact appStep_unsold ev.env (hp.events w env ev hev) hbefore
  exact ⟨Program.events_invariant (I := fun w : World => ¬ SoldTo w.db key u) hstep h,
    Program.events_stable (I := fun w : World => ¬ SoldTo w.db key u) hstep (.inl h)⟩

/-! ### Releases -/

/-- `SEAT_STATUS` would find the seat in this state, for this user. -/
def Finds (redis : Store) (key : String) (now : ℚ) (state : Str) (userId : Option Str) : Prop :=
  ∃ ttl, Storage.readSeat (Storage.live redis key now) now = .ok ⟨state, userId, ttl⟩

/-- A release turns a seat from held to available that the DB has sold to its holder. -/
def FreesSoldSeat (ev : Program.Event Env World AppOp) : Prop :=
  (∃ e s v, ev.op = .redis ["RELEASE_SEAT", e, s, v]) ∧ ∃ e s u, ConfirmedSeat ev.before.db e s u ∧
    Finds ev.before.redis (seatKey e s) ev.env.now seatHeld (some (Str.ofString u)) ∧
    ∃ userId, Finds ev.after.redis (seatKey e s) ev.env.now seatAvailable userId

/-- A release is issued only for a seat that the DB has not sold to the user. -/
def ReleasesUnsold (ev : Program.Event Env World AppOp) : Prop :=
  ∀ e s v, ev.op = .redis ["RELEASE_SEAT", e, s, v] → ¬ SoldTo ev.before.db (seatKey e s) v

theorem not_held_and_available {redis redis' : Store} {now : ℚ} {userId userId' : Option Str}
    (hsame : Storage.live redis' key now = Storage.live redis key now) (h : Finds redis key now seatHeld userId) :
    ¬ Finds redis' key now seatAvailable userId' := by
  rintro ⟨ttl', h'⟩
  obtain ⟨ttl, h⟩ := h
  rw [hsame, h] at h'
  obtain ⟨hstate, -⟩ := Storage.SeatStatus.mk.inj (Except.ok.inj h')
  exact Storage.seatStates_ne.1 hstate

/-- A release frees no other seat, and no seat that another user holds. -/
theorem released_own {redis : Store} {now : ℚ} {v : String} {userId : Option Str}
    (h : Finds redis key now seatHeld (some (Str.ofString u)))
    (h' : Finds (step redis (now, ["RELEASE_SEAT", e, s, v])) key now seatAvailable userId) :
    key = seatKey e s ∧ u = v := by
  rw [releaseSeat_step] at h'
  by_cases hkey : key = seatKey e s
  · refine ⟨hkey, ?_⟩
    by_contra huv
    obtain ⟨ttl, hread⟩ := id h
    refine not_held_and_available ?_ h h'
    rw [Storage.releaseSeat, Storage.seatStatusByKey_eq, ← hkey, hread]
    dsimp only
    rw [if_pos (.inr fun hu => huv (ofString_inj.1 (Option.some.inj hu)))]
    exact Storage.live_purge redis key key le_rfl
  · refine absurd h' (not_held_and_available ?_ h)
    rw [Storage.live, Storage.live, Storage.releaseSeat_lookup_ne redis e s v now hkey]

theorem freed_own {ev : Program.Event Env World AppOp} (hafter : ev.after = (appStep ev.env ev.before ev.op).2)
    {v : String} (hop : ev.op = .redis ["RELEASE_SEAT", e, s, v]) {userId : Option Str}
    (h : Finds ev.before.redis key ev.env.now seatHeld (some (Str.ofString u)))
    (h' : Finds ev.after.redis key ev.env.now seatAvailable userId) : key = seatKey e s ∧ u = v := by
  rw [hafter, hop] at h'
  rcases appStep_redis ev.env ev.before ["RELEASE_SEAT", e, s, v] with he | he <;> rw [he] at h'
  · exact released_own h h'
  · exact absurd h' (not_held_and_available rfl h)

theorem ReleasesUnsold.safe {ev : Program.Event Env World AppOp} (h : ReleasesUnsold ev)
    (hafter : ev.after = (appStep ev.env ev.before ev.op).2) : ¬ FreesSoldSeat ev := by
  rintro ⟨⟨e, s, v, hop⟩, e', s', u, hsold, hheld, userId, hfree⟩
  obtain ⟨hkey, rfl⟩ := freed_own hafter hop hheld hfree
  exact h e s u hop ⟨e', s', hkey, hsold⟩

/-! ### The flows -/

/-- The flow releases no seat. -/
def Unreleasing (op : AppOp) : Prop := ∀ e s v, op ≠ .redis ["RELEASE_SEAT", e, s, v]

theorem basic_unreleasing : Basic Unreleasing where
  uuid4 := by simp [Unreleasing]
  now := by simp [Unreleasing]
  db := by simp [Unreleasing]
  seatStatus := by simp [Unreleasing]

theorem releasesUnsold_of_calls {p : Flow α} (hp : p.Calls Unreleasing) :
    ∀ ev ∈ p.events appStep w env, ReleasesUnsold ev :=
  fun ev hev e s v hop => absurd hop (hp.events w env ev hev e s v)

/-- The flow releases one seat only. -/
def ReleasesOnly (e s u : String) (op : AppOp) : Prop :=
  ∀ e' s' v, op = .redis ["RELEASE_SEAT", e', s', v] → e' = e ∧ s' = s ∧ v = u

theorem usual_releasesOnly (e s u : String) : Usual (ReleasesOnly e s u) where
  uuid4 := by simp [ReleasesOnly]
  now := by simp [ReleasesOnly]
  db := by simp [ReleasesOnly]
  seatStatus := by simp [ReleasesOnly]

theorem releasesOnly_release (e s u : String) : ReleasesOnly e s u (.redis ["RELEASE_SEAT", e, s, u]) := by
  rintro e' s' v h
  cases h
  exact ⟨rfl, rfl, rfl⟩

/-- Where the seat is not sold, a flow that does not sell it may release it. -/
theorem releasesUnsold_of_unsold {p : Flow α} (hidle : p.Calls Idle) (honly : p.Calls (ReleasesOnly e s u))
    (h : ¬ SoldTo w.db (seatKey e s) u) : ∀ ev ∈ p.events appStep w env, ReleasesUnsold ev := by
  intro ev hev e' s' v hop
  obtain ⟨rfl, rfl, rfl⟩ := honly.events w env ev hev e' s' v hop
  exact (unsold_throughout env hidle h).1 ev hev

theorem run_call_ok {op : AppOp} {f : op.Res → Flow α} {a : α} {w' : World}
    (h : (Program.invoke op >>= f).run appStep w env = (.ok a, w')) :
    ∃ x w₁, appStep (env 0) w op = (.ok x, w₁) ∧ (f x).run appStep w₁ (fun n => env (n + 1)) = (.ok a, w') := by
  rw [Program.invoke_bind, Program.run_call] at h
  rcases hstep : appStep (env 0) w op with ⟨_ | x, w₁⟩
  · rw [hstep] at h
    cases h
  · rw [hstep] at h
    exact ⟨x, w₁, rfl, h⟩

theorem run_invoke_eq (w : World) (env : ℕ → Env) (op : AppOp) : (Program.invoke op : Flow op.Res).run appStep w env = appStep (env 0) w op ∧
    Program.rest appStep (Program.invoke op : Flow op.Res) w env = fun n => env (n + 1) := by
  rw [Program.invoke, Program.run_call, Program.rest_call]
  rcases appStep (env 0) w op with ⟨_ | _, _⟩
  · exact ⟨rfl, rfl⟩
  · exact ⟨rfl, rfl⟩

theorem run_ofExcept {x : Except Error α} : (Program.ofExcept x : Flow α).run appStep w env = (x, w) := by
  cases x <;> rfl

theorem fault_of_ok {σ : Type} {fault : Fault} {s s' : σ} {r : Except Error α × σ} {a : α}
    (h : withFault fault s r = (.ok a, s')) : fault = .none := by
  cases fault with
  | none => rfl
  | fail effect error => cases h

/-- A command that is answered met no failure. -/
theorem command_ok {tokens : List String} {decode : Reply → Except Error α} {a : α} {w' : World}
    (h : (Orchestrator.execute tokens >>= fun reply => Program.ofExcept (decode reply)).run appStep w env = (.ok a, w')) :
    (env 0).fault = .none ∧ (redisReply tokens (env 0).now w.redis).1 >>= decode = .ok a ∧ w'.db = w.db := by
  obtain ⟨reply, w₁, hstep, hrest⟩ := run_call_ok h
  obtain ⟨hreply, rfl⟩ := appStep_redis_ok hstep
  rw [run_ofExcept] at hrest
  obtain ⟨hdecode, rfl⟩ := Prod.ext_iff.mp hrest
  refine ⟨fault_of_ok hstep, ?_, rfl⟩
  rw [hreply]
  exact hdecode

/-- A release follows a status that finds the seat held by its user. -/
theorem safeRelease_silent (h : (env 0).fault = .none →
    ¬ Finds w.redis (seatKey e s) (env 0).now seatHeld (some (Str.ofString u))) :
    ∀ ev ∈ (safeRelease e s u).events appStep w env, Unreleasing ev.op := by
  intro ev hev
  rw [safeRelease] at hev
  rcases Program.mem_events_tryCatch.mp hev with hev | ⟨_, _, _, hev⟩
  · rcases Program.mem_events_bind.mp hev with hev | ⟨status, w₁, hrun, hev⟩
    · exact (calls_seatStatus basic_unreleasing.seatStatus e s).events w env ev hev
    · obtain ⟨hfault, hstatus, -⟩ := command_ok hrun
      split at hev
      next hheld =>
        refine absurd ⟨status.ttl, ?_⟩ (h hfault)
        have hread := readStatus_ok ((reported_eq w.redis e s (env 0).now).symm.trans hstatus)
        rw [hread, hheld.1, hheld.2]
        rfl
      next => cases hev
  · cases hev

/-! ### Holds -/

/-- The reservation of a hold is granted. -/
structure Reserves (w : World) (env : ℕ → Env) (e s u : String) (n : Int) : Prop where
  answered : (env 1).fault = .none
  positive : 0 < n
  finite : n.natAbs < floatOverflow
  granted : Storage.Grants (Storage.live w.redis (seatKey e s) (env 1).now) u (env 1).now

theorem findEventSeat_rest (e s : String) (w : World) (env : ℕ → Env) :
    Program.rest appStep (findEventSeat e s) w env = fun n => env (n + 1) := by
  rw [findEventSeat, Orchestrator.db, Program.invoke_bind, Program.rest_call]
  cases (appStep (env 0) w (.db (.listEventSeats e))).1 with
  | error x => rfl
  | ok seats =>
      dsimp only
      split <;> rfl

theorem findEventSeat_redis {seat : SeatRecord ℚ} {w' : World}
    (h : (findEventSeat e s).run appStep w env = (.ok seat, w')) : w'.redis = w.redis := by
  obtain ⟨seats, w₁, hstep, hrest⟩ := run_call_ok h
  have hredis := appStep_db_redis (env 0) w (.listEventSeats e)
  rw [hstep] at hredis
  split at hrest
  · cases hrest
    exact hredis
  · cases hrest

theorem reserveSeat_granted {n : Int} {r : SeatCommandResult} {w' : World}
    (h : (reserveSeat e s u n).run appStep w env = (.ok r, w')) (hr : r.success = true) :
    (env 0).fault = .none ∧ 0 < n ∧ n.natAbs < floatOverflow ∧
      Storage.Grants (Storage.live w.redis (seatKey e s) (env 0).now) u (env 0).now := by
  rw [reserveSeat] at h
  cases htext : strInt n with
  | error x =>
      rw [htext] at h
      cases h
  | ok text =>
      rw [htext, Program.ofExcept_ok, Program.bind_ret] at h
      obtain ⟨hfault, hreply, -⟩ := command_ok h
      rcases reserve_reply htext w.redis e s u (env 0).now with ⟨hg, -⟩ | ⟨-, -, hrefused⟩
      · exact ⟨hfault, hg⟩
      · rw [hrefused r hreply] at hr
        cases hr

theorem calls_holdReservation_idle (e s u : String) (n : Int) : (Orchestrator.holdReservation e s u n).Calls Idle :=
  calls_holdReservation usual_idle (idle_redis _) (fun _ => idle_redis _) n

theorem calls_holdReservation_only (e s u : String) (n : Int) :
    (Orchestrator.holdReservation e s u n).Calls (ReleasesOnly e s u) := by
  refine calls_holdReservation (usual_releasesOnly e s u) (releasesOnly_release e s u) (fun m => ?_) n
  simp [ReleasesOnly]

/-- A hold of a sold seat that Redis does not grant ends with an error, and releases nothing. -/
theorem hold_refused {n : Int} (h : ¬ Reserves w env e s u n) :
    (∀ ev ∈ (Orchestrator.holdReservation e s u n).events appStep w env, Unreleasing ev.op) ∧
      ∀ r w', (Orchestrator.holdReservation e s u n).run appStep w env ≠ (.ok r, w') := by
  have hrefused {seat : SeatRecord ℚ} {w₁ w₂ : World} {r : SeatCommandResult}
      (hfind : (findEventSeat e s).run appStep w env = (.ok seat, w₁))
      (hreserve : (reserveSeat e s u n).run appStep w₁ (fun n => env (n + 1)) = (.ok r, w₂)) : ¬ r.success = true := by
    intro hr
    obtain ⟨hfault, hn, hf, hg⟩ := reserveSeat_granted hreserve hr
    rw [findEventSeat_redis hfind] at hg
    exact h ⟨hfault, hn, hf, hg⟩
  rw [holdReservation_eq]
  constructor
  · intro ev hev
    rcases Program.mem_events_bind.mp hev with hev | ⟨seat, w₁, hfind, hev⟩
    · exact (calls_findEventSeat basic_unreleasing.usual e s).events w env ev hev
    rw [findEventSeat_rest] at hev
    rcases Program.mem_events_bind.mp hev with hev | ⟨r, w₂, hreserve, hev⟩
    · exact (calls_reserveSeat (by simp [Unreleasing]) n).events _ _ ev hev
    rw [if_pos (hrefused hfind hreserve)] at hev
    cases hev
  · intro r w' hrun
    rw [Program.run_bind, findEventSeat_rest] at hrun
    rcases hfind : (findEventSeat e s).run appStep w env with ⟨_ | seat, w₁⟩
    · rw [hfind] at hrun
      cases hrun
    rw [hfind] at hrun
    dsimp only at hrun
    rw [Program.run_bind] at hrun
    rcases hreserve : (reserveSeat e s u n).run appStep w₁ (fun n => env (n + 1)) with ⟨_ | r', w₂⟩
    · rw [hreserve] at hrun
      cases hrun
    rw [hreserve] at hrun
    dsimp only at hrun
    rw [if_pos (hrefused hfind hreserve)] at hrun
    cases hrun

theorem hold_releases {n : Int} (h : ¬ (SoldTo w.db (seatKey e s) u ∧ Reserves w env e s u n)) :
    (∀ ev ∈ (Orchestrator.holdReservation e s u n).events appStep w env, ReleasesUnsold ev) ∧
      ∀ r w', (Orchestrator.holdReservation e s u n).run appStep w env = (.ok r, w') →
        ¬ SoldTo w'.db (seatKey e s) u := by
  by_cases hsold : SoldTo w.db (seatKey e s) u
  · obtain ⟨hevents, hrun⟩ := hold_refused fun hr => h ⟨hsold, hr⟩
    exact ⟨fun ev hev e' s' v hop => absurd hop (hevents ev hev e' s' v), fun r w' hr => absurd hr (hrun r w')⟩
  · refine ⟨releasesUnsold_of_unsold (calls_holdReservation_idle e s u n) (calls_holdReservation_only e s u n) hsold, ?_⟩
    intro r w' hr
    have hend := (unsold_throughout env (calls_holdReservation_idle e s u n) hsold).2
    rwa [hr] at hend

/-! ### Cancellations -/

/-- The row of the id is cancelled, or it may be. -/
def Cancels (w : World) (env : ℕ → Env) (id : String) : Prop :=
  (env 0).fault = .none ∧ ∃ row, findReservation w.db.tables id = some row ∧
    (row.status = .cancelled ∨ row.status = .held ∧ ¬ Stale row (env 0).now)

theorem cancel_ok {id : String} {r : ReservationRecord ℚ} {w' : World}
    (h : appStep (env 0) w (.db (.cancelReservation id)) = (.ok r, w')) : Cancels w env id ∧ w'.redis = w.redis := by
  obtain ⟨hr, rfl⟩ := appStep_db_ok h
  have hrow {row : Reservation ℚ} (hfind : findReservation (w.db.expire (env 0).now).tables id = some row)
      (hS : row.status = .cancelled ∨ row.status = .held) : Cancels w env id := by
    rw [findReservation_expire] at hfind
    obtain ⟨row₀, hrow₀, rfl⟩ := Option.map_eq_some_iff.mp hfind
    have heq : expiredAt (env 0).now row₀ = row₀ := by
      refine expiredAt_eq ?_
      rcases hS with hS | hS <;> rw [hS] <;> decide
    refine ⟨fault_of_ok h, row₀, hrow₀, ?_⟩
    rw [heq] at hS
    refine hS.imp_right fun hheld => ⟨hheld, ?_⟩
    rw [← heq]
    exact not_stale_expiredAt _ _
  refine ⟨?_, rfl⟩
  cases dbStep_cancel (env 0).now w.db id with
  | failed e hx hdb => cases hx.symm.trans hr
  | already row hfind hS hx hdb => exact hrow hfind (.inl hS)
  | written row hfind hheld r' hx hget hdb => exact hrow hfind (.inr hheld)

theorem cancel_releases {id : String} (h : ¬ (SoldTo w.db (seatKey e s) u ∧ Cancels w env id ∧ (env 1).fault = .none ∧
      Finds w.redis (seatKey e s) (env 1).now seatHeld (some (Str.ofString u)))) :
    ∀ ev ∈ (Orchestrator.cancelReservation id e s u).events appStep w env, ReleasesUnsold ev := by
  by_cases hsold : SoldTo w.db (seatKey e s) u
  · intro ev hev
    obtain ⟨hrun, hrest⟩ := run_invoke_eq w env (.db (.cancelReservation id))
    rcases Program.mem_events_bind.mp hev with hev | ⟨r, w₁, hcancel, hev⟩
    · exact releasesUnsold_of_calls (Calls.invoke (basic_unreleasing.db _)) ev hev
    obtain ⟨hcancels, hredis⟩ := cancel_ok (hrun.symm.trans hcancel)
    rw [Orchestrator.db, hrest] at hev
    rcases Program.mem_events_bind.mp hev with hev | ⟨_, w₂, _, hev⟩
    · have hsilent := @safeRelease_silent w₁ (fun n => env (n + 1)) e s u
      rw [hredis] at hsilent
      exact fun e' s' v hop => absurd hop (hsilent (fun hfault hheld => h ⟨hsold, hcancels, hfault, hheld⟩) ev hev e' s' v)
    · refine releasesUnsold_of_calls ?_ ev hev
      exact (calls_getEventSeat basic_unreleasing.usual e s).bind fun _ => trivial
  · exact releasesUnsold_of_unsold (calls_cancelReservation usual_idle id (idle_redis _))
      (calls_cancelReservation (usual_releasesOnly e s u) id (releasesOnly_release e s u)) hsold

/-! ### Purchases -/

/-- The call is carried out, whether it is answered or not. -/
def Fault.TakesEffect : Fault → Prop
  | .none => True
  | .fail effect _ => effect = true

/-- Redis carries out the `FORCE_CONFIRM_SEAT` of the seat. -/
def Finalizes (e s u : String) (ev : Program.Event Env World AppOp) : Prop :=
  ev.op = .redis ["FORCE_CONFIRM_SEAT", e, s, u] ∧ ev.env.fault.TakesEffect

/-- A call that sells the seat has it finalized in Redis. -/
def FinalizesSale (key : String) (e s u : String) (events : List (Program.Event Env World AppOp)) : Prop :=
  (∃ ev ∈ events, ¬ SoldTo ev.before.db key u ∧ SoldTo ev.after.db key u) → ∃ ev ∈ events, Finalizes e s u ev

theorem Finalizes.records {ev : Program.Event Env World AppOp} (h : Finalizes e s u ev)
    (hafter : ev.after = (appStep ev.env ev.before ev.op).2) : Records ev.after.redis (seatKey e s) (.owned u) := by
  obtain ⟨hop, heffect⟩ := h
  have hredis : ev.after.redis = step ev.before.redis (ev.env.now, ["FORCE_CONFIRM_SEAT", e, s, u]) := by
    rw [hafter, hop]
    simp only [appStep]
    cases hfault : ev.env.fault with
    | none => rfl
    | fail effect error =>
        rw [hfault] at heffect
        obtain rfl : effect = true := heffect
        rfl
  rw [hredis]
  exact force_step ev.before.redis e s u ev.env.now

/-- The commands of a confirmation leave the owner of its seat alone, or make its user the owner. -/
def Confirming (e s u : String) (op : AppOp) : Prop :=
  ∀ tokens, op = .redis tokens → Gentle tokens ∨ tokens = ["FORCE_CONFIRM_SEAT", e, s, u]

theorem basic_confirming (e s u : String) : Basic (Confirming e s u) where
  uuid4 := by simp [Confirming]
  now := by simp [Confirming]
  db := by simp [Confirming]
  seatStatus e' s' := by
    rintro tokens h
    cases h
    exact .inl (gentle_seatStatus e' s')

theorem confirming_keeps (env : Env) {op : AppOp} (hop : Confirming e s u op)
    (h : Records w.redis (seatKey e s) (.owned u)) : Records (appStep env w op).2.redis (seatKey e s) (.owned u) := by
  cases op with
  | uuid4 => exact h
  | now => exact h
  | db call =>
      rw [appStep_db_redis]
      exact h
  | redis tokens =>
      rcases appStep_redis env w tokens with he | he <;> rw [he]
      · rcases hop tokens rfl with hgentle | rfl
        · obtain ⟨l, hl, howned⟩ := gentle_step (fun e' => Storage.queueKey_ne_seatKey e' e s) h hgentle env.now
          rwa [(howned u).2 rfl] at hl
        · exact force_step w.redis e s u env.now
      · exact h

theorem owned_stays (env : ℕ → Env) {p : Flow α} (hp : p.Calls (Confirming e s u)) (h : Records w.redis (seatKey e s) (.owned u) ∨
    ∃ ev ∈ p.events appStep w env, Records ev.after.redis (seatKey e s) (.owned u)) :
    Records (p.run appStep w env).2.redis (seatKey e s) (.owned u) := by
  refine Program.events_stable (I := fun w : World => Records w.redis (seatKey e s) (.owned u)) ?_ h
  intro ev hev hbefore
  rw [Program.events_after hev]
  exact confirming_keeps ev.env (hp.events w env ev hev) hbefore

theorem confirmation_calls (id e s u : String) : (Orchestrator.confirmReservation id e s u).Calls (Confirming e s u) := by
  refine calls_confirmReservation (basic_confirming e s u) ?_ id
  rintro tokens h
  cases h
  exact .inr rfl

/-- What a purchase does besides its confirmation finalizes no seat. -/
def Unforcing (op : AppOp) : Prop := ∀ e s u, op ≠ .redis ["FORCE_CONFIRM_SEAT", e, s, u]

theorem usual_unforcing : Usual Unforcing where
  uuid4 := by simp [Unforcing]
  now := by simp [Unforcing]
  db := by simp [Unforcing]
  seatStatus := by simp [Unforcing]

/-- A seat that Redis calls confirmed is not released. -/
theorem safeCancel_silent {id : String} (h : Records w.redis (seatKey e s) (.owned u)) :
    ∀ ev ∈ (safeCancel id e s u).events appStep w env, Unreleasing ev.op := by
  intro ev hev
  have hcancel : (tryCatch (do
      let _ ← Orchestrator.db (.cancelReservation id)
      return ()) (fun _ => return ()) : Flow Unit).Calls (fun op => Confirming e s u op ∧ Unreleasing op) := by
    refine Calls.tryCatch ((Calls.invoke ⟨?_, ?_⟩).bind fun _ => trivial) fun _ => trivial
    · exact (basic_confirming e s u).db _
    · exact basic_unreleasing.db _
  rw [safeCancel] at hev
  rcases Program.mem_events_bind.mp hev with hev | ⟨_, w₁, hrun, hev⟩
  · exact (hcancel.events w env ev hev).2
  have hrecords := owned_stays env (hcancel.mono fun _ h => h.1) (.inl h)
  rw [hrun] at hrecords
  refine safeRelease_silent (fun _ => ?_) ev hev
  rintro ⟨ttl, hread⟩
  rw [hrecords.live, Lease.current_owned, Storage.readSeat_leaseEntry] at hread
  obtain ⟨hstate, -⟩ := Storage.SeatStatus.mk.inj (Except.ok.inj hread)
  exact Storage.seatStates_ne.2.2 hstate

/-- The confirmation of a hold, within its purchase. -/
theorem mem_purchase {n : Int} {hold : HoldResult} {w₁ : World}
    (hrun : (Orchestrator.holdReservation e s u n).run appStep w env = (.ok hold, w₁)) :
    let confirm := Orchestrator.confirmReservation hold.reservation.reservation.reservationId e s u
    let env' := Program.rest appStep (Orchestrator.holdReservation e s u n) w env
    (∀ ev ∈ confirm.events appStep w₁ env', ev ∈ (purchaseSeat e s u n).events appStep w env) ∧
      ∀ ev ∈ (purchaseSeat e s u n).events appStep w env, Finalizes e s u ev → ev ∈ confirm.events appStep w₁ env' := by
  intro confirm env'
  constructor
  · intro ev hev
    rw [purchaseSeat]
    refine Program.mem_events_bind.mpr (.inr ⟨hold, w₁, hrun, ?_⟩)
    exact Program.mem_events_bind.mpr (.inl (Program.mem_events_tryCatch.mpr (.inl hev)))
  · intro ev hev hforce
    have hno {α : Type} {p : Flow α} (hp : p.Calls Unforcing) {w' : World} {env'' : ℕ → Env}
        (h : ev ∈ p.events appStep w' env'') : False := hp.events w' env'' ev h e s u hforce.1
    rw [purchaseSeat] at hev
    rcases Program.mem_events_bind.mp hev with hev | ⟨hold', w', hrun', hev⟩
    · refine (hno ?_ hev).elim
      exact calls_holdReservation usual_unforcing (by simp [Unforcing]) (by simp [Unforcing]) n
    cases hrun.symm.trans hrun'
    rcases Program.mem_events_bind.mp hev with hev | ⟨_, _, _, hev⟩
    swap
    · cases hev
    rcases Program.mem_events_tryCatch.mp hev with hev | ⟨_, _, _, hev⟩
    · exact hev
    · refine (hno ?_ hev).elim
      exact (calls_safeCancel usual_unforcing _ (by simp [Unforcing])).bind fun _ => trivial

theorem purchase_releases {n : Int} (h : ¬ (SoldTo w.db (seatKey e s) u ∧ Reserves w env e s u n))
    (hfinal : FinalizesSale (seatKey e s) e s u ((purchaseSeat e s u n).events appStep w env)) :
    ∀ ev ∈ (purchaseSeat e s u n).events appStep w env, ReleasesUnsold ev := by
  obtain ⟨hhold, hheld⟩ := hold_releases h
  intro ev hev
  rw [purchaseSeat] at hev
  rcases Program.mem_events_bind.mp hev with hev | ⟨hold, w₁, hrun, hev⟩
  · exact hhold ev hev
  rcases Program.mem_events_bind.mp hev with hev | ⟨_, _, _, hev⟩
  swap
  · cases hev
  rcases Program.mem_events_tryCatch.mp hev with hev | ⟨x, w₂, hconfirm, hev⟩
  · exact releasesUnsold_of_calls (calls_confirmReservation basic_unreleasing (by simp [Unreleasing]) _) ev hev
  rcases Program.mem_events_bind.mp hev with hev | ⟨_, _, _, hev⟩
  swap
  · cases hev
  by_cases hsold : SoldTo w₂.db (seatKey e s) u
  · obtain ⟨hwithin, honly⟩ := mem_purchase hrun
    -- the confirmation has sold the seat, so that it has finalized it as well
    obtain ⟨sale, hsale, hsells⟩ := Program.events_change (I := fun w : World => SoldTo w.db (seatKey e s) u)
      (hheld hold w₁ hrun) (by rwa [hconfirm])
    obtain ⟨force, hforce, hfinalizes⟩ := hfinal ⟨sale, hwithin sale hsale, hsells⟩
    have hconfirmed := honly force hforce hfinalizes
    have hrecords := owned_stays _ (confirmation_calls hold.reservation.reservation.reservationId e s u)
      (.inr ⟨force, hconfirmed, hfinalizes.records (Program.events_after hconfirmed)⟩)
    rw [hconfirm] at hrecords
    exact fun e' s' v hop => absurd hop (safeCancel_silent hrecords ev hev e' s' v)
  · refine releasesUnsold_of_unsold (calls_safeCancel usual_idle _ (idle_redis _)) ?_ hsold ev hev
    exact calls_safeCancel (usual_releasesOnly e s u) _ (releasesOnly_release e s u)

/-! ### Runs -/

/-- The operation reserves no seat again that the DB has sold to its user, cancels nothing while this user holds
the sold seat, and finalizes what it sells. -/
def KeepsSales (w : World) (x : Turn) : Prop :=
  match x.call with
  | .holdReservation e s u n => ¬ (SoldTo w.db (seatKey e s) u ∧ Reserves w x.env e s u n)
  | .purchaseSeat e s u n => ¬ (SoldTo w.db (seatKey e s) u ∧ Reserves w x.env e s u n) ∧
      FinalizesSale (seatKey e s) e s u (x.events w)
  | .cancelReservation id e s u => ¬ (SoldTo w.db (seatKey e s) u ∧ Cancels w x.env id ∧ (x.env 1).fault = .none ∧
      Finds w.redis (seatKey e s) (x.env 1).now seatHeld (some (Str.ofString u)))
  | _ => True

theorem turn_releases {x : Turn} (hop : Operation w.db x.call) (h : KeepsSales w x) :
    ∀ ev ∈ x.events w, ¬ FreesSoldSeat ev := by
  have hunsold : ∀ ev ∈ x.events w, ReleasesUnsold ev := by
    obtain ⟨call, env⟩ := x
    have hevents {α : Type} (p : Flow α) (f : α → AppResult) :
        (p >>= fun a => pure (f a)).events appStep w env = p.events appStep w env := Program.events_map p f w env
    simp only [KeepsSales, Turn.events, AppCall.flow] at h ⊢
    cases call with
    | holdReservation e s u n =>
        rw [hevents]
        exact (hold_releases h).1
    | confirmReservation id e s u =>
        rw [hevents]
        exact releasesUnsold_of_calls (calls_confirmReservation basic_unreleasing (by simp [Unreleasing]) id)
    | cancelReservation id e s u =>
        rw [hevents]
        exact cancel_releases h
    | purchaseSeat e s u n =>
        dsimp only at h
        rw [hevents] at h ⊢
        exact purchase_releases h.1 h.2
    | runOnce limit => exact hop.elim
  exact fun ev hev => (hunsold ev hev).safe (Program.events_after hev)

/-- In a run whose operations keep the sales, no release frees a seat that the DB has sold to its holder. -/
theorem releases_spare_sales (w : World) (turns : List Turn)
    (hop : Along Turn.after (fun w x => Operation w.db x.call) w turns) (h : Along Turn.after KeepsSales w turns) :
    Along Turn.after (fun w x => ∀ ev ∈ x.events w, ¬ FreesSoldSeat ev) w turns :=
  (hop.and h).mono fun _ _ hx => turn_releases hx.1 hx.2

instance (db : Database ℚ) (key u : String) : Decidable (SoldTo db key u) :=
  decidable_of_iff (∃ r ∈ db.tables.reservations, r.status = .confirmed ∧ seatKey r.eventId r.seatId = key ∧ r.userId = u)
    ⟨fun ⟨r, hr, hS, hkey, hu⟩ => ⟨r.eventId, r.seatId, hkey, r, hr, hS, rfl, rfl, hu⟩,
      fun ⟨_, _, hkey, r, hr, hS, he, hs, hu⟩ => ⟨r, hr, hS, he ▸ hs ▸ hkey, hu⟩⟩

/-- A purchase whose DB confirmation fails. -/
def rejectedPurchase : Turn :=
  ⟨.purchaseSeat "e" "b" "v" 60, fun n => ⟨6, "2", if n = 11 then .fail false ⟨.upstreamError, "timeout"⟩ else .none⟩⟩

/-- A hold and its confirmation, and a purchase of the next seat that is cancelled and released. -/
def saleAndRelease : List Turn :=
  [(AppCall.holdReservation "e" "a" "u" 10).at 0 "0", (AppCall.confirmReservation "res-0" "e" "a" "u").at 5 "1",
    rejectedPurchase]

theorem saleAndRelease_spares :
    Along Turn.after (fun w x => ∀ ev ∈ x.events w, ¬ FreesSoldSeat ev) ⟨openSale, ∅⟩ saleAndRelease := by
  refine releases_spare_sales _ _ (by decide +kernel) ⟨?_, trivial, ?_, trivial⟩
  · exact fun h => absurd h.1 (by decide +kernel)
  · have hsells : ¬ ∃ ev ∈ rejectedPurchase.events ((saleAndRelease.take 2).foldl Turn.after ⟨openSale, ∅⟩),
        ¬ SoldTo ev.before.db (seatKey "e" "b") "v" ∧ SoldTo ev.after.db (seatKey "e" "b") "v" := by decide +kernel
    exact ⟨fun h => absurd h.1 (by decide +kernel), fun h => absurd h hsells⟩

/-- A purchase whose payment is booked, and whose `FORCE_CONFIRM_SEAT` all fail. -/
def unfinalizedPurchase : Turn :=
  ⟨.purchaseSeat "e" "a" "u" 60, fun n => ⟨0, "0", if 12 ≤ n ∧ n ≤ 14 then .fail false ⟨.upstreamError, "timeout"⟩ else .none⟩⟩

theorem op_of_tokens {op : AppOp} {token : String} {tokens : List String} (h : op.tokens = token :: tokens) :
    op = .redis (token :: tokens) := by
  cases op with
  | redis tokens => exact congrArg AppOp.redis h
  | _ => cases h

theorem unfinalizedPurchase_frees : ¬ ∀ (w : World) (turns : List Turn),
    Along Turn.after (fun w x => Operation w.db x.call) w turns →
      Along Turn.after (fun w x => ∀ ev ∈ x.events w, ¬ FreesSoldSeat ev) w turns := by
  intro h
  have hsafe := (h ⟨openSale, ∅⟩ [unfinalizedPurchase] ⟨trivial, trivial⟩).1
  have hrelease : ∃ ev ∈ unfinalizedPurchase.events ⟨openSale, ∅⟩, ev.op.tokens = ["RELEASE_SEAT", "e", "a", "u"] ∧
      (∃ r ∈ ev.before.db.tables.reservations,
        r.status = .confirmed ∧ r.eventId = "e" ∧ r.seatId = "a" ∧ r.userId = "u") ∧
      Storage.readSeat (Storage.live ev.before.redis (seatKey "e" "a") ev.env.now) ev.env.now =
        .ok ⟨seatHeld, some (Str.ofString "u"), 60⟩ ∧
      Storage.readSeat (Storage.live ev.after.redis (seatKey "e" "a") ev.env.now) ev.env.now =
        .ok ⟨seatAvailable, none, -1⟩ := by decide +kernel
  obtain ⟨ev, hev, htokens, hsold, hheld, hfree⟩ := hrelease
  exact hsafe ev hev ⟨⟨"e", "a", "u", op_of_tokens htokens⟩, "e", "a", "u", hsold, ⟨60, hheld⟩, none, -1, hfree⟩

end Ticketing.AppServer
