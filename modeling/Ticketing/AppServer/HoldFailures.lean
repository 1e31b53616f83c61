import Ticketing.AppServer.CurrentSeat
import Ticketing.AppServer.Turns
import Ticketing.AppServer.SaleRuns

namespace Ticketing.AppServer

open Python Interaction TicketingApi Repository Commands Orchestrator
open Storage (Store seatKey Records SeatLease leaseEntry live Grants)

variable {α : Type} {e s u : String} {n : Int} {w : World} {env : Nat → Env} {t T : ℚ}

/-! ### Calls that raise -/

/-- The call raises although Redis executes and answers every command; it is over at `T`. -/
structure Raises (p : Flow α) (w : World) (env : Nat → Env) (T : ℚ) : Prop where
  raised : ∃ err, (p.run appStep w env).1 = .error err
  answered : ∀ ev ∈ p.events appStep w env, ∀ tokens, ev.op = .redis tokens → ev.env.fault = .none
  ended : ∀ ev ∈ p.events appStep w env, ev.env.now ≤ T
  clock : Monotone fun i => (env i).now

theorem Raises.call {op : AppOp} {k : Except Error op.Res → Flow α} (h : Raises (.call op k) w env T) :
    (∀ tokens, op = .redis tokens → (env 0).fault = .none) ∧ (env 0).now ≤ T ∧
      Raises (k (appStep (env 0) w op).1) (appStep (env 0) w op).2 (fun i => env (i + 1)) T := by
  have ha := h.answered
  have ho := h.ended
  simp only [Program.events_call, List.mem_cons, forall_eq_or_imp] at ha ho
  exact ⟨ha.1, ho.1, h.raised, ha.2, ho.2, fun i j hij => h.clock (Nat.add_le_add_right hij 1)⟩

/-- A step between two times, which may fail if it is a DB call. -/
def Between (t T : ℚ) (op : AppOp) (env : Env) : Prop :=
  (∀ tokens, op = .redis tokens → env.fault = .none) ∧ t ≤ env.now ∧ env.now ≤ T

theorem Raises.between {p : Flow α} (h : Raises p w env T) :
    ∀ ev ∈ p.events appStep w env, Between (env 0).now T ev.op ev.env := by
  intro ev hev
  obtain ⟨i, hi⟩ := Program.events_env hev
  exact ⟨h.answered ev hev, hi ▸ h.clock (Nat.zero_le i), h.ended ev hev⟩

/-! ### What the tail of a hold does to the seat -/

theorem between_redis (tokens : List String) (env : Env) (h : Between t T (.redis tokens) env) : env.fault = .none :=
  h.1 tokens rfl

theorem appStep_db_redis (env : Env) (w : World) (call : DbCall) : (appStep env w (.db call)).2.redis = w.redis := by
  rcases appStep_db env w call with h | h <;> rw [h]

theorem does_getEventSeat_live (w : World) (key : String) : Does (Between t T) (fun _ _ _ => True)
    (fun _ w' => live w'.redis key T = live w.redis key T) (getEventSeat e s) w := by
  have hfind : Does (Between t T) (fun _ _ _ => True) (fun _ w' => w'.redis = w.redis) (findEventSeat e s) w := by
    refine Does.bind (P := fun _ w' => w'.redis = w.redis)
      (does_dbCall fun env _ => ⟨trivial, appStep_db_redis env w _⟩) (fun seats w' h => ?_) fun _ _ h => h
    split
    · exact does_ret h
    · exact does_throw h
  refine hfind.bind (fun seat w₁ h₁ => ?_) fun _ _ h₁ => by rw [h₁]
  refine Does.bind (P := fun _ w' => live w'.redis key T = live w.redis key T)
    (does_seatStatus between_redis fun env henv => ⟨trivial, ?_⟩) (fun _ _ h => does_ret h) fun _ _ h => h
  exact (Storage.live_purge _ _ _ henv.2.2).trans (by rw [h₁])

/-- A hold that is released, or that runs out before it is, leaves the seat free. -/
theorem does_safeRelease_free {d : ℚ} (h : Records w.redis (seatKey e s) (.held u d)) (hb : Brief t (.held u d)) :
    Does (Between t T) (fun _ _ _ => True) (fun _ w' => live w'.redis (seatKey e s) T = none) (safeRelease e s u) w := by
  have hfree {redis : Store} (h : Records redis (seatKey e s) .free) : live redis (seatKey e s) T = none := by
    rw [h.live]
    rfl
  refine Does.tryCatch (P := fun _ w' => live w'.redis (seatKey e s) T = none) ?_ (fun _ _ h => h) fun _ _ h => does_ret h
  refine Does.bind (P := fun x w' => ∃ now, t ≤ now ∧ x = reported w.redis e s now ∧
      Records w'.redis (seatKey e s) (Lease.current now (.held u d)))
    (does_seatStatus between_redis fun env henv => ⟨trivial, env.now, henv.2.1, rfl, h.purge env.now⟩)
    (fun status w₁ h₁ => ?_) fun x w₁ h₁ => ?_
  all_goals
    obtain ⟨now, ht, hx, hw₁⟩ := h₁
    have hs : Shows w.redis (seatKey e s) now (Lease.current now (.held u d)) := ⟨_, h, rfl⟩
    rw [hs.status (hb.later ht)] at hx
    cases hx
  by_cases hd : d ≤ now
  · rw [Lease.current_expired hd] at hw₁ ⊢
    rw [if_neg (by simp [stateText])]
    exact does_ret (hfree hw₁)
  · rw [Lease.current_held (not_le.mp hd)] at hw₁ ⊢
    rw [if_pos (by simp [stateText, holder])]
    refine Does.bind (P := fun _ w' => live w'.redis (seatKey e s) T = none)
      (does_command between_redis fun env henv => ⟨trivial, hfree ?_⟩) (fun _ _ h => does_ret h) fun _ _ h => h
    have hr : Records (step w₁.redis (env.now, ["RELEASE_SEAT", e, s, u])) (seatKey e s) _ := release_step hw₁
    by_cases hlate : d ≤ env.now
    · simpa [Lease.current_expired hlate, Lease.act] using hr
    · simpa [Lease.current_held (not_le.mp hlate), Lease.act] using hr

/-! ### The row of a hold -/

/-- The result of a hold, with the seat as it is then. -/
def holdView (e s : String) (created : ReservationRecord ℚ × Bool) : Flow HoldResult := do
  return ⟨created.1, ← getEventSeat e s, created.2⟩

/-- What a hold does once it has all the columns of its row. -/
def holdCreate (e s u reservationId holdToken : String) (expiresAt : ℚ) : Flow HoldResult := do
  let created ← tryCatch (Orchestrator.db (.createHeldReservation ⟨reservationId, e, s, u, holdToken, expiresAt⟩))
    (fun x => do
      safeRelease e s u
      throw x)
  holdView e s created

/-- What a hold does once Redis has reserved the seat. -/
def holdRow (e s u : String) (n : Int) : Flow HoldResult := do
  let reservationId := "res-" ++ (← uuid4)
  let holdToken := "hold-" ++ (← uuid4)
  let expiresAt ← Program.ofExcept (addSeconds (← currentTime) n)
  holdCreate e s u reservationId holdToken expiresAt

theorem holdReservation_eq (e s u : String) (n : Int) : holdReservation e s u n = (do
    let _ ← findEventSeat e s
    let reserved ← reserveSeat e s u n
    if ¬ reserved.success then throw ⟨.conflictError, seatConflictMessage reserved u⟩ else holdRow e s u n) := rfl

/-- A failed creation frees the seat; a failed view leaves it alone. -/
theorem holdCreate_live {id token : String} {d d' : ℚ} (h : Raises (holdCreate e s u id token d') w env T)
    (hr : Records w.redis (seatKey e s) (.held u d)) (hb : Brief (env 0).now (.held u d)) :
    live ((holdCreate e s u id token d').run appStep w env).2.redis (seatKey e s) T =
      match (appStep (env 0) w (.db (.createHeldReservation ⟨id, e, s, u, token, d'⟩))).1 with
      | .ok _ => live w.redis (seatKey e s) T
      | .error _ => none := by
  have hp : holdCreate e s u id token d' = _ := Program.invoke_tryCatch_bind
    (.db (.createHeldReservation ⟨id, e, s, u, token, d'⟩)) (fun x => safeRelease e s u >>= fun _ => throw x) (holdView e s)
  rw [hp] at h ⊢
  obtain ⟨_, _, h'⟩ := h.call
  rw [Program.run_call]
  have hredis := appStep_db_redis (env 0) w (.createHeldReservation ⟨id, e, s, u, token, d'⟩)
  generalize appStep (env 0) w (.db (.createHeldReservation ⟨id, e, s, u, token, d'⟩)) = r at h' hredis ⊢
  obtain ⟨x, w'⟩ := r
  cases x with
  | ok created =>
      have hview : Does (Between (env (0 + 1)).now T) (fun _ _ _ => True)
          (fun _ w'' => live w''.redis (seatKey e s) T = live w'.redis (seatKey e s) T)
          (holdView e s created) w' :=
        (does_getEventSeat_live w' _).bind (fun _ _ h => does_ret h) fun _ _ h => h
      exact ((hview.run h'.between).1).trans (by rw [hredis])
  | error x =>
      have hfree : Does (Between (env (0 + 1)).now T) (fun _ _ _ => True)
          (fun _ w'' => live w''.redis (seatKey e s) T = none)
          ((safeRelease e s u >>= fun _ => throw x) >>= holdView e s) w' := by
        rw [Program.bind_assoc]
        refine (does_safeRelease_free (hredis ▸ hr) (hb.mono (h.clock (Nat.zero_le 1)))).bind (fun _ _ h => ?_) fun _ _ h => h
        exact does_throw h
      exact (hfree.run h'.between).1

/-- The DB is asked for the row, and answers with an error. -/
def CreateFails (e s u : String) (n : Int) (w : World) (env : Nat → Env) : Prop :=
  (env 2).now + n < endOfTime ∧ ∃ x, (appStep (env 3) w (.db (.createHeldReservation
    ⟨"res-" ++ (env 0).uuid, e, s, u, "hold-" ++ (env 1).uuid, (env 2).now + n⟩))).1 = .error x

theorem holdRow_live {d : ℚ} (h : Raises (holdRow e s u n) w env T) (hr : Records w.redis (seatKey e s) (.held u d))
    (hb : Brief (env 0).now (.held u d)) :
    CreateFails e s u n w env ∧ live ((holdRow e s u n).run appStep w env).2.redis (seatKey e s) T = none ∨
      ¬ CreateFails e s u n w env ∧
        live ((holdRow e s u n).run appStep w env).2.redis (seatKey e s) T = live w.redis (seatKey e s) T := by
  obtain ⟨_, _, h₁⟩ := Raises.call (show Raises (.call .uuid4 _) w env T from h)
  obtain ⟨_, _, h₂⟩ := Raises.call (show Raises (.call .uuid4 _) w _ T from h₁)
  obtain ⟨_, _, h₃⟩ := Raises.call (show Raises (.call .now _) w _ T from h₂)
  let rest : Flow HoldResult := Program.ofExcept (addSeconds (env 2).now n) >>= fun d =>
    holdCreate e s u ("res-" ++ (env 0).uuid) ("hold-" ++ (env 1).uuid) d
  have hrun : (holdRow e s u n).run appStep w env = rest.run appStep w (fun i => env (i + 3)) := rfl
  replace h₃ : Raises rest w (fun i => env (i + 3)) T := h₃
  rw [hrun]
  by_cases hd : (env 2).now + n < endOfTime
  · have hrest : rest = holdCreate e s u ("res-" ++ (env 0).uuid) ("hold-" ++ (env 1).uuid) ((env 2).now + n) := by
      simp only [rest, addSeconds, if_pos hd, Program.ofExcept_ok, Program.bind_ret]
    rw [hrest] at h₃ ⊢
    have hlive := holdCreate_live h₃ hr (hb.mono (h.clock (Nat.zero_le 3)))
    simp only [CreateFails, hd, true_and]
    rw [hlive]
    simp only [Nat.zero_add]
    cases (appStep (env 3) w (.db (.createHeldReservation ⟨"res-" ++ (env 0).uuid, e, s, u, "hold-" ++ (env 1).uuid,
      (env 2).now + n⟩))).1 with
    | ok created => exact .inr ⟨by simp, rfl⟩
    | error x => exact .inl ⟨⟨x, rfl⟩, rfl⟩
  · have hrest : rest = .raise ⟨.overflowError, "date value out of range"⟩ := by
      simp only [rest, addSeconds, if_neg hd, Program.ofExcept_error, Program.bind_raise]
    rw [hrest]
    exact .inr ⟨fun hc => hd hc.1, rfl⟩

/-! ### A hold that raises -/

/-- The seat is found, and the reservation is granted. -/
structure Reserved (e s u : String) (n : Int) (w : World) (env : Nat → Env) : Prop where
  found : ∃ seats, (appStep (env 0) w (.db (.listEventSeats e))).1 = .ok seats ∧
    ∃ seat ∈ seats, seat.seat.seatId = s
  finite : n.natAbs < floatOverflow
  granted : Grants (live w.redis (seatKey e s) (env 1).now) u (env 1).now

/-- What a hold that raises, and has reserved the seat, leaves of it is what it has found. -/
def Compensated (e s u : String) (n : Int) (w : World) (env : Nat → Env) (reservedAt T : ℚ) : Prop :=
  CreateFails e s u n w env ∧ live w.redis (seatKey e s) T = none ∨
    ¬ CreateFails e s u n w env ∧
      live w.redis (seatKey e s) T = leaseEntry (Lease.current T (.held u (reservedAt + n)))

theorem createFails_redis (w : World) (redis : Store) :
    CreateFails e s u n { w with redis := redis } env ↔ CreateFails e s u n w env := by
  have hx (env : Env) (call : DbCall) : (appStep env { w with redis := redis } (.db call)).1 = (appStep env w (.db call)).1 := by
    simp only [appStep]
    cases env.fault <;> rfl
  simp only [CreateFails, hx]

theorem reserve_live (hn : 0 < n) {refusal : SeatCommandResult → Error}
    (h : Raises (reserveSeat e s u n >>= fun reserved =>
      if ¬ reserved.success then throw (refusal reserved) else holdRow e s u n) w env T) :
    live ((reserveSeat e s u n >>= fun reserved =>
        if ¬ reserved.success then throw (refusal reserved) else holdRow e s u n).run appStep w env).2.redis
          (seatKey e s) T = live w.redis (seatKey e s) T ↔
      (n.natAbs < floatOverflow ∧ Grants (live w.redis (seatKey e s) (env 0).now) u (env 0).now →
        Compensated e s u n w (fun i => env (i + 1)) (env 0).now T) := by
  unfold reserveSeat at h ⊢
  cases htext : strInt n with
  | error x =>
      refine iff_of_true rfl fun hf => ?_
      obtain ⟨text, ht⟩ := strInt_of_natAbs_le hf.1.le
      cases htext.symm.trans ht
  | ok text =>
      rw [htext] at h
      simp only [Program.ofExcept_ok, Program.bind_ret, Orchestrator.execute, Program.invoke_bind, Program.bind_call] at h ⊢
      obtain ⟨hfault, hT, h'⟩ := h.call
      have hstep : appStep (env 0) w (.redis ["RESERVE_SEAT", e, s, u, text]) =
          ((redisReply ["RESERVE_SEAT", e, s, u, text] (env 0).now w.redis).1,
            { w with redis := step w.redis ((env 0).now, ["RESERVE_SEAT", e, s, u, text]) }) := by
        simp only [appStep, hfault _ rfl]
        rfl
      rw [Program.run_call]
      rw [hstep] at h' ⊢
      rcases reserve_reply htext w.redis e s u (env 0).now with ⟨⟨_, hf, hg⟩, hr, hreply⟩ | ⟨hno, hs, hreply⟩
      · cases hx : (redisReply ["RESERVE_SEAT", e, s, u, text] (env 0).now w.redis).1 with
        | error x =>
            rw [hx] at hreply
            cases hreply
        | ok reply =>
            rw [hx] at hreply h'
            replace hreply : decodeSeatCommand reply = .ok ⟨true, "HELD", some u, n⟩ := hreply
            simp only [hreply, Program.ofExcept_ok, Program.bind_ret, not_true_eq_false, if_false] at h' ⊢
            have hb : Brief (env 0).now (.held u ((env 0).now + n)) := brief_held hn hf
            have hlive := holdRow_live h' hr (hb.mono (h.clock (Nat.zero_le 1)))
            rw [createFails_redis, hr.live] at hlive
            simp only [Compensated]
            refine Iff.trans ?_ (forall_prop_of_true ⟨hf, hg⟩).symm
            rcases hlive with ⟨hc, hl⟩ | ⟨hc, hl⟩
            · rw [hl]
              simp [hc, eq_comm]
            · rw [hl]
              simp [hc, eq_comm]
      · have hlive : live (step w.redis ((env 0).now, ["RESERVE_SEAT", e, s, u, text])) (seatKey e s) T =
            live w.redis (seatKey e s) T := by
          rcases hs with hs | hs <;> rw [hs]
          exact Storage.live_purge _ _ _ hT
        refine iff_of_true ?_ fun hf => absurd ⟨hn, hf⟩ hno
        cases hx : (redisReply ["RESERVE_SEAT", e, s, u, text] (env 0).now w.redis).1 with
        | error x => exact hlive
        | ok reply =>
            rw [hx] at hreply
            dsimp only
            cases hd : decodeSeatCommand reply with
            | error x => exact hlive
            | ok r =>
                have hsuccess := hreply r hd
                simpa [hsuccess] using hlive

/-- A hold that raises leaves the seat as it was exactly where no reservation is granted, or what
is left of the reservation is what was there before. -/
theorem holdReservation_raised (hn : 0 < n) (h : Raises (holdReservation e s u n) w env T) :
    live ((holdReservation e s u n).run appStep w env).2.redis (seatKey e s) T = live w.redis (seatKey e s) T ↔
      (Reserved e s u n w env → Compensated e s u n (appStep (env 0) w (.db (.listEventSeats e))).2
        (fun i => env (i + 2)) (env 1).now T) := by
  rw [holdReservation_eq, findEventSeat, Orchestrator.db] at h ⊢
  simp only [Program.invoke_bind, Program.bind_call] at h ⊢
  obtain ⟨_, _, h'⟩ := h.call
  rw [Program.run_call]
  have hredis := appStep_db_redis (env 0) w (.listEventSeats e)
  cases hx : (appStep (env 0) w (.db (.listEventSeats e))).1 with
  | error x =>
      refine iff_of_true (congrArg (live · _ T) hredis) fun ⟨⟨seats, hs, _⟩, _, _⟩ => ?_
      cases hx.symm.trans hs
  | ok seats =>
      rw [hx] at h'
      cases hs : seats.find? (fun x => x.seat.seatId = s) with
      | none =>
          dsimp only
          rw [hs]
          refine iff_of_true (congrArg (live · _ T) hredis) fun ⟨⟨_, hok, seat, hseat, hid⟩, _, _⟩ => ?_
          cases hx.symm.trans hok
          exact (List.find?_eq_none.mp hs seat hseat (by simpa using hid)).elim
      | some seat =>
          dsimp only at h' ⊢
          rw [hs] at h' ⊢
          have hseat := List.find?_some hs
          have hfound : Reserved e s u n w env ↔
              n.natAbs < floatOverflow ∧ Grants (live w.redis (seatKey e s) (env 1).now) u (env 1).now :=
            ⟨fun ⟨_, hf, hg⟩ => ⟨hf, hg⟩,
              fun ⟨hf, hg⟩ => ⟨⟨seats, hx, seat, List.mem_of_find?_eq_some hs, by simpa using hseat⟩, hf, hg⟩⟩
          rw [hfound, ← hredis]
          exact reserve_live hn h'

instance decidableRaised {ε : Type} (x : Except ε α) : Decidable (∃ err, x = .error err) :=
  match x with
  | .ok _ => .isFalse (by simp)
  | .error err => .isTrue ⟨err, rfl⟩

/-- Every step at time 0, and every id the same. -/
def still : Nat → Env := fun _ => ⟨0, "0", .none⟩

theorem raises_still {p : Flow α} (h : ∃ err, (p.run appStep w still).1 = .error err) : Raises p w still 0 where
  raised := h
  answered ev hev _ _ := by
    obtain ⟨i, hi⟩ := Program.events_env hev
    rw [hi]
    rfl
  ended ev hev := by
    obtain ⟨i, hi⟩ := Program.events_env hev
    rw [hi]
    exact le_rfl
  clock := monotone_const

/-- After a hold of the seat `b`, under the ids of the next one. -/
def usedIds : World := ((holdReservation "e" "b" "v" 10).run appStep ⟨openSale, ∅⟩ still).2

theorem usedIds_compensated :
    live ((holdReservation "e" "a" "u" 10).run appStep usedIds still).2.redis (seatKey "e" "a") 0 =
      live usedIds.redis (seatKey "e" "a") 0 :=
  (holdReservation_raised (by decide) (raises_still (by decide +kernel))).mpr fun _ =>
    .inl ⟨⟨by decide +kernel, by decide +kernel⟩, by decide +kernel⟩

theorem overlongHold_remains :
    ¬ ∀ (e s u : String) (n : Int) (w : World) (env : Nat → Env) (T : ℚ), 0 < n →
      Raises (holdReservation e s u n) w env T →
      live ((holdReservation e s u n).run appStep w env).2.redis (seatKey e s) T = live w.redis (seatKey e s) T := by
  intro h
  have hsame := h "e" "a" "u" 253402300800 ⟨openSale, ∅⟩ still 0 (by decide) (raises_still (by decide +kernel))
  revert hsame
  decide +kernel

end Ticketing.AppServer
