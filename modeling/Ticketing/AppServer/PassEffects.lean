import Ticketing.AppServer.PassFaults
import Ticketing.AppServer.PassReleases

namespace Ticketing.AppServer

open Python JsonText Interaction TicketingApi Repository Commands Orchestrator Reconciler
open Storage (Store seatKey Records)
open Reconciler.ReconciliationReport (total)

variable {redis redis' : Store} {key e s u : String} {now now' : ℚ} {w : World} {env : ℕ → Env}

/-! ### The answers to a lookup as time goes by -/

/-- The answer to a lookup of the seat of a key. -/
def answerAt (redis : Store) (key : String) (now : ℚ) : Except Error SeatStatus :=
  readStatus (Storage.readSeat (Storage.live redis key now) now)

theorem reported_answerAt (redis : Store) (e s : String) (now : ℚ) : reported redis e s now = answerAt redis (seatKey e s) now :=
  reported_eq redis e s now

theorem answerAt_lookup (h : redis'.lookup key = redis.lookup key) (now : ℚ) : answerAt redis' key now = answerAt redis key now := by
  rw [answerAt, answerAt, lookup_live h]

theorem answerAt_free (h : Storage.live redis key now = none) : answerAt redis key now = .ok ⟨"AVAILABLE", none, -1⟩ := by
  have hi : strInt (-1) = .ok "-1" := by decide +kernel
  have ht := readStatus_text "AVAILABLE" none (-1)
  rw [hi] at ht
  rw [answerAt, h]
  exact ht

theorem strInt_le {n m : Int} (hm : 0 ≤ m) (hmn : m ≤ n) (h : ∃ text, strInt n = .ok text) : ∃ text, strInt m = .ok text := by
  obtain ⟨text, h⟩ := h
  unfold strInt at h ⊢
  split at h
  next hn =>
    refine ⟨_, if_pos ?_⟩
    rw [Nat.length_toDigits_le_iff (by decide) (by decide)] at hn ⊢
    exact lt_of_le_of_lt (by omega) hn
  next => cases h

/-- What remains of an entry is spelled whenever it has been spelled before. -/
theorem strInt_remaining {entry : Storage.Entry} (hle : now ≤ now')
    (h : ∃ text, strInt (Storage.remaining entry now) = .ok text) :
    ∃ text, strInt (Storage.remaining entry now') = .ok text := by
  unfold Storage.remaining at h ⊢
  cases hd : entry.expiresAt with
  | none =>
      rw [hd] at h
      exact h
  | some d =>
      rw [hd] at h
      refine strInt_le (le_max_left _ _) (max_le_max_left 0 (Int.ceil_mono ?_)) h
      linarith

/-- A seat that has been answered is answered from then on, with the same owner until the entry runs out. -/
theorem answered_later {status : SeatStatus} (h : answerAt redis key now = .ok status) (hle : now ≤ now') :
    ∃ status', answerAt redis key now' = .ok status' ∧
      (Storage.live redis key now' ≠ none → status'.state = status.state ∧ status'.userId = status.userId) := by
  cases hl : Storage.live redis key now' with
  | none => exact ⟨_, answerAt_free hl, fun hno => absurd rfl hno⟩
  | some entry =>
      obtain ⟨state, userId, ttl⟩ := status
      have hlive : Storage.live redis key now = some entry := by
        obtain ⟨hentry, hlast⟩ := Storage.live_eq_some.mp hl
        exact Storage.live_eq_some.mpr ⟨hentry, fun d hd => hle.trans_lt (hlast d hd)⟩
      rw [answerAt, hlive] at h
      have hread := readStatus_ok h
      rw [hread, readStatus_text] at h
      rw [Storage.readSeat] at hread
      cases hrecord : Storage.deserializeSeatRecord entry.value with
      | error x =>
          rw [hrecord] at hread
          cases hread
      | ok r =>
          rw [hrecord] at hread
          obtain ⟨hstate, huser, rfl⟩ := Storage.SeatStatus.mk.inj (Except.ok.inj hread)
          have hspelled : ∃ text, strInt (Storage.remaining entry now) = .ok text := by
            cases ht : strInt (Storage.remaining entry now) with
            | ok text => exact ⟨text, rfl⟩
            | error x =>
                rw [ht] at h
                cases h
          obtain ⟨text, ht⟩ := strInt_remaining hle hspelled
          refine ⟨⟨state, userId, Storage.remaining entry now'⟩, ?_, fun _ => ⟨rfl, rfl⟩⟩
          have hthen := readStatus_text state userId (Storage.remaining entry now')
          rw [ht, ← hstate, ← huser] at hthen
          rw [answerAt, hl, Storage.readSeat, hrecord]
          exact hthen

theorem live_of_reports {state : String} {userId : Option String} (h : Reports redis e s now state userId)
    (hstate : state ≠ "AVAILABLE") : Storage.live redis (seatKey e s) now ≠ none := by
  intro hl
  obtain ⟨ttl, h⟩ := h
  rw [reported_answerAt, answerAt_free hl] at h
  cases h
  exact hstate rfl

/-- A seat that is reported as sold has been answered so before, if at all. -/
theorem sold_before {status : SeatStatus} (h : Reports redis e s now' "CONFIRMED" (some u)) (hle : now ≤ now')
    (hs : answerAt redis (seatKey e s) now = .ok status) : status.state = "CONFIRMED" ∧ status.userId = some u := by
  obtain ⟨status', hs', hsame⟩ := answered_later hs hle
  obtain ⟨hstate, huser⟩ := hsame (live_of_reports h (by decide))
  obtain ⟨ttl, h⟩ := h
  rw [reported_answerAt, hs'] at h
  cases h
  exact ⟨hstate.symm, huser.symm⟩

/-- Between an answer and a later report of a sale, the seat is reported as sold. -/
theorem sold_between {t : ℚ} {status : SeatStatus} (hs : answerAt redis (seatKey e s) now = .ok status) (hle : now ≤ t)
    (h : Reports redis e s now' "CONFIRMED" (some u)) (hle' : t ≤ now') : Reports redis e s t "CONFIRMED" (some u) := by
  obtain ⟨⟨state, userId, ttl⟩, ht, _⟩ := answered_later hs hle
  obtain ⟨rfl, rfl⟩ := sold_before h hle' ht
  exact ⟨ttl, (reported_answerAt _ _ _ _).trans ht⟩

/-- A lookup of the seat is answered with a sale, or not at all. -/
def Steadfast (redis : Store) (key : String) (now : ℚ) : Prop :=
  ∀ status, answerAt redis key now = .ok status → status.state = "CONFIRMED"

theorem Steadfast.lookup (h : Steadfast redis key now) (hl : redis'.lookup key = redis.lookup key) : Steadfast redis' key now := by
  rwa [Steadfast, answerAt_lookup hl]

theorem Steadfast.purge (h : Steadfast redis key now) : Storage.purge redis key now = redis := by
  apply Storage.purge_live
  intro hl
  exact absurd (h _ (answerAt_free hl)) (by decide)

theorem steadfast_of_sold (h : Reports redis e s now' "CONFIRMED" (some u)) (hle : now ≤ now') :
    Steadfast redis (seatKey e s) now := fun _ hs => (sold_before h hle hs).1

theorem steadfast_of_unanswered (h : ∀ status, answerAt redis key now ≠ .ok status) : Steadfast redis key now :=
  fun status hs => absurd hs (h status)

theorem lookup_steadfast {env : Env} {r : Reservation ℚ} (h : Steadfast w.redis (rowKey r) env.now) :
    (appStep env w (lookupSeat r)).2 = w := by
  rcases appStep_redis env w ["SEAT_STATUS", r.eventId, r.seatId] with he | he
  · rw [seatStatus_step, show Storage.purge w.redis (seatKey r.eventId r.seatId) env.now = w.redis from h.purge] at he
    exact he
  · exact he

/-! ### What the releases make of a seat -/

theorem releaseItem_steadfast {x : ReservationRecord ℚ} (h : Steadfast w.redis (rowKey x.reservation) (env 0).now) :
    ((releaseItem x).run appStep w env).2 = w := by
  rw [releaseItem, releaseExpired_eq, Program.run_call, lookup_steadfast h]
  cases hs : (appStep (env 0) w (lookupSeat x.reservation)).1 >>= decodeSeatStatus with
  | error y => rfl
  | ok status =>
      have hstate := h status ((reported_answerAt _ _ _ _).symm.trans (statusRead_ok hs).1)
      have hno : ¬ (status.state = "HELD" ∧ status.userId = some x.reservation.userId) := by
        rw [hstate]
        exact fun hheld => absurd hheld.1 (by decide)
      simp only [Program.ofExcept_ok, Program.bind_ret, if_neg hno]
      rfl

/-- The releases leave a steadfast seat as it is. -/
theorem releases_keep (records : List (ReservationRecord ℚ)) (h : ∀ n, Steadfast w.redis key (env n).now) :
    ((collect releaseItem records).run appStep w env).2.redis.lookup key = w.redis.lookup key := by
  induction records generalizing w env with
  | nil => rfl
  | cons x records ih =>
      obtain ⟨b, hb⟩ := releaseItem_returns x w env
      obtain ⟨bs, hbs, _⟩ := local_seats.collect_run calls_releaseItem releaseItem_returns records
        ((releaseItem x).run appStep w env).2 (Program.rest appStep (releaseItem x) w env)
      have hitem : ((releaseItem x).run appStep w env).2.redis.lookup key = w.redis.lookup key := by
        by_cases hkey : rowKey x.reservation = key
        · rw [releaseItem_steadfast (by rw [hkey]; exact h 0)]
        · exact local_seats.run_frame ((calls_releaseItem x).mono fun op hop => ⟨_, hop, hkey⟩) w env
      rw [run_collect_cons releaseItem x records w env hb hbs]
      refine (ih fun n => ?_).trans hitem
      exact (h _).lookup hitem

theorem releasing_lookup {op : AppOp} (hop : Releasing op) (w : World) (env : Env) (key : String) :
    (appStep env w op).2.redis.lookup key = w.redis.lookup key ∨ (appStep env w op).2.redis.lookup key = none := by
  rcases hop with ⟨e, s, rfl⟩ | ⟨e, s, v, rfl⟩
  · rcases appStep_redis env w ["SEAT_STATUS", e, s] with he | he <;> rw [he]
    · rw [seatStatus_step]
      exact Storage.lookup_purge_cases w.redis (seatKey e s) env.now key
    · exact .inl rfl
  · rcases appStep_redis env w ["RELEASE_SEAT", e, s, v] with he | he <;> rw [he]
    · rw [releaseSeat_step]
      exact Storage.releaseSeat_lookup_cases w.redis e s v env.now key
    · exact .inl rfl

/-- The releases leave a seat as it is, or free it. -/
theorem releases_cases (records : List (ReservationRecord ℚ)) (w : World) (env : ℕ → Env) (key : String) :
    ((collect releaseItem records).run appStep w env).2.redis.lookup key = w.redis.lookup key ∨
      ((collect releaseItem records).run appStep w env).2.redis.lookup key = none := by
  refine Program.events_stable (I := fun w' : World => w'.redis.lookup key = w.redis.lookup key ∨ w'.redis.lookup key = none)
    (fun ev hev hbefore => ?_) (.inl (.inl rfl))
  rw [Program.events_after hev]
  rcases releasing_lookup (collected_releasing hev) ev.before ev.env key with he | he
  · rwa [he]
  · exact .inr he

/-! ### What the repair of a row makes of its seat -/

variable {r : Reservation ℚ}

theorem repairItem_unanswered (h : ∀ status, answerAt w.redis (rowKey r) (env 0).now ≠ .ok status) :
    ((repairItem r).run appStep w env).2 = w := by
  rw [repairItem, repairConfirmed_eq, Program.run_call, lookup_steadfast (steadfast_of_unanswered h)]
  cases hs : (appStep (env 0) w (lookupSeat r)).1 >>= decodeSeatStatus with
  | error y => rfl
  | ok status => exact absurd ((reported_answerAt _ _ _ _).symm.trans (statusRead_ok hs).1) (h status)

theorem repairItem_sold (hfault : (env 0).fault = .none)
    (h : Reports w.redis r.eventId r.seatId (env 0).now "CONFIRMED" (some r.userId)) :
    (repairItem r).run appStep w env = (.ok ⟨[], [], []⟩, w) := by
  rw [repairItem, repairConfirmed_eq, Program.run_call, lookup_steadfast (steadfast_of_sold h le_rfl)]
  obtain ⟨ttl, h⟩ := h
  have hs : (appStep (env 0) w (lookupSeat r)).1 >>= decodeSeatStatus = .ok ⟨"CONFIRMED", some r.userId, ttl⟩ :=
    (statusRead_answered hfault).trans h
  rw [hs]
  simp only [Program.ofExcept_ok, Program.bind_ret, and_self, if_true]
  rfl

theorem repairItem_forced (hfault : ∀ n, (env n).fault = .none) {status : SeatStatus}
    (hs : answerAt w.redis (rowKey r) (env 0).now = .ok status)
    (h : ¬ (status.state = "CONFIRMED" ∧ status.userId = some r.userId)) :
    Records ((repairItem r).run appStep w env).2.redis (rowKey r) (.owned r.userId) := by
  have hread : (appStep (env 0) w (lookupSeat r)).1 >>= decodeSeatStatus = .ok status :=
    (statusRead_answered (hfault 0)).trans ((reported_answerAt _ _ _ _).trans hs)
  have hforce : (appStep (env 1) (appStep (env 0) w (lookupSeat r)).2 (forceConfirm r)).1 >>= decodeSeatCommand =
      .ok ⟨true, "CONFIRMED", some r.userId, -1⟩ := by
    simp only [forceConfirm, appStep, hfault]
    exact force_reply _ _ _ _ _
  rw [repairItem, repairConfirmed_eq, Program.run_call, hread]
  simp only [Program.ofExcept_ok, Program.bind_ret, if_neg h]
  rw [Program.tryCatch_call, Program.run_call, hforce]
  simp only [Program.ofExcept_ok, Program.bind_ret, and_self, if_true]
  exact (forceConfirm_step hforce).2

/-- A repair records the sale of the seat, or it finds the seat sold or unanswered and leaves it as it is. -/
theorem repairItem_cases (r : Reservation ℚ) (w : World) (env : ℕ → Env) (hfault : ∀ n, (env n).fault = .none) :
    Records ((repairItem r).run appStep w env).2.redis (rowKey r) (.owned r.userId) ∨
      ((repairItem r).run appStep w env).2 = w ∧ ((∀ status, answerAt w.redis (rowKey r) (env 0).now ≠ .ok status) ∨
        Reports w.redis r.eventId r.seatId (env 0).now "CONFIRMED" (some r.userId)) := by
  cases hs : answerAt w.redis (rowKey r) (env 0).now with
  | error x =>
      have hno : ∀ status, answerAt w.redis (rowKey r) (env 0).now ≠ .ok status := by simp [hs]
      exact .inr ⟨repairItem_unanswered hno, .inl fun status => by simp⟩
  | ok status =>
      by_cases hsold : status.state = "CONFIRMED" ∧ status.userId = some r.userId
      · obtain ⟨state, userId, ttl⟩ := status
        obtain ⟨rfl, rfl⟩ := hsold
        have hreports : Reports w.redis r.eventId r.seatId (env 0).now "CONFIRMED" (some r.userId) :=
          ⟨ttl, (reported_answerAt _ _ _ _).trans hs⟩
        exact .inr ⟨by rw [repairItem_sold (hfault 0) hreports], .inr hreports⟩
      · exact .inl (repairItem_forced hfault hs hsold)

/-! ### What a pass makes of a seat -/

namespace Pass

variable {p : Pass}

/-- No call of the pass fails. -/
structure Faultless (p : Pass) : Prop where
  clock : Monotone p.clock
  answered : ∀ n, (p.env n).fault = .none

theorem run_overflow (w : World) (h : ¬ IsInt64 p.limit) : ∃ x, p.run w = (.error x, w) := by
  obtain ⟨x, hx⟩ : ∃ x, withLimit p.limit (staleRows w.db.tables (p.clock 0)) = .error x := ⟨_, if_neg h⟩
  refine ⟨x, ?_⟩
  rw [run, flow, expiry, run_expireStaleReservations_error w.db p.clock hx]
  rfl

theorem Faultless.phases (h : p.Faultless) (hlimit : IsInt64 p.limit) (w : World) :
    ∃ records w₁ m listing released repaired, List.Forall₂ (fun r x => SameRow r x.reservation) (p.listed w.db) records ∧
      Phases p w records { w with db := w.db.sweep (p.lookups (p.listed w.db)) } w₁ (fun n => p.env (n + m)) listing
        released repaired := by
  have hrows : withLimit p.limit (staleRows w.db.tables (p.clock 0)) = .ok (p.listed w.db) := if_pos hlimit
  obtain ⟨records, hexpiry, hsame⟩ := expiry_listed h.clock hrows
  obtain ⟨w₁, m, listing, released, repaired, hphases⟩ := Pass.phases hexpiry hlimit (dbAnswers_of_faultless h.answered)
  exact ⟨records, w₁, m, listing, released, repaired, hsame, hphases⟩

section Seats

variable {records : List (ReservationRecord ℚ)} {w₀ w₁ : World} {env₁ : ℕ → Env}
  {listing : Program.Event Env World AppOp} {released repaired : List ReconciliationReport}

theorem Phases.releases_cases (h : Phases p w records w₀ w₁ env₁ listing released repaired) (key : String) :
    w₁.redis.lookup key = w₀.redis.lookup key ∨ w₁.redis.lookup key = none := by
  have hcases := AppServer.releases_cases records w₀ p.env key
  rwa [h.releases] at hcases

theorem Phases.releases_keep (h : Phases p w records w₀ w₁ env₁ listing released repaired)
    (hkeep : ∀ n, Steadfast w₀.redis key (p.env n).now) : w₁.redis.lookup key = w₀.redis.lookup key := by
  have hlookup := AppServer.releases_keep records hkeep
  rwa [h.releases] at hlookup

/-- The repairs leave a seat alone that none of their rows is for. -/
theorem Phases.beyond (h : Phases p w records w₀ w₁ env₁ listing released repaired)
    (hkey : ∀ r ∈ p.batch w.db, rowKey r ≠ key) : (p.run w).2.redis.lookup key = w₁.redis.lookup key := by
  have hcalls : (collect repairItem (p.batch w.db)).Calls fun op => ∃ key', seatPart op = some key' ∧ key' ≠ key :=
    calls_collect fun r hr => (calls_repairItem r).mono fun op hop => ⟨_, hop, hkey r hr⟩
  have hframe := local_seats.run_frame hcalls w₁ env₁
  rwa [h.repairs] at hframe

/-- The seat of a row in the batch ends as the row's repair leaves it, which finds it as the releases have left it. -/
theorem Phases.repair_ends (h : Phases p w records w₀ w₁ env₁ listing released repaired) (hplain : PlainIds w.db)
    {r : Reservation ℚ} (hr : r ∈ p.batch w.db) : ∃ (s₁ : World) (n : ℕ),
      s₁.redis.lookup (rowKey r) = w₁.redis.lookup (rowKey r) ∧ (p.run w).2.redis.lookup (rowKey r) =
        ((repairItem r).run appStep s₁ (fun i => env₁ (i + n))).2.redis.lookup (rowKey r) := by
  obtain ⟨reports, _, hitems⟩ := local_seats.collect_run calls_repairItem repairItem_returns (p.batch w.db) w₁ env₁
  obtain ⟨_, _, s₁, n, _, _, hview⟩ := exists_of_forall₂ hitems r hr
  obtain ⟨hstart, hend⟩ := hview (batch_keys hplain)
  rw [h.repairs] at hend
  exact ⟨s₁, n, hstart, hend⟩

end Seats

/-- A pass leaves a seat as it is, or frees it, where it repairs no row of the seat. -/
theorem Faultless.beyond (h : p.Faultless) (hkey : IsInt64 p.limit → ∀ r ∈ p.batch w.db, rowKey r ≠ key) :
    ((p.run w).2.redis.lookup key = w.redis.lookup key ∨ (p.run w).2.redis.lookup key = none) ∧
      ((∀ n, Steadfast w.redis key (p.env n).now) → (p.run w).2.redis.lookup key = w.redis.lookup key) := by
  by_cases hlimit : IsInt64 p.limit
  · obtain ⟨records, w₁, m, listing, released, repaired, _, hphases⟩ := h.phases hlimit w
    rw [hphases.beyond (hkey hlimit)]
    exact ⟨hphases.releases_cases key, hphases.releases_keep⟩
  · obtain ⟨x, hrun⟩ := run_overflow w hlimit
    rw [hrun]
    exact ⟨.inl rfl, fun _ => rfl⟩

/-- A pass records the sale of a listed row's seat, or it leaves the seat as it is and finds it sold or unanswered. -/
theorem Faultless.repaired (h : p.Faultless) (hplain : PlainIds w.db) (hlimit : IsInt64 p.limit) {r : Reservation ℚ}
    (hr : r ∈ p.batch w.db) : Records (p.run w).2.redis (rowKey r) (.owned r.userId) ∨
      (p.run w).2.redis.lookup (rowKey r) = w.redis.lookup (rowKey r) ∧ ∃ n,
        (∀ status, answerAt w.redis (rowKey r) (p.env n).now ≠ .ok status) ∨
          Reports w.redis r.eventId r.seatId (p.env n).now "CONFIRMED" (some r.userId) := by
  obtain ⟨records, w₁, m, listing, released, repaired, _, hphases⟩ := h.phases hlimit w
  obtain ⟨s₁, n, hstart, hend⟩ := hphases.repair_ends hplain hr
  rw [Records, hend]
  have hcases := repairItem_cases r s₁ (fun i => p.env (i + n + m)) fun i => h.answered _
  refine hcases.imp id fun hkeeps => ?_
  obtain ⟨hsame, hfound⟩ := hkeeps
  have hfree : s₁.redis.lookup (rowKey r) ≠ none := by
    intro hnone
    have hlive (now : ℚ) : Storage.live s₁.redis (rowKey r) now = none := by
      rw [Storage.live, hnone]
      rfl
    rcases hfound with hno | hsold
    · exact hno _ (answerAt_free (hlive _))
    · exact live_of_reports hsold (by decide) (hlive _)
  have hkept : s₁.redis.lookup (rowKey r) = w.redis.lookup (rowKey r) := by
    rcases hphases.releases_cases (rowKey r) with hkept | hnone
    · exact hstart.trans hkept
    · exact absurd (hstart.trans hnone) hfree
  refine ⟨by rw [hsame, hkept], 0 + n + m, hfound.imp (fun hno status => ?_) fun hsold => ?_⟩
  · rw [← answerAt_lookup hkept]
    exact hno status
  · exact (reports_live (lookup_live hkept _)).mp hsold

/-- A pass leaves a seat alone for which no lookup is answered. -/
theorem Faultless.unanswered (h : p.Faultless) (hplain : PlainIds w.db) (hlimit : IsInt64 p.limit) {r : Reservation ℚ}
    (hr : r ∈ p.batch w.db) (hno : ∀ n status, answerAt w.redis (rowKey r) (p.env n).now ≠ .ok status) :
    (p.run w).2.redis.lookup (rowKey r) = w.redis.lookup (rowKey r) := by
  obtain ⟨records, w₁, m, listing, released, repaired, _, hphases⟩ := h.phases hlimit w
  obtain ⟨s₁, n, hstart, hend⟩ := hphases.repair_ends hplain hr
  have hkept := hstart.trans (hphases.releases_keep fun n => steadfast_of_unanswered (hno n))
  rw [hend, repairItem_unanswered fun status => ?_]
  · exact hkept
  · rw [answerAt_lookup hkept]
    exact hno _ status

end Pass

end Ticketing.AppServer
