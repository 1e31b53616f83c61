import Ticketing.AppServer.Calls
import Ticketing.AppServer.LiveHolds
import Ticketing.Lib.Batch

namespace Ticketing.AppServer

open Python Interaction TicketingApi Repository Commands Orchestrator Reconciler
open Storage (Store seatKey)

variable {w : World} {env : ℕ → Env} {α : Type}

/-! ### Reports -/

namespace Reconciler.ReconciliationReport

def append (a b : ReconciliationReport) : ReconciliationReport :=
  ⟨a.expiredReservationIds ++ b.expiredReservationIds, a.repairedReservationIds ++ b.repairedReservationIds,
    a.errors ++ b.errors⟩

def total (reports : List ReconciliationReport) : ReconciliationReport := reports.foldr append ⟨[], [], []⟩

theorem append_assoc (a b c : ReconciliationReport) : (a.append b).append c = a.append (b.append c) := by
  simp only [append, List.append_assoc]

@[simp] theorem append_empty (a : ReconciliationReport) : a.append ⟨[], [], []⟩ = a := by
  simp only [append, List.append_nil]

@[simp] theorem empty_append (a : ReconciliationReport) : append ⟨[], [], []⟩ a = a := rfl

theorem append_addError (a b : ReconciliationReport) (error : String) :
    addError (a.append b) error = a.append (addError b error) := by
  simp only [append, addError, List.append_assoc]

end Reconciler.ReconciliationReport

open Reconciler.ReconciliationReport (total append_assoc append_empty append_addError)

/-! ### One row -/

def lookupSeat (r : Reservation ℚ) : AppOp := .redis ["SEAT_STATUS", r.eventId, r.seatId]

def releaseHold (r : Reservation ℚ) : AppOp := .redis ["RELEASE_SEAT", r.eventId, r.seatId, r.userId]

def forceConfirm (r : Reservation ℚ) : AppOp := .redis ["FORCE_CONFIRM_SEAT", r.eventId, r.seatId, r.userId]

/-- The answer to the lookup of a row's seat, as the client decodes it. -/
def statusRead (env : Env) (w : World) (r : Reservation ℚ) : Except Error SeatStatus :=
  (appStep env w (lookupSeat r)).1 >>= decodeSeatStatus

theorem statusRead_ok {env : Env} {r : Reservation ℚ} {status : SeatStatus} (h : statusRead env w r = .ok status) :
    reported w.redis r.eventId r.seatId env.now = .ok status ∧
      (appStep env w (lookupSeat r)).2 = { w with redis := Storage.purge w.redis (seatKey r.eventId r.seatId) env.now } := by
  unfold statusRead at h
  cases hx : appStep env w (lookupSeat r) with
  | mk x w' =>
      rw [hx] at h
      cases x with
      | error e => cases h
      | ok reply =>
          obtain ⟨hreply, rfl⟩ := appStep_redis_ok hx
          refine ⟨?_, ?_⟩
          · rw [reported, hreply]
            exact h
          · exact congrArg (fun redis => { w with redis := redis }) (seatStatus_step w.redis r.eventId r.seatId env.now)

theorem statusRead_answered {env : Env} {r : Reservation ℚ} (h : env.fault = .none) :
    statusRead env w r = reported w.redis r.eventId r.seatId env.now := by
  simp only [statusRead, lookupSeat, appStep, h]
  rfl

theorem releaseExpired_eq (r : Reservation ℚ) (report : ReconciliationReport) : releaseExpired r report =
    .call (lookupSeat r) (fun x => tryCatch (Program.ofExcept (x >>= decodeSeatStatus) >>= fun status =>
      if status.state = "HELD" ∧ status.userId = some r.userId then
        .call (releaseHold r) (fun y => Program.ofExcept (y >>= decodeSeatCommand) >>= fun _ => pure report)
      else pure report)
      (fun e => pure (addError report ("expire release failed for " ++ r.reservationId ++ ": " ++ e.message)))) := by
  rw [releaseExpired, seatStatus, execute_bind, Program.tryCatch_call]
  simp only [releaseSeat, execute_bind]
  rfl

/-- A row's lookup, and the release where the lookup finds the row's hold. -/
theorem events_releaseExpired (r : Reservation ℚ) (report : ReconciliationReport) (w : World) (env : ℕ → Env) :
    ∃ more, (releaseExpired r report).events appStep w env =
        ⟨env 0, w, lookupSeat r, (appStep (env 0) w (lookupSeat r)).2⟩ :: more ∧
      ∀ status, statusRead (env 0) w r = .ok status → status.state = "HELD" → status.userId = some r.userId →
        more = [⟨env 1, (appStep (env 0) w (lookupSeat r)).2, releaseHold r,
          (appStep (env 1) (appStep (env 0) w (lookupSeat r)).2 (releaseHold r)).2⟩] := by
  rw [releaseExpired_eq, Program.events_call]
  refine ⟨_, rfl, fun status hs hheld hu => ?_⟩
  rw [statusRead] at hs
  rw [hs]
  simp only [Program.ofExcept_ok, Program.bind_ret, hheld, hu, and_self, if_true, Program.tryCatch_call, Program.events_call]
  cases (appStep (env 1) (appStep (env 0) w (lookupSeat r)).2 (releaseHold r)).1 >>= decodeSeatCommand <;> rfl

theorem releaseExpired_append (r : Reservation ℚ) (a b : ReconciliationReport) :
    releaseExpired r (a.append b) = releaseExpired r b >>= fun d => pure (a.append d) := by
  rw [releaseExpired_eq, releaseExpired_eq, Program.bind_call]
  congr 1
  funext x
  cases x >>= decodeSeatStatus with
  | error e => exact congrArg Program.ret (append_addError a b _)
  | ok status =>
      simp only [Program.ofExcept_ok, Program.bind_ret]
      split
      · rw [Program.tryCatch_call, Program.tryCatch_call, Program.bind_call]
        congr 1
        funext y
        cases y >>= decodeSeatCommand with
        | error e => exact congrArg Program.ret (append_addError a b _)
        | ok result => rfl
      · rfl

/-- What the pass does with one expired row, apart from the others. -/
def releaseItem (x : ReservationRecord ℚ) : Flow ReconciliationReport :=
  releaseExpired x.reservation ⟨[x.reservation.reservationId], [], []⟩

/-- The report of one expired row. -/
def Released (x : ReservationRecord ℚ) (report : ReconciliationReport) : Prop :=
  ∃ errors, report = ⟨[x.reservation.reservationId], [], errors⟩ ∧
    ∀ text ∈ errors, ∃ message, text = "expire release failed for " ++ x.reservation.reservationId ++ ": " ++ message

theorem run_releaseItem (x : ReservationRecord ℚ) (w : World) (env : ℕ → Env) :
    ∃ report, ((releaseItem x).run appStep w env).1 = .ok report ∧ Released x report := by
  rw [releaseItem, releaseExpired_eq, Program.run_call]
  cases (appStep (env 0) w (lookupSeat x.reservation)).1 >>= decodeSeatStatus with
  | error e => exact ⟨_, rfl, _, rfl, fun _ h => ⟨e.message, List.mem_singleton.mp h⟩⟩
  | ok status =>
      simp only [Program.ofExcept_ok, Program.bind_ret]
      split
      · rw [Program.tryCatch_call, Program.run_call]
        cases (appStep (env (0 + 1)) (appStep (env 0) w (lookupSeat x.reservation)).2
          (releaseHold x.reservation)).1 >>= decodeSeatCommand with
        | error e => exact ⟨_, rfl, _, rfl, fun _ h => ⟨e.message, List.mem_singleton.mp h⟩⟩
        | ok result => exact ⟨_, rfl, [], rfl, by simp⟩
      · exact ⟨_, rfl, [], rfl, by simp⟩

theorem total_released {records : List (ReservationRecord ℚ)} {reports : List ReconciliationReport}
    (h : List.Forall₂ Released records reports) :
    total reports = ⟨records.map (fun x => x.reservation.reservationId), [], (total reports).errors⟩ ∧
      ∀ text ∈ (total reports).errors, ∃ x ∈ records, ∃ message,
        text = "expire release failed for " ++ x.reservation.reservationId ++ ": " ++ message := by
  induction h with
  | nil => exact ⟨rfl, by simp [total]⟩
  | @cons x report records reports hx _ ih =>
      obtain ⟨errors, rfl, htexts⟩ := hx
      obtain ⟨htotal, herrors⟩ := ih
      have hcons : total (⟨[x.reservation.reservationId], [], errors⟩ :: reports) =
          ReconciliationReport.append ⟨[x.reservation.reservationId], [], errors⟩ (total reports) := rfl
      rw [hcons, htotal]
      refine ⟨rfl, fun text htext => ?_⟩
      rcases List.mem_append.mp htext with htext | htext
      · exact ⟨x, List.mem_cons_self, htexts text htext⟩
      · obtain ⟨y, hy, hm⟩ := herrors text htext
        exact ⟨y, List.mem_cons_of_mem x hy, hm⟩

theorem releaseAll_eq (records : List (ReservationRecord ℚ)) (report : ReconciliationReport) :
    releaseAll (records.map some) report =
      collect releaseItem records >>= fun reports => pure (report.append (total reports)) := by
  induction records generalizing report with
  | nil => exact congrArg Program.ret (append_empty report).symm
  | cons x records ih =>
      have hlisted : ({ report with expiredReservationIds := report.expiredReservationIds ++ [x.reservation.reservationId] } :
          ReconciliationReport) = report.append ⟨[x.reservation.reservationId], [], []⟩ := by
        simp only [ReconciliationReport.append, List.append_nil]
      have hcons : releaseAll ((x :: records).map some) report = releaseExpired x.reservation
          (report.append ⟨[x.reservation.reservationId], [], []⟩) >>= releaseAll (records.map some) := by
        rw [← hlisted]
        rfl
      rw [hcons, releaseExpired_append, Program.bind_assoc, collect, Program.bind_assoc]
      refine congrArg (releaseItem x >>= ·) (funext fun d => ?_)
      rw [Program.pure_eq, Program.bind_ret, ih, Program.bind_assoc]
      refine congrArg (collect releaseItem records >>= ·) (funext fun ds => ?_)
      exact congrArg Program.ret (append_assoc report d (total ds))

/-! ### One confirmed row -/

theorem repairConfirmed_eq (r : Reservation ℚ) (report : ReconciliationReport) : repairConfirmed r report =
    .call (lookupSeat r) (fun x => tryCatch (Program.ofExcept (x >>= decodeSeatStatus) >>= fun status =>
      if status.state = "CONFIRMED" ∧ status.userId = some r.userId then pure report
      else .call (forceConfirm r) (fun y => Program.ofExcept (y >>= decodeSeatCommand) >>= fun result =>
        if result.state = "CONFIRMED" ∧ result.userId = some r.userId then
          pure { report with repairedReservationIds := report.repairedReservationIds ++ [r.reservationId] }
        else pure (addError report ("confirm repair returned unexpected state for " ++ r.reservationId))))
      (fun e => pure (addError report ("confirm repair failed for " ++ r.reservationId ++ ": " ++ e.message)))) := by
  rw [repairConfirmed, seatStatus, execute_bind, Program.tryCatch_call]
  simp only [forceConfirmSeat, execute_bind]
  rfl

theorem repairConfirmed_append (r : Reservation ℚ) (a b : ReconciliationReport) :
    repairConfirmed r (a.append b) = repairConfirmed r b >>= fun d => pure (a.append d) := by
  rw [repairConfirmed_eq, repairConfirmed_eq, Program.bind_call]
  congr 1
  funext x
  cases x >>= decodeSeatStatus with
  | error e => exact congrArg Program.ret (append_addError a b _)
  | ok status =>
      simp only [Program.ofExcept_ok, Program.bind_ret]
      split
      · rfl
      · rw [Program.tryCatch_call, Program.tryCatch_call, Program.bind_call]
        congr 1
        funext y
        cases y >>= decodeSeatCommand with
        | error e => exact congrArg Program.ret (append_addError a b _)
        | ok result =>
            simp only [Program.ofExcept_ok, Program.bind_ret]
            split
            · simp [ReconciliationReport.append, List.append_assoc]
            · exact congrArg Program.ret (append_addError a b _)

/-- What the pass does with one confirmed row, apart from the others. -/
def repairItem (r : Reservation ℚ) : Flow ReconciliationReport := repairConfirmed r ⟨[], [], []⟩

theorem repairAll_eq (rows : List (Reservation ℚ)) (report : ReconciliationReport) :
    repairAll rows report = collect repairItem rows >>= fun reports => pure (report.append (total reports)) := by
  induction rows generalizing report with
  | nil => exact congrArg Program.ret (append_empty report).symm
  | cons r rows ih =>
      have hcons : repairAll (r :: rows) report = repairConfirmed r (report.append ⟨[], [], []⟩) >>= repairAll rows := by
        rw [append_empty]
        rfl
      rw [hcons, repairConfirmed_append, Program.bind_assoc, collect, Program.bind_assoc]
      refine congrArg (repairItem r >>= ·) (funext fun d => ?_)
      rw [Program.pure_eq, Program.bind_ret, ih, Program.bind_assoc]
      refine congrArg (collect repairItem rows >>= ·) (funext fun ds => ?_)
      exact congrArg Program.ret (append_assoc report d (total ds))

/-- What the repair of one confirmed row comes to. -/
inductive Repair (r : Reservation ℚ) (w : World) (env : ℕ → Env) (run : Except Error ReconciliationReport × World) : Prop
  | kept (hstatus : Reports w.redis r.eventId r.seatId (env 0).now "CONFIRMED" (some r.userId))
      (hrun : run.1 = .ok ⟨[], [], []⟩)
  | repaired (hseat : Storage.Records run.2.redis (seatKey r.eventId r.seatId) (.owned r.userId))
      (hrun : run.1 = .ok ⟨[], [r.reservationId], []⟩)
  | failed (message : String)
      (hrun : run.1 = .ok ⟨[], [], ["confirm repair failed for " ++ r.reservationId ++ ": " ++ message]⟩)

theorem forceConfirm_step {env : Env} {w : World} {r : Reservation ℚ} {result : SeatCommandResult}
    (h : (appStep env w (forceConfirm r)).1 >>= decodeSeatCommand = .ok result) :
    result = ⟨true, "CONFIRMED", some r.userId, -1⟩ ∧
      Storage.Records (appStep env w (forceConfirm r)).2.redis (seatKey r.eventId r.seatId) (.owned r.userId) := by
  cases hx : appStep env w (forceConfirm r) with
  | mk x w' =>
      rw [hx] at h
      cases x with
      | error e => cases h
      | ok reply =>
          obtain ⟨hreply, rfl⟩ := appStep_redis_ok hx
          have hforce := force_reply w.redis r.eventId r.seatId r.userId env.now
          rw [hreply] at hforce
          exact ⟨Except.ok.inj (h.symm.trans hforce), force_step w.redis r.eventId r.seatId r.userId env.now⟩

theorem run_repairItem (r : Reservation ℚ) (w : World) (env : ℕ → Env) :
    Repair r w env ((repairItem r).run appStep w env) := by
  rw [repairItem, repairConfirmed_eq, Program.run_call]
  cases hs : (appStep (env 0) w (lookupSeat r)).1 >>= decodeSeatStatus with
  | error e => exact .failed e.message rfl
  | ok status =>
      simp only [Program.ofExcept_ok, Program.bind_ret]
      split
      next hc =>
        obtain ⟨state, userId, ttl⟩ := status
        obtain ⟨rfl, rfl⟩ := hc
        exact .kept ⟨ttl, (statusRead_ok hs).1⟩ rfl
      · rw [Program.tryCatch_call, Program.run_call]
        cases hf : (appStep (env (0 + 1)) (appStep (env 0) w (lookupSeat r)).2 (forceConfirm r)).1 >>= decodeSeatCommand with
        | error e => exact .failed e.message rfl
        | ok result =>
            obtain ⟨rfl, hseat⟩ := forceConfirm_step hf
            simp only [Program.ofExcept_ok, Program.bind_ret, and_self, if_true]
            exact .repaired hseat rfl


/-! ### The seats that the rows are at -/

/-- The key of the seat that a call of a pass is about. -/
def seatPart : AppOp → Option String
  | .redis ["SEAT_STATUS", e, s] => some (seatKey e s)
  | .redis ["RELEASE_SEAT", e, s, _] => some (seatKey e s)
  | .redis ["FORCE_CONFIRM_SEAT", e, s, _] => some (seatKey e s)
  | _ => none

def entryAt (key : String) (w : World) : Option Storage.Entry := w.redis.lookup key

/-- Two calls meet the same time and the same failure. -/
def SameChance (env env' : Env) : Prop := env.now = env'.now ∧ env.fault = env'.fault

theorem lookup_live {store store' : Store} {key : String} (h : store.lookup key = store'.lookup key) (now : ℚ) :
    Storage.live store key now = Storage.live store' key now := by
  rw [Storage.live, h, Storage.live]

/-- A seat command answers by the entry of its key, and makes of it what it is. -/
theorem redisReply_entry {tokens : List String} {key : String} (hpart : seatPart (.redis tokens) = some key) (now : ℚ)
    {store store' : Store} (h : store.lookup key = store'.lookup key) :
    (redisReply tokens now store).1 = (redisReply tokens now store').1 ∧
      (step store (now, tokens)).lookup key = (step store' (now, tokens)).lookup key := by
  unfold seatPart at hpart
  split at hpart
  next e s he =>
    cases he
    cases hpart
    have hp : parseCommand ["SEAT_STATUS", e, s] = .ok (.seatStatus e s) := rfl
    simp [redisReply_fst, step, handleCommand, hp, perform, onResult, Storage.seatStatus, Storage.seatStatusByKey_eq,
      lookup_live h]
  next e s u he =>
    cases he
    cases hpart
    have hp : parseCommand ["RELEASE_SEAT", e, s, u] = .ok (.releaseSeat e s u) := rfl
    simp only [redisReply_fst, step, handleCommand, hp, perform, onResult, Storage.releaseSeat, Storage.seatStatusByKey_eq,
      lookup_live h]
    cases Storage.readSeat (Storage.live store' (seatKey e s) now) now with
    | error x => simp [lookup_live h]
    | ok status =>
        dsimp only
        split <;> simp [lookup_live h, Storage.deleteKey]
  next e s u he =>
    cases he
    cases hpart
    have hp : parseCommand ["FORCE_CONFIRM_SEAT", e, s, u] = .ok (.forceConfirmSeat e s u) := rfl
    simp [redisReply_fst, step, handleCommand, hp, perform, Storage.forceConfirmSeat]
  next => cases hpart

theorem target_seatPart {tokens : List String} {key : String} (hpart : seatPart (.redis tokens) = some key) :
    ∃ x, target tokens = some x ∧ x.key = key := by
  unfold seatPart at hpart
  split at hpart
  next e s he => cases he; cases hpart; exact ⟨_, rfl, rfl⟩
  next e s u he => cases he; cases hpart; exact ⟨_, rfl, rfl⟩
  next e s u he => cases he; cases hpart; exact ⟨_, rfl, rfl⟩
  next => cases hpart

theorem seatPart_redis {op : AppOp} {key : String} (hpart : seatPart op = some key) : ∃ tokens, op = .redis tokens := by
  cases op with
  | redis tokens => exact ⟨tokens, rfl⟩
  | _ => cases hpart

theorem local_seats : Local appStep seatPart entryAt SameChance where
  answer key op env env' w w' hpart hsame hentry := by
    obtain ⟨tokens, rfl⟩ := seatPart_redis hpart
    obtain ⟨hnow, hfault⟩ := hsame
    simp only [appStep, hnow, hfault, (redisReply_entry hpart env'.now hentry).1]
    cases env'.fault <;> rfl
  effect key op env env' w w' hpart hsame hentry := by
    obtain ⟨tokens, rfl⟩ := seatPart_redis hpart
    obtain ⟨hnow, hfault⟩ := hsame
    have hstep := (redisReply_entry hpart env'.now hentry).2
    simp only [appStep, hnow, hfault]
    cases env'.fault with
    | none => exact hstep
    | fail effect error =>
        cases effect
        · exact hentry
        · exact hstep
  frame key key' op env w hpart hne := by
    obtain ⟨tokens, rfl⟩ := seatPart_redis hpart
    obtain ⟨x, hx, rfl⟩ := target_seatPart hpart
    rcases appStep_redis env w tokens with h | h <;> rw [h]
    exact step_lookup_ne hx hne.symm

theorem calls_releaseItem (x : ReservationRecord ℚ) :
    (releaseItem x).Calls (fun op => seatPart op = some (rowKey x.reservation)) := by
  rw [releaseItem, releaseExpired_eq]
  refine ⟨rfl, fun y => Program.Calls.tryCatch ((Program.Calls.ofExcept _ _).bind fun status => ?_) fun _ => trivial⟩
  split
  · exact ⟨rfl, fun z => (Program.Calls.ofExcept _ _).bind fun _ => trivial⟩
  · trivial

theorem calls_repairItem (r : Reservation ℚ) : (repairItem r).Calls (fun op => seatPart op = some (rowKey r)) := by
  rw [repairItem, repairConfirmed_eq]
  refine ⟨rfl, fun y => Program.Calls.tryCatch ((Program.Calls.ofExcept _ _).bind fun status => ?_) fun _ => trivial⟩
  split
  · trivial
  · refine ⟨rfl, fun z => (Program.Calls.ofExcept _ _).bind fun result => ?_⟩
    split <;> trivial

theorem releaseItem_returns (x : ReservationRecord ℚ) (w : World) (env : ℕ → Env) :
    ∃ report, ((releaseItem x).run appStep w env).1 = .ok report := by
  obtain ⟨report, hrun, _⟩ := run_releaseItem x w env
  exact ⟨report, hrun⟩

theorem repairItem_returns (r : Reservation ℚ) (w : World) (env : ℕ → Env) :
    ∃ report, ((repairItem r).run appStep w env).1 = .ok report := by
  cases run_repairItem r w env with
  | kept _ hrun => exact ⟨_, hrun⟩
  | repaired _ hrun => exact ⟨_, hrun⟩
  | failed _ hrun => exact ⟨_, hrun⟩

theorem released_forall₂ {records : List (ReservationRecord ℚ)} {w : World} {env : ℕ → Env}
    {reports : List ReconciliationReport} (h : ((collect releaseItem records).run appStep w env).1 = .ok reports) :
    List.Forall₂ Released records reports := by
  obtain ⟨reports', hrun, hitems⟩ := local_seats.collect_run calls_releaseItem releaseItem_returns records w env
  cases hrun.symm.trans h
  refine hitems.imp fun x report ⟨w₁, n, hx, _⟩ => ?_
  obtain ⟨report', hx', hreleased⟩ := run_releaseItem x w₁ fun i => env (i + n)
  cases hx'.symm.trans hx
  exact hreleased

/-- The report of one confirmed row. -/
inductive RepairReport (r : Reservation ℚ) : ReconciliationReport → Prop
  | kept : RepairReport r ⟨[], [], []⟩
  | repaired : RepairReport r ⟨[], [r.reservationId], []⟩
  | failed (message : String) :
      RepairReport r ⟨[], [], ["confirm repair failed for " ++ r.reservationId ++ ": " ++ message]⟩

theorem repairItem_report {r : Reservation ℚ} {w : World} {env : ℕ → Env} {report : ReconciliationReport}
    (h : ((repairItem r).run appStep w env).1 = .ok report) : RepairReport r report := by
  cases run_repairItem r w env with
  | kept _ hrun => cases hrun.symm.trans h; exact .kept
  | repaired _ hrun => cases hrun.symm.trans h; exact .repaired
  | failed message hrun => cases hrun.symm.trans h; exact .failed message

theorem repairs_forall₂ {rows : List (Reservation ℚ)} {w : World} {env : ℕ → Env} {reports : List ReconciliationReport}
    (h : ((collect repairItem rows).run appStep w env).1 = .ok reports) : List.Forall₂ RepairReport rows reports := by
  obtain ⟨reports', hrun, hitems⟩ := local_seats.collect_run calls_repairItem repairItem_returns rows w env
  cases hrun.symm.trans h
  exact hitems.imp fun r report ⟨_, _, hr, _⟩ => repairItem_report hr

theorem total_repairs {rows : List (Reservation ℚ)} {reports : List ReconciliationReport}
    (h : List.Forall₂ RepairReport rows reports) : (total reports).expiredReservationIds = [] := by
  induction h with
  | nil => rfl
  | @cons r report rows reports hr _ ih =>
      have hcons : (total (report :: reports)).expiredReservationIds =
          report.expiredReservationIds ++ (total reports).expiredReservationIds := rfl
      rw [hcons, ih]
      cases hr <;> rfl

end Ticketing.AppServer
