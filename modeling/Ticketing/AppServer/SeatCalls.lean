import Ticketing.AppServer.Steps

namespace Ticketing.AppServer

open Python JsonText Interaction TicketingApi Commands Server
open Storage (Store seatKey queueKey queueKey_ne_seatKey Records SeatLease)

/-! ### The commands of the app server -/

/-- A command that leaves the owner of every seat alone. -/
def Gentle (tokens : List String) : Prop :=
  ∀ x, target tokens = some x → x.name ∈ [.reserveSeat, .releaseSeat, .seatStatus]

theorem gentle_seatStatus (e s : String) : Gentle ["SEAT_STATUS", e, s] := by
  rintro x hx
  cases hx
  simp

theorem gentle_reserveSeat (e s u n : String) : Gentle ["RESERVE_SEAT", e, s, u, n] := by
  rintro x hx
  cases hx
  simp

theorem gentle_releaseSeat (e s u : String) : Gentle ["RELEASE_SEAT", e, s, u] := by
  rintro x hx
  cases hx
  simp

theorem gentle_step {store : Store} {key : String} {l : SeatLease} {tokens : List String}
    (hq : ∀ e, queueKey e ≠ key) (h : Records store key l) (hg : Gentle tokens) (now : ℚ) :
    ∃ l', Records (step store (now, tokens)) key l' ∧ ∀ u, l' = .owned u ↔ l = .owned u := by
  have ha : Admissible key tokens := by
    intro x hx _
    have := hg x hx
    simp only [List.mem_cons, List.not_mem_nil] at this ⊢
    grind
  rcases step_cases hq h ha now with ⟨l', hl', hll, _⟩ | ⟨x, hx, hx', _⟩
  · refine ⟨l', hl', fun u => ?_⟩
    rcases hll with rfl | rfl
    · exact Iff.rfl
    · exact Lease.current_eq_owned
  · refine ⟨_, hx', fun u => ?_⟩
    have hn : ∀ b, x ≠ .commit b := by
      rintro b rfl
      simpa [actionName] using hg _ hx
    rw [Lease.act_eq_owned hn, Lease.current_eq_owned]

theorem seatStatus_step (store : Store) (e s : String) (now : ℚ) :
    step store (now, ["SEAT_STATUS", e, s]) = Storage.purge store (seatKey e s) now :=
  congrArg Prod.snd (Storage.seatStatusByKey_eq store (seatKey e s) now)

theorem releaseSeat_step (store : Store) (e s u : String) (now : ℚ) :
    step store (now, ["RELEASE_SEAT", e, s, u]) = (Storage.releaseSeat store e s u now).2 := by
  have hp : parseCommand ["RELEASE_SEAT", e, s, u] = .ok (.releaseSeat e s u) := rfl
  simp only [step, handleCommand, hp, perform, onResult]

theorem force_step (store : Store) (e s u : String) (now : ℚ) :
    Records (step store (now, ["FORCE_CONFIRM_SEAT", e, s, u])) (seatKey e s) (.owned u) :=
  Storage.records_insert_owned _ _ _

theorem force_step_ne (store : Store) {e s : String} (u : String) (now : ℚ) {key : String} (hk : key ≠ seatKey e s) :
    (step store (now, ["FORCE_CONFIRM_SEAT", e, s, u])).lookup key = store.lookup key :=
  step_lookup_ne rfl hk

/-! ### What Redis reports -/

/-- A result of the server as the client reads it. -/
def answer (x : Except Error CommandResult) : Except Error Reply :=
  match x.bind resultReply with
  | .ok reply => .ok reply
  | .error e => .error ⟨.conflictError, "ERR " ++ formatErrorMessage e⟩

theorem redisReply_fst (tokens : List String) (now : ℚ) (redis : Store) :
    (redisReply tokens now redis).1 = answer (handleCommand tokens now redis).1 := rfl

def readStatus (status : Except Error Storage.SeatStatus) : Except Error SeatStatus :=
  answer (status.map seatStatusResult) >>= decodeSeatStatus

theorem scalarReply_optional (userId : Option String) :
    scalarReply (Commands.optional (userId.map Str.ofString)) = .ok (userId.elim .null .str) := by
  cases userId <;> simp [Commands.optional, scalarReply]

theorem readStatus_text (state : String) (userId : Option String) (ttl : Int) :
    readStatus (.ok ⟨Str.ofString state, userId.map Str.ofString, ttl⟩) = match strInt ttl with
      | .ok _ => .ok ⟨state, userId, ttl⟩
      | .error e => .error ⟨.conflictError, "ERR " ++ formatErrorMessage e⟩ := by
  simp only [readStatus, answer, Except.map, Except.bind, Bind.bind, resultReply, seatStatusResult, List.mapM_cons,
    List.mapM_nil, scalarReply_optional]
  cases hi : strInt ttl with
  | error e => simp [scalarReply, hi, Except.map]
  | ok text =>
      cases userId <;>
        simp [scalarReply, hi, Except.map, Pure.pure, Except.pure, decodeSeatStatus, expectArray, expectString,
          expectOptionalString, expectInt, Bind.bind, Except.bind]

theorem readStatus_ok {x : Except Error Storage.SeatStatus} {status : SeatStatus} (h : readStatus x = .ok status) :
    x = .ok ⟨Str.ofString status.state, status.userId.map Str.ofString, status.ttl⟩ := by
  rcases x with e | ⟨state, userId, ttl⟩
  · simp [readStatus, answer, Except.map, Except.bind, Bind.bind] at h
  have hs : ∃ st, state = Str.ofString st := by
    cases hs : state.toString? with
    | none =>
        simp [readStatus, answer, Except.map, Except.bind, Bind.bind, resultReply, seatStatusResult, scalarReply, hs] at h
    | some st => exact ⟨st, toString?_eq_some.mp hs⟩
  obtain ⟨st, rfl⟩ := hs
  have hu : ∃ u, userId = Option.map Str.ofString u := by
    rcases userId with _ | u
    · exact ⟨none, rfl⟩
    cases hu : u.toString? with
    | none =>
        simp [readStatus, answer, Except.map, Except.bind, Bind.bind, resultReply, seatStatusResult, scalarReply,
          Commands.optional, hu] at h
    | some v => exact ⟨some v, by rw [toString?_eq_some.mp hu]; rfl⟩
  obtain ⟨u, rfl⟩ := hu
  rw [readStatus_text] at h
  split at h <;> cases h
  rfl

/-- The answer to `SEAT_STATUS`, as the app server reads it. -/
def reported (redis : Store) (eventId seatId : String) (now : ℚ) : Except Error SeatStatus :=
  (redisReply ["SEAT_STATUS", eventId, seatId] now redis).1 >>= decodeSeatStatus

theorem reported_eq (redis : Store) (e s : String) (now : ℚ) :
    reported redis e s now = readStatus (Storage.readSeat (Storage.live redis (seatKey e s) now) now) := by
  have hp : parseCommand ["SEAT_STATUS", e, s] = .ok (.seatStatus e s) := rfl
  simp only [reported, redisReply_fst, handleCommand, hp, perform, onResult, Storage.seatStatus,
    Storage.seatStatusByKey_eq, readStatus]

theorem reported_records {redis : Store} {e s : String} {l : SeatLease} (h : Records redis (seatKey e s) l) (now : ℚ) :
    reported redis e s now = readStatus (.ok (Storage.leaseStatus now (l.current now))) := by
  rw [reported_eq, h.live, Storage.readSeat_leaseEntry]

theorem reported_owned {redis : Store} {e s u : String} (h : Records redis (seatKey e s) (.owned u)) (now : ℚ) :
    reported redis e s now = .ok ⟨"CONFIRMED", some u, -1⟩ := by
  have hi : strInt (-1) = .ok "-1" := by decide +kernel
  have ht := readStatus_text "CONFIRMED" (some u) (-1)
  rw [hi] at ht
  rw [reported_records h]
  exact ht

/-- Redis reports a state of a seat with its user. -/
def Reports (redis : Store) (eventId seatId : String) (now : ℚ) (state : String) (userId : Option String) : Prop :=
  ∃ ttl, reported redis eventId seatId now = .ok ⟨state, userId, ttl⟩

theorem reports_confirmed {redis : Store} {e s u : String} {l : SeatLease} (h : Records redis (seatKey e s) l) {now : ℚ}
    (hr : Reports redis e s now "CONFIRMED" (some u)) : l = .owned u := by
  obtain ⟨ttl, hr⟩ := hr
  rw [reported_records h] at hr
  have hs := Except.ok.inj (readStatus_ok hr)
  refine (Lease.current_eq_owned (τ := ℚ)).mp (?_ : l.current now = _)
  cases hl : l.current now with
  | free => simp [hl, Storage.leaseStatus, Storage.seatAvailable] at hs
  | held v d => simp [hl, Storage.leaseStatus, Storage.seatHeld] at hs
  | owned v =>
      have hv : v = u ∧ -1 = ttl := by simpa [hl, Storage.leaseStatus, Storage.seatConfirmed] using hs
      rw [hv.1]

/-! ### What the seat commands answer -/

def readCommand (result : Except Error (Bool × Storage.SeatStatus)) : Except Error SeatCommandResult :=
  answer (result.map seatOperationResult) >>= decodeSeatCommand

theorem scalarReply_flag (success : Bool) : scalarReply (flag success) = .ok (.int (if success then 1 else 0)) := by
  have h0 : strInt 0 = .ok "0" := by decide +kernel
  have h1 : strInt 1 = .ok "1" := by decide +kernel
  cases success <;> simp [scalarReply, flag, h0, h1, Except.map]

theorem readCommand_text (success : Bool) (state : String) (userId : Option String) {ttl : Int} {text : String}
    (h : strInt ttl = .ok text) :
    readCommand (.ok (success, ⟨Str.ofString state, userId.map Str.ofString, ttl⟩)) = .ok ⟨success, state, userId, ttl⟩ := by
  simp only [readCommand, answer, Except.map, Except.bind, Bind.bind, resultReply, seatOperationResult, List.mapM_cons,
    List.mapM_nil, scalarReply_optional, scalarReply_flag]
  cases userId <;> cases success <;>
    simp [scalarReply, h, Except.map, Pure.pure, Except.pure, decodeSeatCommand, expectArray, expectString,
      expectOptionalString, expectInt, Bind.bind, Except.bind]

theorem decodeSeatCommand_flag {n : Int} {state userId ttl : Reply} {result : SeatCommandResult}
    (h : decodeSeatCommand (.list [.int n, state, userId, ttl]) = .ok result) : result.success = decide (n ≠ 0) := by
  simp only [decodeSeatCommand, expectArray, List.length_cons, List.length_nil, if_true, Bind.bind, Except.bind,
    expectInt] at h
  cases hs : expectString state "seat state" with
  | error e => simp [hs] at h
  | ok st =>
      cases hu : expectOptionalString userId "seat user_id" with
      | error e => simp [hs, hu] at h
      | ok u =>
          simp only [hs, hu] at h
          split at h <;> cases h
          rfl

theorem readCommand_success {success : Bool} {status : Storage.SeatStatus} {result : SeatCommandResult}
    (h : readCommand (.ok (success, status)) = .ok result) : result.success = success := by
  simp only [readCommand, answer, Except.map, Except.bind, Bind.bind, resultReply, seatOperationResult, List.mapM_cons,
    List.mapM_nil, scalarReply_flag] at h
  cases hs : scalarReply (.str status.state) with
  | error e => simp [hs] at h
  | ok state =>
      cases hu : scalarReply (Commands.optional status.userId) with
      | error e => simp [hs, hu] at h
      | ok userId =>
          cases ht : scalarReply (.int status.ttl) with
          | error e => simp [hs, hu, ht] at h
          | ok ttl =>
              simp only [hs, hu, ht, Pure.pure, Except.pure] at h
              rw [decodeSeatCommand_flag h]
              cases success <;> rfl

theorem readCommand_error {e : Error} {result : SeatCommandResult} : readCommand (.error e) ≠ .ok result := by
  simp [readCommand, answer, Except.map, Except.bind, Bind.bind]

/-- A reservation is granted, and holds the seat from now on, or it leaves the seat to time. -/
theorem reserve_reply {n : Int} {text : String} (htext : strInt n = .ok text) (store : Store) (e s u : String) (now : ℚ) :
    (0 < n ∧ n.natAbs < floatOverflow ∧ Storage.Grants (Storage.live store (seatKey e s) now) u now) ∧
        Records (step store (now, ["RESERVE_SEAT", e, s, u, text])) (seatKey e s) (.held u (now + n)) ∧
        (redisReply ["RESERVE_SEAT", e, s, u, text] now store).1 >>= decodeSeatCommand = .ok ⟨true, "HELD", some u, n⟩ ∨
      ¬ (0 < n ∧ n.natAbs < floatOverflow ∧ Storage.Grants (Storage.live store (seatKey e s) now) u now) ∧
        (step store (now, ["RESERVE_SEAT", e, s, u, text]) = store ∨
          step store (now, ["RESERVE_SEAT", e, s, u, text]) = Storage.purge store (seatKey e s) now) ∧
        ∀ r, (redisReply ["RESERVE_SEAT", e, s, u, text] now store).1 >>= decodeSeatCommand = .ok r →
          r.success = false := by
  have hint := parseInt_strInt htext
  by_cases hn : 0 < n
  · have hp : parseCommand ["RESERVE_SEAT", e, s, u, text] = .ok (.reserveSeat e s u n) := by
      change parseReserveArguments e s u text = _
      simp [parseReserveArguments, hint, not_le.mpr hn]
    have hstep : step store (now, ["RESERVE_SEAT", e, s, u, text]) = (Storage.reserveSeat store e s u n now).2 := by
      simp [step, handleCommand, hp, perform, onResult]
    have hreply : (redisReply ["RESERVE_SEAT", e, s, u, text] now store).1 >>= decodeSeatCommand =
        readCommand (Storage.reserveSeat store e s u n now).1 := by
      simp only [redisReply_fst, handleCommand, hp, perform, onResult, readCommand]
    rw [hstep, hreply]
    by_cases hg : n.natAbs < floatOverflow ∧ Storage.Grants (Storage.live store (seatKey e s) now) u now
    · rw [Storage.reserveSeat_granted hn hg.1 hg.2]
      exact .inl ⟨⟨hn, hg⟩, Storage.records_insert_held _ _ _ _, readCommand_text true "HELD" (some u) htext⟩
    · refine .inr ⟨fun h => hg h.2, .inr ?_, fun r hr => ?_⟩
      · rw [Storage.reserveSeat_eq store e s u hn now]
        by_cases hf : n.natAbs < floatOverflow
        · cases hs : Storage.readSeat (Storage.live store (seatKey e s) now) now with
          | error x => rfl
          | ok status =>
              have hno := fun h => hg ⟨hf, status, hs, h⟩
              simp only [if_neg hno]
        · have hd : Storage.computeDeadline now n = .error ⟨.overflowError, "int too large to convert to float"⟩ := by
            simp [Storage.computeDeadline, toFloat, hf, Except.map]
          cases hs : Storage.readSeat (Storage.live store (seatKey e s) now) now with
          | error x => rfl
          | ok status =>
              simp only [hd]
              split <;> rfl
      · cases hx : (Storage.reserveSeat store e s u n now).1 with
        | error x => exact absurd (hx ▸ hr) readCommand_error
        | ok x =>
            obtain ⟨b, status⟩ := x
            rw [hx] at hr
            rw [readCommand_success hr]
            exact Bool.eq_false_iff.mpr fun hb => hg (Storage.reserveSeat_true (hb ▸ hx)).2
  · have hp : parseCommand ["RESERVE_SEAT", e, s, u, text] =
        .error ⟨.commandError, "RESERVE_SEAT ttl_seconds must be a positive integer"⟩ := by
      change parseReserveArguments e s u text = _
      simp [parseReserveArguments, hint, not_lt.mp hn]
    refine .inr ⟨fun h => hn h.1, .inl (by simp [step, handleCommand, hp]), fun r hr => ?_⟩
    simp [redisReply_fst, handleCommand, hp, answer, Except.bind, Bind.bind] at hr

theorem release_step {store : Store} {e s u : String} {l : SeatLease} {now : ℚ} (h : Records store (seatKey e s) l) :
    Records (step store (now, ["RELEASE_SEAT", e, s, u])) (seatKey e s) (Lease.act (.release u) (l.current now)).2 := by
  rw [releaseSeat_step]
  exact (Storage.releaseSeat_performs h u now).2

theorem force_reply (store : Store) (e s u : String) (now : ℚ) :
    (redisReply ["FORCE_CONFIRM_SEAT", e, s, u] now store).1 >>= decodeSeatCommand =
      .ok ⟨true, "CONFIRMED", some u, -1⟩ := by
  have hp : parseCommand ["FORCE_CONFIRM_SEAT", e, s, u] = .ok (.forceConfirmSeat e s u) := rfl
  have hi : strInt (-1) = .ok "-1" := by decide +kernel
  simp only [redisReply_fst, handleCommand, hp, perform]
  exact readCommand_text true "CONFIRMED" (some u) hi

end Ticketing.AppServer
