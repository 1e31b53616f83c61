import Ticketing.Commands.Handler
import Ticketing.Lib.Trace
import Ticketing.Storage.Seat

namespace Ticketing.Commands

open Python JsonText Storage Trace

/-! ### Runs of commands -/

/-- Commands with the times at which they are handled. -/
abbrev Run := List (ℚ × List String)

def step (store : Store) (x : ℚ × List String) : Store := (handleCommand x.2 x.1 store).2

def execute (store : Store) (run : Run) : Store := run.foldl step store

/-- What a command is aimed at, also where its other arguments are malformed. -/
structure Target where
  name : CommandName
  key : String
  userId : Option String
  deriving DecidableEq

def targetOf : CommandName → List String → Option Target
  | .set, key :: _ => some ⟨.set, key, none⟩
  | .get, key :: _ => some ⟨.get, key, none⟩
  | .del, key :: _ => some ⟨.del, key, none⟩
  | .expire, key :: _ => some ⟨.expire, key, none⟩
  | .ttl, key :: _ => some ⟨.ttl, key, none⟩
  | .seatStatus, eventId :: seatId :: _ => some ⟨.seatStatus, seatKey eventId seatId, none⟩
  | .popQueue, eventId :: _ => some ⟨.popQueue, queueKey eventId, none⟩
  | .peekQueue, eventId :: _ => some ⟨.peekQueue, queueKey eventId, none⟩
  | .joinQueue, eventId :: userId :: _ => some ⟨.joinQueue, queueKey eventId, some userId⟩
  | .queuePosition, eventId :: userId :: _ => some ⟨.queuePosition, queueKey eventId, some userId⟩
  | .leaveQueue, eventId :: userId :: _ => some ⟨.leaveQueue, queueKey eventId, some userId⟩
  | .reserveSeat, eventId :: seatId :: userId :: _ => some ⟨.reserveSeat, seatKey eventId seatId, some userId⟩
  | .confirmSeat, eventId :: seatId :: userId :: _ => some ⟨.confirmSeat, seatKey eventId seatId, some userId⟩
  | .forceConfirmSeat, eventId :: seatId :: userId :: _ =>
    some ⟨.forceConfirmSeat, seatKey eventId seatId, some userId⟩
  | .releaseSeat, eventId :: seatId :: userId :: _ => some ⟨.releaseSeat, seatKey eventId seatId, some userId⟩
  | _, _ => none

def target (command : List String) : Option Target :=
  match validateCommand command with
  | .ok (name, args) => targetOf name args
  | .error _ => none

/-- The seat of the key is left to `RESERVE_SEAT`, `CONFIRM_SEAT` and `RELEASE_SEAT`. -/
def Admissible (key : String) (command : List String) : Prop :=
  ∀ x, target command = some x → x.key = key → x.name ∉ [.set, .del, .expire, .forceConfirmSeat]

/-- The reply of a seat command that took effect. -/
def succeeded : Except Error CommandResult → Bool
  | .ok (.list (.int flag :: _)) => flag = 1
  | _ => false

abbrev Succeeds (reply : Except Error CommandResult) : Prop := succeeded reply = true

def Request.target : Request → Target
  | .set key _ => ⟨.set, key, none⟩
  | .get key => ⟨.get, key, none⟩
  | .del key => ⟨.del, key, none⟩
  | .expire key _ _ => ⟨.expire, key, none⟩
  | .ttl key => ⟨.ttl, key, none⟩
  | .reserveSeat eventId seatId userId _ => ⟨.reserveSeat, seatKey eventId seatId, some userId⟩
  | .confirmSeat eventId seatId userId => ⟨.confirmSeat, seatKey eventId seatId, some userId⟩
  | .forceConfirmSeat eventId seatId userId => ⟨.forceConfirmSeat, seatKey eventId seatId, some userId⟩
  | .releaseSeat eventId seatId userId => ⟨.releaseSeat, seatKey eventId seatId, some userId⟩
  | .seatStatus eventId seatId => ⟨.seatStatus, seatKey eventId seatId, none⟩
  | .joinQueue eventId userId => ⟨.joinQueue, queueKey eventId, some userId⟩
  | .queuePosition eventId userId => ⟨.queuePosition, queueKey eventId, some userId⟩
  | .popQueue eventId => ⟨.popQueue, queueKey eventId, none⟩
  | .leaveQueue eventId userId => ⟨.leaveQueue, queueKey eventId, some userId⟩
  | .peekQueue eventId => ⟨.peekQueue, queueKey eventId, none⟩

theorem parseExpire_target {key rawSeconds : String} {rest : List String} {r : Request}
    (h : parseExpireArguments key rawSeconds rest = .ok r) : r.target = ⟨.expire, key, none⟩ := by
  unfold parseExpireArguments at h
  grind [Request.target]

theorem parseReserve_target {eventId seatId userId raw : String} {r : Request}
    (h : parseReserveArguments eventId seatId userId raw = .ok r) :
    ∃ n : Int, 0 < n ∧ r = .reserveSeat eventId seatId userId n := by
  unfold parseReserveArguments at h
  grind

theorem parseCommand_target {command : List String} {r : Request} (h : parseCommand command = .ok r) :
    target command = some r.target := by
  unfold parseCommand at h
  unfold target
  split at h <;> rename_i hv <;> simp only [hv]
  case h_5 => rw [parseExpire_target h]; rfl
  case h_7 =>
    obtain ⟨n, _, rfl⟩ := parseReserve_target h
    rfl
  all_goals first
    | cases h; done
    | cases h; rfl

theorem parseCommand_reserve {command : List String} {eventId seatId userId : String} {n : Int}
    (h : parseCommand command = .ok (.reserveSeat eventId seatId userId n)) : 0 < n := by
  unfold parseCommand at h
  split at h
  case h_5 => have := parseExpire_target h; simp [Request.target] at this
  case h_7 =>
    obtain ⟨m, hm, he⟩ := parseReserve_target h
    cases he
    exact hm
  all_goals cases h

theorem validateCommand_arity {command args : List String} {name : CommandName}
    (h : validateCommand command = .ok (name, args)) : args.length + 1 ≤ (commandArity name).2 := by
  unfold validateCommand at h
  grind

theorem target_seatStatus {command : List String} {key : String} (h : target command = some ⟨.seatStatus, key, none⟩) :
    ∃ e s, seatKey e s = key ∧ parseCommand command = .ok (.seatStatus e s) := by
  unfold target at h
  split at h
  next name args hv =>
    unfold targetOf at h
    split at h <;> try cases h
    next e s rest =>
      have ha := validateCommand_arity hv
      have hr : rest = [] := by
        cases rest with
        | nil => rfl
        | cons x xs =>
            simp only [commandArity, List.length_cons] at ha
            omega
      exact ⟨e, s, rfl, by simp [parseCommand, hv, hr]⟩
  next => cases h

/-! ### One step -/

theorem perform_lookup_ne (r : Request) (now : ℚ) (store : Store) {k : String} (hk : k ≠ r.target.key) :
    (perform r now store).2.lookup k = store.lookup k := by
  cases r with
  | set key value => exact AList.lookup_insert_ne hk
  | get key => exact get_lookup_ne store key now hk
  | del key => exact delete_lookup_ne store key now hk
  | expire key seconds option => exact expire_lookup_ne store key seconds option now hk
  | ttl key => exact (congrArg (AList.lookup k) (ttl_snd store key now)).trans (lookup_purge_ne now hk)
  | reserveSeat e s u n => exact reserveSeat_lookup_ne store e s u n now hk
  | confirmSeat e s u => exact confirmSeat_lookup_ne store e s u now hk
  | forceConfirmSeat e s u => exact AList.lookup_insert_ne hk
  | releaseSeat e s u => exact releaseSeat_lookup_ne store e s u now hk
  | seatStatus e s =>
      exact (congrArg (fun x => AList.lookup k (Prod.snd x)) (seatStatusByKey_eq store _ now)).trans
        (lookup_purge_ne now hk)
  | queuePosition e u => rfl
  | peekQueue e => rfl
  | joinQueue e u =>
      simp only [perform, onResult, joinQueue]
      split
      · rfl
      · split
        · rfl
        · exact storeQueue_lookup_ne store _ hk
  | popQueue e =>
      simp only [perform, onResult, popQueue]
      split
      · rfl
      · rfl
      · exact storeQueue_lookup_ne store _ hk
  | leaveQueue e u =>
      simp only [perform, onResult, leaveQueue]
      split
      · rfl
      · split
        · rfl
        · exact storeQueue_lookup_ne store _ hk

theorem step_lookup_ne {store : Store} {x : ℚ × List String} {y : Target} (ht : target x.2 = some y) {k : String}
    (hk : k ≠ y.key) : (step store x).lookup k = store.lookup k := by
  obtain ⟨now, c⟩ := x
  cases hp : parseCommand c with
  | error e => simp [step, handleCommand, hp]
  | ok r =>
      obtain rfl : r.target = y := Option.some.inj ((parseCommand_target hp).symm.trans ht)
      simpa [step, handleCommand, hp] using perform_lookup_ne r now store hk

/-- What a request does to the lease under its key. -/
def Request.action (now : ℚ) : Request → Option (String × Lease.Action String ℚ)
  | .reserveSeat eventId seatId userId n =>
    if n.natAbs < floatOverflow then some (seatKey eventId seatId, .acquire userId (now + n)) else none
  | .confirmSeat eventId seatId userId => some (seatKey eventId seatId, .commit userId)
  | .releaseSeat eventId seatId userId => some (seatKey eventId seatId, .release userId)
  | _ => none

def IsSeatCommand (name : CommandName) : Prop := name ∈ [.reserveSeat, .confirmSeat, .releaseSeat]

theorem succeeds_seatOperation (b : Bool) (status : SeatStatus) :
    Succeeds (.ok (seatOperationResult (b, status))) ↔ b = true := by
  cases b <;> simp [Succeeds, succeeded, seatOperationResult, flag]

variable {store : Store} {eventId seatId : String} {l : SeatLease} {now : ℚ} {r : Request}

theorem perform_act {key : String} (h : Records store key l) {x : Lease.Action String ℚ}
    (hx : r.action now = some (key, x)) (hr : ∀ e s u n, r = .reserveSeat e s u n → 0 < n) :
    (perform r now store).1 = .ok (seatOperationResult
        ((Lease.act x (l.current now)).1, leaseStatus now (Lease.act x (l.current now)).2)) ∧
      Records (perform r now store).2 key (Lease.act x (l.current now)).2 ∧
      r.target.userId = some x.actor := by
  cases r <;> simp only [Request.action, reduceCtorEq] at hx
  case reserveSeat e s u n =>
    split at hx <;> cases hx
    next hf =>
      obtain ⟨h1, h2⟩ := reserveSeat_performs h u now (hr _ _ _ _ rfl) hf
      exact ⟨by simp [perform, onResult, h1, Except.map], h2, rfl⟩
  case confirmSeat e s u =>
    cases hx
    obtain ⟨h1, h2⟩ := confirmSeat_performs h u now
    exact ⟨by simp [perform, onResult, h1, Except.map], h2, rfl⟩
  case releaseSeat e s u =>
    cases hx
    obtain ⟨h1, h2⟩ := releaseSeat_performs h u now
    exact ⟨by simp [perform, onResult, h1, Except.map], h2, rfl⟩

/-- A reservation whose deadline overflows only looks at the seat. -/
theorem reserveSeat_overflow (h : Records store (seatKey eventId seatId) l) (userId : String) (now : ℚ) {n : Int}
    (hn : 0 < n) (hf : ¬ n.natAbs < floatOverflow) :
    ¬ Succeeds (perform (.reserveSeat eventId seatId userId n) now store).1 ∧
      (perform (.reserveSeat eventId seatId userId n) now store).2 = purge store (seatKey eventId seatId) now := by
  simp only [perform, onResult, reserveSeat, not_le.mpr hn, if_false, h.status, computeDeadline, toFloat, hf]
  split <;> simp [Except.map, Succeeds, succeeded, seatOperationResult, flag]

theorem perform_idle {key : String} (hq : ∀ e, queueKey e ≠ key) (h : Records store key l)
    (ha : r.target.key = key → r.target.name ∉ [.set, .del, .expire, .forceConfirmSeat])
    (hx : ∀ x, r.action now ≠ some (key, x)) (hr : ∀ e s u n, r = .reserveSeat e s u n → 0 < n) :
    (∃ l', Records (perform r now store).2 key l' ∧ (l' = l ∨ l' = l.current now)) ∧
      (IsSeatCommand r.target.name → r.target.key = key → ¬ Succeeds (perform r now store).1) := by
  by_cases hk : r.target.key = key
  · have hp : ∃ l', Records (purge store key now) key l' ∧ (l' = l ∨ l' = l.current now) :=
      ⟨_, h.purge _, .inr rfl⟩
    cases r <;> obtain rfl := hk
    case set | del | expire | forceConfirmSeat => exact absurd (by simp [Request.target]) (ha rfl)
    case queuePosition | peekQueue | joinQueue | popQueue | leaveQueue => exact absurd rfl (hq _)
    case confirmSeat | releaseSeat => exact absurd rfl (hx _)
    case get => exact ⟨hp, by simp [IsSeatCommand, Request.target]⟩
    case ttl key => exact ⟨by rwa [← ttl_snd] at hp, by simp [IsSeatCommand, Request.target]⟩
    case seatStatus e s =>
      refine ⟨?_, by simp [IsSeatCommand, Request.target]⟩
      have hs := congrArg Prod.snd (seatStatusByKey_eq store (seatKey e s) now)
      exact hs ▸ hp
    case reserveSeat e s u n =>
      have hf : ¬ n.natAbs < floatOverflow := by
        intro hf
        exact hx (.acquire u (now + n)) (by simp only [Request.action, hf, if_true, Request.target])
      obtain ⟨h1, h2⟩ := reserveSeat_overflow h u now (hr _ _ _ _ rfl) hf
      rw [h2]
      exact ⟨hp, fun _ _ => h1⟩
  · refine ⟨⟨l, ?_, .inl rfl⟩, fun _ he => absurd he hk⟩
    rw [Records, perform_lookup_ne r now store (Ne.symm hk)]
    exact h

/-- A command of a user on the seat of a key succeeds. -/
def Wins (key : String) (name : CommandName) (userId : String) (store : Store) (x : ℚ × List String) : Prop :=
  target x.2 = some ⟨name, key, some userId⟩ ∧ Succeeds (handleCommand x.2 x.1 store).1

def actionName : Lease.Action String ℚ → CommandName
  | .acquire _ _ => .reserveSeat
  | .commit _ => .confirmSeat
  | .release _ => .releaseSeat

theorem action_target {key : String} {x : Lease.Action String ℚ} (hx : r.action now = some (key, x)) :
    r.target = ⟨actionName x, key, some x.actor⟩ := by
  cases r <;> simp only [Request.action, reduceCtorEq] at hx
  case reserveSeat => split at hx <;> cases hx; rfl
  all_goals cases hx; rfl

/-- A command leaves the lease of a key to time, or acts on it. -/
theorem step_cases {key : String} {c : List String} (hq : ∀ e, queueKey e ≠ key) (h : Records store key l)
    (ha : Admissible key c) (now : ℚ) :
    (∃ l', Records (step store (now, c)) key l' ∧ (l' = l ∨ l' = l.current now) ∧
      ∀ name u, IsSeatCommand name → ¬ Wins key name u store (now, c)) ∨
    ∃ x, target c = some ⟨actionName x, key, some x.actor⟩ ∧
      Records (step store (now, c)) key (Lease.act x (l.current now)).2 ∧
      (Succeeds (handleCommand c now store).1 ↔ (Lease.act x (l.current now)).1 = true) := by
  cases hp : parseCommand c with
  | error e =>
      left
      refine ⟨l, by simpa [step, handleCommand, hp] using h, .inl rfl, ?_⟩
      rintro name u _ ⟨_, hr⟩
      simp [handleCommand, hp, Succeeds, succeeded] at hr
  | ok r =>
      have hr : ∀ e s u n, r = .reserveSeat e s u n → 0 < n := by
        rintro e s u n rfl
        exact parseCommand_reserve hp
      have ht := parseCommand_target hp
      have hstep : step store (now, c) = (perform r now store).2 := by simp [step, handleCommand, hp]
      have hreply : (handleCommand c now store).1 = (perform r now store).1 := by simp [handleCommand, hp]
      rw [hstep, hreply]
      by_cases hx : ∃ x, r.action now = some (key, x)
      · right
        obtain ⟨x, hx⟩ := hx
        obtain ⟨h1, h2, _⟩ := perform_act h hx hr
        exact ⟨x, by rw [ht, action_target hx], h2, by rw [h1, succeeds_seatOperation]⟩
      · left
        obtain ⟨⟨l', hl, hc⟩, hw⟩ := perform_idle hq h (ha _ ht) (not_exists.mp hx) hr
        refine ⟨l', hl, hc, ?_⟩
        rintro name u hn ⟨ht', hs⟩
        have he : r.target = ⟨name, key, some u⟩ := Option.some.inj (ht.symm.trans ht')
        rw [hreply] at hs
        exact hw (by rw [he]; exact hn) (by rw [he]) hs

/-! ### Runs -/

/-- The user has no successful command on the seat. -/
def Quiet (key userId : String) : Store → Run → Prop :=
  Along step (fun store x => ∀ name, IsSeatCommand name → ¬ Wins key name userId store x)

/-- Nobody reserves the seat. -/
def Unreserved (key : String) : Store → Run → Prop :=
  Along step (fun store x => ∀ userId, ¬ Wins key .reserveSeat userId store x)

theorem isSeatCommand_action (x : Lease.Action String ℚ) : IsSeatCommand (actionName x) := by
  cases x <;> simp [actionName, IsSeatCommand]

variable {key u : String} {d : ℚ} {run : Run}

theorem step_held {x : ℚ × List String} (hq : ∀ e, queueKey e ≠ key) (h : Records store key (.held u d))
    (ha : Admissible key x.2) (ht : x.1 < d) (hw : ∀ name, IsSeatCommand name → ¬ Wins key name u store x) :
    Records (step store x) key (.held u d) := by
  obtain ⟨now, c⟩ := x
  have hl : Lease.current now (.held u d) = .held u d := Lease.current_held ht u
  rcases step_cases hq h ha now with ⟨l', hl', hc, _⟩ | ⟨x, hx, hx', hs⟩
  · rw [hl, or_self] at hc
    rwa [hc] at hl'
  · rw [hl] at hx' hs
    by_cases hu : x.actor = u
    · have hf : (Lease.act x (.held u d)).1 = false := by
        rw [Bool.eq_false_iff, ne_eq, ← hs]
        exact fun h => hw _ (isSeatCommand_action x) ⟨by rw [hx, hu], h⟩
      rwa [Lease.act_failed hf] at hx'
    · rwa [Lease.act_other hu] at hx'

theorem execute_held (hq : ∀ e, queueKey e ≠ key) (h : Records store key (.held u d))
    (ha : ∀ x ∈ run, Admissible key x.2) (ht : ∀ x ∈ run, x.1 < d) (hw : Quiet key u store run) :
    Records (execute store run) key (.held u d) := by
  refine Along.invariant (I := fun store => Records store key (.held u d)) ?_ ((hw.and_mem ha).and_mem ht) h
  rintro store x ⟨⟨hw, ha⟩, ht⟩ h
  exact step_held hq h ha ht hw

theorem step_unreserved {x : ℚ × List String} (hq : ∀ e, queueKey e ≠ key) (h : Records store key l)
    (hl : l = .held u d ∨ l = .free) (ha : Admissible key x.2)
    (hw : ∀ name, IsSeatCommand name → ¬ Wins key name u store x)
    (hn : ∀ v, ¬ Wins key .reserveSeat v store x) :
    ∃ l', Records (step store x) key l' ∧ (l' = .held u d ∨ l' = .free) := by
  obtain ⟨now, c⟩ := x
  have hc : l.current now = .held u d ∧ now < d ∨ l.current now = .free := by
    rcases hl with rfl | rfl
    · by_cases hd : d ≤ now
      · exact .inr (Lease.current_expired hd u)
      · exact .inl ⟨Lease.current_held (not_le.mp hd) u, not_le.mp hd⟩
    · exact .inr rfl
  rcases step_cases hq h ha now with ⟨l', hl', hll, _⟩ | ⟨x, hx, hx', hs⟩
  · refine ⟨l', hl', ?_⟩
    rcases hll with rfl | rfl
    · exact hl
    · exact hc.imp And.left id
  · rcases hc with ⟨hc, ht⟩ | hc
    · have hd : l = .held u d := by
        rcases hl with rfl | rfl
        · rfl
        · cases hc
      exact ⟨_, step_held hq (hd ▸ h) ha ht hw, .inl rfl⟩
    · rw [hc] at hx' hs
      cases x with
      | acquire v e => exact absurd ⟨hx, hs.mpr rfl⟩ (hn v)
      | commit v => exact ⟨_, hx', .inr rfl⟩
      | release v => exact ⟨_, hx', .inr rfl⟩

theorem execute_unreserved (hq : ∀ e, queueKey e ≠ key) (h : Records store key l) (hl : l = .held u d ∨ l = .free)
    (ha : ∀ x ∈ run, Admissible key x.2) (hw : Quiet key u store run) (hn : Unreserved key store run) :
    ∃ l', Records (execute store run) key l' ∧ (l' = .held u d ∨ l' = .free) := by
  refine Along.invariant (I := fun store => ∃ l', Records store key l' ∧ (l' = .held u d ∨ l' = .free)) ?_
    ((hw.and hn).and_mem ha) ⟨l, h, hl⟩
  rintro store x ⟨⟨hw, hn⟩, ha⟩ ⟨l, h, hl⟩
  exact step_unreserved hq h hl ha hw hn

theorem step_records {x : ℚ × List String} (hq : ∀ e, queueKey e ≠ key) (h : Records store key l)
    (ha : Admissible key x.2) : ∃ l', Records (step store x) key l' ∧ (l = .owned u → l' = .owned u) := by
  obtain ⟨now, c⟩ := x
  rcases step_cases hq h ha now with ⟨l', hl', hll, _⟩ | ⟨x, _, hx', _⟩
  · refine ⟨l', hl', ?_⟩
    rintro rfl
    exact hll.elim id id
  · refine ⟨_, hx', ?_⟩
    rintro rfl
    exact Lease.act_owned x u

theorem execute_records (hq : ∀ e, queueKey e ≠ key) (h : Records store key l) (u : String)
    (ha : ∀ x ∈ run, Admissible key x.2) :
    ∃ l', Records (execute store run) key l' ∧ (l = .owned u → l' = .owned u) := by
  induction run generalizing store l with
  | nil => exact ⟨l, h, id⟩
  | cons x xs ih =>
      obtain ⟨l', h', hl'⟩ := step_records (u := u) hq h (ha x (by simp))
      obtain ⟨l'', h'', hl''⟩ := ih h' (fun y hy => ha y (by simp [hy]))
      exact ⟨l'', h'', hl'' ∘ hl'⟩

/-- A successful confirmation leaves the seat to its user. -/
theorem step_confirmed {x : ℚ × List String} (hq : ∀ e, queueKey e ≠ key) (h : Records store key l)
    (hw : Wins key .confirmSeat u store x) : Records (step store x) key (.owned u) := by
  obtain ⟨now, c⟩ := x
  have ha : Admissible key c := by
    intro y hy _
    cases hw.1.symm.trans hy
    simp
  rcases step_cases hq h ha now with ⟨l', _, _, hn⟩ | ⟨x, hx, hx', hs⟩
  · exact absurd hw (hn _ _ (by simp [IsSeatCommand]))
  · have hc : x = .commit u := by
      cases x <;> simp_all [Wins, actionName, Lease.Action.actor]
    subst hc
    rwa [Lease.act_commit (hs.mp hw.2)] at hx'

/-! ### The guarantee of a reservation -/

/-- Nobody but the holder moves the seat. -/
def Blocks (store : Store) (key userId : String) (now : ℚ) : Prop :=
  ∀ c name v, IsSeatCommand name → target c = some ⟨name, key, some v⟩ → v ≠ userId →
    ¬ Succeeds (handleCommand c now store).1 ∧ (step store (now, c)).lookup key = store.lookup key

/-- `SEAT_STATUS` on the key answers with the status. -/
def Reports (store : Store) (key : String) (now : ℚ) (status : SeatStatus) : Prop :=
  ∀ c, target c = some ⟨.seatStatus, key, none⟩ → (handleCommand c now store).1 = .ok (seatStatusResult status)

theorem records_blocks (hq : ∀ e, queueKey e ≠ key) (h : Records store key (.held u d)) (ht : now < d) :
    Blocks store key u now := by
  intro c name v hn hc hv
  have ha : Admissible key c := by
    intro y hy _
    cases hc.symm.trans hy
    simp only [IsSeatCommand] at hn
    grind
  have hl : Lease.current now (.held u d) = .held u d := Lease.current_held ht u
  rcases step_cases hq h ha now with ⟨l', hl', hll, hw⟩ | ⟨x, hx, hx', hs⟩
  · rw [hl, or_self] at hll
    subst hll
    exact ⟨fun hs => hw name v hn ⟨hc, hs⟩, hl'.trans h.symm⟩
  · have hu : x.actor ≠ u := by
      cases hc.symm.trans hx
      exact hv
    rw [hl, Lease.act_other hu] at hx' hs
    exact ⟨by simp [hs], hx'.trans h.symm⟩

theorem records_reports (h : Records store key l) (now : ℚ) :
    Reports store key now (leaseStatus now (l.current now)) := by
  intro c hc
  obtain ⟨e, s, rfl, hp⟩ := target_seatStatus hc
  simp [handleCommand, hp, perform, onResult, seatStatus, h.status, Except.map]

theorem succeeds_map {r : Except Error (Bool × SeatStatus)} (h : Succeeds (r.map seatOperationResult)) :
    ∃ status, r = .ok (true, status) := by
  cases r with
  | error e => simp [Except.map, Succeeds, succeeded] at h
  | ok r =>
      obtain ⟨b, status⟩ := r
      exact ⟨status, by rw [(succeeds_seatOperation b status).mp h]⟩

/-- Whatever the seat was, a successful reservation records a hold. -/
theorem reserve_records {c : List String} {n : Int}
    (hc : parseCommand c = .ok (.reserveSeat eventId seatId u n)) (hs : Succeeds (handleCommand c now store).1) :
    Records (step store (now, c)) (seatKey eventId seatId) (.held u (now + n)) := by
  simp only [handleCommand, hc, perform, onResult, step] at hs ⊢
  obtain ⟨status, hr⟩ := succeeds_map hs
  obtain ⟨hn, hf, hg⟩ := reserveSeat_true hr
  rw [reserveSeat_granted hn hf hg]
  exact records_insert_held _ _ _ _

theorem reserve_succeeds {c : List String} {n : Int} (hc : parseCommand c = .ok (.reserveSeat eventId seatId u n))
    (hf : n.natAbs < floatOverflow) {status : SeatStatus}
    (ha : (seatStatusByKey store (seatKey eventId seatId) now).1 = .ok status) (hs : status.state = seatAvailable) :
    Succeeds (handleCommand c now store).1 := by
  rw [seatStatusByKey_eq] at ha
  simp only [handleCommand, hc, perform, onResult]
  rw [reserveSeat_granted (parseCommand_reserve hc) hf ⟨status, ha, .inl hs⟩]
  exact (succeeds_seatOperation true _).mpr rfl

def successes (store : Store) : Run → Nat
  | [] => 0
  | x :: xs => (if Succeeds (handleCommand x.2 x.1 store).1 then 1 else 0) + successes (step store x) xs

/-- Every command tries to reserve the seat of the key, each for the user at its place. -/
def Attempts (key : String) : List String → Run → Prop :=
  List.Forall₂ (fun userId x => target x.2 = some ⟨.reserveSeat, key, some userId⟩)

theorem successes_blocked (hq : ∀ e, queueKey e ≠ key) (h : Records store key (.held u d)) {users : List String}
    (ha : Attempts key users run) (hu : u ∉ users) (ht : ∀ x ∈ run, x.1 < d) : successes store run = 0 := by
  induction ha generalizing store with
  | nil => rfl
  | @cons v x users run hx _ ih =>
      have hv : v ≠ u := fun he => hu (by simp [he])
      obtain ⟨hs, hl⟩ := records_blocks hq h (ht x (by simp)) x.2 _ v (by simp [IsSeatCommand]) hx hv
      have h' : Records (step store x) key (.held u d) := hl.trans h
      simp [successes, hs, ih h' (fun hm => hu (by simp [hm])) fun y hy => ht y (by simp [hy])]

theorem race_won_once {c : List String} {n : Int} {users : List String}
    (hc : parseCommand c = .ok (.reserveSeat eventId seatId u n)) (hf : n.natAbs < floatOverflow)
    {status : SeatStatus} (hs : (seatStatusByKey store (seatKey eventId seatId) now).1 = .ok status)
    (hav : status.state = seatAvailable) (ha : Attempts (seatKey eventId seatId) users run) (hu : (u :: users).Nodup)
    (ht : ∀ x ∈ run, x.1 < now + n) : successes store ((now, c) :: run) = 1 := by
  have hw := reserve_succeeds hc hf hs hav
  have hr := reserve_records hc hw
  have hq : ∀ e, queueKey e ≠ seatKey eventId seatId := fun e => queueKey_ne_seatKey e eventId seatId
  simp [successes, hw, successes_blocked hq hr ha (List.nodup_cons.mp hu).1 ht]

/-- A reservation of `n` seconds at `t`, seen at `t'` after the commands `rest`. -/
structure ReserveGuarantee (store : Store) (key userId : String) (n : Int) (t : ℚ) (rest : Run) (t' : ℚ) : Prop where
  blocks : Quiet key userId store rest → t' < t + n → Blocks (execute store rest) key userId t'
  held : Quiet key userId store rest → t' < t + n →
    Reports (execute store rest) key t' ⟨seatHeld, some (Str.ofString userId), ⌈t + n - t'⌉⟩ ∧
      1 ≤ ⌈t + n - t'⌉ ∧ ⌈t + n - t'⌉ ≤ n
  available : Quiet key userId store rest → t + n ≤ t' → Unreserved key store rest →
    Reports (execute store rest) key t' ⟨seatAvailable, none, -1⟩
  confirmed : ∀ before x after, rest = before ++ x :: after →
    Wins key .confirmSeat userId (execute store before) x →
    Reports (execute store rest) key t' ⟨seatConfirmed, some (Str.ofString userId), -1⟩

theorem execute_append (store : Store) (xs ys : Run) : execute store (xs ++ ys) = execute (execute store xs) ys :=
  List.foldl_append

theorem reserve_guarantee {c : List String} {n : Int} {t t' : ℚ} {rest : Run}
    (hc : parseCommand c = .ok (.reserveSeat eventId seatId u n)) (hw : Succeeds (handleCommand c t store).1)
    (ha : ∀ x ∈ rest, Admissible (seatKey eventId seatId) x.2) (ht : ∀ x ∈ (t, c) :: rest, x.1 ≤ t') :
    ReserveGuarantee (step store (t, c)) (seatKey eventId seatId) u n t rest t' := by
  have hq : ∀ e, queueKey e ≠ seatKey eventId seatId := fun e => queueKey_ne_seatKey e eventId seatId
  have hr := reserve_records hc hw
  have hn := parseCommand_reserve hc
  have htt : t ≤ t' := ht (t, c) (by simp)
  have ht : ∀ x ∈ rest, x.1 ≤ t' := fun x hx => ht x (by simp [hx])
  have hold (hquiet : Quiet (seatKey eventId seatId) u (step store (t, c)) rest) (hlt : t' < t + n) :=
    execute_held hq hr ha (fun x hx => (ht x hx).trans_lt hlt) hquiet
  constructor
  · intro hquiet hlt
    exact records_blocks hq (hold hquiet hlt) hlt
  · intro hquiet hlt
    have hpos : 1 ≤ ⌈t + n - t'⌉ := Int.one_le_ceil_iff.mpr (by linarith)
    refine ⟨?_, hpos, Int.ceil_le.mpr (by linarith)⟩
    have hrep := records_reports (hold hquiet hlt) t'
    rwa [Lease.current_held hlt, leaseStatus, max_eq_right (by omega)] at hrep
  · intro hquiet hle hun
    obtain ⟨l, hl, hcase⟩ := execute_unreserved hq hr (.inl rfl) ha hquiet hun
    have hrep := records_reports hl t'
    rcases hcase with rfl | rfl
    · rwa [Lease.current_expired hle] at hrep
    · exact hrep
  · rintro before x after rfl hwin
    obtain ⟨l, hl, _⟩ := execute_records hq hr u fun y (hy : y ∈ before) => ha y (by simp [hy])
    have hx := step_confirmed hq hl hwin
    obtain ⟨l', hl', ho⟩ := execute_records hq hx u fun y (hy : y ∈ after) => ha y (by simp [hy])
    rw [ho rfl] at hl'
    rw [execute_append]
    exact records_reports hl' t'

/-- A reservation that succeeds keeps the seat for its user and its time, a
confirmation keeps it for good, and a race for a free seat has one winner. -/
theorem reserve_governs_seat :
    (∀ (store : Store) (eventId seatId u : String) (n : Int) (t t' : ℚ) (c : List String) (rest : Run),
      parseCommand c = .ok (.reserveSeat eventId seatId u n) → Succeeds (handleCommand c t store).1 →
      (∀ x ∈ rest, Admissible (seatKey eventId seatId) x.2) → (∀ x ∈ (t, c) :: rest, x.1 ≤ t') →
      ReserveGuarantee (step store (t, c)) (seatKey eventId seatId) u n t rest t') ∧
    ∀ (store : Store) (eventId seatId u : String) (n : Int) (t : ℚ) (c : List String) (users : List String)
      (rest : Run) (status : SeatStatus), parseCommand c = .ok (.reserveSeat eventId seatId u n) →
      n.natAbs < floatOverflow → (seatStatusByKey store (seatKey eventId seatId) t).1 = .ok status →
      status.state = seatAvailable → Attempts (seatKey eventId seatId) users rest → (u :: users).Nodup →
      (∀ x ∈ rest, x.1 < t + n) → successes store ((t, c) :: rest) = 1 :=
  ⟨fun _ _ _ _ _ _ _ _ _ hc hw ha ht => reserve_guarantee hc hw ha ht,
    fun _ _ _ _ _ _ _ _ _ _ hc hf hs hav ha hu ht => race_won_once hc hf hs hav ha hu ht⟩

theorem reserve_governs_seat_race :
    (handleCommand ["SEAT_STATUS", "e", "s"] 5 (execute ∅
        [(0, ["RESERVE_SEAT", "e", "s", "u", "10"]), (1, ["RESERVE_SEAT", "e", "s", "v", "10"])])).1 =
      .ok (seatStatusResult ⟨seatHeld, some (Str.ofString "u"), 5⟩) ∧
    successes ∅ [(0, ["RESERVE_SEAT", "e", "s", "u", "10"]), (1, ["RESERVE_SEAT", "e", "s", "v", "10"])] = 1 := by
  have hu : parseCommand ["RESERVE_SEAT", "e", "s", "u", "10"] = .ok (.reserveSeat "e" "s" "u" 10) := by
    decide +kernel
  have hv : target ["RESERVE_SEAT", "e", "s", "v", "10"] = some ⟨.reserveSeat, seatKey "e" "s", some "v"⟩ := by
    decide +kernel
  have hw : Succeeds (handleCommand ["RESERVE_SEAT", "e", "s", "u", "10"] 0 ∅).1 := by decide +kernel
  have hav : (seatStatusByKey ∅ (seatKey "e" "s") 0).1 = .ok ⟨seatAvailable, none, -1⟩ := by decide +kernel
  refine ⟨?_, reserve_governs_seat.2 ∅ "e" "s" "u" 10 0 _ ["v"] [(1, ["RESERVE_SEAT", "e", "s", "v", "10"])] _ hu
    (by decide +kernel) hav rfl (.cons hv .nil) (by decide) (by norm_num)⟩
  have hg := reserve_governs_seat.1 ∅ "e" "s" "u" 10 0 5 _ [(1, ["RESERVE_SEAT", "e", "s", "v", "10"])] hu hw
    (by simp [Admissible, hv]) (by norm_num)
  have hq : Quiet (seatKey "e" "s") "u" (step ∅ (0, ["RESERVE_SEAT", "e", "s", "u", "10"]))
      [(1, ["RESERVE_SEAT", "e", "s", "v", "10"])] := by simp [Quiet, Along, Wins, hv]
  have hr := (hg.held hq (by norm_num)).1 ["SEAT_STATUS", "e", "s"] (by decide +kernel)
  norm_num at hr
  exact hr

end Ticketing.Commands
