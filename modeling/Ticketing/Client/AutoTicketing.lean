import Ticketing.AppServer.Steps
import Ticketing.Commands.Reference
import Mathlib.Data.Finset.Card

namespace Ticketing.Client

open Python JsonText Storage Commands Server AppServer

/-! ### The tally -/

structure DemoStats where
  totalSeats : Nat
  soldSeats : Finset Nat
  successCount : Nat
  failCount : Nat
  connectionFailures : Nat

namespace DemoStats

def start (totalSeats : Nat) : DemoStats := ⟨totalSeats, ∅, 0, 0, 0⟩

def remainingSeats (stats : DemoStats) : Int := stats.totalSeats - stats.soldSeats.card

def recordSuccess (stats : DemoStats) (seatNo : Nat) : Int × DemoStats :=
  let stats := { stats with soldSeats := insert seatNo stats.soldSeats, successCount := stats.successCount + 1 }
  (stats.remainingSeats, stats)

def recordFailure (stats : DemoStats) : DemoStats := { stats with failCount := stats.failCount + 1 }

def recordConnectionFailure (stats : DemoStats) : DemoStats :=
  { stats with connectionFailures := stats.connectionFailures + 1, failCount := stats.failCount + 1 }

end DemoStats

/-! ### One user's thread -/

inductive Failure
  | taken | changed | disconnected
  deriving DecidableEq

/-- How an attempt ends: what it has printed, or with an exception that it does not catch. -/
inductive Outcome
  | sold (remaining : Int)
  | failed (why : Failure)
  | crashed
  deriving DecidableEq

/-- Where a thread is in `attempt_ticketing`: before which of its calls. -/
inductive Phase
  | waiting | connecting | reading | writing | verifying | selling
  | failing (why : Failure)
  | leaving (outcome : Outcome)
  | finished (outcome : Outcome)
  deriving DecidableEq

def Phase.outcome : Phase → Option Outcome
  | .leaving outcome => some outcome
  | .finished outcome => some outcome
  | _ => none

/-- `seat_locks` holds the thread that has taken the lock. -/
structure Demo (users : Nat) where
  redis : Store
  seatLocks : Nat → Option (Fin users)
  stats : DemoStats
  phase : Fin users → Phase

variable {users : Nat}

def userId (user : Fin users) : String := "User_" ++ toString (user.val + 1)

def seatKey (seatNo : Nat) : String := "seat:" ++ toString seatNo

/-- One command over a socket that may break; an error reply is a `RespError`, which is a `RuntimeError`. A command whose
connection breaks is carried out then or not at all, never after its client has gone on. -/
def execute (tokens : List String) (env : Env) (redis : Store) : Except Error Reply × Store :=
  let r := handleCommand tokens env.now redis
  withFault env.fault redis (match r.1.bind resultReply with
    | .ok reply => .ok reply
    | .error e => .error ⟨.runtimeError, "ERR " ++ formatErrorMessage e⟩, r.2)

/-- The `except` clause of an attempt. -/
def raised (e : Error) : Phase :=
  if e.kind = .osError ∨ e.kind = .runtimeError then .failing .disconnected else .leaving .crashed

namespace Demo

def goto (d : Demo users) (user : Fin users) (p : Phase) : Demo users :=
  { d with phase := Function.update d.phase user p }

def ask (d : Demo users) (user : Fin users) (tokens : List String) (env : Env) (next : Reply → Phase) : Demo users :=
  match execute tokens env d.redis with
  | (.ok reply, redis) => { d with redis := redis }.goto user (next reply)
  | (.error e, redis) => { d with redis := redis }.goto user (raised e)

/-- A turn of a user's thread. One that waits for the lock of its seat stays where it is. -/
def turn (seatNo : Fin users → Nat) (d : Demo users) (user : Fin users) (env : Env) : Demo users :=
  match d.phase user with
  | .waiting =>
    match d.seatLocks (seatNo user) with
    | some _ => d
    | none => { d with seatLocks := Function.update d.seatLocks (seatNo user) (some user) }.goto user .connecting
  | .connecting =>
    match env.fault with
    | .none => d.goto user .reading
    | .fail _ e => d.goto user (raised e)
  | .reading => d.ask user ["GET", seatKey (seatNo user)] env fun currentOwner => match currentOwner with
    | .null => .writing
    | _ => .failing .taken
  | .writing => d.ask user ["SET", seatKey (seatNo user), userId user] env fun _ => .verifying
  | .verifying => d.ask user ["GET", seatKey (seatNo user)] env fun verifiedOwner => match verifiedOwner with
    | .str owner => if owner = userId user then .selling else .failing .changed
    | _ => .failing .changed
  | .selling =>
    let (remaining, stats) := d.stats.recordSuccess (seatNo user)
    { d with stats := stats }.goto user (.leaving (.sold remaining))
  | .failing .disconnected =>
    { d with stats := d.stats.recordConnectionFailure }.goto user (.leaving (.failed .disconnected))
  | .failing why => { d with stats := d.stats.recordFailure }.goto user (.leaving (.failed why))
  | .leaving outcome =>
    { d with seatLocks := Function.update d.seatLocks (seatNo user) none }.goto user (.finished outcome)
  | .finished _ => d

end Demo

/-- What happens on the server: a user's thread takes a turn, or another client has its command carried out. -/
inductive Event (users : Nat)
  | user (user : Fin users) (env : Env)
  | client (now : ℚ) (tokens : List String)

def Demo.next (seatNo : Fin users → Nat) (d : Demo users) : Event users → Demo users
  | .user user env => d.turn seatNo user env
  | .client now tokens => { d with redis := step d.redis (now, tokens) }

def Demo.run (seatNo : Fin users → Nat) (d : Demo users) (events : List (Event users)) : Demo users :=
  events.foldl (Demo.next seatNo) d

/-- `reset_seats`, with what each of its commands meets. -/
def resetSeats (env : Nat → Env) : List Nat → Store → Except Error Store
  | [], redis => .ok redis
  | n :: ns, redis => match execute ["DEL", seatKey n] (env n) redis with
    | (.ok _, redis) => resetSeats env ns redis
    | (.error e, _) => .error e

def Demo.start (totalSeats : Nat) (redis : Store) : Demo users :=
  ⟨redis, fun _ => none, DemoStats.start totalSeats, fun _ => .waiting⟩

/-! ### Keys and commands -/

theorem toString_inj {n m : Nat} : toString n = toString m ↔ n = m := by
  refine ⟨fun h => ?_, fun h => by rw [h]⟩
  have hdigits : Nat.toDigits 10 n = Nat.toDigits 10 m := by
    rw [Nat.toString_eq_ofList_toDigits, Nat.toString_eq_ofList_toDigits] at h
    exact String.ofList_injective h
  rw [← Nat.ofDigitChars_ten_toDigits (n := n), hdigits, Nat.ofDigitChars_ten_toDigits]

theorem seatKey_injective {n m : Nat} (h : seatKey n = seatKey m) : n = m :=
  toString_inj.mp ((String.append_right_inj _).mp h)

theorem userId_injective {i j : Fin users} (h : userId i = userId j) : i = j := by
  have hn := toString_inj.mp ((String.append_right_inj _).mp h)
  exact Fin.ext (by omega)

variable {redis redis' : Store} {key value : String} {env : Env}

def Undated (redis : Store) (key : String) : Prop := ∀ entry, redis.lookup key = some entry → entry.expiresAt = none

theorem purgeIfExpired_undated (h : Undated redis key) (now : ℚ) : purgeIfExpired redis key now = (false, redis) := by
  unfold purgeIfExpired
  cases hl : redis.lookup key with
  | none => rfl
  | some entry => simp only [h entry hl]

def owner : Option Entry → Reply
  | none => .null
  | some entry => .str entry.value

theorem execute_get (h : Undated redis key) (env : Env) : ∃ x, execute ["GET", key] env redis = (x, redis) ∧
    ∀ reply, x = .ok reply → reply = owner (redis.lookup key) := by
  have hget : handleCommand ["GET", key] env.now redis =
      (.ok (.scalar (Commands.optional ((redis.lookup key).map (Str.ofString ∘ Entry.value)))), redis) := by
    show perform (.get key) env.now redis = _
    simp only [perform, Storage.get, purgeIfExpired_undated h, Option.map_map]
  have hreply : resultReply (.scalar (Commands.optional ((redis.lookup key).map (Str.ofString ∘ Entry.value)))) =
      .ok (owner (redis.lookup key)) := by
    cases redis.lookup key with
    | none => rfl
    | some entry => simp [resultReply, Commands.optional, scalarReply, owner]
  simp only [execute, hget, Except.bind, hreply]
  cases env.fault with
  | none => exact ⟨_, rfl, fun reply h => by cases h; rfl⟩
  | fail effect e => exact ⟨.error e, by simp [withFault], fun reply h => by cases h⟩

/-- A write is carried out or it fails. -/
theorem execute_set (key value : String) (env : Env) (redis : Store) :
    ∃ x, execute ["SET", key, value] env redis = (x, Storage.set redis key value) ∨
      ∃ e, execute ["SET", key, value] env redis = (.error e, redis) := by
  have hset : handleCommand ["SET", key, value] env.now redis =
      (.ok (.scalar (.str (Str.ofString "OK"))), Storage.set redis key value) := rfl
  simp only [execute, hset]
  cases env.fault with
  | none => exact ⟨_, .inl rfl⟩
  | fail effect e =>
      cases effect with
      | true => exact ⟨.error e, .inl rfl⟩
      | false => exact ⟨.error e, .inr ⟨e, rfl⟩⟩

theorem execute_del {reply : Reply} (h : execute ["DEL", key] env redis = (.ok reply, redis')) :
    redis'.lookup key = none ∧ ∀ k, redis.lookup k = none → redis'.lookup k = none := by
  have hdel : (handleCommand ["DEL", key] env.now redis).2 = (delete redis key env.now).2 := rfl
  obtain rfl : (delete redis key env.now).2 = redis' := by
    rw [← hdel]
    exact (congrArg Prod.snd (withFault_ok h))
  have hgone := (delete_live redis key env.now).2
  refine ⟨hgone, fun k hk => ?_⟩
  by_cases hkey : k = key
  · exact hkey ▸ hgone
  · exact (delete_lookup_ne redis key env.now hkey).trans hk

theorem resetSeats_clears {env : Nat → Env} {ns : List Nat} (h : resetSeats env ns redis = .ok redis') :
    (∀ n ∈ ns, redis'.lookup (seatKey n) = none) ∧ ∀ k, redis.lookup k = none → redis'.lookup k = none := by
  induction ns generalizing redis with
  | nil =>
      cases h
      exact ⟨nofun, fun _ hk => hk⟩
  | cons n ns ih =>
      rw [resetSeats] at h
      split at h
      next reply redis₁ hdel =>
        obtain ⟨hgone, hkept⟩ := execute_del hdel
        obtain ⟨hrest, hlater⟩ := ih h
        refine ⟨fun m hm => ?_, fun k hk => hlater k (hkept k hk)⟩
        rcases List.mem_cons.mp hm with rfl | hm
        · exact hlater _ hgone
        · exact hrest m hm
      next => cases h

/-! ### One turn -/

section Turns

variable {seatNo : Fin users → Nat} {d d' : Demo users} {user : Fin users}

/-- What Redis holds under the key of the user's seat. -/
def Demo.entry (seatNo : Fin users → Nat) (d : Demo users) (user : Fin users) : Option Entry :=
  d.redis.lookup (seatKey (seatNo user))

def mark (user : Fin users) : Entry := ⟨userId user, none⟩

theorem mark_injective {i j : Fin users} (h : mark i = mark j) : i = j :=
  userId_injective (congrArg Entry.value h)

/-- An exception ends an attempt, inside the `except` clause or past it. -/
def Breaks (p : Phase) : Prop := p = .failing .disconnected ∨ p = .leaving .crashed

theorem breaks_raised (e : Error) : Breaks (raised e) := by
  unfold raised
  split
  · exact .inl rfl
  · exact .inr rfl

/-- A turn that leaves the shared state as it is. -/
inductive Goes (entry : Option Entry) (user : Fin users) : Phase → Phase → Prop
  | connected : Goes entry user .connecting .reading
  | free : entry = none → Goes entry user .reading .writing
  | taken : entry ≠ none → Goes entry user .reading (.failing .taken)
  | verified : entry = some (mark user) → Goes entry user .verifying .selling
  | changed : entry ≠ some (mark user) → Goes entry user .verifying (.failing .changed)
  | broken {q p : Phase} : q ∈ [.connecting, .reading, .writing, .verifying] → Breaks p → Goes entry user q p

/-- All that a turn of a user's thread can do. -/
inductive Turned (seatNo : Fin users → Nat) (d : Demo users) (user : Fin users) : Demo users → Prop
  | idle : Turned seatNo d user d
  | locks : d.phase user = .waiting → d.seatLocks (seatNo user) = none → Turned seatNo d user
      ({ d with seatLocks := Function.update d.seatLocks (seatNo user) (some user) }.goto user .connecting)
  | goes {p : Phase} : Goes (d.entry seatNo user) user (d.phase user) p → Turned seatNo d user (d.goto user p)
  | writes {p : Phase} : d.phase user = .writing → p = .verifying ∨ Breaks p → Turned seatNo d user
      ({ d with redis := Storage.set d.redis (seatKey (seatNo user)) (userId user) }.goto user p)
  | sells : d.phase user = .selling → Turned seatNo d user
      ({ d with stats := (d.stats.recordSuccess (seatNo user)).2 }.goto user
        (.leaving (.sold (d.stats.recordSuccess (seatNo user)).1)))
  | cut : d.phase user = .failing .disconnected → Turned seatNo d user
      ({ d with stats := d.stats.recordConnectionFailure }.goto user (.leaving (.failed .disconnected)))
  | fails {why : Failure} : d.phase user = .failing why → why ≠ .disconnected → Turned seatNo d user
      ({ d with stats := d.stats.recordFailure }.goto user (.leaving (.failed why)))
  | unlocks {outcome : Outcome} : d.phase user = .leaving outcome → Turned seatNo d user
      ({ d with seatLocks := Function.update d.seatLocks (seatNo user) none }.goto user (.finished outcome))

theorem turn_cases (h : Undated d.redis (seatKey (seatNo user))) (env : Env) :
    Turned seatNo d user (d.turn seatNo user env) := by
  have hget (next : Reply → Phase) (hnext : ∀ p, (p = next (owner (d.entry seatNo user)) ∨ Breaks p) →
      Goes (d.entry seatNo user) user (d.phase user) p) :
      Turned seatNo d user (d.ask user ["GET", seatKey (seatNo user)] env next) := by
    obtain ⟨x, hx, hreply⟩ := execute_get h env
    unfold Demo.ask
    rw [hx]
    cases x with
    | ok reply => exact .goes (hnext _ (.inl (congrArg next (hreply reply rfl))))
    | error e => exact .goes (hnext _ (.inr (breaks_raised e)))
  unfold Demo.turn
  split
  next hp =>
    split
    next => exact .idle
    next hfree => exact .locks hp hfree
  next hp =>
    split
    next => exact .goes (hp ▸ .connected)
    next => exact .goes (hp ▸ .broken (by simp) (breaks_raised _))
  next hp =>
    refine hget _ fun p hp' => ?_
    rw [hp]
    rcases hp' with rfl | hp'
    · cases he : d.entry seatNo user with
      | none => exact .free rfl
      | some entry => exact .taken nofun
    · exact .broken (by simp) hp'
  next hp =>
    obtain ⟨x, hx | ⟨e, hx⟩⟩ := execute_set (seatKey (seatNo user)) (userId user) env d.redis
    · unfold Demo.ask
      rw [hx]
      cases x with
      | ok reply => exact .writes hp (.inl rfl)
      | error e => exact .writes hp (.inr (breaks_raised e))
    · unfold Demo.ask
      rw [hx]
      exact .goes (hp ▸ .broken (by simp) (breaks_raised e))
  next hp =>
    refine hget _ fun p hp' => ?_
    rw [hp]
    rcases hp' with rfl | hp'
    · cases he : d.entry seatNo user with
      | none => exact .changed nofun
      | some entry =>
          show Goes (some entry) user .verifying (if entry.value = userId user then .selling else .failing .changed)
          split
          next hv => exact .verified (congrArg some (by cases entry; exact Entry.mk.injEq .. ▸ ⟨hv, h _ he⟩))
          next hv => exact .changed fun hm => hv (congrArg Entry.value (Option.some.inj hm))
    · exact .broken (by simp) hp'
  next hp => exact .sells hp
  next hp => exact .cut hp
  next why hwhy hp => exact .fails hp hwhy
  next outcome hp => exact .unlocks hp
  next => exact .idle

end Turns

end Ticketing.Client
