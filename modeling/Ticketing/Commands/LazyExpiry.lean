import Ticketing.Commands.Reference
import Ticketing.Storage.Snapshot
import Ticketing.Lib.Trace

namespace Ticketing.Commands

open Python JsonText Storage
open Trace (answers answers_eq)

/-! ### A store without expired entries -/

/-- The entries of a store by key. -/
abbrev Keyspace := String → Option Entry

/-- Every entry goes at the instant of its deadline. -/
def Keyspace.elapse (m : Keyspace) (now : ℚ) : Keyspace := fun k => (m k).filter (fun e => e.Live now)

def Keyspace.handleCommand (command : List String) (now : ℚ) (m : Keyspace) : Except Error CommandResult × Keyspace :=
  match parseCommand command with
  | .error e => (.error e, m)
  | .ok r =>
    let x := r.act now (m.elapse now r.target.key)
    (x.1, Function.update (m.elapse now) r.target.key x.2)

/-- What is asked of an engine: a command, or a snapshot, which answers nothing. -/
inductive EngineStep
  | command (tokens : List String)
  | snapshot

abbrev EngineRun := List (ℚ × EngineStep)

def engineStep (store : Store) (x : ℚ × EngineStep) : Option (Except Error CommandResult) × Store :=
  match x.2 with
  | .command tokens => (some (handleCommand tokens x.1 store).1, (handleCommand tokens x.1 store).2)
  | .snapshot => (none, (snapshot store x.1).2)

def referenceStep (m : Keyspace) (x : ℚ × EngineStep) : Option (Except Error CommandResult) × Keyspace :=
  match x.2 with
  | .command tokens => (some (m.handleCommand tokens x.1).1, (m.handleCommand tokens x.1).2)
  | .snapshot => (none, m)

/-- The clock of a run never goes back. -/
def Clocked (run : EngineRun) : Prop := (run.map Prod.fst).Pairwise (· ≤ ·)

instance (run : EngineRun) : Decidable (Clocked run) := inferInstanceAs (Decidable (List.Pairwise _ _))

def onQueue (tokens : List String) : Bool :=
  match parseCommand tokens with
  | .ok r => decide r.OnQueue
  | .error _ => false

/-- A step that asks nothing of a queue. -/
def EngineStep.Queueless : EngineStep → Prop
  | .command tokens => onQueue tokens = false
  | .snapshot => True

instance (x : EngineStep) : Decidable x.Queueless :=
  match x with
  | .command tokens => inferInstanceAs (Decidable (onQueue tokens = false))
  | .snapshot => .isTrue trivial

/-! ### The engine mirrors it -/

variable {store : Store} {m : Keyspace} {now now' : ℚ}

/-- The engine and the keyspace have the same live entries. -/
def Mirrors (now : ℚ) (store : Store) (m : Keyspace) : Prop := ∀ k, live store k now = m.elapse now k

theorem Mirrors.later (h : Mirrors now store m) (hle : now ≤ now') : Mirrors now' store m := by
  intro k
  rw [← live_filter hle store k, h k]
  exact filter_live_live hle (m k)

theorem Mirrors.handle {tokens : List String} (h : Mirrors now store m)
    (hq : onQueue tokens = false) :
    (handleCommand tokens now store).1 = (m.handleCommand tokens now).1 ∧
      Mirrors now (handleCommand tokens now store).2 (m.handleCommand tokens now).2 := by
  unfold handleCommand Keyspace.handleCommand
  cases hp : parseCommand tokens with
  | error e => exact ⟨rfl, h⟩
  | ok r =>
      simp only [onQueue, hp, decide_eq_false_iff_not] at hq
      have hseen : r.seen store now = m.elapse now r.target.key := (if_neg hq).trans (h r.target.key)
      obtain ⟨hreply, hentry⟩ := perform_seen (parseCommand_checked hp) now store
      rw [hseen] at hreply hentry
      refine ⟨hreply, fun k => ?_⟩
      by_cases hk : k = r.target.key
      · subst hk
        simp only [live, hentry, Keyspace.elapse, Function.update_self]
      · have hsame : (perform r now store).2.lookup k = store.lookup k := perform_lookup_ne r now store hk
        have hlive : live (perform r now store).2 k now = live store k now := congrArg (Option.filter _) hsame
        rw [hlive, h k]
        simp only [Keyspace.elapse, Function.update_of_ne hk]
        exact (filter_live_live le_rfl (m k)).symm

theorem Mirrors.snapshot (h : Mirrors now store m) : Mirrors now (snapshot store now).2 m := by
  intro k
  have hk : live (Storage.snapshot store now).2 k now = live store k now := by
    unfold live
    rw [Storage.snapshot, lookup_purgeExpiredKeys]
    exact filter_live_live le_rfl (store.lookup k)
  exact hk.trans (h k)

theorem Mirrors.answers {run : EngineRun} (h : Mirrors now store m) (hclock : (now :: run.map Prod.fst).Pairwise (· ≤ ·))
    (hq : ∀ x ∈ run, x.2.Queueless) : Trace.answers engineStep store run = Trace.answers referenceStep m run := by
  refine answers_eq (R := Mirrors) (fun _ _ _ _ hle h => h.later hle) (fun x s m hx h => ?_) hclock hq h
  obtain ⟨now, tokens | _⟩ := x
  · obtain ⟨hreply, hnext⟩ := h.handle hx
    exact ⟨congrArg some hreply, hnext⟩
  · exact ⟨rfl, h.snapshot⟩

theorem clocked_cons {run : EngineRun} (h : Clocked run) :
    ∃ start, (start :: run.map Prod.fst).Pairwise (· ≤ ·) := by
  cases run with
  | nil => exact ⟨0, by simp⟩
  | cons x run => exact ⟨x.1, List.pairwise_cons.mpr ⟨fun t ht => by
      rcases List.mem_cons.mp ht with rfl | ht
      · exact le_rfl
      · exact (List.pairwise_cons.mp h).1 t ht, h⟩⟩

/-- No reply tells a store that expires entries when it meets them from one that loses them at
their deadlines, and no entry that has run out has a say in any reply. -/
theorem lazy_expiry_invisible (run : EngineRun) (hclock : Clocked run) (hq : ∀ x ∈ run, x.2.Queueless) :
    (∀ store : Store, answers engineStep store run = answers referenceStep (store.lookup ·) run) ∧
      ∀ (store store' : Store) (start : ℚ), (∀ t ∈ run.map Prod.fst, start ≤ t) →
        (∀ k, live store k start = live store' k start) → answers engineStep store run = answers engineStep store' run := by
  constructor
  · intro store
    obtain ⟨start, hstart⟩ := clocked_cons hclock
    have h : Mirrors start store (store.lookup ·) := fun k => rfl
    exact h.answers hstart hq
  · intro store store' start hstart hsame
    have hrun : (start :: run.map Prod.fst).Pairwise (· ≤ ·) := List.pairwise_cons.mpr ⟨hstart, hclock⟩
    have h : Mirrors start store (store.lookup ·) := fun k => rfl
    have h' : Mirrors start store' (store.lookup ·) := fun k => (hsame k).symm
    rw [h.answers hrun hq, h'.answers hrun hq]

/-- A hold that runs out at 10, while a snapshot is taken, and a record that is no JSON. -/
def expiredHold : EngineRun :=
  [(0, .command ["RESERVE_SEAT", "e", "s", "u", "10"]), (3, .snapshot), (9, .command ["TTL", "seat:e:s"]),
    (10, .command ["RESERVE_SEAT", "e", "s", "v", "5"]), (12, .command ["SET", "seat:e:s", "\x7b"]),
    (13, .command ["CONFIRM_SEAT", "e", "s", "v"])]

theorem expiredHold_invisible :
    answers engineStep ∅ expiredHold = answers referenceStep ((∅ : Store).lookup ·) expiredHold :=
  (lazy_expiry_invisible expiredHold (by decide +kernel) (by decide +kernel)).1 ∅

end Ticketing.Commands
