import Ticketing.Commands.Restart

namespace Ticketing.Commands

open Python JsonText Storage
open Trace (answers)

variable {store : Store} {e u : String} {now : ℚ}

/-! ### Queues that have run out -/

/-- `GET` or `TTL` reports the key of the queue as missing. -/
def ReportedMissing (store : Store) (e : String) (now : ℚ) : Prop :=
  (handleCommand ["GET", queueKey e] now store).1 = .ok (.scalar .null) ∨
    (handleCommand ["TTL", queueKey e] now store).1 = .ok (.scalar (.int (-2)))

def queueCommands (e u : String) : List (List String) :=
  [["JOIN_QUEUE", e, u], ["QUEUE_POSITION", e, u], ["POP_QUEUE", e], ["LEAVE_QUEUE", e, u], ["PEEK_QUEUE", e]]

/-- The command, and whatever comes after it, is answered as if the queue were empty. -/
def ActsOnEmpty (store : Store) (e : String) (now : ℚ) (tokens : List String) : Prop :=
  ∀ run : EngineRun, (now :: run.map Prod.fst).Pairwise (· ≤ ·) →
    answers engineStep store ((now, .command tokens) :: run) =
      answers engineStep (deleteKey store (queueKey e)) ((now, .command tokens) :: run)

/-- A queue that is reported missing acts as an empty one, and no snapshot changes a later reply. -/
structure QueuesExpire (store : Store) (now : ℚ) : Prop where
  missing : ∀ e u, ReportedMissing store e now → ∀ tokens ∈ queueCommands e u, ActsOnEmpty store e now tokens
  snapshot : ∀ run : EngineRun, (now :: run.map Prod.fst).Pairwise (· ≤ ·) →
    answers engineStep store run = answers engineStep (Storage.snapshot store now).2 run

theorem reportedMissing_iff : ReportedMissing store e now ↔ live store (queueKey e) now = none := by
  have hget : parseCommand ["GET", queueKey e] = .ok (.get (queueKey e)) := rfl
  have httl : parseCommand ["TTL", queueKey e] = .ok (.ttl (queueKey e)) := rfl
  simp only [ReportedMissing, handleCommand, hget, httl, perform, get_eq, ttl_live]
  cases live store (queueKey e) now with
  | none => simp [Commands.optional]
  | some entry =>
      have hr : remaining entry now ≠ -2 := by
        unfold remaining
        split
        · decide
        · have := le_max_left 0 ⌈‹ℚ› - now⌉
          omega
      simp [Commands.optional, hr]

/-- No queue is kept past its deadline, unless it is the JSON of an empty list. -/
def NoQueueOutlives (store : Store) (now : ℚ) : Prop :=
  ∀ e entry, store.lookup (queueKey e) = some entry → ¬ entry.Live now → deserializeQueue entry.value = .ok []

theorem NoQueueOutlives.reads (h : NoQueueOutlives store now) (hlive : live store (queueKey e) now = none) :
    loadQueue store (queueKey e) = .ok [] := by
  rw [loadQueue_eq]
  cases hk : store.lookup (queueKey e) with
  | none => rfl
  | some entry =>
      refine h e entry hk fun hl => ?_
      rw [live_eq_some.mpr ⟨hk, hl⟩] at hlive
      cases hlive

theorem NoQueueOutlives.emptied (h : NoQueueOutlives store now) (hlive : live store (queueKey e) now = none) :
    Agree now store (deleteKey store (queueKey e)) := by
  have herase : (deleteKey store (queueKey e)).lookup (queueKey e) = none := AList.lookup_erase _ store
  constructor
  · intro k
    by_cases hk : k = queueKey e
    · rw [hk, hlive, live, herase, Option.filter_none]
    · rw [live, live, deleteKey, AList.lookup_erase_ne hk]
  · intro e'
    by_cases hk : queueKey e' = queueKey e
    · rw [hk, h.reads hlive, loadQueue_eq, herase, readQueue]
    · rw [loadQueue_eq, loadQueue_eq, deleteKey, AList.lookup_erase_ne hk]

theorem NoQueueOutlives.snapshot (h : NoQueueOutlives store now) : Agree now store (snapshot store now).2 := by
  have hlookup (k : String) : (Storage.snapshot store now).2.lookup k = live store k now := lookup_purgeExpiredKeys store now k
  constructor
  · intro k
    rw [live, live, hlookup]
    exact (live_filter le_rfl store k).symm
  · intro e
    rw [loadQueue_eq (Storage.snapshot store now).2, hlookup]
    cases hlive : live store (queueKey e) now with
    | none => exact h.reads hlive
    | some entry => rw [loadQueue_eq, (live_eq_some.mp hlive).1]

theorem peek_reply (store : Store) (e : String) (now : ℚ) :
    (handleCommand ["PEEK_QUEUE", e] now store).1 =
      (peekEntry (store.lookup (queueKey e))).1.map queuePopResult := by
  have hp : parseCommand ["PEEK_QUEUE", e] = .ok (.peekQueue e) := rfl
  rw [← peek_lookup]
  simp only [handleCommand, hp, perform]

/-- The queues expire exactly where none is kept past its deadline. -/
theorem queuesExpire_iff (store : Store) (now : ℚ) : QueuesExpire store now ↔ NoQueueOutlives store now := by
  constructor
  · intro h e entry hk hdead
    have hlive : live store (queueKey e) now = none := by
      simp [live, hk, Option.filter, hdead]
    have hpeek := h.missing e "" (reportedMissing_iff.mpr hlive) ["PEEK_QUEUE", e] (by simp [queueCommands]) [] (by simp)
    have hreply := Option.some.inj (List.cons.inj hpeek).1
    rw [peek_reply, peek_reply, hk, deleteKey, AList.lookup_erase] at hreply
    simp only [peekEntry, readQueue] at hreply
    rcases hq : deserializeQueue entry.value with x | _ | ⟨user, queue⟩
    · rw [hq] at hreply
      cases hreply
    · rfl
    · rw [hq] at hreply
      cases hreply
  · intro h
    refine ⟨fun e u hmissing tokens _ run hrun => ?_, fun run hrun => h.snapshot.answers hrun⟩
    have hclock : (now :: now :: run.map Prod.fst).Pairwise (· ≤ ·) :=
      List.pairwise_cons.mpr ⟨fun t ht => by
        rcases List.mem_cons.mp ht with rfl | ht
        · exact le_rfl
        · exact (List.pairwise_cons.mp hrun).1 t ht, hrun⟩
    exact (h.emptied (reportedMissing_iff.mp hmissing)).answers hclock

def forgottenQueue : Run := [(0, ["JOIN_QUEUE", "e", "u"]), (1, ["EXPIRE", "queue:e", "10"])]

theorem forgottenQueue_served :
    ¬ ∀ (history : Run) (now : ℚ), (history.map Prod.fst ++ [now]).Pairwise (· ≤ ·) →
      QueuesExpire (execute ∅ history) now := by
  intro h
  have hq := h forgottenQueue 20 (by decide +kernel)
  have hpeek := hq.missing "e" "u" (by unfold ReportedMissing; decide +kernel) ["PEEK_QUEUE", "e"] (by decide) [] (by simp)
  revert hpeek
  decide +kernel

end Ticketing.Commands
