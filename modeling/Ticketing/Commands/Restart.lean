import Ticketing.Commands.LazyExpiry

namespace Ticketing.Commands

open Python JsonText Storage
open Trace (answers answers_eq)

/-! ### Stores that answer alike -/

variable {store store' next next' : Store} {key : String} {now now' : ℚ}

/-- Two stores with the same live entries, whose queues read the same. -/
structure Agree (now : ℚ) (store store' : Store) : Prop where
  entries : ∀ k, live store k now = live store' k now
  queues : ∀ e, loadQueue store (queueKey e) = loadQueue store' (queueKey e)

theorem Agree.later (h : Agree now store store') (hle : now ≤ now') : Agree now' store store' := by
  refine ⟨fun k => ?_, h.queues⟩
  rw [← live_filter hle store k, h.entries k, live_filter hle store' k]

/-- A step on one key, which leaves the same entry in both stores or changes neither. -/
theorem Agree.put (h : Agree now store store') (hne : ∀ k, k ≠ key → next.lookup k = store.lookup k)
    (hne' : ∀ k, k ≠ key → next'.lookup k = store'.lookup k)
    (hkey : next.lookup key = next'.lookup key ∨
      next.lookup key = store.lookup key ∧ next'.lookup key = store'.lookup key) : Agree now next next' := by
  have hcases (k : String) : next.lookup k = next'.lookup k ∨
      next.lookup k = store.lookup k ∧ next'.lookup k = store'.lookup k := by
    by_cases hk : k = key
    · rw [hk]
      exact hkey
    · exact .inr ⟨hne k hk, hne' k hk⟩
  constructor
  · intro k
    rcases hcases k with hk | ⟨hk, hk'⟩
    · exact congrArg (Option.filter _) hk
    · exact (congrArg (Option.filter _) hk).trans ((h.entries k).trans (congrArg (Option.filter _) hk'.symm))
  · intro e
    have hq := h.queues e
    simp only [loadQueue_eq] at hq ⊢
    rcases hcases (queueKey e) with hk | ⟨hk, hk'⟩
    · rw [hk]
    · rw [hk, hk', hq]

theorem onQueue_key {r : Request} (h : r.OnQueue) : ∃ e, r.target.key = queueKey e := by
  cases r <;> first | exact ⟨_, rfl⟩ | exact absurd h (by simp [Request.OnQueue, Request.target])

/-- A queue command depends on the queue that it reads, and stores a new one or leaves the entry. -/
theorem act_queue {r : Request} (hr : r.OnQueue) {entry entry' : Option Entry} (h : readQueue entry = readQueue entry') :
    (r.act now entry).1 = (r.act now entry').1 ∧ ((r.act now entry).2 = (r.act now entry').2 ∨
      (r.act now entry).2 = entry ∧ (r.act now entry').2 = entry') := by
  cases r with
  | joinQueue e u =>
      simp only [Request.act, answering, joinEntry, h]
      cases readQueue entry' with
      | error x => exact ⟨rfl, .inr ⟨rfl, rfl⟩⟩
      | ok queue =>
          dsimp only
          split
          · exact ⟨rfl, .inr ⟨rfl, rfl⟩⟩
          · exact ⟨rfl, .inl rfl⟩
  | queuePosition e u =>
      simp [Request.act, answering, positionEntry, h]
  | popQueue e =>
      simp only [Request.act, answering, popEntry, h]
      rcases readQueue entry' with x | _ | ⟨user, queue⟩
      · exact ⟨rfl, .inr ⟨rfl, rfl⟩⟩
      · exact ⟨rfl, .inr ⟨rfl, rfl⟩⟩
      · exact ⟨rfl, .inl rfl⟩
  | leaveQueue e u =>
      simp only [Request.act, answering, leaveEntry, h]
      cases readQueue entry' with
      | error x => exact ⟨rfl, .inr ⟨rfl, rfl⟩⟩
      | ok queue =>
          dsimp only
          split
          · exact ⟨rfl, .inr ⟨rfl, rfl⟩⟩
          · exact ⟨rfl, .inl rfl⟩
  | peekQueue e =>
      simp [Request.act, answering, peekEntry, h]
  | _ => exact absurd hr (by simp [Request.OnQueue, Request.target])

theorem Agree.handle (h : Agree now store store') (tokens : List String) :
    (handleCommand tokens now store).1 = (handleCommand tokens now store').1 ∧
      Agree now (handleCommand tokens now store).2 (handleCommand tokens now store').2 := by
  unfold handleCommand
  cases hp : parseCommand tokens with
  | error e => exact ⟨rfl, h⟩
  | ok r =>
      obtain ⟨hreply, hentry⟩ := perform_seen (parseCommand_checked hp) now store
      obtain ⟨hreply', hentry'⟩ := perform_seen (parseCommand_checked hp) now store'
      have hput := @Agree.put store store' _ _ r.target.key now h (fun k hk => perform_lookup_ne r now store hk)
        fun k hk => perform_lookup_ne r now store' hk
      by_cases hr : r.OnQueue
      · have hseen (store : Store) : r.seen store now = store.lookup r.target.key := if_pos hr
        rw [hseen] at hreply hentry hreply' hentry'
        obtain ⟨e, he⟩ := onQueue_key hr
        have hq := h.queues e
        simp only [loadQueue_eq, ← he] at hq
        obtain ⟨hact, hcases⟩ := @act_queue now r hr _ _ hq
        refine ⟨hreply.trans (hact.trans hreply'.symm), hput ?_⟩
        rwa [hentry, hentry']
      · have hseen (store : Store) : r.seen store now = live store r.target.key now := if_neg hr
        rw [hseen, h.entries] at hreply hentry
        rw [hseen] at hreply' hentry'
        exact ⟨hreply.trans hreply'.symm, hput (.inl (hentry.trans hentry'.symm))⟩

theorem Agree.snapshot (h : Agree now store store') : Agree now (snapshot store now).2 (snapshot store' now).2 := by
  have hlookup (k : String) : (Storage.snapshot store now).2.lookup k = (Storage.snapshot store' now).2.lookup k := by
    rw [Storage.snapshot, Storage.snapshot, lookup_purgeExpiredKeys, lookup_purgeExpiredKeys, h.entries]
  refine ⟨fun k => congrArg (Option.filter _) (hlookup k), fun e => ?_⟩
  rw [loadQueue_eq, loadQueue_eq, hlookup]

theorem Agree.answers {run : EngineRun} (h : Agree now store store')
    (hclock : (now :: run.map Prod.fst).Pairwise (· ≤ ·)) :
    Trace.answers engineStep store run = Trace.answers engineStep store' run := by
  refine answers_eq (R := Agree) (Q := fun _ => True) (fun _ _ _ _ hle h => h.later hle) (fun x s s' _ h => ?_) hclock
    (fun _ _ => trivial) h
  obtain ⟨now, tokens | _⟩ := x
  · obtain ⟨hreply, hnext⟩ := h.handle tokens
    exact ⟨congrArg some hreply, hnext⟩
  · exact ⟨rfl, h.snapshot⟩

/-! ### Restarts -/

/-- No queue has a deadline. -/
def QueuesLast (store : Store) : Prop :=
  ∀ e entry, store.lookup (queueKey e) = some entry → entry.expiresAt = none

theorem QueuesLast.live_queue (h : QueuesLast store) (e : String) (t : ℚ) :
    live store (queueKey e) t = store.lookup (queueKey e) := by
  cases hk : store.lookup (queueKey e) with
  | none => rw [live, hk, Option.filter_none]
  | some entry =>
      refine live_eq_some.mpr ⟨hk, fun d hd => ?_⟩
      rw [h e entry hk] at hd
      cases hd

theorem QueuesLast.agree_snapshot {t₀ t₁ : ℚ} (h : QueuesLast store) (hle : t₀ ≤ t₁) :
    Agree t₁ (snapshot store t₀).2 store := by
  constructor
  · intro k
    rw [live, snapshot, lookup_purgeExpiredKeys]
    exact live_filter hle store k
  · intro e
    rw [loadQueue_eq, loadQueue_eq, snapshot, lookup_purgeExpiredKeys, h.live_queue]

theorem QueuesLast.agree_restart {rows : List SnapshotEntry} {t₀ t₁ : ℚ} (h : QueuesLast store)
    (hrows : LoadEntries (snapshot store t₀).1 rows) (hle : t₀ ≤ t₁) : Agree t₁ (loadSnapshot rows t₁) store := by
  constructor
  · intro k
    rw [live, lookup_restart hrows hle]
    exact live_filter le_rfl store k
  · intro e
    rw [loadQueue_eq, loadQueue_eq, lookup_restart hrows hle, h.live_queue]

/-- A restart is not seen in any later reply, and a restart after it changes no live entry: neither against the engine
as `snapshot` leaves it nor against the one that never took a snapshot. -/
theorem restart_invisible (store : Store) (hlast : QueuesLast store) (t₀ t₁ : ℚ) (hle : t₀ ≤ t₁)
    (table rows : List SnapshotEntry) (hrows : LoadEntries (saveEntries table (snapshot store t₀).1).2 rows) :
    (∀ run : EngineRun, (t₁ :: run.map Prod.fst).Pairwise (· ≤ ·) →
      answers engineStep (loadSnapshot rows t₁) run = answers engineStep (snapshot store t₀).2 run ∧
        answers engineStep (loadSnapshot rows t₁) run = answers engineStep store run) ∧
      ∀ table' rows', LoadEntries (saveEntries table' (snapshot (loadSnapshot rows t₁) t₁).1).2 rows' →
        ∀ k, live (loadSnapshot rows' t₁) k t₁ = live (snapshot store t₀).2 k t₁ ∧
          live (loadSnapshot rows' t₁) k t₁ = live store k t₁ := by
  have hsave (table : List SnapshotEntry) (store : Store) (now : ℚ) :
      (saveEntries table (snapshot store now).1).2 = (snapshot store now).1 := by
    rw [saveEntries, if_pos (snapshot_keys store now)]
  rw [hsave] at hrows
  have hsnapshot := hlast.agree_snapshot hle
  have hrestart := hlast.agree_restart hrows hle
  refine ⟨fun run hrun => ?_, fun table' rows' hrows' k => ?_⟩
  · have hreplies := hrestart.answers hrun
    exact ⟨hreplies.trans (hsnapshot.answers hrun).symm, hreplies⟩
  · rw [hsave] at hrows'
    have hagain : live (loadSnapshot rows' t₁) k t₁ = live (loadSnapshot rows t₁) k t₁ := by
      rw [live, lookup_restart hrows' le_rfl]
      exact live_filter le_rfl _ k
    have hentry := hagain.trans (hrestart.entries k)
    exact ⟨hentry.trans (hsnapshot.entries k).symm, hentry⟩

theorem queuesLast_of_entries (h : ∀ x ∈ store.entries, x.2.expiresAt ≠ none → x.1.toList.take 6 ≠ "queue:".toList) :
    QueuesLast store := by
  intro e entry hk
  by_contra hd
  exact h ⟨queueKey e, entry⟩ (AList.mem_lookup_iff.mp hk) hd (by simp [queueKey])

/-- A queue, a hold that runs out at 10 and one that runs out at 30. -/
def beforeRestart : Store :=
  execute ∅ [(0, ["JOIN_QUEUE", "e", "u"]), (0, ["RESERVE_SEAT", "e", "s", "u", "10"]),
    (0, ["RESERVE_SEAT", "e", "t", "v", "30"])]

theorem restartAfterHold_invisible :
    answers engineStep (loadSnapshot (snapshot beforeRestart 5).1 20)
        [(20, .command ["SEAT_STATUS", "e", "s"]), (21, .command ["POP_QUEUE", "e"])] =
      answers engineStep beforeRestart [(20, .command ["SEAT_STATUS", "e", "s"]), (21, .command ["POP_QUEUE", "e"])] := by
  refine ((restart_invisible beforeRestart ?_ 5 20 (by norm_num) [] _ ?_).1 _ (by decide +kernel)).2
  · exact queuesLast_of_entries (by decide +kernel)
  · unfold LoadEntries
    decide +kernel

end Ticketing.Commands
