import Ticketing.Server.Durability
import Ticketing.Commands.Records
import Ticketing.Commands.Restart

namespace Ticketing.Server

open Python JsonText Commands Protocol Trace Executor
open Storage (Entry Store SnapshotEntry LoadEntries loadSnapshot saveEntries live live_eq_some live_filter
  lookup_loadSnapshot lookup_restart snapshot_keys lookup_purgeExpiredKeys seatKey queueKey queueKey_ne_seatKey)

/-! ### Queues without deadlines -/

variable {store store' : Store} {now now' boot : ℚ} {entries rows : List SnapshotEntry}

/-- `EXPIRE` leaves the keys of queues alone. -/
def LeavesQueues (command : List String) : Prop :=
  ∀ x ∈ target command, x.name = .expire → ¬ OpensQueue x.key

instance (command : List String) : Decidable (LeavesQueues command) :=
  inferInstanceAs (Decidable (∀ x ∈ target command, _))

theorem queueEntry_lasts {queue : List Str} {entry : Entry} (h : queueEntry queue = some entry) :
    entry.expiresAt = none := by
  rw [queueEntry] at h
  split at h <;> cases h
  rfl

theorem act_lasts {r : Request} {e : String} {x : Option Entry} {entry : Entry} (hkey : r.target.key = queueKey e)
    (hname : r.target.name ≠ .expire) (hx : ∀ y, x = some y → y.expiresAt = none)
    (h : (r.act now x).2 = some entry) : entry.expiresAt = none := by
  cases r with
  | set key value => cases h; rfl
  | get key => exact hx entry h
  | del key => cases h
  | expire key seconds option => exact absurd rfl hname
  | ttl key => exact hx entry h
  | reserveSeat e' s u n => exact absurd hkey.symm (queueKey_ne_seatKey e e' s)
  | confirmSeat e' s u => exact absurd hkey.symm (queueKey_ne_seatKey e e' s)
  | forceConfirmSeat e' s u => exact absurd hkey.symm (queueKey_ne_seatKey e e' s)
  | releaseSeat e' s u => exact absurd hkey.symm (queueKey_ne_seatKey e e' s)
  | seatStatus e' s => exact absurd hkey.symm (queueKey_ne_seatKey e e' s)
  | joinQueue e' u =>
      simp only [Request.act, answering, joinEntry] at h
      split at h
      next => exact hx entry h
      next =>
        split at h
        · exact hx entry h
        · exact queueEntry_lasts h
  | queuePosition e' u => exact hx entry h
  | popQueue e' =>
      simp only [Request.act, answering, popEntry] at h
      split at h
      next => exact hx entry h
      next => exact hx entry h
      next => exact queueEntry_lasts h
  | leaveQueue e' u =>
      simp only [Request.act, answering, leaveEntry] at h
      split at h
      next => exact hx entry h
      next =>
        split at h
        · exact hx entry h
        · exact queueEntry_lasts h
  | peekQueue e' => exact hx entry h

theorem queuesLast_handle {command : List String} (h : QueuesLast store) (hq : LeavesQueues command) (now : ℚ) :
    QueuesLast (handleCommand command now store).2 := by
  unfold handleCommand
  cases hp : parseCommand command with
  | error e => exact h
  | ok r =>
      intro e entry hentry
      by_cases hkey : queueKey e = r.target.key
      · obtain ⟨_, hlookup⟩ := perform_seen (parseCommand_checked hp) now store
        have hname : r.target.name ≠ .expire := fun hname =>
          hq r.target (parseCommand_target hp) hname (hkey ▸ queueKey_opens e)
        rw [hkey, hlookup] at hentry
        refine act_lasts hkey.symm hname (fun y hy => ?_) hentry
        rw [Request.seen, ← hkey] at hy
        split at hy
        · exact h e y hy
        · exact h e y (live_eq_some.mp hy).1
      · rw [perform_lookup_ne r now store hkey] at hentry
        exact h e entry hentry

theorem live_lasting (h : QueuesLast store) (e : String) (now : ℚ) :
    live store (queueKey e) now = store.lookup (queueKey e) := by
  cases hk : store.lookup (queueKey e) with
  | none => rw [live, hk, Option.filter_none]
  | some entry =>
      refine live_eq_some.mpr ⟨hk, fun d hd => ?_⟩
      rw [h e entry hk] at hd
      cases hd

/-- A store of the live entries of one whose queues have no deadlines runs on like it. -/
theorem agree_of_live (h : QueuesLast store) (hlive : ∀ key, store'.lookup key = live store key now) :
    Agree now store' store := by
  refine ⟨fun key => ?_, fun e => ?_⟩
  · rw [live, hlive]
    exact live_filter le_rfl store key
  · rw [loadQueue_eq, loadQueue_eq, hlive, live_lasting h]

theorem agree_trans {store'' : Store} (h : Agree now store store') (h' : Agree now store' store'') :
    Agree now store store'' :=
  ⟨fun key => (h.entries key).trans (h'.entries key), fun e => (h.queues e).trans (h'.queues e)⟩

theorem queuesLast_of_live (h : QueuesLast store) (hlive : ∀ key, store'.lookup key = live store key now) :
    QueuesLast store' := by
  intro e entry hentry
  rw [hlive] at hentry
  exact h e entry (live_eq_some.mp hentry).1

/-! ### Stores that run on alike -/

variable {ι : Type}

def Access.time : Access ι ℚ → ℚ
  | .ran _ _ time => time
  | .snapshot time => time

/-- What is run leaves the deadlines of queues alone. -/
def Access.LeavesQueues : Access ι ℚ → Prop
  | .ran _ command _ => Server.LeavesQueues command
  | .snapshot _ => True

instance (a : Access ι ℚ) : Decidable a.LeavesQueues :=
  match a with
  | .ran _ command _ => inferInstanceAs (Decidable (Server.LeavesQueues command))
  | .snapshot _ => .isTrue trivial

theorem agree_access (h : Agree now store store') (a : Access ι ℚ) (hle : now ≤ a.time) :
    Agree a.time (access engineService store a).2 (access engineService store' a).2 := by
  cases a with
  | ran i command time => exact ((h.later hle).handle command).2
  | snapshot time => exact (h.later hle).snapshot

theorem agree_log {log : List (Access ι ℚ)} (h : Agree now store store')
    (htimes : (now :: log.map Access.time).Pairwise (· ≤ ·)) (hlater : ∀ t ∈ now :: log.map Access.time, t ≤ now') :
    Agree now' (storageAfter engineService store log) (storageAfter engineService store' log) := by
  induction log generalizing now store store' with
  | nil => exact h.later (hlater now (by simp))
  | cons a log ih =>
      obtain ⟨hnow, hrest⟩ := List.pairwise_cons.mp htimes
      refine ih (agree_access h a (hnow _ (by simp))) hrest fun t ht => hlater t ?_
      exact List.mem_cons_of_mem _ ht

theorem queuesLast_log {log : List (Access ι ℚ)} (h : QueuesLast store) (hq : ∀ a ∈ log, a.LeavesQueues) :
    QueuesLast (storageAfter engineService store log) := by
  induction log generalizing store with
  | nil => exact h
  | cons a log ih =>
      refine ih ?_ fun b hb => hq b (by simp [hb])
      have ha := hq a (by simp)
      cases a with
      | ran i command time => exact queuesLast_handle h ha time
      | snapshot time => exact queuesLast_of_live h (lookup_purgeExpiredKeys store time)

/-! ### What a table gives back -/

/-- The entries, each key once, give the live entries of a store back at every later time. -/
structure Restores (entries : List SnapshotEntry) (now : ℚ) (store : Store) : Prop where
  keys : (entries.map SnapshotEntry.key).Nodup
  lookup : ∀ rows later, LoadEntries entries rows → now ≤ later → ∀ key,
    (loadSnapshot rows later).lookup key = live store key later

theorem Restores.later (h : Restores entries now store) (hle : now ≤ now') : Restores entries now' store :=
  ⟨h.keys, fun rows later hrows hlater => h.lookup rows later hrows (hle.trans hlater)⟩

theorem restores_snapshot (store : Store) (now : ℚ) : Restores (Storage.snapshot store now).1 now store :=
  ⟨snapshot_keys store now, fun _ _ hrows hle key => lookup_restart hrows hle key⟩

theorem restores_loaded (hkeys : (rows.map SnapshotEntry.key).Nodup) (boot : ℚ) :
    Restores rows boot (loadSnapshot rows boot) := by
  refine ⟨hkeys, fun rows' later hrows hle key => Option.ext fun entry => ?_⟩
  have hkeys' : (rows'.map SnapshotEntry.key).Nodup := (hrows.map _).nodup_iff.mpr hkeys
  rw [lookup_loadSnapshot hkeys', live_eq_some, lookup_loadSnapshot hkeys]
  constructor
  · rintro ⟨e, he, hk, rfl, hlive⟩
    exact ⟨⟨e, hrows.mem_iff.mp he, hk, rfl, fun d hd => hle.trans_lt (hlive d hd)⟩, hlive⟩
  · rintro ⟨⟨e, he, hk, rfl, _⟩, hlive⟩
    exact ⟨e, hrows.mem_iff.mpr he, hk, rfl, hlive⟩

theorem Restores.save {table : List SnapshotEntry} (h : Restores entries now store) :
    (saveEntries table entries).2 = entries := by
  rw [saveEntries, if_pos h.keys]

namespace MiniRedisServer

variable [DecidableEq ι] {x y : MiniRedisServer ι} {init : Store}

/-! ### How much of a life the table has -/

/-- History: of how many of the accesses so far the table, and the snapshots in the hands of the snapshot thread
and of `serve_forever`, are the outcome. -/
structure Marks where
  table : ℕ
  flusher : ℕ
  main : ℕ

def Marks.step (m : Marks) (x : MiniRedisServer ι) : Turn ι → Marks
  | .flusher _ succeeds => match x.flusher with
    | .flushing => { m with flusher := x.log.length }
    | .holding .. => { m with table := if succeeds then m.flusher else m.table }
    | _ => m
  | .main _ succeeds => match x.main with
    | .joining => { m with main := x.log.length }
    | .holding _ => { m with table := if succeeds then m.main else m.table }
    | _ => m
  | _ => m

def markedStep (p : MiniRedisServer ι × Marks) (turn : Turn ι) : MiniRedisServer ι × Marks :=
  (p.1.step turn, p.2.step p.1 turn)

theorem markedStep_fst (turns : List (Turn ι)) (p : MiniRedisServer ι × Marks) :
    (turns.foldl markedStep p).1 = turns.foldl step p.1 := by
  induction turns generalizing p with
  | nil => rfl
  | cons turn turns ih => exact ih (markedStep p turn)

/-- The entries restore the store as it was after the first accesses of the log. -/
def Mirrors (init : Store) (x : MiniRedisServer ι) (entries : List SnapshotEntry) (n : ℕ) : Prop :=
  n ≤ x.log.length ∧ Restores entries x.now (storageAfter engineService init (x.log.take n))

/-- What every run keeps on a clock that does not go back. -/
structure Marked (init : Store) (boot : ℚ) (x : MiniRedisServer ι) (m : Marks) : Prop where
  coherent : Coherent engineService init x.clients.executor
  times : (boot :: x.log.map Access.time).Pairwise (· ≤ ·)
  past : ∀ t ∈ boot :: x.log.map Access.time, t ≤ x.now
  table : Mirrors init x x.table m.table
  flusher : ∀ entries late, x.flusher = .holding entries late → Mirrors init x entries m.flusher
  main : ∀ entries, x.main = .holding entries → Mirrors init x entries m.main

omit [DecidableEq ι] in
theorem Mirrors.move {n : ℕ} (h : Mirrors init x entries n) (hnow : x.now ≤ y.now)
    (hlog : y.log = x.log ∨ ∃ a, y.log = x.log ++ [a] ∧ a.time = y.now) : Mirrors init y entries n := by
  obtain ⟨hle, hrestores⟩ := h
  rcases hlog with hlog | ⟨a, hlog, _⟩
  · rw [Mirrors, hlog]
    exact ⟨hle, hrestores.later hnow⟩
  · rw [Mirrors, hlog, List.take_append_of_le_length hle, List.length_append]
    exact ⟨hle.trans (Nat.le_add_right _ _), hrestores.later hnow⟩

/-- The log grows by one access at most. -/
theorem Marked.move {m : Marks} (h : Marked init boot x m) (hcoherent : Coherent engineService init y.clients.executor)
    (hmain : y.main = x.main) (hflusher : y.flusher = x.flusher) (htable : y.table = x.table) (hnow : x.now ≤ y.now)
    (hlog : y.log = x.log ∨ ∃ a, y.log = x.log ++ [a] ∧ a.time = y.now) : Marked init boot y m where
  coherent := hcoherent
  times := by
    rcases hlog with hlog | ⟨a, hlog, ha⟩
    · rw [hlog]
      exact h.times
    · rw [hlog, List.map_append, ← List.cons_append]
      refine List.pairwise_append.mpr ⟨h.times, by simp, fun t ht u hu => ?_⟩
      rw [List.map_singleton, List.mem_singleton] at hu
      rw [hu, ha]
      exact (h.past t ht).trans hnow
  past t ht := by
    rcases hlog with hlog | ⟨a, hlog, ha⟩
    · rw [hlog] at ht
      exact (h.past t ht).trans hnow
    · rw [hlog, List.map_append, ← List.cons_append, List.mem_append] at ht
      rcases ht with ht | ht
      · exact (h.past t ht).trans hnow
      · rw [List.map_singleton, List.mem_singleton] at ht
        rw [ht, ha]
  table := by
    rw [htable]
    exact h.table.move hnow hlog
  flusher entries late hf := by
    rw [hflusher] at hf
    exact (h.flusher entries late hf).move hnow hlog
  main entries hm := by
    rw [hmain] at hm
    exact (h.main entries hm).move hnow hlog

/-! ### Steps -/

theorem Marked.client {m : Marks} (h : Marked init boot x m) {turn : Clients.Turn ι ℚ}
    (hnow : x.now ≤ (x.step (.client turn)).now) : Marked init boot (x.step (.client turn)) m := by
  have hcoherent : Coherent engineService init (x.step (.client turn)).clients.executor :=
    client_coherent h.coherent turn
  have hidle (hturn : clientTime turn = none) : Marked init boot (x.step (.client turn)) m :=
    h.move hcoherent rfl rfl rfl hnow (.inl (client_storage x.clients hturn).2)
  cases turn with
  | work time =>
      rcases work_storage x.clients.executor time with ⟨_, hlog⟩ | ⟨i, command, _, _, hlog⟩
      · exact h.move hcoherent rfl rfl rfl hnow (.inl hlog)
      · exact h.move hcoherent rfl rfl rfl hnow (.inr ⟨_, hlog, rfl⟩)
  | snapshot time => exact h.move hcoherent rfl rfl rfl hnow (.inr ⟨_, rfl, rfl⟩)
  | look i => exact hidle rfl
  | recv i => exact hidle rfl
  | reset i => exact hidle rfl
  | parse i => exact hidle rfl
  | put i => exact hidle rfl
  | reply i => exact hidle rfl

/-- A snapshot is that of the whole log. -/
theorem Marked.snapshot {m : Marks} (h : Marked init boot x m) {time : ℚ} (hnow : x.now ≤ time) :
    Marked init boot { x with clients := (x.snapshot time).2, now := time } m ∧
      Mirrors init { x with clients := (x.snapshot time).2, now := time } (x.snapshot time).1 x.log.length := by
  have hlog : ({ x with clients := (x.snapshot time).2, now := time } : MiniRedisServer ι).log =
      x.log ++ [.snapshot time] := rfl
  refine ⟨h.move (h.coherent.snapshot time) rfl rfl rfl hnow (.inr ⟨_, hlog, rfl⟩), ?_, ?_⟩
  · rw [hlog, List.length_append]
    exact Nat.le_add_right _ _
  · rw [hlog, List.take_left]
    have hstorage : x.storage = storageAfter engineService init x.log := h.coherent.storage
    rw [← hstorage]
    exact restores_snapshot x.storage time

omit [DecidableEq ι] in
theorem Mirrors.saved {n m : ℕ} (h : Mirrors init x entries n) (htable : Mirrors init x x.table m) (succeeds : Bool) :
    Mirrors init x (x.save entries succeeds) (if succeeds then n else m) := by
  unfold MiniRedisServer.save
  split
  · rwa [h.2.save]
  · exact htable

theorem Marked.flusherStep {m : Marks} (h : Marked init boot x m) {time : ℚ} {succeeds : Bool}
    (hnow : x.now ≤ (x.step (.flusher time succeeds)).now) :
    Marked init boot (x.step (.flusher time succeeds)) (m.step x (.flusher time succeeds)) := by
  simp only [MiniRedisServer.step, MiniRedisServer.flusherStep, Marks.step] at hnow ⊢
  cases hf : x.flusher with
  | waiting =>
      refine ⟨h.coherent, h.times, h.past, h.table, fun entries late hentries => ?_, h.main⟩
      dsimp only at hentries
      split at hentries <;> cases hentries
  | flushing =>
      rw [hf] at hnow
      obtain ⟨hmarked, hmirrors⟩ := h.snapshot hnow
      refine ⟨hmarked.coherent, hmarked.times, hmarked.past, hmarked.table, fun entries late hentries => ?_, hmarked.main⟩
      obtain ⟨rfl, _⟩ := Flusher.holding.inj hentries
      exact hmirrors
  | holding entries late =>
      exact ⟨h.coherent, h.times, h.past, (h.flusher entries late hf).saved h.table succeeds, nofun, h.main⟩
  | ended => exact h

theorem Marked.mainStep {m : Marks} (h : Marked init boot x m) {time : ℚ} {succeeds : Bool}
    (hnow : x.now ≤ (x.step (.main time succeeds)).now) :
    Marked init boot (x.step (.main time succeeds)) (m.step x (.main time succeeds)) := by
  have hhalt (main : Main) (hholding : ∀ entries, main ≠ .holding entries) : Marked init boot
      { x with main := main, clients := { x.clients with executor := x.clients.executor.halt } } m := by
    have hmoved : Marked init boot { x with clients := { x.clients with executor := x.clients.executor.halt } } m :=
      h.move h.coherent.halt rfl rfl rfl le_rfl (.inl (halt_storage x.clients.executor).2)
    exact ⟨hmoved.coherent, hmoved.times, hmoved.past, hmoved.table, hmoved.flusher,
      fun entries hentries => absurd hentries (hholding entries)⟩
  simp only [MiniRedisServer.step, MiniRedisServer.mainStep, Marks.step] at hnow ⊢
  cases hm : x.main with
  | serving => exact ⟨h.coherent, h.times, h.past, h.table, h.flusher, nofun⟩
  | joining =>
      rw [hm] at hnow
      obtain ⟨hmarked, hmirrors⟩ := h.snapshot hnow
      refine ⟨hmarked.coherent, hmarked.times, hmarked.past, hmarked.table, hmarked.flusher, fun entries hentries => ?_⟩
      obtain rfl := Main.holding.inj hentries
      exact hmirrors
  | holding entries =>
      exact ⟨h.coherent, h.times, h.past, (h.main entries hm).saved h.table succeeds, h.flusher, nofun⟩
  | flushed => exact hhalt .stopping nofun
  | stopping => exact hhalt .stopped nofun
  | stopped => exact ⟨h.coherent, h.times, h.past, h.table, h.flusher, nofun⟩
  | returned => exact h

/-- The clock does not go back. -/
def Onward (x : MiniRedisServer ι) (turn : Turn ι) : Prop := x.now ≤ (x.step turn).now

theorem Marked.step {m : Marks} (h : Marked init boot x m) {turn : Turn ι} (hnow : Onward x turn) :
    Marked init boot (x.step turn) (m.step x turn) := by
  cases turn with
  | client turn => exact h.client hnow
  | shutdown => exact ⟨h.coherent, h.times, h.past, h.table, h.flusher, h.main⟩
  | flusher time succeeds => exact h.flusherStep hnow
  | main time succeeds => exact h.mainStep hnow

theorem marked_start (hkeys : (rows.map SnapshotEntry.key).Nodup) (boot : ℚ) (chunks : ι → List (List UInt8)) :
    Marked (loadSnapshot rows boot) boot (start rows boot chunks) ⟨0, 0, 0⟩ where
  coherent := coherent_start engineService (loadSnapshot rows boot)
  times := by simp [log, start, Clients.start, Executor.start]
  past t ht := by
    rw [List.mem_singleton.mp ht]
    exact le_rfl
  table := ⟨Nat.zero_le _, restores_loaded hkeys boot⟩
  flusher _ _ := nofun
  main _ := nofun

theorem Marked.run {m : Marks} (h : Marked init boot x m) {turns : List (Turn ι)}
    (hnow : Along MiniRedisServer.step Onward x turns) :
    Marked init boot (turns.foldl markedStep (x, m)).1 (turns.foldl markedStep (x, m)).2 := by
  induction turns generalizing x m with
  | nil => exact h
  | cons turn turns ih => exact ih (h.step hnow.1) hnow.2

/-! ### Crashes -/

/-- One life of the server: the rows that it loads, when, what its connections send, and its turns up to the
crash. -/
structure Life (ι : Type) where
  rows : List SnapshotEntry
  boot : ℚ
  chunks : ι → List (List UInt8)
  turns : List (Turn ι)

namespace Life

def first (l : Life ι) : MiniRedisServer ι := start l.rows l.boot l.chunks

def marked (l : Life ι) : MiniRedisServer ι × Marks := l.turns.foldl markedStep (l.first, ⟨0, 0, 0⟩)

def crashed (l : Life ι) : MiniRedisServer ι := l.marked.1

/-- The accesses of the life that the table is the outcome of. -/
def survived (l : Life ι) : List (Access ι ℚ) := l.crashed.log.take l.marked.2.table

end Life

/-- Each life loads what the one before has left. -/
def Follow : List SnapshotEntry → ℚ → List (Life ι) → Prop
  | _, _, [] => True
  | table, now, l :: lives => LoadEntries table l.rows ∧ now ≤ l.boot ∧ Along step Onward l.first l.turns ∧
      Follow l.crashed.table l.crashed.now lives

def lastTable (table : List SnapshotEntry) (lives : List (Life ι)) : List SnapshotEntry :=
  lives.foldl (fun _ l => l.crashed.table) table

def lastTime (now : ℚ) (lives : List (Life ι)) : ℚ := lives.foldl (fun _ l => l.crashed.now) now

/-- The table stands for a store on which no queue has a deadline: what is loaded from it runs on like it. -/
structure StandsFor (table : List SnapshotEntry) (now : ℚ) (store : Store) : Prop where
  keys : (table.map SnapshotEntry.key).Nodup
  agree : ∀ rows later, LoadEntries table rows → now ≤ later → Agree later (loadSnapshot rows later) store
  queues : ∀ rows later, LoadEntries table rows → now ≤ later → QueuesLast (loadSnapshot rows later)

theorem standsFor_empty (now : ℚ) : StandsFor [] now ∅ := by
  have hload {rows : List SnapshotEntry} (hrows : LoadEntries [] rows) (later : ℚ) : loadSnapshot rows later = ∅ := by
    rw [List.perm_nil.mp hrows]
    rfl
  refine ⟨List.nodup_nil, fun rows later hrows _ => ?_, fun rows later hrows _ => ?_⟩
  · rw [hload hrows]
    exact ⟨fun _ => rfl, fun _ => rfl⟩
  · rw [hload hrows]
    exact fun e entry hentry => by cases hentry

/-- One life: its table stands for the store that runs on with what has survived. -/
theorem StandsFor.life {table : List SnapshotEntry} {l : Life ι} (h : StandsFor table now store)
    (hrows : LoadEntries table l.rows) (hboot : now ≤ l.boot) (hturns : Along step Onward l.first l.turns)
    (hq : ∀ a ∈ l.survived, a.LeavesQueues) :
    StandsFor l.crashed.table l.crashed.now (storageAfter engineService store l.survived) := by
  have hkeys : (l.rows.map SnapshotEntry.key).Nodup := (hrows.map _).nodup_iff.mpr h.keys
  have hmarked : Marked (loadSnapshot l.rows l.boot) l.boot l.crashed l.marked.2 :=
    (marked_start hkeys l.boot l.chunks).run hturns
  obtain ⟨_, hrestores⟩ := hmarked.table
  have hlasts : QueuesLast (storageAfter engineService (loadSnapshot l.rows l.boot) l.survived) :=
    queuesLast_log (h.queues l.rows l.boot hrows hboot) hq
  have htimes : (l.boot :: l.survived.map Access.time).Sublist (l.boot :: l.crashed.log.map Access.time) :=
    ((List.take_sublist _ _).map _).cons_cons _
  refine ⟨hrestores.keys, fun rows later hrows' hle => ?_, fun rows later hrows' hle => ?_⟩
  · refine agree_trans (agree_of_live hlasts (hrestores.lookup rows later hrows' hle)) ?_
    refine agree_log (h.agree l.rows l.boot hrows hboot) (hmarked.times.sublist htimes) fun t ht => ?_
    exact (hmarked.past t (htimes.mem ht)).trans hle
  · exact queuesLast_of_live hlasts (hrestores.lookup rows later hrows' hle)

theorem StandsFor.lives {table : List SnapshotEntry} {lives : List (Life ι)} (h : StandsFor table now store)
    (hlives : Follow table now lives) (hq : ∀ l ∈ lives, ∀ a ∈ l.survived, a.LeavesQueues) :
    StandsFor (lastTable table lives) (lastTime now lives)
      (storageAfter engineService store (lives.flatMap Life.survived)) := by
  induction lives generalizing table now store with
  | nil => exact h
  | cons l lives ih =>
      obtain ⟨hrows, hboot, hturns, hrest⟩ := hlives
      rw [List.flatMap_cons, storageAfter_append]
      refine ih ?_ hrest fun l' hl' => hq l' (by simp [hl'])
      exact h.life hrows hboot hturns (hq l (by simp))

/-- However often the server crashes, what it loads next runs on as one engine that has run, without a crash, the
surviving part of each life in turn. -/
theorem crashes_invisible {start : ℚ} {lives : List (Life ι)} (hlives : Follow [] start lives)
    (hq : ∀ l ∈ lives, ∀ a ∈ l.survived, a.LeavesQueues) {rows : List SnapshotEntry}
    (hrows : LoadEntries (lastTable [] lives) rows) {boot : ℚ} (hboot : lastTime start lives ≤ boot) :
    (∀ key, (loadSnapshot rows boot).lookup key =
        live (storageAfter engineService ∅ (lives.flatMap Life.survived)) key boot) ∧
      ∀ run : EngineRun, (boot :: run.map Prod.fst).Pairwise (· ≤ ·) →
        answers engineStep (loadSnapshot rows boot) run =
          answers engineStep (storageAfter engineService ∅ (lives.flatMap Life.survived)) run := by
  have h := (standsFor_empty start).lives hlives hq
  have hagree := h.agree rows boot hrows hboot
  refine ⟨fun key => ?_, fun run hrun => hagree.answers hrun⟩
  have hkeys : (rows.map SnapshotEntry.key).Nodup := (hrows.map _).nodup_iff.mpr h.keys
  rw [← hagree.entries key]
  refine Option.ext fun entry => ?_
  rw [live_eq_some]
  exact ⟨fun he => ⟨he, ((lookup_loadSnapshot hkeys boot key entry).mp he).choose_spec.2.2.2⟩, fun he => he.1⟩

/-- A write that the snapshot thread saves, and one that changes its value after the snapshot. -/
def savedWrite : Life Unit where
  rows := []
  boot := 0
  chunks _ := [Utf8.encode "*3\r\n$3\r\nSET\r\n$1\r\nk\r\n$1\r\nv\r\n",
    Utf8.encode "*3\r\n$3\r\nSET\r\n$1\r\nk\r\n$1\r\nw\r\n"]
  turns := earlyWrite.take 7 ++ [.flusher 2 true, .flusher 2 true, .client (.parse ()), .client (.look ()),
    .client (.recv ()), .client (.parse ()), .client (.put ()), .client (.work 3), .client (.work 3), .flusher 3 true]

/-- A life that serves nobody. -/
def idleLife : Life Unit := ⟨[⟨"k", "v", none⟩], 4, fun _ => [], [.flusher 5 true, .flusher 6 true]⟩

theorem savedWrite_follow : Follow [] 0 [savedWrite, idleLife] := by
  unfold Follow Follow Follow LoadEntries Onward
  decide +kernel

theorem savedWrite_recovered :
    answers engineStep (loadSnapshot [⟨"k", "v", none⟩] 7) [(8, .command ["GET", "k"])] =
      answers engineStep (storageAfter engineService ∅ ([savedWrite, idleLife].flatMap Life.survived))
        [(8, .command ["GET", "k"])] := by
  exact (crashes_invisible savedWrite_follow (by decide +kernel) (by unfold LoadEntries; decide +kernel)
    (by decide +kernel)).2 _ (by decide +kernel)

/-! ### What a save is good for -/

theorem client_log (c : Clients ι Store ℚ) (turn : Clients.Turn ι ℚ) :
    c.executor.log <+: (c.step engineService turn).executor.log := by
  have hidle (hturn : clientTime turn = none) : c.executor.log <+: (c.step engineService turn).executor.log :=
    ⟨[], (List.append_nil _).trans (client_storage c hturn).2.symm⟩
  cases turn with
  | work time =>
      rcases work_storage c.executor time with ⟨_, hlog⟩ | ⟨i, command, _, _, hlog⟩
      · exact ⟨[], (List.append_nil _).trans hlog.symm⟩
      · exact ⟨_, hlog.symm⟩
  | snapshot time => exact List.prefix_append _ _
  | look i => exact hidle rfl
  | recv i => exact hidle rfl
  | reset i => exact hidle rfl
  | parse i => exact hidle rfl
  | put i => exact hidle rfl
  | reply i => exact hidle rfl

theorem log_step (x : MiniRedisServer ι) (turn : Turn ι) : x.log <+: (x.step turn).log := by
  cases turn with
  | client turn => exact client_log x.clients turn
  | shutdown => exact List.prefix_refl _
  | flusher time succeeds =>
      simp only [MiniRedisServer.step, MiniRedisServer.flusherStep]
      split
      · exact List.prefix_refl _
      · exact List.prefix_append _ _
      · exact List.prefix_refl _
      · exact List.prefix_refl _
  | main time succeeds =>
      simp only [MiniRedisServer.step, MiniRedisServer.mainStep]
      split
      · exact List.prefix_refl _
      · exact List.prefix_append _ _
      · exact List.prefix_refl _
      · exact ⟨[], (List.append_nil _).trans (halt_storage x.clients.executor).2.symm⟩
      · exact ⟨[], (List.append_nil _).trans (halt_storage x.clients.executor).2.symm⟩
      · exact List.prefix_refl _
      · exact List.prefix_refl _

/-- The table and every snapshot in hand are the outcome of the accesses, and maybe of more. -/
structure Covers (ran : List (Access ι ℚ)) (x : MiniRedisServer ι) (m : Marks) : Prop where
  log : ran <+: x.log
  table : ran.length ≤ m.table
  flusher : ∀ entries late, x.flusher = .holding entries late → ran.length ≤ m.flusher
  main : ∀ entries, x.main = .holding entries → ran.length ≤ m.main

theorem Covers.step {ran : List (Access ι ℚ)} {m : Marks} (h : Covers ran x m) (turn : Turn ι) :
    Covers ran (x.step turn) (m.step x turn) := by
  have hlog : ran <+: (x.step turn).log := h.log.trans (log_step x turn)
  cases turn with
  | client turn => exact ⟨hlog, h.table, h.flusher, h.main⟩
  | shutdown => exact ⟨hlog, h.table, h.flusher, h.main⟩
  | flusher time succeeds =>
      simp only [MiniRedisServer.step, MiniRedisServer.flusherStep, Marks.step] at hlog ⊢
      cases hf : x.flusher with
      | waiting =>
          rw [hf] at hlog
          refine ⟨hlog, h.table, fun entries late hentries => ?_, h.main⟩
          dsimp only at hentries
          split at hentries <;> cases hentries
      | flushing =>
          rw [hf] at hlog
          exact ⟨hlog, h.table, fun _ _ _ => h.log.length_le, h.main⟩
      | holding entries late =>
          rw [hf] at hlog
          refine ⟨hlog, ?_, nofun, h.main⟩
          dsimp only
          split
          · exact h.flusher entries late hf
          · exact h.table
      | ended => exact h
  | main time succeeds =>
      simp only [MiniRedisServer.step, MiniRedisServer.mainStep, Marks.step] at hlog ⊢
      cases hm : x.main with
      | serving => exact ⟨h.log, h.table, h.flusher, nofun⟩
      | joining =>
          rw [hm] at hlog
          exact ⟨hlog, h.table, h.flusher, fun _ _ => h.log.length_le⟩
      | holding entries =>
          rw [hm] at hlog
          refine ⟨hlog, ?_, h.flusher, nofun⟩
          dsimp only
          split
          · exact h.main entries hm
          · exact h.table
      | flushed =>
          rw [hm] at hlog
          exact ⟨hlog, h.table, h.flusher, nofun⟩
      | stopping =>
          rw [hm] at hlog
          exact ⟨hlog, h.table, h.flusher, nofun⟩
      | stopped => exact ⟨h.log, h.table, h.flusher, nofun⟩
      | returned => exact h

theorem Covers.run {ran : List (Access ι ℚ)} {m : Marks} (h : Covers ran x m) (turns : List (Turn ι)) :
    Covers ran (turns.foldl markedStep (x, m)).1 (turns.foldl markedStep (x, m)).2 := by
  induction turns generalizing x m with
  | nil => exact h
  | cons turn turns ih => exact ih (h.step turn)

/-- The snapshot thread holds the outcome of the accesses. -/
structure InHand (ran : List (Access ι ℚ)) (x : MiniRedisServer ι) (m : Marks) : Prop where
  log : ran <+: x.log
  holding : ∃ entries late, x.flusher = .holding entries late
  mark : m.flusher = ran.length

theorem InHand.run {ran : List (Access ι ℚ)} {m : Marks} (h : InHand ran x m) {turns : List (Turn ι)}
    (hturns : ∀ turn ∈ turns, ∀ time succeeds, turn ≠ .flusher time succeeds) :
    InHand ran (turns.foldl markedStep (x, m)).1 (turns.foldl markedStep (x, m)).2 := by
  induction turns generalizing x m with
  | nil => exact h
  | cons turn turns ih =>
      refine ih ?_ fun turn' hturn' => hturns turn' (by simp [hturn'])
      have hlog : ran <+: (x.step turn).log := h.log.trans (log_step x turn)
      cases turn with
      | client turn => exact ⟨hlog, h.holding, h.mark⟩
      | shutdown => exact ⟨hlog, h.holding, h.mark⟩
      | flusher time succeeds => exact absurd rfl (hturns _ (by simp) time succeeds)
      | main time succeeds =>
          refine ⟨hlog, ?_, ?_⟩
          · obtain ⟨entries, late, hf⟩ := h.holding
            refine ⟨entries, late, ?_⟩
            simp only [MiniRedisServer.step, MiniRedisServer.mainStep]
            split <;> exact hf
          · simp only [Marks.step]
            split <;> exact h.mark

/-- Whatever had been executed when the snapshot thread took a snapshot that it has saved, `serve_forever` holding
none, survives every later crash. -/
theorem saved_survives {l : Life ι} (before between after : List (Turn ι)) {time time' : ℚ} {succeeds : Bool}
    (hturns : l.turns = before ++ .flusher time succeeds :: (between ++ .flusher time' true :: after))
    (hflushing : (before.foldl step l.first).flusher = .flushing)
    (hbetween : ∀ turn ∈ between, ∀ time succeeds, turn ≠ .flusher time succeeds)
    (hmain : ∀ entries, ((before ++ .flusher time succeeds :: between).foldl step l.first).main ≠ .holding entries) :
    (before.foldl step l.first).log <+: l.survived := by
  obtain ⟨x, m, hp⟩ : ∃ x m, before.foldl markedStep (l.first, ⟨0, 0, 0⟩) = (x, m) := ⟨_, _, rfl⟩
  have hx : before.foldl step l.first = x := by rw [← markedStep_fst before (l.first, ⟨0, 0, 0⟩), hp]
  rw [hx] at hflushing ⊢
  have htaken : InHand x.log (x.step (.flusher time succeeds)) (m.step x (.flusher time succeeds)) := by
    refine ⟨log_step x _, ?_, ?_⟩
    · simp only [MiniRedisServer.step, MiniRedisServer.flusherStep, hflushing]
      exact ⟨_, _, rfl⟩
    · simp only [Marks.step, hflushing]
  have hheld := htaken.run hbetween
  have hstate : (between.foldl markedStep (x.step (.flusher time succeeds), m.step x (.flusher time succeeds))).1 =
      (before ++ .flusher time succeeds :: between).foldl step l.first := by
    rw [markedStep_fst, List.foldl_append, hx]
    rfl
  rw [← hstate] at hmain
  generalize hy : between.foldl markedStep (x.step (.flusher time succeeds), m.step x (.flusher time succeeds)) = y
    at hheld hmain
  obtain ⟨entries, late, hf⟩ := hheld.holding
  have hcovers : Covers x.log (y.1.step (.flusher time' true)) (y.2.step y.1 (.flusher time' true)) := by
    have hlog := hheld.log.trans (log_step y.1 (.flusher time' true))
    simp only [MiniRedisServer.step, MiniRedisServer.flusherStep, Marks.step, hf] at hlog ⊢
    exact ⟨hlog, hheld.mark.ge, nofun, fun entries hentries => absurd hentries (hmain entries)⟩
  have hend := hcovers.run after
  have hmarked : l.marked =
      after.foldl markedStep (y.1.step (.flusher time' true), y.2.step y.1 (.flusher time' true)) := by
    rw [Life.marked, hturns, List.foldl_append, hp, List.foldl_cons, List.foldl_append, List.foldl_cons]
    show after.foldl markedStep (markedStep (between.foldl markedStep (x.step (.flusher time succeeds),
      m.step x (.flusher time succeeds))) (.flusher time' true)) = _
    rw [hy]
    rfl
  rw [← hmarked] at hend
  obtain ⟨rest, hrest⟩ := hend.log
  rw [Life.survived, Life.crashed, ← hrest, List.take_append, List.take_of_length_le hend.table]
  exact List.prefix_append _ _

theorem savedWrite_survives : ((savedWrite.turns.take 8).foldl step savedWrite.first).log <+: savedWrite.survived := by
  have hserving : ((savedWrite.turns.take 8 ++ .flusher 2 true :: (savedWrite.turns.drop 9).take 7).foldl step
      savedWrite.first).main = .serving := by decide +kernel
  refine saved_survives _ ((savedWrite.turns.drop 9).take 7) [] rfl (by decide +kernel) ?_ fun entries => ?_
  · simp [savedWrite, earlyWrite]
  · rw [hserving]
    exact nofun

end MiniRedisServer

end Ticketing.Server
