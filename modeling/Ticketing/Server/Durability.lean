import Ticketing.Server.Shutdown

namespace Ticketing.Server

open Python Commands Protocol Trace Executor
open Storage (Store SnapshotEntry LoadEntries loadSnapshot saveEntries live live_filter lookup_purgeExpiredKeys
  snapshot_keys lookup_restart)

/-! ### Live entries -/

variable {now now' : ℚ} {store store' store'' : Store}

def SameLive (now : ℚ) (store store' : Store) : Prop := ∀ key, live store key now = live store' key now

theorem SameLive.later (h : SameLive now store store') (hle : now ≤ now') : SameLive now' store store' := by
  intro key
  rw [← live_filter hle store, h key, live_filter hle]

theorem SameLive.trans (h : SameLive now store store') (h' : SameLive now store' store'') : SameLive now store store'' :=
  fun key => (h key).trans (h' key)

theorem sameLive_snapshot (store : Store) (now : ℚ) : SameLive now store (Storage.snapshot store now).2 := by
  intro key
  have hlookup : (Storage.snapshot store now).2.lookup key = live store key now := lookup_purgeExpiredKeys store now key
  unfold live
  rw [hlookup, live_filter (le_refl now)]
  rfl

/-- The command changes no entry that is still live. -/
def Quiet (command : List String) (now : ℚ) (store : Store) : Prop :=
  SameLive now store (handleCommand command now store).2

/-- The entries are what a snapshot of the store gave, as far as it is still live. -/
def Saved (entries : List SnapshotEntry) (now : ℚ) (store : Store) : Prop :=
  ∃ source taken, taken ≤ now ∧ entries = (Storage.snapshot source taken).1 ∧ SameLive now source store

theorem Saved.move {entries : List SnapshotEntry} (h : Saved entries now store) (hle : now ≤ now')
    (hlive : SameLive now' store store') : Saved entries now' store' := by
  obtain ⟨source, taken, htaken, hentries, hsame⟩ := h
  exact ⟨source, taken, htaken.trans hle, hentries, (hsame.later hle).trans hlive⟩

theorem Saved.save {table entries : List SnapshotEntry} (h : Saved entries now store) :
    (saveEntries table entries).2 = entries := by
  obtain ⟨source, taken, -, rfl, -⟩ := h
  rw [saveEntries, if_pos (snapshot_keys source taken)]

theorem Saved.load {table rows : List SnapshotEntry} (h : Saved table now store) (hrows : LoadEntries table rows)
    (hle : now ≤ now') (key : String) : (loadSnapshot rows now').lookup key = live store key now' := by
  obtain ⟨source, taken, htaken, rfl, hsame⟩ := h
  rw [lookup_restart hrows (htaken.trans hle), (hsame.later hle) key]

namespace MiniRedisServer

variable {ι : Type} [DecidableEq ι] {x y : MiniRedisServer ι} {init : Store}

/-! ### Sheltered runs -/

def storage (x : MiniRedisServer ι) : Store := x.clients.executor.storage

def log (x : MiniRedisServer ι) : List (Access ι ℚ) := x.clients.executor.log

/-- The store as it was after the last command whose success reply has been sent. -/
def acknowledged (init : Store) (x : MiniRedisServer ι) : Store :=
  storageAfter engineService init (x.log.take x.acked)

/-- No command after the last acknowledged one has changed an entry that is still live. -/
def NothingPending (init : Store) (x : MiniRedisServer ι) : Prop :=
  ∀ n, x.acked ≤ n → SameLive x.now (storageAfter engineService init (x.log.take n)) x.storage

/-- The clock does not go back; no command changes a live entry once the final snapshot has been taken;
the snapshot thread saves nothing older after the final save, which does not fail; and nothing
unacknowledged is left when `serve_forever` returns. -/
def Sheltered (init : Store) (x : MiniRedisServer ι) (turn : Turn ι) : Prop :=
  x.now ≤ (x.step turn).now ∧ match turn with
    | .client (.work time) => x.main.pastSnapshot = true → ∀ i command,
        x.clients.executor.worker = .holding i command → Quiet command time x.storage
    | .flusher _ succeeds => x.main.pastSave = true → succeeds = true → ∀ entries late,
        x.flusher = .holding entries late → late = true
    | .main _ succeeds =>
      (∀ entries, x.main = .holding entries → succeeds = true) ∧ (x.main = .stopped → NothingPending init x)
    | _ => True

/-- What every sheltered run keeps. -/
structure SavesCurrent (init : Store) (x : MiniRedisServer ι) : Prop where
  coherent : Coherent engineService init x.clients.executor
  holding : ∀ entries, x.main = .holding entries → Saved entries x.now x.storage
  late : ∀ entries, x.flusher = .holding entries true → x.main.pastSnapshot = true ∧ Saved entries x.now x.storage
  table : x.main.pastSave = true → Saved x.table x.now x.storage
  nothingPending : x.main = .returned → NothingPending init x

theorem pastSnapshot_of_pastSave {main : Main} (h : main.pastSave = true) : main.pastSnapshot = true := by
  cases main <;> first | rfl | cases h

/-- The executor runs one access at most, and changes no live entry after the final snapshot. -/
theorem SavesCurrent.move (h : SavesCurrent init x) (hcoherent : Coherent engineService init y.clients.executor)
    (hmain : y.main = x.main) (hflusher : y.flusher = x.flusher) (htable : y.table = x.table) (hnow : x.now ≤ y.now)
    (hacked : x.acked ≤ y.acked) (hlog : y.log = x.log ∨ ∃ a, y.log = x.log ++ [a])
    (hlive : x.main.pastSnapshot = true → SameLive y.now x.storage y.storage) : SavesCurrent init y where
  coherent := hcoherent
  holding entries hm := by
    rw [hmain] at hm
    exact (h.holding entries hm).move hnow (hlive (by rw [hm]; rfl))
  late entries hf := by
    rw [hflusher] at hf
    obtain ⟨hpast, hsaved⟩ := h.late entries hf
    rw [hmain]
    exact ⟨hpast, hsaved.move hnow (hlive hpast)⟩
  table hpast := by
    rw [hmain] at hpast
    rw [htable]
    exact (h.table hpast).move hnow (hlive (pastSnapshot_of_pastSave hpast))
  nothingPending hm := by
    rw [hmain] at hm
    have hsame := hlive (by rw [hm]; rfl)
    intro n hn
    have hold := ((h.nothingPending hm n (hacked.trans hn)).later hnow).trans hsame
    rcases hlog with hlog | ⟨a, hlog⟩
    · rwa [hlog]
    · by_cases hle : n ≤ x.log.length
      · rwa [hlog, List.take_append_of_le_length hle]
      · have htake : y.log.take n = y.log := by
          rw [List.take_of_length_le]
          rw [hlog, List.length_append, List.length_singleton]
          omega
        rw [htake]
        have heq : y.storage = storageAfter engineService init y.log := hcoherent.storage
        rw [← heq]
        exact fun key => rfl

/-! ### Client turns -/

theorem client_coherent {c : Clients ι Store ℚ} (h : Coherent engineService init c.executor) (turn : Clients.Turn ι ℚ) :
    Coherent engineService init (c.step engineService turn).executor := by
  cases turn with
  | look i =>
      show Coherent engineService init (c.look i).executor
      unfold Clients.look
      split <;> exact h
  | recv i =>
      show Coherent engineService init (c.recv i).executor
      unfold Clients.recv
      split
      · exact h
      · split <;> exact h
      · exact h
  | reset i =>
      show Coherent engineService init (c.reset i).executor
      unfold Clients.reset
      split <;> exact h
  | parse i =>
      show Coherent engineService init (c.parse i).executor
      unfold Clients.parse
      split
      · split
        · exact h
        · split
          · exact h
          · exact h
          · exact h.call i _
      · exact h
  | put i => exact h.put i
  | reply i =>
      show Coherent engineService init (c.reply i).executor
      unfold Clients.reply
      split
      · exact h.take i
      · exact h
  | work time => exact h.work time
  | snapshot time => exact h.snapshot time

/-- Only the worker and the snapshots touch the storage. -/
theorem client_storage (c : Clients ι Store ℚ) {turn : Clients.Turn ι ℚ} (hturn : clientTime turn = none) :
    (c.step engineService turn).executor.storage = c.executor.storage ∧
      (c.step engineService turn).executor.log = c.executor.log := by
  cases turn with
  | look i =>
      show (c.look i).executor.storage = _ ∧ (c.look i).executor.log = _
      unfold Clients.look
      split <;> exact ⟨rfl, rfl⟩
  | recv i =>
      show (c.recv i).executor.storage = _ ∧ (c.recv i).executor.log = _
      unfold Clients.recv
      split
      · exact ⟨rfl, rfl⟩
      · split <;> exact ⟨rfl, rfl⟩
      · exact ⟨rfl, rfl⟩
  | reset i =>
      show (c.reset i).executor.storage = _ ∧ (c.reset i).executor.log = _
      unfold Clients.reset
      split <;> exact ⟨rfl, rfl⟩
  | parse i =>
      show (c.parse i).executor.storage = _ ∧ (c.parse i).executor.log = _
      unfold Clients.parse
      split
      · split
        · exact ⟨rfl, rfl⟩
        · split
          · exact ⟨rfl, rfl⟩
          · exact ⟨rfl, rfl⟩
          · dsimp only
            unfold Executor.call
            split <;> exact ⟨rfl, rfl⟩
      · exact ⟨rfl, rfl⟩
  | put i =>
      show (c.executor.put i).storage = _ ∧ (c.executor.put i).log = _
      unfold Executor.put
      split <;> exact ⟨rfl, rfl⟩
  | reply i =>
      show (c.reply i).executor.storage = _ ∧ (c.reply i).executor.log = _
      unfold Clients.reply
      split
      · dsimp only
        unfold Executor.take
        split <;> exact ⟨rfl, rfl⟩
      · exact ⟨rfl, rfl⟩
  | work time => cases hturn
  | snapshot time => cases hturn

theorem acked_le (x : MiniRedisServer ι) (turn : Clients.Turn ι ℚ) : x.acked ≤ x.ackedAfter turn := by
  unfold ackedAfter
  split
  · split
    · split
      · exact Nat.le_max_left _ _
      · exact Nat.le_refl _
    · exact Nat.le_refl _
  · exact Nat.le_refl _

/-- What the worker's next step does to the storage and the log. -/
theorem work_storage (e : Executor ι Store ℚ) (time : ℚ) :
    ((e.work engineService time).storage = e.storage ∧ (e.work engineService time).log = e.log) ∨
      ∃ i command, e.worker = .holding i command ∧
        (e.work engineService time).storage = (handleCommand command time e.storage).2 ∧
        (e.work engineService time).log = e.log ++ [.ran i command time] := by
  unfold Executor.work
  split
  next => split <;> exact .inl ⟨rfl, rfl⟩
  next i command hholding => exact .inr ⟨i, command, hholding, rfl, rfl⟩
  next => exact .inl ⟨rfl, rfl⟩

theorem SavesCurrent.client (h : SavesCurrent init x) {turn : Clients.Turn ι ℚ} (hs : Sheltered init x (.client turn)) :
    SavesCurrent init (x.step (.client turn)) := by
  obtain ⟨hnow, hs⟩ := hs
  have hcoherent : Coherent engineService init (x.step (.client turn)).clients.executor :=
    client_coherent h.coherent turn
  have hidle (hturn : clientTime turn = none) : SavesCurrent init (x.step (.client turn)) := by
    obtain ⟨hstorage, hlog⟩ := client_storage x.clients hturn
    have hstorage : (x.step (.client turn)).storage = x.storage := hstorage
    refine h.move hcoherent rfl rfl rfl hnow (acked_le x turn) (.inl hlog) fun _ => ?_
    rw [hstorage]
    exact fun _ => rfl
  cases turn with
  | work time =>
      rcases work_storage x.clients.executor time with ⟨hstorage, hlog⟩ | ⟨i, command, hholding, hstorage, hlog⟩
      · have hstorage : (x.step (.client (.work time))).storage = x.storage := hstorage
        refine h.move hcoherent rfl rfl rfl hnow (acked_le x (.work time)) (.inl hlog) fun _ => ?_
        rw [hstorage]
        exact fun _ => rfl
      · have hstorage : (x.step (.client (.work time))).storage = (handleCommand command time x.storage).2 := hstorage
        refine h.move hcoherent rfl rfl rfl hnow (acked_le x (.work time)) (.inr ⟨_, hlog⟩) fun hpast => ?_
        rw [hstorage]
        exact hs hpast i command hholding
  | snapshot time =>
      exact h.move hcoherent rfl rfl rfl hnow (acked_le x (.snapshot time)) (.inr ⟨_, rfl⟩) fun _ =>
        sameLive_snapshot x.storage time
  | look i => exact hidle rfl
  | recv i => exact hidle rfl
  | reset i => exact hidle rfl
  | parse i => exact hidle rfl
  | put i => exact hidle rfl
  | reply i => exact hidle rfl

/-! ### The snapshot thread and `serve_forever` -/

theorem SavesCurrent.snapshot (h : SavesCurrent init x) {time : ℚ} (hle : x.now ≤ time) :
    SavesCurrent init { x with clients := (x.snapshot time).2, now := time } ∧
      Saved (x.snapshot time).1 time (x.snapshot time).2.executor.storage :=
  ⟨h.move (y := { x with clients := (x.snapshot time).2, now := time }) (h.coherent.snapshot time) rfl rfl rfl hle
      (Nat.le_refl _) (.inr ⟨_, rfl⟩) fun _ => sameLive_snapshot x.storage time,
    x.storage, time, le_refl time, rfl, sameLive_snapshot x.storage time⟩

theorem SavesCurrent.flusherStep (h : SavesCurrent init x) {time : ℚ} {succeeds : Bool}
    (hs : Sheltered init x (.flusher time succeeds)) : SavesCurrent init (x.flusherStep time succeeds) := by
  obtain ⟨hnow, hs⟩ := hs
  have hnow : x.now ≤ (x.flusherStep time succeeds).now := hnow
  unfold MiniRedisServer.flusherStep at hnow ⊢
  cases hf : x.flusher with
  | waiting =>
      refine ⟨h.coherent, h.holding, fun entries hentries => ?_, h.table, h.nothingPending⟩
      dsimp only at hentries
      split at hentries <;> cases hentries
  | flushing =>
      rw [hf] at hnow
      obtain ⟨hkept, hsaved⟩ := h.snapshot hnow
      refine ⟨hkept.coherent, hkept.holding, fun entries hentries => ?_, hkept.table, hkept.nothingPending⟩
      obtain ⟨rfl, hpast⟩ := Flusher.holding.inj hentries
      exact ⟨hpast, hsaved⟩
  | holding entries late =>
      refine ⟨h.coherent, h.holding, nofun, fun hpast => ?_, h.nothingPending⟩
      show Saved (x.save entries succeeds) x.now x.storage
      unfold save
      split
      next hsucceeds =>
        obtain rfl := hs hpast hsucceeds entries late hf
        have hsaved := (h.late entries hf).2
        rwa [hsaved.save]
      next => exact h.table hpast
  | ended => exact h

omit [DecidableEq ι] in
theorem halt_storage (e : Executor ι Store ℚ) : e.halt.storage = e.storage ∧ e.halt.log = e.log := by
  unfold Executor.halt
  split <;> exact ⟨rfl, rfl⟩

/-- A step of `stop` touches no entry. -/
theorem SavesCurrent.halt (h : SavesCurrent init x) :
    SavesCurrent init { x with clients := { x.clients with executor := x.clients.executor.halt } } := by
  obtain ⟨hstorage, hlog⟩ := halt_storage x.clients.executor
  refine h.move (y := { x with clients := { x.clients with executor := x.clients.executor.halt } }) h.coherent.halt rfl
    rfl rfl (le_refl _) (Nat.le_refl _) (.inl hlog) fun _ key => ?_
  exact congrArg (live · key x.now) hstorage.symm

/-- `serve_forever` comes to a place where it holds no entries and has not returned. -/
theorem SavesCurrent.reach (h : SavesCurrent init x) {main : Main}
    (hpast : x.main.pastSnapshot = true → main.pastSnapshot = true)
    (hsave : main.pastSave = true → x.main.pastSave = true) (hholding : ∀ entries, main ≠ .holding entries)
    (hreturned : main = .returned → NothingPending init x) : SavesCurrent init { x with main := main } :=
  ⟨h.coherent, fun entries hm => absurd hm (hholding entries),
    fun entries hf => ⟨hpast (h.late entries hf).1, (h.late entries hf).2⟩, fun hm => h.table (hsave hm), hreturned⟩

theorem SavesCurrent.mainStep (h : SavesCurrent init x) {time : ℚ} {succeeds : Bool}
    (hs : Sheltered init x (.main time succeeds)) :
    SavesCurrent init (x.mainStep time succeeds) := by
  obtain ⟨hnow, hsucceeds, hpending⟩ := hs
  have hnow : x.now ≤ (x.mainStep time succeeds).now := hnow
  unfold MiniRedisServer.mainStep at hnow ⊢
  cases hm : x.main with
  | serving =>
      refine ⟨h.coherent, nofun, fun entries hf => ?_, nofun, nofun⟩
      have hpast := (h.late entries hf).1
      rw [hm] at hpast
      cases hpast
  | joining =>
      rw [hm] at hnow
      obtain ⟨hkept, hsaved⟩ := h.snapshot hnow
      refine ⟨hkept.coherent, fun entries hentries => ?_, fun entries hf => ⟨rfl, (hkept.late entries hf).2⟩, nofun, nofun⟩
      obtain rfl := Main.holding.inj hentries
      exact hsaved
  | holding entries =>
      have hsaved := h.holding entries hm
      refine ⟨h.coherent, nofun, fun entries hf => ⟨rfl, (h.late entries hf).2⟩, fun _ => ?_, nofun⟩
      show Saved (x.save entries succeeds) x.now x.storage
      rwa [save, if_pos (hsucceeds entries hm), hsaved.save]
  | flushed =>
      exact h.halt.reach (fun _ => rfl) (fun _ => by rw [hm]; rfl) nofun nofun
  | stopping =>
      exact h.halt.reach (fun _ => rfl) (fun _ => by rw [hm]; rfl) nofun nofun
  | stopped => exact h.reach (fun _ => rfl) (fun _ => by rw [hm]; rfl) nofun fun _ => hpending hm
  | returned => exact h

theorem SavesCurrent.step (h : SavesCurrent init x) {turn : Turn ι} (hs : Sheltered init x turn) :
    SavesCurrent init (x.step turn) := by
  cases turn with
  | client turn => exact h.client hs
  | shutdown => exact ⟨h.coherent, h.holding, h.late, h.table, h.nothingPending⟩
  | flusher time succeeds => exact h.flusherStep hs
  | main time succeeds => exact h.mainStep hs

/-! ### Runs -/

theorem savesCurrent_start (rows : List SnapshotEntry) (now : ℚ) (chunks : ι → List (List UInt8)) :
    SavesCurrent (loadSnapshot rows now) (start rows now chunks) where
  coherent := coherent_start engineService (loadSnapshot rows now)
  holding _ := nofun
  late _ := nofun
  table := nofun
  nothingPending := nofun

/-- The table keeps what has been acknowledged. -/
def Durable (init : Store) (x : MiniRedisServer ι) : Prop :=
  ∀ rows later, LoadEntries x.table rows → x.now ≤ later → ∀ key,
    (loadSnapshot rows later).lookup key = live (x.acknowledged init) key later

/-- In a sheltered run, what is loaded once `serve_forever` has returned is what is still live of the
store as it was after the last command whose success reply has been sent. -/
theorem returned_durable (saved : List SnapshotEntry) (now : ℚ) (chunks : ι → List (List UInt8)) {turns : List (Turn ι)}
    (h : Along step (Sheltered (loadSnapshot saved now)) (start saved now chunks) turns)
    (hx : turns.foldl step (start saved now chunks) = x) (hreturned : x.main = .returned) :
    Durable (loadSnapshot saved now) x := by
  have hkept : SavesCurrent (loadSnapshot saved now) x := hx ▸ h.invariant
    (fun x turn hs hx => hx.step hs) (savesCurrent_start saved now chunks)
  intro rows later hrows hle key
  have htable := hkept.table (by rw [hreturned]; rfl)
  rw [htable.load hrows hle, ← ((hkept.nothingPending hreturned x.acked (Nat.le_refl _)).later hle) key]
  rfl

/-- A connection that sends SET k v, on an empty table. -/
def oneWrite : MiniRedisServer Unit :=
  start [] 0 fun _ => [Utf8.encode "*3\r\n$3\r\nSET\r\n$1\r\nk\r\n$1\r\nv\r\n"]

/-- Its reply is sent before the shutdown. -/
def earlyWrite : List (Turn Unit) :=
  [.client (.look ()), .client (.recv ()), .client (.parse ()), .client (.put ()), .client (.work 1), .client (.work 1),
    .client (.reply ()), .shutdown, .main 1 true, .main 2 true, .main 2 true, .main 2 true, .main 2 true, .main 2 true]

theorem earlyWrite_nothingPending : NothingPending ∅ ((earlyWrite.take 13).foldl step oneWrite) := by
  intro n hn
  have hacked : ((earlyWrite.take 13).foldl step oneWrite).acked = 1 := by decide +kernel
  have hlog : ((earlyWrite.take 13).foldl step oneWrite).log.length = 2 := by decide +kernel
  have hsame : storageAfter engineService ∅ (((earlyWrite.take 13).foldl step oneWrite).log.take n) =
      ((earlyWrite.take 13).foldl step oneWrite).storage := by
    rw [hacked] at hn
    obtain ⟨_ | n, rfl⟩ := Nat.exists_eq_add_of_le' hn
    · exact AList.ext (by decide +kernel)
    · rw [List.take_of_length_le (by omega)]
      exact AList.ext (by decide +kernel)
  rw [hsame]
  exact fun _ => rfl

theorem earlyWrite_sheltered : Along step (Sheltered ∅) oneWrite earlyWrite := by
  have hnow : Along step (fun x turn => x.now ≤ (x.step turn).now) oneWrite earlyWrite := by decide +kernel
  obtain ⟨h0, h1, h2, h3, h4, h5, h6, h7, h8, h9, h10, h11, h12, h13, -⟩ := hnow
  exact ⟨⟨h0, trivial⟩, ⟨h1, trivial⟩, ⟨h2, trivial⟩, ⟨h3, trivial⟩, ⟨h4, nofun⟩, ⟨h5, nofun⟩, ⟨h6, trivial⟩,
    ⟨h7, trivial⟩, ⟨h8, fun _ _ => rfl, nofun⟩, ⟨h9, fun _ _ => rfl, nofun⟩, ⟨h10, fun _ _ => rfl, nofun⟩,
    ⟨h11, fun _ _ => rfl, nofun⟩, ⟨h12, fun _ _ => rfl, nofun⟩,
    ⟨h13, fun _ _ => rfl, fun _ => earlyWrite_nothingPending⟩, trivial⟩

theorem earlyWrite_durable : Durable ∅ (earlyWrite.foldl step oneWrite) :=
  returned_durable [] 0 _ earlyWrite_sheltered rfl rfl

/-- The connection is served between the final snapshot and its save. -/
def lateWrite : List (Turn Unit) :=
  [.client (.look ()), .client (.recv ()), .shutdown, .main 1 true, .main 2 true, .client (.parse ()), .client (.put ()),
    .client (.work 3), .client (.work 3), .client (.reply ()), .main 3 true, .main 3 true, .main 3 true, .main 3 true]

theorem lateWrite_lost : ¬ ∀ turns, Along step (fun x turn => x.now ≤ (x.step turn).now) oneWrite turns →
    (turns.foldl step oneWrite).main = .returned → Durable ∅ (turns.foldl step oneWrite) := by
  intro h
  have hdurable := h lateWrite (by decide +kernel) rfl [] 3 .rfl (by decide +kernel) "k"
  revert hdurable
  decide +kernel

end MiniRedisServer

end Ticketing.Server
