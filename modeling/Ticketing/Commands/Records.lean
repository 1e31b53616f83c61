import Ticketing.Commands.QueueRuns
import Ticketing.Storage.Snapshot

namespace Ticketing.Commands

open Python JsonText Storage

/-! ### Stores that the commands have written -/

def OpensSeat (key : String) : Prop := "seat:".toList <+: key.toList

def OpensQueue (key : String) : Prop := "queue:".toList <+: key.toList

instance (key : String) : Decidable (OpensSeat key) := inferInstanceAs (Decidable (_ <+: _))

instance (key : String) : Decidable (OpensQueue key) := inferInstanceAs (Decidable (_ <+: _))

/-- `SET` and `EXPIRE` leave the keys of seats and queues alone. -/
def SparesRecords (command : List String) : Prop :=
  ∀ x ∈ target command, x.name ∈ [.set, .expire] → ¬ OpensSeat x.key ∧ ¬ OpensQueue x.key

instance (command : List String) : Decidable (SparesRecords command) :=
  inferInstanceAs (Decidable (∀ x ∈ target command, _))

/-- The stores of the runs from an empty one, with the snapshots that have been taken on the way, any of which
may be loaded at any time. -/
inductive Reached : List (List SnapshotEntry) → Store → Prop
  | start : Reached [] ∅
  | command {taken store} (h : Reached taken store) (now : ℚ) {tokens : List String} (hs : SparesRecords tokens) :
      Reached taken (handleCommand tokens now store).2
  | snapshot {taken store} (h : Reached taken store) (now : ℚ) :
      Reached ((snapshot store now).1 :: taken) (snapshot store now).2
  | load {taken store} (h : Reached taken store) {entries rows : List SnapshotEntry} (hmem : entries ∈ taken)
      (hrows : LoadEntries entries rows) (now : ℚ) : Reached taken (loadSnapshot rows now)

/-- The commands on seats and on queues. -/
def Request.OnRecord (r : Request) : Prop := r.target.name ∉ [.set, .get, .del, .expire, .ttl]

instance (r : Request) : Decidable r.OnRecord := inferInstanceAs (Decidable (_ ∉ _))

/-- What is kept under a key: under that of a seat a lease, under that of a queue a line. -/
structure RecordUnder (key : String) (x : Option Entry) : Prop where
  seat : OpensSeat key → ∃ l : SeatLease, x = leaseEntry l
  queue : OpensQueue key → ∃ l : Line String, x = queueEntry (l.members.map Str.ofString)

def Intact (store : Store) : Prop := ∀ key, RecordUnder key (store.lookup key)

/-- The rows of a snapshot, each of which may be loaded. -/
structure IntactRows (rows : List SnapshotEntry) : Prop where
  keys : (rows.map SnapshotEntry.key).Nodup
  rows : ∀ row ∈ rows, RecordUnder row.key (some row.entry)

variable {store : Store} {key : String} {x : Option Entry} {now : ℚ} {r : Request}

theorem recordUnder_none (key : String) : RecordUnder key none := ⟨fun _ => ⟨.free, rfl⟩, fun _ => ⟨Line.empty, rfl⟩⟩

theorem RecordUnder.live (h : RecordUnder key x) (now : ℚ) : RecordUnder key (x.filter (fun e => e.Live now)) := by
  cases x with
  | none => exact h
  | some e =>
      by_cases he : e.Live now
      · rwa [Option.filter_some_pos (by simpa using he)]
      · rw [Option.filter_some_neg (by simpa using he)]
        exact recordUnder_none key

theorem not_opensQueue_seatKey (e s : String) : ¬ OpensQueue (seatKey e s) := by
  simp [OpensQueue, seatKey]

theorem not_opensSeat_queueKey (e : String) : ¬ OpensSeat (queueKey e) := by
  simp [OpensSeat, queueKey]

theorem recordUnder_seatKey (e s : String) : RecordUnder (seatKey e s) x ↔ ∃ l : SeatLease, x = leaseEntry l := by
  constructor
  · intro h
    exact h.seat (by simp [OpensSeat, seatKey])
  · intro h
    exact ⟨fun _ => h, fun hq => absurd hq (not_opensQueue_seatKey e s)⟩

theorem recordUnder_queueKey (e : String) :
    RecordUnder (queueKey e) x ↔ ∃ l : Line String, x = queueEntry (l.members.map Str.ofString) := by
  constructor
  · intro h
    exact h.queue (queueKey_opens e)
  · intro h
    exact ⟨fun hs => absurd hs (not_opensSeat_queueKey e), fun _ => h⟩

/-! ### One command -/

theorem reserve_leases (u : String) (n : Int) (now : ℚ) (l : SeatLease) :
    ∃ l' : SeatLease, (reserveEntry u n now (leaseEntry l)).2 = leaseEntry l' := by
  simp only [reserveEntry, readSeat_leaseEntry]
  split
  · cases computeDeadline now n with
    | error e => exact ⟨l, rfl⟩
    | ok d => exact ⟨.held u d, rfl⟩
  · exact ⟨l, rfl⟩

theorem reserve_answers (u : String) {n : Int} (hf : n.natAbs < floatOverflow) (now : ℚ) (l : SeatLease) :
    ∃ result, (reserveEntry u n now (leaseEntry l)).1 = .ok result := by
  have hd : computeDeadline now n = .ok (now + n) := by simp [computeDeadline, toFloat, hf, Except.map]
  simp only [reserveEntry, readSeat_leaseEntry, hd]
  split
  · exact ⟨_, rfl⟩
  · exact ⟨_, rfl⟩

theorem confirm_leases (u : String) (now : ℚ) (l : SeatLease) :
    (∃ result, (confirmEntry u now (leaseEntry l)).1 = .ok result) ∧
      ∃ l' : SeatLease, (confirmEntry u now (leaseEntry l)).2 = leaseEntry l' := by
  simp only [confirmEntry, readSeat_leaseEntry]
  split
  · exact ⟨⟨_, rfl⟩, l, rfl⟩
  split
  · exact ⟨⟨_, rfl⟩, l, rfl⟩
  · exact ⟨⟨_, rfl⟩, .owned u, rfl⟩

theorem release_leases (u : String) (now : ℚ) (l : SeatLease) :
    (∃ result, (releaseEntry u now (leaseEntry l)).1 = .ok result) ∧
      ∃ l' : SeatLease, (releaseEntry u now (leaseEntry l)).2 = leaseEntry l' := by
  simp only [releaseEntry, readSeat_leaseEntry]
  split
  · exact ⟨⟨_, rfl⟩, l, rfl⟩
  · exact ⟨⟨_, rfl⟩, .free, rfl⟩

theorem answering_ok {α : Type} {f : α → CommandResult} {action : EntryAction α}
    (h : ∃ result, (action x).1 = .ok result) : ∃ result, (answering f action x).1 = .ok result := by
  obtain ⟨result, h⟩ := h
  exact ⟨f result, by rw [answering, h]; rfl⟩

theorem act_recordUnder (hx : RecordUnder r.target.key x)
    (hs : r.target.name ∈ [.set, .expire] → ¬ OpensSeat r.target.key ∧ ¬ OpensQueue r.target.key) (now : ℚ) :
    RecordUnder r.target.key (r.act now x).2 := by
  cases r with
  | set key value | expire key seconds option =>
      obtain ⟨hseat, hqueue⟩ := hs (by simp [Request.target])
      exact ⟨fun h => absurd h hseat, fun h => absurd h hqueue⟩
  | get key | ttl key | seatStatus e s | queuePosition e u | peekQueue e => exact hx
  | del key => exact recordUnder_none key
  | reserveSeat e s u n =>
      obtain ⟨l, rfl⟩ := (recordUnder_seatKey e s).mp hx
      exact (recordUnder_seatKey e s).mpr (reserve_leases u n now l)
  | confirmSeat e s u =>
      obtain ⟨l, rfl⟩ := (recordUnder_seatKey e s).mp hx
      exact (recordUnder_seatKey e s).mpr (confirm_leases u now l).2
  | forceConfirmSeat e s u => exact (recordUnder_seatKey e s).mpr ⟨.owned u, rfl⟩
  | releaseSeat e s u =>
      obtain ⟨l, rfl⟩ := (recordUnder_seatKey e s).mp hx
      exact (recordUnder_seatKey e s).mpr (release_leases u now l).2
  | joinQueue e u =>
      obtain ⟨l, rfl⟩ := (recordUnder_queueKey e).mp hx
      exact (recordUnder_queueKey e).mpr ⟨_, congrArg Prod.snd (act_line (r := .joinQueue e u) rfl)⟩
  | popQueue e =>
      obtain ⟨l, rfl⟩ := (recordUnder_queueKey e).mp hx
      exact (recordUnder_queueKey e).mpr ⟨_, congrArg Prod.snd (act_line (r := .popQueue e) rfl)⟩
  | leaveQueue e u =>
      obtain ⟨l, rfl⟩ := (recordUnder_queueKey e).mp hx
      exact (recordUnder_queueKey e).mpr ⟨_, congrArg Prod.snd (act_line (r := .leaveQueue e u) rfl)⟩

theorem act_answers (hx : RecordUnder r.target.key x) (hr : r.OnRecord)
    (hf : ∀ e s u n, r = .reserveSeat e s u n → n.natAbs < floatOverflow) (now : ℚ) :
    ∃ result, (r.act now x).1 = .ok result := by
  cases r with
  | set key value | get key | del key | expire key seconds option | ttl key =>
      exact absurd hr (by simp [Request.OnRecord, Request.target])
  | reserveSeat e s u n =>
      obtain ⟨l, rfl⟩ := (recordUnder_seatKey e s).mp hx
      exact answering_ok (reserve_answers u (hf e s u n rfl) now l)
  | confirmSeat e s u =>
      obtain ⟨l, rfl⟩ := (recordUnder_seatKey e s).mp hx
      exact answering_ok (confirm_leases u now l).1
  | forceConfirmSeat e s u => exact ⟨_, rfl⟩
  | releaseSeat e s u =>
      obtain ⟨l, rfl⟩ := (recordUnder_seatKey e s).mp hx
      exact answering_ok (release_leases u now l).1
  | seatStatus e s =>
      obtain ⟨l, rfl⟩ := (recordUnder_seatKey e s).mp hx
      exact ⟨_, congrArg (Except.map seatStatusResult) (readSeat_leaseEntry l now)⟩
  | joinQueue e u =>
      obtain ⟨l, rfl⟩ := (recordUnder_queueKey e).mp hx
      exact ⟨_, congrArg Prod.fst (act_line (r := .joinQueue e u) rfl)⟩
  | queuePosition e u =>
      obtain ⟨l, rfl⟩ := (recordUnder_queueKey e).mp hx
      exact ⟨_, congrArg Prod.fst (act_line (r := .queuePosition e u) rfl)⟩
  | popQueue e =>
      obtain ⟨l, rfl⟩ := (recordUnder_queueKey e).mp hx
      exact ⟨_, congrArg Prod.fst (act_line (r := .popQueue e) rfl)⟩
  | leaveQueue e u =>
      obtain ⟨l, rfl⟩ := (recordUnder_queueKey e).mp hx
      exact ⟨_, congrArg Prod.fst (act_line (r := .leaveQueue e u) rfl)⟩
  | peekQueue e =>
      obtain ⟨l, rfl⟩ := (recordUnder_queueKey e).mp hx
      exact ⟨_, congrArg Prod.fst (act_line (r := .peekQueue e) rfl)⟩

/-! ### Runs -/

theorem Intact.seen (h : Intact store) (r : Request) (now : ℚ) : RecordUnder r.target.key (r.seen store now) := by
  rw [Request.seen]
  split
  · exact h _
  · exact (h _).live now

theorem Intact.command (h : Intact store) {tokens : List String} (hs : SparesRecords tokens) (now : ℚ) :
    Intact (handleCommand tokens now store).2 := by
  intro key
  cases hp : parseCommand tokens with
  | error e => simpa only [handleCommand, hp] using h key
  | ok r =>
      simp only [handleCommand, hp]
      by_cases hk : key = r.target.key
      · obtain ⟨_, hentry⟩ := perform_seen (parseCommand_checked hp) now store
        rw [hk, hentry]
        exact act_recordUnder (h.seen r now) (hs r.target (parseCommand_target hp)) now
      · rw [perform_lookup_ne r now store hk]
        exact h key

theorem Intact.snapshot (h : Intact store) (now : ℚ) :
    Intact (snapshot store now).2 ∧ IntactRows (snapshot store now).1 := by
  refine ⟨fun key => ?_, snapshot_keys store now, fun row hrow => ?_⟩
  · rw [Storage.snapshot, lookup_purgeExpiredKeys]
    exact (h key).live now
  · rw [← mem_snapshot.mp hrow]
    exact (h row.key).live now

theorem IntactRows.load {entries rows : List SnapshotEntry} (h : IntactRows entries) (hrows : LoadEntries entries rows)
    (now : ℚ) : Intact (loadSnapshot rows now) := by
  intro key
  have hkeys : (rows.map SnapshotEntry.key).Nodup := (hrows.map _).nodup_iff.mpr h.keys
  cases hl : (loadSnapshot rows now).lookup key with
  | none => exact recordUnder_none key
  | some entry =>
      obtain ⟨row, hrow, rfl, rfl, _⟩ := (lookup_loadSnapshot hkeys now key entry).mp hl
      exact h.rows row (hrows.mem_iff.mp hrow)

theorem Reached.intact {taken : List (List SnapshotEntry)} (h : Reached taken store) :
    Intact store ∧ ∀ entries ∈ taken, IntactRows entries := by
  induction h with
  | start => exact ⟨recordUnder_none, fun _ hmem => absurd hmem List.not_mem_nil⟩
  | command _ now hs ih => exact ⟨ih.1.command hs now, ih.2⟩
  | snapshot _ now ih =>
      obtain ⟨hstore, hrows⟩ := ih.1.snapshot now
      exact ⟨hstore, List.forall_mem_cons.mpr ⟨hrows, ih.2⟩⟩
  | load _ hmem hrows now ih => exact ⟨(ih.2 _ hmem).load hrows now, ih.2⟩

/-- What is kept under the keys of seats and queues can be read, so that no command on a seat or on a queue
raises. -/
theorem records_readable {taken : List (List SnapshotEntry)} (h : Reached taken store) :
    (∀ key entry, store.lookup key = some entry →
      (OpensSeat key → ∃ user,
        deserializeSeatRecord entry.value = .ok (seatHeld, some user) ∧ entry.expiresAt ≠ none ∨
          deserializeSeatRecord entry.value = .ok (seatConfirmed, some user) ∧ entry.expiresAt = none) ∧
      (OpensQueue key → ∃ queue,
        deserializeQueue entry.value = .ok queue ∧ queue ≠ [] ∧ queue.Nodup ∧ entry.expiresAt = none)) ∧
      ∀ (tokens : List String) (r : Request) (now : ℚ), parseCommand tokens = .ok r → r.OnRecord →
        (∀ e s u n, r = .reserveSeat e s u n → n.natAbs < floatOverflow) →
          ∃ result, (handleCommand tokens now store).1 = .ok result := by
  obtain ⟨hintact, _⟩ := h.intact
  refine ⟨fun key entry hl => ⟨fun hkey => ?_, fun hkey => ?_⟩, fun tokens r now hp hr hf => ?_⟩
  · obtain ⟨l, hl'⟩ := (hintact key).seat hkey
    rw [hl] at hl'
    cases l with
    | free => cases hl'
    | held u d =>
        cases hl'
        exact ⟨_, .inl ⟨deserialize_serialize (by simp [seatHeld, ofString_scalar]) u, Option.some_ne_none d⟩⟩
    | owned u =>
        cases hl'
        exact ⟨_, .inr ⟨deserialize_serialize (by simp [seatConfirmed, ofString_scalar]) u, rfl⟩⟩
  · obtain ⟨l, hl'⟩ := (hintact key).queue hkey
    have hread := readQueue_members l
    rw [hl] at hl'
    rw [← hl', readQueue] at hread
    rw [queueEntry] at hl'
    split at hl'
    next => cases hl'
    next hne =>
      refine ⟨_, hread, hne, l.distinct.map ofString_injective, ?_⟩
      cases hl'
      rfl
  · obtain ⟨hreply, _⟩ := perform_seen (parseCommand_checked hp) now store
    simp only [handleCommand, hp, hreply]
    exact act_answers (hintact.seen r now) hr hf now

/-- A hold and a queue in a snapshot that is loaded after both have changed. -/
theorem restored_readable : ∃ result, (handleCommand ["CONFIRM_SEAT", "e", "s", "u"] 4
    (loadSnapshot (snapshot (execute ∅ [(0, ["JOIN_QUEUE", "e", "u"]), (1, ["RESERVE_SEAT", "e", "s", "u", "10"])]) 2).1 4)).1 =
      .ok result := by
  have hrun : Reached [] (execute ∅ [(0, ["JOIN_QUEUE", "e", "u"]), (1, ["RESERVE_SEAT", "e", "s", "u", "10"])]) :=
    (Reached.start.command 0 (by decide +kernel)).command 1 (by decide +kernel)
  have hload := ((hrun.snapshot 2).command 3 (show SparesRecords ["DEL", "seat:e:s"] by decide +kernel)).load
    List.mem_cons_self (List.Perm.refl _) 4
  refine (records_readable hload).2 _ (.confirmSeat "e" "s" "u") 4 (by decide +kernel) (by decide) ?_
  rintro _ _ _ _ h
  cases h

end Ticketing.Commands
