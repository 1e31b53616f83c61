import Ticketing.Commands.SeatRuns
import Ticketing.Storage.Queue

namespace Ticketing.Commands

open Python JsonText Storage

/-! ### Commands on one entry

A reference for the commands: every command acts on the entry of its key, and knows nothing of deadlines
that have passed. -/

abbrev EntryAction (α : Type) := Option Entry → Except Error α × Option Entry

def expireEntry (seconds : Int) (option : Option String) (now : ℚ) : EntryAction Bool := fun entry =>
  match normalizeExpireOption option, entry with
  | .error e, _ => (.error e, entry)
  | .ok _, none => (.ok false, none)
  | .ok option, some e => match computeDeadline now seconds with
    | .error x => (.error x, some e)
    | .ok deadline =>
      if ¬ ShouldApplyExpiry option e.expiresAt deadline then (.ok false, some e)
      else if seconds ≤ 0 then (.ok true, none)
      else (.ok true, some ⟨e.value, some deadline⟩)

def reserveEntry (userId : String) (n : Int) (now : ℚ) : EntryAction (Bool × SeatStatus) := fun entry =>
  match readSeat entry now with
  | .error e => (.error e, entry)
  | .ok status =>
    if status.state = seatAvailable ∨ status.state = seatHeld ∧ status.userId = some (Str.ofString userId) then
      match computeDeadline now n with
      | .error e => (.error e, entry)
      | .ok deadline => (.ok (true, ⟨seatHeld, some (Str.ofString userId), n⟩),
          some ⟨serializeSeatRecord seatHeld (some (Str.ofString userId)), some deadline⟩)
    else (.ok (false, status), entry)

def confirmEntry (userId : String) (now : ℚ) : EntryAction (Bool × SeatStatus) := fun entry =>
  match readSeat entry now with
  | .error e => (.error e, entry)
  | .ok status =>
    if status.state = seatConfirmed ∧ status.userId = some (Str.ofString userId) then (.ok (true, status), entry)
    else if status.state ≠ seatHeld ∨ status.userId ≠ some (Str.ofString userId) then (.ok (false, status), entry)
    else (.ok (true, ⟨seatConfirmed, some (Str.ofString userId), -1⟩),
      some ⟨serializeSeatRecord seatConfirmed (some (Str.ofString userId)), none⟩)

def releaseEntry (userId : String) (now : ℚ) : EntryAction (Bool × SeatStatus) := fun entry =>
  match readSeat entry now with
  | .error e => (.error e, entry)
  | .ok status =>
    if status.state ≠ seatHeld ∨ status.userId ≠ some (Str.ofString userId) then (.ok (false, status), entry)
    else (.ok (true, ⟨seatAvailable, none, -1⟩), none)

def readQueue : Option Entry → Except Error (List Str)
  | none => .ok []
  | some entry => deserializeQueue entry.value

def queueEntry (queue : List Str) : Option Entry := if queue = [] then none else some ⟨serializeQueue queue, none⟩

theorem readQueue_queueEntry {queue : List Str} (h : ∀ s ∈ queue, s.Joined) :
    readQueue (queueEntry queue) = .ok queue := by
  rw [queueEntry]
  split
  next hq => rw [hq]; rfl
  next => exact deserialize_serializeQueue h

theorem readQueue_joined {entry : Option Entry} {queue : List Str} (h : readQueue entry = .ok queue) :
    ∀ s ∈ queue, s.Joined := by
  cases entry with
  | none => cases h; exact fun s hs => absurd hs List.not_mem_nil
  | some e => exact deserializeQueue_joined h

instance lawfulStr : LawfulBEq Str := inferInstance

def joinEntry (user : Str) : EntryAction (Bool × Int × Int) := fun entry =>
  match readQueue entry with
  | .error e => (.error e, entry)
  | .ok queue =>
    if user ∈ queue then (.ok (false, queue.idxOf user + 1, queue.length), entry)
    else (.ok (true, (queue ++ [user]).length, (queue ++ [user]).length), queueEntry (queue ++ [user]))

def positionEntry (user : Str) : EntryAction (Int × Int) := fun entry =>
  ((readQueue entry).map (fun queue =>
    if user ∉ queue then (-1, queue.length) else (queue.idxOf user + 1, queue.length)), entry)

def popEntry : EntryAction (Option Str × Int) := fun entry =>
  match readQueue entry with
  | .error e => (.error e, entry)
  | .ok [] => (.ok (none, 0), entry)
  | .ok (user :: queue) => (.ok (some user, queue.length), queueEntry queue)

def leaveEntry (user : Str) : EntryAction (Bool × Int × Int) := fun entry =>
  match readQueue entry with
  | .error e => (.error e, entry)
  | .ok queue =>
    if user ∉ queue then (.ok (false, -1, queue.length), entry)
    else (.ok (true, queue.idxOf user + 1, (queue.erase user).length), queueEntry (queue.erase user))

def peekEntry : EntryAction (Option Str × Int) := fun entry =>
  ((readQueue entry).map (fun queue => match queue with
    | [] => (none, 0)
    | user :: queue => (some user, queue.length + 1)), entry)

def answering {α : Type} (f : α → CommandResult) (action : EntryAction α) : EntryAction CommandResult :=
  fun entry => ((action entry).1.map f, (action entry).2)

def Request.act (now : ℚ) : Request → EntryAction CommandResult
  | .set _ value => fun _ => (.ok (.scalar (.str (Str.ofString "OK"))), some ⟨value, none⟩)
  | .get _ => fun entry => (.ok (.scalar (optional ((entry.map Entry.value).map Str.ofString))), entry)
  | .del _ => fun entry => (.ok (.scalar (flag entry.isSome)), none)
  | .expire _ seconds option => answering (fun b => .scalar (flag b)) (expireEntry seconds option now)
  | .ttl _ => fun entry => (.ok (.scalar (.int (entry.elim (-2) (remaining · now)))), entry)
  | .reserveSeat _ _ userId n => answering seatOperationResult (reserveEntry userId n now)
  | .confirmSeat _ _ userId => answering seatOperationResult (confirmEntry userId now)
  | .forceConfirmSeat _ _ userId => fun _ =>
    (.ok (seatOperationResult (true, ⟨seatConfirmed, some (Str.ofString userId), -1⟩)),
      some ⟨serializeSeatRecord seatConfirmed (some (Str.ofString userId)), none⟩)
  | .releaseSeat _ _ userId => answering seatOperationResult (releaseEntry userId now)
  | .seatStatus _ _ => fun entry => ((readSeat entry now).map seatStatusResult, entry)
  | .joinQueue _ userId => answering queueJoinResult (joinEntry (Str.ofString userId))
  | .queuePosition _ userId => answering queuePositionResult (positionEntry (Str.ofString userId))
  | .popQueue _ => answering queuePopResult popEntry
  | .leaveQueue _ userId => answering queueJoinResult (leaveEntry (Str.ofString userId))
  | .peekQueue _ => answering queuePopResult peekEntry

/-- The commands on a queue. -/
def Request.OnQueue (r : Request) : Prop :=
  r.target.name ∈ [.joinQueue, .queuePosition, .popQueue, .leaveQueue, .peekQueue]

instance (r : Request) : Decidable r.OnQueue := inferInstanceAs (Decidable (_ ∈ _))

/-- A request whose option and duration the parser has let through. -/
def Request.Checked : Request → Prop
  | .expire _ _ option => ∃ o, normalizeExpireOption option = .ok o
  | .reserveSeat _ _ _ n => 0 < n
  | _ => True

theorem upper_validExpireOption {name : String} (h : (validExpireOption name).isSome) : upper name = name := by
  unfold validExpireOption at h
  split at h <;> first | decide | cases h

theorem parseExpire_checked {key rawSeconds : String} {rest : List String} {r : Request}
    (h : parseExpireArguments key rawSeconds rest = .ok r) : r.Checked := by
  have hupper (option : String) (ho : (validExpireOption (upper option)).isSome) :
      ∃ o, normalizeExpireOption (some (upper option)) = .ok o := by
    have hfix : upper (upper option) = upper option := upper_validExpireOption ho
    obtain ⟨o, ho⟩ := Option.isSome_iff_exists.mp ho
    exact ⟨some o, by simp only [normalizeExpireOption, hfix, ho]⟩
  unfold parseExpireArguments at h
  split at h
  next => cases h
  next n hn =>
    split at h
    next => cases h; exact ⟨none, rfl⟩
    next option rest =>
      split at h
      next ho => cases h; exact hupper option ho
      next => cases h

theorem parseCommand_checked {command : List String} {r : Request} (h : parseCommand command = .ok r) :
    r.Checked := by
  unfold parseCommand at h
  split at h
  case h_5 => exact parseExpire_checked h
  case h_7 =>
    obtain ⟨n, hn, rfl⟩ := parseReserve_target h
    exact hn
  all_goals first
    | cases h; done
    | cases h; trivial

/-! ### The engine acts on one entry -/

/-- The entry that a command of the engine sees: only the queue commands see one whose deadline has passed. -/
def Request.seen (r : Request) (store : Store) (now : ℚ) : Option Entry :=
  if r.OnQueue then store.lookup r.target.key else live store r.target.key now

section Operations

variable (store : Store) (key : String) (now : ℚ)

theorem get_eq : get store key now = ((live store key now).map Entry.value, purge store key now) := by
  rw [← lookup_purge]
  rfl

theorem delete_live : (delete store key now).1 = (live store key now).isSome ∧
    (delete store key now).2.lookup key = none := by
  have hd : delete store key now = if (live store key now).isNone then (false, purge store key now)
      else (true, deleteKey (purge store key now) key) := by
    rw [← lookup_purge]
    rfl
  rw [hd]
  cases hl : live store key now with
  | none => exact ⟨rfl, (lookup_purge store key now).trans hl⟩
  | some e => exact ⟨rfl, AList.lookup_erase key _⟩

theorem expire_live (seconds : Int) {option : Option String} {o : Option ExpireOption}
    (ho : normalizeExpireOption option = .ok o) :
    (expire store key seconds option now).1 = (expireEntry seconds option now (live store key now)).1 ∧
      (expire store key seconds option now).2.lookup key =
        (expireEntry seconds option now (live store key now)).2 := by
  simp only [expire, expireEntry, ho]
  rcases purgeIfExpired_eq store key now with ⟨hp, hl⟩ | ⟨hp, hl⟩
  · rw [hp, hl]
    exact ⟨rfl, AList.lookup_erase key store⟩
  · rw [hp, hl]
    dsimp only
    cases he : store.lookup key with
    | none => exact ⟨rfl, he⟩
    | some e =>
        cases computeDeadline now seconds with
        | error x => exact ⟨rfl, he⟩
        | ok d =>
            dsimp only
            by_cases happly : ShouldApplyExpiry o e.expiresAt d
            · by_cases hs : seconds ≤ 0
              · simp [happly, hs, deleteKey]
              · simp [happly, hs]
            · simp [happly, he]

theorem ttl_live : (ttl store key now).1 = (live store key now).elim (-2) (remaining · now) := by
  unfold ttl
  rcases purgeIfExpired_eq store key now with ⟨hp, hl⟩ | ⟨hp, hl⟩
  · rw [hp, hl]
    rfl
  · rw [hp, hl]
    dsimp only
    cases store.lookup key with
    | none => rfl
    | some e => cases hd : e.expiresAt <;> simp [remaining, hd]

theorem loadQueue_eq : loadQueue store key = readQueue (store.lookup key) := by
  unfold loadQueue readQueue
  cases store.lookup key <;> rfl

theorem lookup_storeQueue (queue : List Str) : (storeQueue store key queue).lookup key = queueEntry queue := by
  unfold storeQueue queueEntry
  by_cases hq : queue = []
  · rw [if_pos hq, if_pos hq]
    exact AList.lookup_erase key store
  · rw [if_neg hq, if_neg hq]
    exact AList.lookup_insert store

end Operations

section Seats

variable (store : Store) (e s u : String) (now : ℚ)

theorem reserve_live {n : Int} (hn : 0 < n) :
    (reserveSeat store e s u n now).1 = (reserveEntry u n now (live store (seatKey e s) now)).1 ∧
      (reserveSeat store e s u n now).2.lookup (seatKey e s) =
        (reserveEntry u n now (live store (seatKey e s) now)).2 := by
  rw [reserveSeat_eq store e s u hn now]
  unfold reserveEntry
  cases readSeat (live store (seatKey e s) now) now with
  | error x => exact ⟨rfl, lookup_purge store _ now⟩
  | ok status =>
      dsimp only
      split
      · cases computeDeadline now n with
        | error x => exact ⟨rfl, lookup_purge store _ now⟩
        | ok d => exact ⟨rfl, AList.lookup_insert _⟩
      · exact ⟨rfl, lookup_purge store _ now⟩

theorem confirm_live :
    (confirmSeat store e s u now).1 = (confirmEntry u now (live store (seatKey e s) now)).1 ∧
      (confirmSeat store e s u now).2.lookup (seatKey e s) =
        (confirmEntry u now (live store (seatKey e s) now)).2 := by
  unfold confirmSeat confirmEntry
  rw [seatStatusByKey_eq]
  cases readSeat (live store (seatKey e s) now) now with
  | error x => exact ⟨rfl, lookup_purge store _ now⟩
  | ok status =>
      dsimp only
      split
      · exact ⟨rfl, lookup_purge store _ now⟩
      · split
        · exact ⟨rfl, lookup_purge store _ now⟩
        · exact ⟨rfl, AList.lookup_insert _⟩

theorem release_live :
    (releaseSeat store e s u now).1 = (releaseEntry u now (live store (seatKey e s) now)).1 ∧
      (releaseSeat store e s u now).2.lookup (seatKey e s) =
        (releaseEntry u now (live store (seatKey e s) now)).2 := by
  unfold releaseSeat releaseEntry
  rw [seatStatusByKey_eq]
  cases readSeat (live store (seatKey e s) now) now with
  | error x => exact ⟨rfl, lookup_purge store _ now⟩
  | ok status =>
      dsimp only
      split
      · exact ⟨rfl, lookup_purge store _ now⟩
      · exact ⟨rfl, AList.lookup_erase _ _⟩

end Seats

section Queues

variable (store : Store) (e u : String)

theorem join_lookup :
    (joinQueue store e u).1 = (joinEntry (Str.ofString u) (store.lookup (queueKey e))).1 ∧
      (joinQueue store e u).2.lookup (queueKey e) = (joinEntry (Str.ofString u) (store.lookup (queueKey e))).2 := by
  unfold joinQueue joinEntry
  rw [loadQueue_eq]
  cases readQueue (store.lookup (queueKey e)) with
  | error x => exact ⟨rfl, rfl⟩
  | ok queue =>
      dsimp only
      split
      · exact ⟨rfl, rfl⟩
      · exact ⟨rfl, lookup_storeQueue store (queueKey e) _⟩

theorem position_lookup :
    queuePosition store e u = (positionEntry (Str.ofString u) (store.lookup (queueKey e))).1 := by
  unfold queuePosition positionEntry
  rw [loadQueue_eq]
  cases readQueue (store.lookup (queueKey e)) with
  | error x => rfl
  | ok queue => exact (apply_ite Except.ok _ _ _).symm

theorem pop_lookup :
    (popQueue store e).1 = (popEntry (store.lookup (queueKey e))).1 ∧
      (popQueue store e).2.lookup (queueKey e) = (popEntry (store.lookup (queueKey e))).2 := by
  unfold popQueue popEntry
  rw [loadQueue_eq]
  rcases readQueue (store.lookup (queueKey e)) with x | _ | ⟨user, queue⟩
  · exact ⟨rfl, rfl⟩
  · exact ⟨rfl, rfl⟩
  · exact ⟨rfl, lookup_storeQueue store (queueKey e) queue⟩

theorem leave_lookup :
    (leaveQueue store e u).1 = (leaveEntry (Str.ofString u) (store.lookup (queueKey e))).1 ∧
      (leaveQueue store e u).2.lookup (queueKey e) = (leaveEntry (Str.ofString u) (store.lookup (queueKey e))).2 := by
  unfold leaveQueue leaveEntry
  rw [loadQueue_eq]
  cases readQueue (store.lookup (queueKey e)) with
  | error x => exact ⟨rfl, rfl⟩
  | ok queue =>
      dsimp only
      split
      · exact ⟨rfl, rfl⟩
      · exact ⟨rfl, lookup_storeQueue store (queueKey e) _⟩

theorem peek_lookup : peekQueue store e = (peekEntry (store.lookup (queueKey e))).1 := by
  unfold peekQueue peekEntry
  rw [loadQueue_eq]
  rcases readQueue (store.lookup (queueKey e)) with x | _ | ⟨user, queue⟩ <;> rfl

end Queues

/-- A command of the engine does to the entry that it sees what the reference does to it. -/
theorem perform_seen {r : Request} (hr : r.Checked) (now : ℚ) (store : Store) :
    (perform r now store).1 = (r.act now (r.seen store now)).1 ∧
      (perform r now store).2.lookup r.target.key = (r.act now (r.seen store now)).2 := by
  cases r with
  | set key value => exact ⟨rfl, AList.lookup_insert store⟩
  | get key =>
      simp only [perform, get_eq]
      exact ⟨rfl, lookup_purge store key now⟩
  | del key =>
      obtain ⟨h₁, h₂⟩ := delete_live store key now
      exact ⟨congrArg (fun b => Except.ok (CommandResult.scalar (flag b))) h₁, h₂⟩
  | expire key seconds option =>
      obtain ⟨o, ho⟩ := hr
      obtain ⟨h₁, h₂⟩ := expire_live store key now seconds ho
      exact ⟨congrArg (Except.map _) h₁, h₂⟩
  | ttl key =>
      refine ⟨congrArg (fun n => Except.ok (CommandResult.scalar (.int n))) (ttl_live store key now), ?_⟩
      exact (congrArg (AList.lookup key) (ttl_snd store key now)).trans (lookup_purge store key now)
  | reserveSeat e s u n =>
      obtain ⟨h₁, h₂⟩ := reserve_live store e s u now hr
      exact ⟨congrArg (Except.map _) h₁, h₂⟩
  | confirmSeat e s u =>
      obtain ⟨h₁, h₂⟩ := confirm_live store e s u now
      exact ⟨congrArg (Except.map _) h₁, h₂⟩
  | forceConfirmSeat e s u => exact ⟨rfl, AList.lookup_insert store⟩
  | releaseSeat e s u =>
      obtain ⟨h₁, h₂⟩ := release_live store e s u now
      exact ⟨congrArg (Except.map _) h₁, h₂⟩
  | seatStatus e s =>
      simp only [perform, onResult, seatStatus, seatStatusByKey_eq]
      exact ⟨rfl, lookup_purge store _ now⟩
  | joinQueue e u =>
      obtain ⟨h₁, h₂⟩ := join_lookup store e u
      exact ⟨congrArg (Except.map _) h₁, h₂⟩
  | queuePosition e u => exact ⟨congrArg (Except.map _) (position_lookup store e u), rfl⟩
  | popQueue e =>
      obtain ⟨h₁, h₂⟩ := pop_lookup store e
      exact ⟨congrArg (Except.map _) h₁, h₂⟩
  | leaveQueue e u =>
      obtain ⟨h₁, h₂⟩ := leave_lookup store e u
      exact ⟨congrArg (Except.map _) h₁, h₂⟩
  | peekQueue e => exact ⟨congrArg (Except.map _) (peek_lookup store e), rfl⟩

end Ticketing.Commands
