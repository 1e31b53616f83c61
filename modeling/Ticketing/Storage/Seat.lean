import Ticketing.Storage.Engine
import Ticketing.Lib.Lease

namespace Ticketing.Storage

open Python JsonText

/-! ### Keys -/

theorem queueKey_ne_seatKey (eventId eventId' seatId : String) : queueKey eventId ≠ seatKey eventId' seatId := by
  intro h
  have := congrArg String.toList h
  simp [queueKey, seatKey] at this

theorem seatKey_inj {e s e' s' : String} (he : ':' ∉ e.toList) (he' : ':' ∉ e'.toList) :
    seatKey e s = seatKey e' s' ↔ e = e' ∧ s = s' := by
  refine ⟨fun h => ?_, fun h => by rw [h.1, h.2]⟩
  have h : e.toList ++ ':' :: s.toList = e'.toList ++ ':' :: s'.toList := by
    simpa [seatKey] using congrArg String.toList h
  have take {x : List Char} (y : List Char) (hx : ':' ∉ x) : (x ++ ':' :: y).takeWhile (· ≠ ':') = x := by
    rw [List.takeWhile_append_of_pos (fun c hc => by simpa using ne_of_mem_of_not_mem hc hx)]
    simp
  have ht : e.toList = e'.toList := by
    rw [← take s.toList he, h, take _ he']
  rw [ht, List.append_cancel_left_eq] at h
  exact ⟨String.toList_inj.mp ht, String.toList_inj.mp (List.cons.inj h).2⟩

/-- A key whose ids have no colon belongs to one seat only. -/
theorem seatKey_plain {e s e' s' : String} (he : ':' ∉ e.toList) (hs : ':' ∉ s.toList)
    (h : seatKey e s = seatKey e' s') : e = e' ∧ s = s' := by
  have hl : e.toList ++ ':' :: s.toList = e'.toList ++ ':' :: s'.toList := by
    simpa [seatKey] using congrArg String.toList h
  have hc := congrArg (List.count ':') hl
  simp only [List.count_append, List.count_cons_self, List.count_eq_zero.mpr he, List.count_eq_zero.mpr hs] at hc
  have he' : ':' ∉ e'.toList := List.count_eq_zero.mp (by omega)
  exact (seatKey_inj he he').mp h

/-! ### The store at an instant -/

def Entry.Live (e : Entry) (now : ℚ) : Prop := ∀ d ∈ e.expiresAt, now < d

instance (e : Entry) (now : ℚ) : Decidable (e.Live now) :=
  inferInstanceAs (Decidable (∀ d ∈ e.expiresAt, now < d))

/-- The entry of a key, unless its deadline has passed. -/
def live (store : Store) (key : String) (now : ℚ) : Option Entry :=
  (store.lookup key).filter (fun e => e.Live now)

def purge (store : Store) (key : String) (now : ℚ) : Store := (purgeIfExpired store key now).2

theorem purgeIfExpired_eq (store : Store) (key : String) (now : ℚ) :
    (purgeIfExpired store key now = (true, store.erase key) ∧ live store key now = none) ∨
      (purgeIfExpired store key now = (false, store) ∧ live store key now = store.lookup key) := by
  unfold purgeIfExpired live
  cases hl : store.lookup key with
  | none => simp
  | some e =>
      cases hd : e.expiresAt with
      | none => simp [Option.filter, Entry.Live, hd]
      | some d =>
          by_cases h : d ≤ now
          · simp [Option.filter, Entry.Live, IsExpired, deleteKey, hd, h]
          · simp [Option.filter, Entry.Live, IsExpired, hd, h, not_le.mp h]

@[simp] theorem lookup_purge (store : Store) (key : String) (now : ℚ) :
    (purge store key now).lookup key = live store key now := by
  unfold purge
  rcases purgeIfExpired_eq store key now with ⟨h, hl⟩ | ⟨h, hl⟩
  · rw [h, hl]; exact AList.lookup_erase key store
  · rw [h, hl]

theorem lookup_purge_ne {store : Store} {key k : String} (now : ℚ) (h : k ≠ key) :
    (purge store key now).lookup k = store.lookup k := by
  unfold purge
  rcases purgeIfExpired_eq store key now with ⟨he, _⟩ | ⟨he, _⟩
  · rw [he]; exact AList.lookup_erase_ne h
  · rw [he]

theorem lookup_purge_cases (store : Store) (k : String) (now : ℚ) (key : String) :
    (purge store k now).lookup key = store.lookup key ∨ (purge store k now).lookup key = none := by
  unfold purge
  rcases purgeIfExpired_eq store k now with ⟨h, _⟩ | ⟨h, _⟩ <;> rw [h]
  · by_cases hk : key = k
    · exact .inr (hk ▸ AList.lookup_erase key store)
    · exact .inl (AList.lookup_erase_ne hk)
  · exact .inl rfl

/-- An entry that has not run out is not purged. -/
theorem purge_live {store : Store} {key : String} {now : ℚ} (h : live store key now ≠ none) : purge store key now = store := by
  unfold purge
  rcases purgeIfExpired_eq store key now with ⟨_, hl⟩ | ⟨he, _⟩
  · exact absurd hl h
  · rw [he]

theorem filter_live_live {now now' : ℚ} (hle : now ≤ now') (entry : Option Entry) :
    (entry.filter (fun e => e.Live now)).filter (fun e => e.Live now') = entry.filter (fun e => e.Live now') := by
  cases entry with
  | none => rfl
  | some e =>
      by_cases hl : e.Live now'
      · have hn : e.Live now := fun d hd => hle.trans_lt (hl d hd)
        simp [Option.filter, hn, hl]
      · by_cases hn : e.Live now <;> simp [Option.filter, hn, hl]

theorem live_filter {now now' : ℚ} (hle : now ≤ now') (store : Store) (k : String) :
    (live store k now).filter (fun e => e.Live now') = live store k now' :=
  filter_live_live hle _

theorem live_purge (store : Store) (k key : String) {now now' : ℚ} (h : now ≤ now') :
    live (purge store k now) key now' = live store key now' := by
  by_cases hk : key = k
  · subst hk
    rw [live, lookup_purge, live_filter h]
  · rw [live, lookup_purge_ne now hk, live]

theorem live_eq_some {store : Store} {key : String} {now : ℚ} {e : Entry} :
    live store key now = some e ↔ store.lookup key = some e ∧ e.Live now := by
  simp [live, Option.filter_eq_some_iff]

/-- The rest of `ttl` in a status reply. -/
def remaining (e : Entry) (now : ℚ) : Int :=
  match e.expiresAt with
  | none => -1
  | some deadline => max 0 ⌈deadline - now⌉

def readSeat (entry : Option Entry) (now : ℚ) : Except Error SeatStatus :=
  match entry with
  | none => .ok ⟨seatAvailable, none, -1⟩
  | some e => (deserializeSeatRecord e.value).map (fun r => ⟨r.1, r.2, remaining e now⟩)

theorem seatStatusByKey_eq (store : Store) (key : String) (now : ℚ) :
    seatStatusByKey store key now = (readSeat (live store key now) now, purge store key now) := by
  unfold seatStatusByKey purge
  rcases purgeIfExpired_eq store key now with ⟨h, hl⟩ | ⟨h, hl⟩
  · rw [h, hl]; rfl
  · rw [h, hl]
    cases hs : store.lookup key with
    | none => simp [hs, readSeat]
    | some e =>
        simp only [hs, readSeat, remaining]
        rcases deserializeSeatRecord e.value with _ | ⟨state, userId⟩ <;> rfl

/-! ### Records -/

theorem deserialize_serialize {state : Str} (hs : state.Scalar) (userId : String) :
    deserializeSeatRecord (serializeSeatRecord state (some (Str.ofString userId))) =
      .ok (state, some (Str.ofString userId)) := by
  have hk : Str.ofString "state" ≠ Str.ofString "user_id" := by simp
  have hp : Numberless (.object [(Str.ofString "state", .str state),
      (Str.ofString "user_id", .str (Str.ofString userId))]) :=
    ⟨ofString_scalar _, hs, ofString_scalar _, ofString_scalar _, trivial⟩
  simp only [deserializeSeatRecord, loadJson, serializeSeatRecord, loads_dumps hp]
  simp [member?, hk.symm]

abbrev SeatLease := Lease String ℚ

def leaseEntry : SeatLease → Option Entry
  | .free => none
  | .held u d => some ⟨serializeSeatRecord seatHeld (some (Str.ofString u)), some d⟩
  | .owned u => some ⟨serializeSeatRecord seatConfirmed (some (Str.ofString u)), none⟩

def leaseStatus (now : ℚ) : SeatLease → SeatStatus
  | .free => ⟨seatAvailable, none, -1⟩
  | .held u d => ⟨seatHeld, some (Str.ofString u), max 0 ⌈d - now⌉⟩
  | .owned u => ⟨seatConfirmed, some (Str.ofString u), -1⟩

/-- The store keeps a lease under a key, perhaps past its deadline. -/
def Records (store : Store) (key : String) (l : SeatLease) : Prop := store.lookup key = leaseEntry l

theorem readSeat_leaseEntry (l : SeatLease) (now : ℚ) :
    readSeat (leaseEntry l) now = .ok (leaseStatus now l) := by
  cases l with
  | free => rfl
  | held u d => simp [readSeat, leaseEntry, leaseStatus, remaining, seatHeld, ofString_scalar, deserialize_serialize, Except.map]
  | owned u => simp [readSeat, leaseEntry, leaseStatus, remaining, seatConfirmed, ofString_scalar, deserialize_serialize, Except.map]

theorem leaseEntry_injective : Function.Injective leaseEntry := by
  intro l l' h
  have hs : leaseStatus 0 l = leaseStatus 0 l' := by
    have := readSeat_leaseEntry l 0
    rw [h, readSeat_leaseEntry] at this
    exact (Except.ok.inj this).symm
  have hd := congrArg (Option.bind · Entry.expiresAt) h
  cases l <;> cases l' <;>
    simp_all [leaseStatus, leaseEntry, seatAvailable, seatHeld, seatConfirmed]

theorem records_unique {store : Store} {key : String} {l l' : SeatLease} (h : Records store key l)
    (h' : Records store key l') : l = l' :=
  leaseEntry_injective (h.symm.trans h')

section Operations

variable {store : Store} {key eventId seatId userId : String} {l : SeatLease} {now : ℚ}

theorem Records.live (h : Records store key l) (now : ℚ) : live store key now = leaseEntry (l.current now) := by
  unfold Storage.live
  rw [h]
  cases l with
  | free => rfl
  | owned u => simp [leaseEntry, Option.filter, Entry.Live]
  | held u d =>
      by_cases hd : d ≤ now
      · simp [Lease.current_expired hd, leaseEntry, Option.filter, Entry.Live, hd]
      · simp [Lease.current_held (not_le.mp hd), leaseEntry, Option.filter, Entry.Live, not_le.mp hd]

theorem Records.purge (h : Records store key l) (now : ℚ) : Records (purge store key now) key (l.current now) := by
  rw [Records, lookup_purge, h.live]

theorem Records.status (h : Records store key l) (now : ℚ) :
    seatStatusByKey store key now = (.ok (leaseStatus now (l.current now)), Storage.purge store key now) := by
  rw [seatStatusByKey_eq, h.live, readSeat_leaseEntry]

/-- A seat command does to a lease what the action does, and reports it. -/
def Performs (result : Except Error (Bool × SeatStatus) × Store) (key : String) (now : ℚ)
    (r : Bool × SeatLease) : Prop :=
  result.1 = .ok (r.1, leaseStatus now r.2) ∧ Records result.2 key r.2

@[simp] theorem records_insert_held (store : Store) (key u : String) (d : ℚ) :
    Records (store.insert key ⟨serializeSeatRecord seatHeld (some (Str.ofString u)), some d⟩) key (.held u d) :=
  AList.lookup_insert store

@[simp] theorem records_insert_owned (store : Store) (key u : String) :
    Records (store.insert key ⟨serializeSeatRecord seatConfirmed (some (Str.ofString u)), none⟩) key (.owned u) :=
  AList.lookup_insert store

@[simp] theorem records_deleteKey (store : Store) (key : String) : Records (deleteKey store key) key .free :=
  AList.lookup_erase key store

theorem seatStates_ne : seatHeld ≠ seatAvailable ∧ seatConfirmed ≠ seatAvailable ∧ seatConfirmed ≠ seatHeld := by
  simp [seatHeld, seatAvailable, seatConfirmed]

theorem reserveSeat_performs (h : Records store (seatKey eventId seatId) l) (userId : String) (now : ℚ) {n : Int}
    (hn : 0 < n) (hf : n.natAbs < floatOverflow) :
    Performs (reserveSeat store eventId seatId userId n now) (seatKey eventId seatId) now
      (Lease.act (.acquire userId (now + n)) (l.current now)) := by
  have hd : computeDeadline now n = .ok (now + n) := by simp [computeDeadline, toFloat, hf, Except.map]
  have hp := h.purge now
  obtain ⟨hha, hca, hch⟩ := seatStates_ne
  simp only [reserveSeat, not_le.mpr hn, if_false, h.status, hd]
  cases hc : l.current now with
  | free => simp [Performs, leaseStatus, Lease.act, hn.le]
  | owned v =>
      rw [hc] at hp
      simp [Performs, leaseStatus, Lease.act, hca, hch, hp]
  | held v d =>
      rw [hc] at hp
      by_cases hv : v = userId <;> simp [Performs, leaseStatus, Lease.act, hha, hv, hn.le, hp]

theorem confirmSeat_performs (h : Records store (seatKey eventId seatId) l) (userId : String) (now : ℚ) :
    Performs (confirmSeat store eventId seatId userId now) (seatKey eventId seatId) now
      (Lease.act (.commit userId) (l.current now)) := by
  have hp := h.purge now
  obtain ⟨hha, hca, hch⟩ := seatStates_ne
  simp only [confirmSeat, h.status]
  cases hc : l.current now with
  | free =>
      rw [hc] at hp
      simp [Performs, leaseStatus, Lease.act, hca.symm, hp]
  | owned v =>
      rw [hc] at hp
      by_cases hv : v = userId
      · subst hv; simp [Performs, leaseStatus, Lease.act, hp]
      · simp [Performs, leaseStatus, Lease.act, hch, hv, hp]
  | held v d =>
      rw [hc] at hp
      by_cases hv : v = userId <;> simp [Performs, leaseStatus, Lease.act, hch.symm, hv, hp]

theorem releaseSeat_performs (h : Records store (seatKey eventId seatId) l) (userId : String) (now : ℚ) :
    Performs (releaseSeat store eventId seatId userId now) (seatKey eventId seatId) now
      (Lease.act (.release userId) (l.current now)) := by
  have hp := h.purge now
  obtain ⟨hha, hca, hch⟩ := seatStates_ne
  simp only [releaseSeat, h.status]
  cases hc : l.current now with
  | free =>
      rw [hc] at hp
      simp [Performs, leaseStatus, Lease.act, hha.symm, hp]
  | owned v =>
      rw [hc] at hp
      simp [Performs, leaseStatus, Lease.act, hch, hp]
  | held v d =>
      rw [hc] at hp
      by_cases hv : v = userId <;> simp [Performs, leaseStatus, Lease.act, hv, hp]

end Operations

/-! ### Any record -/

/-- Who may reserve a seat: anybody where it is available, and the holder. -/
def Grants (entry : Option Entry) (userId : String) (now : ℚ) : Prop :=
  ∃ status, readSeat entry now = .ok status ∧
    (status.state = seatAvailable ∨ status.state = seatHeld ∧ status.userId = some (Str.ofString userId))

theorem grants_leaseEntry {l : SeatLease} {userId : String} {now : ℚ} :
    Grants (leaseEntry l) userId now ↔ l = .free ∨ ∃ d, l = .held userId d := by
  obtain ⟨hha, hca, hch⟩ := seatStates_ne
  simp only [Grants, readSeat_leaseEntry, Except.ok.injEq, exists_eq_left']
  cases l with
  | free => simp [leaseStatus]
  | owned u => simp [leaseStatus, hca, hch]
  | held u d => simp [leaseStatus, hha]

theorem reserveSeat_eq (store : Store) (eventId seatId userId : String) {n : Int} (hn : 0 < n) (now : ℚ) :
    reserveSeat store eventId seatId userId n now =
      match readSeat (live store (seatKey eventId seatId) now) now with
      | .error e => (.error e, purge store (seatKey eventId seatId) now)
      | .ok status =>
        if status.state = seatAvailable ∨ status.state = seatHeld ∧ status.userId = some (Str.ofString userId) then
          match computeDeadline now n with
          | .error e => (.error e, purge store (seatKey eventId seatId) now)
          | .ok deadline => (.ok (true, ⟨seatHeld, some (Str.ofString userId), n⟩),
              (purge store (seatKey eventId seatId) now).insert (seatKey eventId seatId)
                ⟨serializeSeatRecord seatHeld (some (Str.ofString userId)), some deadline⟩)
        else (.ok (false, status), purge store (seatKey eventId seatId) now) := by
  simp only [reserveSeat, not_le.mpr hn, if_false, seatStatusByKey_eq]
  cases readSeat (live store (seatKey eventId seatId) now) now <;> rfl

theorem reserveSeat_granted {store : Store} {eventId seatId userId : String} {n : Int} {now : ℚ} (hn : 0 < n)
    (hf : n.natAbs < floatOverflow) (h : Grants (live store (seatKey eventId seatId) now) userId now) :
    reserveSeat store eventId seatId userId n now =
      (.ok (true, ⟨seatHeld, some (Str.ofString userId), n⟩),
        (purge store (seatKey eventId seatId) now).insert (seatKey eventId seatId)
          ⟨serializeSeatRecord seatHeld (some (Str.ofString userId)), some (now + n)⟩) := by
  obtain ⟨status, hs, hg⟩ := h
  simp [reserveSeat_eq store eventId seatId userId hn now, hs, hg, computeDeadline, toFloat, hf, Except.map]

theorem reserveSeat_true {store : Store} {eventId seatId userId : String} {n : Int} {now : ℚ} {r : SeatStatus}
    (h : (reserveSeat store eventId seatId userId n now).1 = .ok (true, r)) :
    0 < n ∧ n.natAbs < floatOverflow ∧ Grants (live store (seatKey eventId seatId) now) userId now := by
  have hn : 0 < n := by
    by_contra hn
    simp [reserveSeat, not_lt.mp hn] at h
  rw [reserveSeat_eq store eventId seatId userId hn now] at h
  refine ⟨hn, ?_⟩
  cases hs : readSeat (live store (seatKey eventId seatId) now) now with
  | error e => simp [hs] at h
  | ok status =>
      simp only [hs] at h
      split at h
      next hg =>
        refine ⟨?_, status, hs, hg⟩
        by_contra hf
        simp [computeDeadline, toFloat, hf, Except.map] at h
      next => simp at h

/-- A release that follows a reading of its user's hold leaves the seat free. -/
theorem releaseSeat_frees {store : Store} {eventId seatId userId : String} {now now' : ℚ} {ttl : Int}
    (h : readSeat (live store (seatKey eventId seatId) now) now = .ok ⟨seatHeld, some (Str.ofString userId), ttl⟩) :
    live (releaseSeat (purge store (seatKey eventId seatId) now) eventId seatId userId now').2
      (seatKey eventId seatId) now' = none := by
  obtain ⟨hha, _, _⟩ := seatStates_ne
  rw [releaseSeat, seatStatusByKey_eq]
  cases hl : live (purge store (seatKey eventId seatId) now) (seatKey eventId seatId) now' with
  | none => simp [readSeat, hha.symm, live_purge, hl]
  | some entry =>
      have hentry : live store (seatKey eventId seatId) now = some entry := by
        rw [live, lookup_purge, Option.filter_eq_some_iff] at hl
        exact hl.1
      have hrecord : deserializeSeatRecord entry.value = .ok (seatHeld, some (Str.ofString userId)) := by
        rw [hentry, readSeat] at h
        cases hd : deserializeSeatRecord entry.value with
        | error x => simp [hd, Except.map] at h
        | ok x =>
            simp only [hd, Except.map, Except.ok.injEq, SeatStatus.mk.injEq] at h
            exact congrArg Except.ok (Prod.ext h.1 h.2.1)
      simp [readSeat, hrecord, Except.map, live, deleteKey]

/-! ### Frames -/

theorem get_lookup_ne (store : Store) (key : String) (now : ℚ) {k : String} (hk : k ≠ key) :
    (get store key now).2.lookup k = store.lookup k := lookup_purge_ne now hk

theorem delete_lookup_ne (store : Store) (key : String) (now : ℚ) {k : String} (hk : k ≠ key) :
    (delete store key now).2.lookup k = store.lookup k := by
  unfold delete
  dsimp only
  split
  · exact lookup_purge_ne now hk
  · exact (AList.lookup_erase_ne hk).trans (lookup_purge_ne now hk)

theorem ttl_snd (store : Store) (key : String) (now : ℚ) : (ttl store key now).2 = purge store key now := by
  unfold ttl purge
  split <;> rename_i h <;> rw [h]
  split
  · rfl
  · split <;> rfl

theorem expire_lookup_ne (store : Store) (key : String) (seconds : Int) (option : Option String) (now : ℚ)
    {k : String} (hk : k ≠ key) : (expire store key seconds option now).2.lookup k = store.lookup k := by
  unfold expire
  split
  · rfl
  · rcases purgeIfExpired_eq store key now with ⟨h, _⟩ | ⟨h, _⟩
    · rw [h]; exact AList.lookup_erase_ne hk
    · rw [h]
      dsimp only
      split
      · rfl
      · split
        · rfl
        · split
          · rfl
          · split
            · exact AList.lookup_erase_ne hk
            · exact AList.lookup_insert_ne hk

theorem storeQueue_lookup_ne (store : Store) {key k : String} (queue : List Str) (hk : k ≠ key) :
    (storeQueue store key queue).lookup k = store.lookup k := by
  unfold storeQueue
  split
  · exact AList.lookup_erase_ne hk
  · exact AList.lookup_insert_ne hk

theorem reserveSeat_lookup_ne (store : Store) (eventId seatId userId : String) (n : Int) (now : ℚ) {k : String}
    (hk : k ≠ seatKey eventId seatId) :
    (reserveSeat store eventId seatId userId n now).2.lookup k = store.lookup k := by
  by_cases hn : 0 < n
  · rw [reserveSeat_eq store eventId seatId userId hn now]
    rcases readSeat _ now with x | status
    · exact lookup_purge_ne now hk
    · dsimp only
      split
      · cases computeDeadline now n with
        | error x => exact lookup_purge_ne now hk
        | ok d => exact (AList.lookup_insert_ne hk).trans (lookup_purge_ne now hk)
      · exact lookup_purge_ne now hk
  · simp [reserveSeat, not_lt.mp hn]

theorem confirmSeat_lookup_ne (store : Store) (eventId seatId userId : String) (now : ℚ) {k : String}
    (hk : k ≠ seatKey eventId seatId) :
    (confirmSeat store eventId seatId userId now).2.lookup k = store.lookup k := by
  unfold confirmSeat
  rw [seatStatusByKey_eq]
  rcases readSeat _ now with x | status
  · exact lookup_purge_ne now hk
  · dsimp only
    split
    · exact lookup_purge_ne now hk
    · split
      · exact lookup_purge_ne now hk
      · exact (AList.lookup_insert_ne hk).trans (lookup_purge_ne now hk)

/-- A release leaves a seat as it is at that time, or frees it. -/
theorem releaseSeat_live (store : Store) (eventId seatId userId : String) (now : ℚ) (key : String) :
    live (releaseSeat store eventId seatId userId now).2 key now = live store key now ∨
      live (releaseSeat store eventId seatId userId now).2 key now = none := by
  have hpurge := live_purge store (seatKey eventId seatId) key (le_refl now)
  unfold releaseSeat
  rw [seatStatusByKey_eq]
  rcases readSeat _ now with x | status
  · exact .inl hpurge
  · dsimp only
    split
    · exact .inl hpurge
    · by_cases hk : key = seatKey eventId seatId
      · rw [hk]
        exact .inr (by simp [live, deleteKey])
      · rw [live, deleteKey, AList.lookup_erase_ne hk]
        exact .inl hpurge

theorem releaseSeat_lookup_cases (store : Store) (eventId seatId userId : String) (now : ℚ) (key : String) :
    (releaseSeat store eventId seatId userId now).2.lookup key = store.lookup key ∨
      (releaseSeat store eventId seatId userId now).2.lookup key = none := by
  have hpurge := lookup_purge_cases store (seatKey eventId seatId) now key
  unfold releaseSeat
  rw [seatStatusByKey_eq]
  rcases readSeat _ now with x | status
  · exact hpurge
  · dsimp only
    split
    · exact hpurge
    · by_cases hk : key = seatKey eventId seatId
      · exact .inr (hk ▸ AList.lookup_erase _ _)
      · rwa [deleteKey, AList.lookup_erase_ne hk]

theorem releaseSeat_lookup_ne (store : Store) (eventId seatId userId : String) (now : ℚ) {k : String}
    (hk : k ≠ seatKey eventId seatId) :
    (releaseSeat store eventId seatId userId now).2.lookup k = store.lookup k := by
  unfold releaseSeat
  rw [seatStatusByKey_eq]
  rcases readSeat _ now with x | status
  · exact lookup_purge_ne now hk
  · dsimp only
    split
    · exact lookup_purge_ne now hk
    · exact (AList.lookup_erase_ne hk).trans (lookup_purge_ne now hk)

end Ticketing.Storage
