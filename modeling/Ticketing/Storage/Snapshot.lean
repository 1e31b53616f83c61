import Ticketing.Storage.Seat

namespace Ticketing.Storage

open Python

/-- A row of the table `entries`. -/
structure SnapshotEntry where
  key : String
  value : String
  expiresAt : Option ℚ
  deriving DecidableEq

def SnapshotEntry.entry (e : SnapshotEntry) : Entry := ⟨e.value, e.expiresAt⟩

/-! ### The engine -/

def purgeExpiredKeys (store : Store) (now : ℚ) : Store :=
  ((store.entries.filter (fun e => ¬ e.2.Live now)).map Sigma.fst).foldl deleteKey store

def snapshot (store : Store) (now : ℚ) : List SnapshotEntry × Store :=
  let store := purgeExpiredKeys store now
  (store.entries.map (fun e => ⟨e.1, e.2.value, e.2.expiresAt⟩), store)

def loadSnapshot (entries : List SnapshotEntry) (now : ℚ) : Store :=
  entries.foldl (fun store e => if e.entry.Live now then store.insert e.key e.entry else store) ∅

/-! ### The SQLite store -/

/-- Delete every row and insert the entries, all in one transaction. -/
def saveEntries (table entries : List SnapshotEntry) : Except Error Unit × List SnapshotEntry :=
  if (entries.map SnapshotEntry.key).Nodup then (.ok (), entries)
  else (.error ⟨.integrityError, "UNIQUE constraint failed: entries.key"⟩, table)

/-- The rows of the table, in whatever order the query yields them. -/
def LoadEntries (table rows : List SnapshotEntry) : Prop := rows.Perm table

/-! ### What they keep -/

variable {store : Store} {now later : ℚ}

theorem lookup_foldl_deleteKey (keys : List String) (store : Store) (k : String) :
    (keys.foldl deleteKey store).lookup k = if k ∈ keys then none else store.lookup k := by
  induction keys generalizing store with
  | nil => simp
  | cons key keys ih =>
      rw [List.foldl_cons, ih, deleteKey]
      by_cases hk : k = key
      · subst hk
        simp
      · simp [hk, AList.lookup_erase_ne]

theorem lookup_purgeExpiredKeys (store : Store) (now : ℚ) (k : String) :
    (purgeExpiredKeys store now).lookup k = live store k now := by
  have hmem : k ∈ (store.entries.filter (fun e => ¬ e.2.Live now)).map Sigma.fst ↔
      ∃ e, store.lookup k = some e ∧ ¬ e.Live now := by
    simp only [List.mem_map, List.mem_filter, decide_eq_true_eq]
    constructor
    · rintro ⟨⟨k', e⟩, ⟨he, hdead⟩, rfl⟩
      exact ⟨e, AList.mem_lookup_iff.mpr he, hdead⟩
    · rintro ⟨e, he, hdead⟩
      exact ⟨⟨k, e⟩, ⟨AList.mem_lookup_iff.mp he, hdead⟩, rfl⟩
  rw [purgeExpiredKeys, lookup_foldl_deleteKey]
  unfold live
  by_cases hk : ∃ e, store.lookup k = some e ∧ ¬ e.Live now
  · rw [if_pos (hmem.mpr hk)]
    obtain ⟨e, he, hdead⟩ := hk
    simp [he, Option.filter, hdead]
  · rw [if_neg (fun h => hk (hmem.mp h))]
    cases he : store.lookup k with
    | none => rfl
    | some e =>
        have hlive : e.Live now := by
          by_contra hdead
          exact hk ⟨e, he, hdead⟩
        simp [Option.filter, hlive]

theorem snapshot_fst (store : Store) (now : ℚ) :
    (snapshot store now).1 =
      (purgeExpiredKeys store now).entries.map (fun e => ⟨e.1, e.2.value, e.2.expiresAt⟩) := rfl

theorem snapshot_keys (store : Store) (now : ℚ) : ((snapshot store now).1.map SnapshotEntry.key).Nodup := by
  have h := (purgeExpiredKeys store now).nodupKeys
  rw [snapshot_fst, List.map_map]
  exact h

theorem mem_snapshot {store : Store} {now : ℚ} {e : SnapshotEntry} :
    e ∈ (snapshot store now).1 ↔ live store e.key now = some e.entry := by
  rw [← lookup_purgeExpiredKeys, snapshot_fst, List.mem_map]
  constructor
  · rintro ⟨⟨k, entry⟩, he, rfl⟩
    exact AList.mem_lookup_iff.mpr he
  · intro he
    exact ⟨⟨e.key, e.entry⟩, AList.mem_lookup_iff.mp he, rfl⟩

theorem lookup_foldl_load (now : ℚ) (k : String) (entry : Entry) {rows : List SnapshotEntry}
    (hkeys : (rows.map SnapshotEntry.key).Nodup) (hnew : ∀ e ∈ rows, store.lookup e.key = none) :
    (rows.foldl (fun store e => if e.entry.Live now then store.insert e.key e.entry else store) store).lookup k =
        some entry ↔
      store.lookup k = some entry ∨ ∃ e ∈ rows, e.key = k ∧ e.entry = entry ∧ entry.Live now := by
  induction rows generalizing store with
  | nil => simp
  | cons e rows ih =>
      simp only [List.map_cons, List.nodup_cons, List.mem_map, not_exists, not_and] at hkeys
      simp only [List.mem_cons, forall_eq_or_imp] at hnew
      rw [List.foldl_cons]
      by_cases hlive : e.entry.Live now
      · rw [if_pos hlive, ih hkeys.2 ?_]
        · by_cases hk : k = e.key
          · subst hk
            have hrest : ∀ e' ∈ rows, e'.key ≠ e.key := hkeys.1
            simp only [AList.lookup_insert, hnew.1, Option.some.injEq, reduceCtorEq, false_or, List.mem_cons,
              exists_eq_or_imp, true_and]
            constructor
            · rintro (rfl | ⟨e', he', hk', _⟩)
              · exact .inl ⟨rfl, hlive⟩
              · exact absurd hk' (hrest e' he')
            · rintro (⟨rfl, _⟩ | ⟨e', he', hk', _⟩)
              · exact .inl rfl
              · exact absurd hk' (hrest e' he')
          · simp [AList.lookup_insert_ne hk, Ne.symm hk]
        · intro e' he'
          rw [AList.lookup_insert_ne (hkeys.1 e' he')]
          exact hnew.2 e' he'
      · rw [if_neg hlive, ih hkeys.2 hnew.2]
        constructor
        · rintro (h | ⟨e', he', h⟩)
          · exact .inl h
          · exact .inr ⟨e', by simp [he'], h⟩
        · rintro (h | ⟨e', he', hk', rfl, hl⟩)
          · exact .inl h
          · rcases List.mem_cons.mp he' with rfl | he'
            · exact absurd hl hlive
            · exact .inr ⟨e', he', hk', rfl, hl⟩

theorem lookup_loadSnapshot {rows : List SnapshotEntry} (hkeys : (rows.map SnapshotEntry.key).Nodup) (now : ℚ)
    (k : String) (entry : Entry) :
    (loadSnapshot rows now).lookup k = some entry ↔ ∃ e ∈ rows, e.key = k ∧ e.entry = entry ∧ entry.Live now := by
  rw [loadSnapshot, lookup_foldl_load now k entry hkeys (fun _ _ => rfl)]
  simp

/-- What a restart makes of the entry of a key. -/
theorem lookup_restart {rows : List SnapshotEntry} (hrows : LoadEntries (snapshot store now).1 rows) (hle : now ≤ later)
    (k : String) : (loadSnapshot rows later).lookup k = live store k later := by
  have hkeys : (rows.map SnapshotEntry.key).Nodup := (hrows.map _).nodup_iff.mpr (snapshot_keys store now)
  apply Option.ext
  intro entry
  rw [lookup_loadSnapshot hkeys, live_eq_some]
  constructor
  · rintro ⟨e, he, rfl, rfl, hlive⟩
    exact ⟨(live_eq_some.mp (mem_snapshot.mp (hrows.mem_iff.mp he))).1, hlive⟩
  · rintro ⟨he, hlive⟩
    refine ⟨⟨k, entry.value, entry.expiresAt⟩, hrows.mem_iff.mpr (mem_snapshot.mpr ?_), rfl, rfl, hlive⟩
    exact live_eq_some.mpr ⟨he, fun d hd => hle.trans_lt (hlive d hd)⟩

end Ticketing.Storage
