import Ticketing.Storage.Engine

namespace Ticketing.Storage

open Python JsonText

/-! ### Queues as text -/

theorem mapM_queueItem (queue : List Str) : (queue.map Value.str).mapM queueItem = some queue := by
  induction queue with
  | nil => rfl
  | cons s queue ih =>
      rw [List.map_cons, List.mapM_cons, ih]
      rfl

theorem queueItem_mapM {items : List Value} {queue : List Str} (h : items.mapM queueItem = some queue) :
    items = queue.map Value.str := by
  induction items generalizing queue with
  | nil => cases h; rfl
  | cons v items ih =>
      rw [List.mapM_cons] at h
      obtain ⟨s, hs, h⟩ := Option.bind_eq_some_iff.mp h
      obtain ⟨rest, hrest, h⟩ := Option.bind_eq_some_iff.mp h
      cases h
      cases v <;> cases hs
      rw [ih hrest, List.map_cons]

theorem legibleItems_str {queue : List Str} (h : ∀ s ∈ queue, s.Joined) : LegibleItems (queue.map .str) := by
  induction queue with
  | nil => trivial
  | cons s queue ih => exact ⟨h s List.mem_cons_self, ih fun t ht => h t (List.mem_cons_of_mem _ ht)⟩

/-- Reading a queue undoes writing it, where reading has nothing to join. -/
theorem deserialize_serializeQueue {queue : List Str} (h : ∀ s ∈ queue, s.Joined) :
    deserializeQueue (serializeQueue queue) = .ok queue := by
  have hl : Legible (.array (queue.map .str)) := legibleItems_str h
  simp only [deserializeQueue, loadJson, serializeQueue, loads_legible hl, mapM_queueItem]

theorem deserializeQueue_joined {raw : String} {queue : List Str} (h : deserializeQueue raw = .ok queue) :
    ∀ s ∈ queue, s.Joined := by
  rw [deserializeQueue, loadJson] at h
  cases hl : loads raw with
  | none => rw [hl] at h; cases h
  | some v =>
      rw [hl] at h
      cases v with
      | array items =>
          dsimp only at h
          cases hm : items.mapM queueItem with
          | none => rw [hm] at h; cases h
          | some q =>
              rw [hm] at h
              cases h
              intro s hs
              apply loads_joined hl s
              rw [queueItem_mapM hm]
              exact List.mem_map_of_mem hs
      | null | bool _ | number _ | str _ | object _ => cases h

end Ticketing.Storage
