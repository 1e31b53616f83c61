import Ticketing.Commands.Reference

namespace Ticketing.Commands

open Python JsonText Storage

/-! ### Seats apart -/

def Request.seat : Request → Option (String × String)
  | .reserveSeat eventId seatId _ _ => some (eventId, seatId)
  | .confirmSeat eventId seatId _ => some (eventId, seatId)
  | .forceConfirmSeat eventId seatId _ => some (eventId, seatId)
  | .releaseSeat eventId seatId _ => some (eventId, seatId)
  | .seatStatus eventId seatId => some (eventId, seatId)
  | _ => none

/-- A command on the seat, with whatever user and time. -/
def OnSeat (p : String × String) (command : List String) : Prop :=
  ∃ r, parseCommand command = .ok r ∧ r.seat = some p

def statusReply (p : String × String) (now : ℚ) (store : Store) : Except Error CommandResult :=
  (handleCommand ["SEAT_STATUS", p.1, p.2] now store).1

/-- The commands on the seat `p` leave the status of `q` as it is, and do not look at it. -/
structure Isolated (p q : String × String) : Prop where
  status : ∀ command, OnSeat p command → ∀ (store : Store) (now now' : ℚ),
    statusReply q now' (handleCommand command now store).2 = statusReply q now' store
  reply : ∀ command, OnSeat p command → ∀ (store store' : Store) (now : ℚ),
    (∀ k, k ≠ seatKey q.1 q.2 → store.lookup k = store'.lookup k) →
      (handleCommand command now store).1 = (handleCommand command now store').1

/-- The text after a colon of the event of `p` has moved over to the seat of `q`. -/
def Shifted (p q : String × String) : Prop := ∃ x, p.1 = q.1 ++ ":" ++ x ∧ q.2 = x ++ ":" ++ p.2

theorem Shifted.seatKey_eq {p q : String × String} (h : Shifted p q) : seatKey p.1 p.2 = seatKey q.1 q.2 := by
  obtain ⟨x, hp, hq⟩ := h
  rw [hp, hq]
  apply String.toList_inj.mp
  simp [seatKey]

theorem shifted_of_append {p q : String × String} {a : List Char} (he : p.1.toList = q.1.toList ++ ':' :: a)
    (hs : q.2.toList = a ++ ':' :: p.2.toList) : Shifted p q := by
  refine ⟨String.ofList a, ?_, ?_⟩ <;>
  · apply String.toList_inj.mp
    simp [he, hs]

theorem seatKey_eq_iff {p q : String × String} :
    seatKey p.1 p.2 = seatKey q.1 q.2 ↔ p = q ∨ Shifted p q ∨ Shifted q p := by
  constructor
  · intro h
    have h : p.1.toList ++ ':' :: p.2.toList = q.1.toList ++ ':' :: q.2.toList := by
      simpa [seatKey] using congrArg String.toList h
    rcases List.append_eq_append_iff.mp h with ⟨a, he, hs⟩ | ⟨a, he, hs⟩
    · cases a with
      | nil =>
          rw [List.append_nil] at he
          exact .inl (Prod.ext (String.toList_inj.mp he.symm) (String.toList_inj.mp (List.cons.inj hs).2))
      | cons c a =>
          obtain ⟨rfl, hrest⟩ := List.cons.inj hs
          exact .inr (.inr (shifted_of_append he hrest))
    · cases a with
      | nil =>
          rw [List.append_nil] at he
          exact .inl (Prod.ext (String.toList_inj.mp he) (String.toList_inj.mp (List.cons.inj hs).2.symm))
      | cons c a =>
          obtain ⟨rfl, hrest⟩ := List.cons.inj hs
          exact .inr (.inl (shifted_of_append he hrest))
  · rintro (rfl | h | h)
    · rfl
    · exact h.seatKey_eq
    · exact h.seatKey_eq.symm

theorem seat_target {r : Request} {p : String × String} (hr : r.seat = some p) :
    r.target.key = seatKey p.1 p.2 ∧ ¬ r.OnQueue := by
  cases r <;> cases hr <;> exact ⟨rfl, by simp [Request.OnQueue, Request.target]⟩

theorem statusReply_eq (p : String × String) (now : ℚ) (store : Store) :
    statusReply p now store = (readSeat (live store (seatKey p.1 p.2) now) now).map seatStatusResult := by
  have hp : parseCommand ["SEAT_STATUS", p.1, p.2] = .ok (.seatStatus p.1 p.2) := rfl
  simp only [statusReply, handleCommand, hp, perform, onResult, seatStatus, seatStatusByKey_eq]

theorem isolated_of_ne {p q : String × String} (h : seatKey p.1 p.2 ≠ seatKey q.1 q.2) : Isolated p q := by
  constructor
  · rintro command ⟨r, hp, hr⟩ store now now'
    obtain ⟨hk, _⟩ := seat_target hr
    have hsame : (perform r now store).2.lookup (seatKey q.1 q.2) = store.lookup (seatKey q.1 q.2) :=
      perform_lookup_ne r now store (by rw [hk]; exact h.symm)
    rw [statusReply_eq, statusReply_eq]
    simp only [handleCommand, hp, live, hsame]
  · rintro command ⟨r, hp, hr⟩ store store' now hsame
    obtain ⟨hk, hq⟩ := seat_target hr
    have hseen : r.seen store now = r.seen store' now := by
      rw [Request.seen, Request.seen, if_neg hq, if_neg hq, live, live, hk, hsame _ h]
    simp only [handleCommand, hp]
    rw [(perform_seen (parseCommand_checked hp) now store).1, (perform_seen (parseCommand_checked hp) now store').1, hseen]

/-- A forced confirmation of a seat is seen on every seat with the same key. -/
theorem not_isolated {p q : String × String} (h : seatKey p.1 p.2 = seatKey q.1 q.2) : ¬ Isolated p q := by
  intro hi
  have hp : parseCommand ["FORCE_CONFIRM_SEAT", p.1, p.2, "u"] = .ok (.forceConfirmSeat p.1 p.2 "u") := rfl
  have hstatus := hi.status _ ⟨_, hp, rfl⟩ ∅ 0 0
  have hrecord : live (handleCommand ["FORCE_CONFIRM_SEAT", p.1, p.2, "u"] 0 ∅).2 (seatKey q.1 q.2) 0 =
      some ⟨serializeSeatRecord seatConfirmed (some (Str.ofString "u")), none⟩ := by
    rw [← h]
    simp only [handleCommand, hp, perform, forceConfirmSeat]
    exact live_eq_some.mpr ⟨AList.lookup_insert _, fun d hd => by cases hd⟩
  have hempty : live ∅ (seatKey q.1 q.2) 0 = none := rfl
  rw [statusReply_eq, statusReply_eq, hrecord, hempty] at hstatus
  revert hstatus
  decide +kernel

/-- Two seats are apart unless one is got from the other by moving text over a colon. -/
theorem isolated_iff (p q : String × String) (hpq : p ≠ q) : Isolated p q ↔ ¬ Shifted p q ∧ ¬ Shifted q p := by
  constructor
  · intro hi
    exact ⟨fun h => not_isolated h.seatKey_eq hi, fun h => not_isolated h.seatKey_eq.symm hi⟩
  · rintro ⟨h, h'⟩
    apply isolated_of_ne
    intro hk
    rcases seatKey_eq_iff.mp hk with rfl | hs | hs
    · exact hpq rfl
    · exact h hs
    · exact h' hs

theorem isolated_plain : Isolated ("e", "s") ("e", "t") := by
  refine (isolated_iff ("e", "s") ("e", "t") (by decide)).mpr ⟨?_, ?_⟩ <;>
  · rintro ⟨x, hx, _⟩
    have := congrArg String.toList hx
    simp at this

theorem colon_shared : ¬ ∀ p q : String × String, p ≠ q → Isolated p q :=
  fun h => not_isolated (Shifted.seatKey_eq ⟨"b", by decide, by decide⟩) (h ("a:b", "c") ("a", "b:c") (by decide))

end Ticketing.Commands
