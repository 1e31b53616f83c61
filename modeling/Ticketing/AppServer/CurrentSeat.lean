import Ticketing.AppServer.SeatCalls

namespace Ticketing.AppServer

open Python JsonText Commands Server
open Storage (Store seatKey Records SeatLease leaseStatus records_unique)

/-! ### What a seat is at a time -/

variable {redis : Store} {key e s u : String} {now now' : ℚ} {l : SeatLease}

/-- The store shows a lease that has not run out. -/
def Shows (redis : Store) (key : String) (now : ℚ) (l : SeatLease) : Prop :=
  ∃ l₀, Records redis key l₀ ∧ l₀.current now = l

theorem Shows.unique {l' : SeatLease} (h : Shows redis key now l) (h' : Shows redis key now l') : l = l' := by
  obtain ⟨l₀, hl₀, rfl⟩ := h
  obtain ⟨l₁, hl₁, rfl⟩ := h'
  rw [records_unique hl₀ hl₁]

theorem Shows.later (h : Shows redis key now l) (hle : now ≤ now') : Shows redis key now' (l.current now') := by
  obtain ⟨l₀, hl₀, rfl⟩ := h
  exact ⟨l₀, hl₀, (Lease.current_current hle l₀).symm⟩

theorem Shows.current (h : Shows redis key now l) : l.current now = l := by
  obtain ⟨l₀, _, rfl⟩ := h
  exact Lease.current_current le_rfl l₀

theorem Shows.live {d : ℚ} (h : Shows redis key now (.held u d)) : now < d :=
  (Lease.current_eq_held.mp h.current).2

theorem Shows.lookup {redis' : Store} (h : Shows redis key now l) (he : redis'.lookup key = redis.lookup key) :
    Shows redis' key now l := by
  obtain ⟨l₀, hl₀, hl⟩ := h
  exact ⟨l₀, he.trans hl₀, hl⟩

theorem Shows.purge (h : Shows redis key now l) (k : String) : Shows (Storage.purge redis k now) key now l := by
  obtain ⟨l₀, hl₀, rfl⟩ := h
  by_cases hk : key = k
  · subst hk
    exact ⟨_, hl₀.purge now, Lease.current_current le_rfl l₀⟩
  · exact ⟨l₀, (Storage.lookup_purge_ne now hk).trans hl₀, rfl⟩

/-! ### What Redis reports of it -/

def stateText : SeatLease → String
  | .free => "AVAILABLE"
  | .held .. => "HELD"
  | .owned _ => "CONFIRMED"

def holder : SeatLease → Option String
  | .free => none
  | .held u _ => some u
  | .owned u => some u

def remainingSeconds (now : ℚ) : SeatLease → Int
  | .held _ d => max 0 ⌈d - now⌉
  | _ => -1

theorem leaseStatus_eq (now : ℚ) (l : SeatLease) :
    leaseStatus now l = ⟨Str.ofString (stateText l), (holder l).map Str.ofString, remainingSeconds now l⟩ := by
  cases l <;> rfl

theorem Shows.reported (h : Shows redis (seatKey e s) now l) :
    reported redis e s now = match strInt (remainingSeconds now l) with
      | .ok _ => .ok ⟨stateText l, holder l, remainingSeconds now l⟩
      | .error e => .error ⟨.conflictError, "ERR " ++ formatErrorMessage e⟩ := by
  obtain ⟨l₀, hl₀, rfl⟩ := h
  rw [reported_records hl₀, leaseStatus_eq]
  exact readStatus_text _ _ _

theorem Shows.reported_eq {status : SeatStatus} (h : Shows redis (seatKey e s) now l)
    (hr : AppServer.reported redis e s now = .ok status) : status.state = stateText l ∧ status.userId = holder l := by
  rw [h.reported] at hr
  split at hr <;> cases hr
  exact ⟨rfl, rfl⟩

/-- The rest of a hold is short enough for the server to spell. -/
def Brief (now : ℚ) (l : SeatLease) : Prop := ∀ u d, l = .held u d → d < now + floatOverflow

theorem strInt_of_natAbs_le {n : Int} (h : n.natAbs ≤ floatOverflow) : ∃ text, strInt n = .ok text := by
  have hpow (a b : Nat) (hab : a < b) : 2 ^ a < 10 ^ b :=
    (Nat.pow_le_pow_left (by decide) a).trans_lt (Nat.pow_lt_pow_right (by decide) hab)
  have hfloat : floatOverflow ≤ 2 ^ 1024 := by
    unfold floatOverflow
    exact Nat.sub_le _ _
  have hlt : n.natAbs < 10 ^ maxStrDigits := (h.trans hfloat).trans_lt (hpow _ _ (by decide))
  exact ⟨_, if_pos ((Nat.length_toDigits_le_iff (by decide) (by decide)).mpr hlt)⟩

theorem Brief.spelled (h : Brief now l) : ∃ text, strInt (remainingSeconds now l) = .ok text := by
  have hneg : ∃ text, strInt (-1) = .ok text := ⟨"-1", by decide +kernel⟩
  cases l with
  | free => exact hneg
  | owned u => exact hneg
  | held u d =>
      refine strInt_of_natAbs_le ?_
      have hc : ⌈d - now⌉ ≤ (floatOverflow : Int) := by
        refine Int.ceil_le.mpr ?_
        have := h u d rfl
        push_cast
        linarith
      simp only [remainingSeconds]
      omega

theorem Shows.status (h : Shows redis (seatKey e s) now l) (hb : Brief now l) :
    AppServer.reported redis e s now = .ok ⟨stateText l, holder l, remainingSeconds now l⟩ := by
  obtain ⟨text, ht⟩ := hb.spelled
  rw [h.reported, ht]

theorem Brief.mono (h : Brief now l) (hle : now ≤ now') : Brief now' l := by
  intro u d hl
  have := h u d hl
  linarith

theorem brief_held {n : Int} (hn : 0 < n) (hf : n.natAbs < floatOverflow) : Brief now (.held u (now + n)) := by
  intro v d hd
  cases hd
  have : n < floatOverflow := by omega
  have : (n : ℚ) < floatOverflow := by exact_mod_cast this
  linarith

theorem Brief.later (h : Brief now l) (hle : now ≤ now') : Brief now' (l.current now') := by
  intro u d hl
  have := h u d (Lease.current_eq_held.mp hl).1
  linarith

theorem stateText_held {l : SeatLease} (h : stateText l = "HELD") (hu : holder l = some u) : ∃ d, l = .held u d := by
  cases l with
  | free => simp [stateText] at h
  | owned v => simp [stateText] at h
  | held v d =>
      cases hu
      exact ⟨d, rfl⟩

/-! ### What the commands do to it -/

theorem shows_force (redis : Store) (e s u : String) (now : ℚ) :
    Shows (step redis (now, ["FORCE_CONFIRM_SEAT", e, s, u])) (seatKey e s) now (.owned u) :=
  ⟨_, force_step redis e s u now, rfl⟩

theorem Shows.release (h : Shows redis (seatKey e s) now l) (u : String) :
    Shows (step redis (now, ["RELEASE_SEAT", e, s, u])) (seatKey e s) now (Lease.act (.release u) l).2 := by
  obtain ⟨l₀, hl₀, rfl⟩ := h
  refine ⟨_, release_step hl₀, ?_⟩
  cases hl : l₀.current now with
  | free => rfl
  | owned v => rfl
  | held v d =>
      by_cases hv : v = u
      · simp [Lease.act, hv]
      · simpa [Lease.act, hv] using Lease.current_held (Lease.current_eq_held.mp hl).2 v

/-- What a reservation comes to: it leaves the seat to time, or holds it from now on. -/
theorem Shows.reserve {text : String} {n : Int} (h : Shows redis (seatKey e s) now l) (htext : strInt n = .ok text)
    (u : String) :
    (Shows (step redis (now, ["RESERVE_SEAT", e, s, u, text])) (seatKey e s) now l ∧
        ∀ r, (redisReply ["RESERVE_SEAT", e, s, u, text] now redis).1 >>= decodeSeatCommand = .ok r → r.success = false) ∨
      0 < n ∧ n.natAbs < floatOverflow ∧ (l = .free ∨ ∃ d, l = .held u d) ∧
        Shows (step redis (now, ["RESERVE_SEAT", e, s, u, text])) (seatKey e s) now (.held u (now + n)) ∧
        (redisReply ["RESERVE_SEAT", e, s, u, text] now redis).1 >>= decodeSeatCommand =
          .ok ⟨true, "HELD", some u, n⟩ := by
  obtain ⟨l₀, hl₀, rfl⟩ := h
  rcases reserve_reply htext redis e s u now with ⟨⟨hn, hf, hg⟩, hr, hreply⟩ | ⟨_, hs, hr⟩
  · rw [hl₀.live, Storage.grants_leaseEntry] at hg
    refine .inr ⟨hn, hf, hg, ⟨_, hr, Lease.current_held ?_ u⟩, hreply⟩
    have : (0 : ℚ) < n := by exact_mod_cast hn
    linarith
  · refine .inl ⟨?_, hr⟩
    rcases hs with hs | hs <;> rw [hs]
    · exact ⟨l₀, hl₀, rfl⟩
    · exact ⟨_, hl₀.purge now, Lease.current_current le_rfl l₀⟩

end Ticketing.AppServer
