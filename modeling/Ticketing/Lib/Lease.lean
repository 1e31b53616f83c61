import Mathlib.Order.Lattice
import Mathlib.Tactic.Common

/-- A resource that one party may hold until a deadline and then own. -/
inductive Lease (α τ : Type)
  | free
  | held (holder : α) (deadline : τ)
  | owned (holder : α)
  deriving DecidableEq

namespace Lease

variable {α τ : Type}

inductive Action (α τ : Type)
  | acquire (a : α) (deadline : τ)
  | commit (a : α)
  | release (a : α)

namespace Action

def actor : Action α τ → α
  | acquire a _ => a
  | commit a => a
  | release a => a

end Action

/-! ### Time -/

section Time

variable [LinearOrder τ]

/-- What is left of a lease at a time. -/
def current (now : τ) : Lease α τ → Lease α τ
  | held a d => if d ≤ now then free else held a d
  | l => l

@[simp] theorem current_free (now : τ) : (free : Lease α τ).current now = free := rfl

@[simp] theorem current_owned (now : τ) (a : α) : (owned a : Lease α τ).current now = owned a := rfl

theorem current_held {now d : τ} (h : now < d) (a : α) : (held a d).current now = held a d :=
  if_neg h.not_ge

theorem current_expired {now d : τ} (h : d ≤ now) (a : α) : (held a d).current now = free := if_pos h

@[simp] theorem current_eq_owned {now : τ} {l : Lease α τ} {a : α} : l.current now = owned a ↔ l = owned a := by
  cases l with
  | free => simp
  | owned b => simp
  | held b d => by_cases hd : d ≤ now <;> simp [current, hd]

theorem current_eq_held {now d : τ} {l : Lease α τ} {a : α} : l.current now = held a d ↔ l = held a d ∧ now < d := by
  cases l with
  | free => simp
  | owned b => simp
  | held b e => by_cases he : e ≤ now <;> simp [current, he] <;> grind

theorem current_current {now later : τ} (h : now ≤ later) (l : Lease α τ) :
    (l.current now).current later = l.current later := by
  cases l with
  | free => rfl
  | owned a => rfl
  | held a d =>
      by_cases hd : d ≤ now
      · rw [current_expired hd, current_free, current_expired (hd.trans h)]
      · rw [current_held (not_le.mp hd)]

end Time

/-! ### Actions -/

variable [DecidableEq α]

/-- An action on a lease that has not run out, and whether it succeeds. -/
def act : Action α τ → Lease α τ → Bool × Lease α τ
  | .acquire a d, free => (true, held a d)
  | .acquire a d, held b d' => if b = a then (true, held a d) else (false, held b d')
  | .acquire _ _, owned b => (false, owned b)
  | .commit _, free => (false, free)
  | .commit a, held b d => if b = a then (true, owned a) else (false, held b d)
  | .commit a, owned b => (b = a, owned b)
  | .release _, free => (false, free)
  | .release a, held b d => if b = a then (true, free) else (false, held b d)
  | .release _, owned b => (false, owned b)

/-- Whoever does not hold a lease cannot change it. -/
theorem act_other {x : Action α τ} {a : α} {d : τ} (hx : x.actor ≠ a) :
    act x (held a d) = (false, held a d) := by
  cases x with
  | acquire b e => exact if_neg hx.symm
  | commit b => exact if_neg hx.symm
  | release b => exact if_neg hx.symm

/-- Ownership ends no more. -/
theorem act_owned (x : Action α τ) (a : α) : (act x (owned a)).2 = owned a := by
  cases x <;> rfl

/-- Only a commit makes an owner. -/
theorem act_eq_owned {x : Action α τ} (hx : ∀ b, x ≠ .commit b) {l : Lease α τ} {a : α} :
    (act x l).2 = owned a ↔ l = owned a := by
  cases x with
  | commit b => exact absurd rfl (hx b)
  | acquire b e => cases l <;> simp only [act, reduceCtorEq]; grind
  | release b => cases l <;> simp only [act, reduceCtorEq]; grind

theorem act_failed {x : Action α τ} {l : Lease α τ} (h : (act x l).1 = false) : (act x l).2 = l := by
  cases x <;> cases l <;> simp only [act] at h ⊢ <;> grind

/-- The successful commits are the ones that leave the actor as the owner. -/
theorem act_commit {a : α} {l : Lease α τ} (h : (act (.commit a) l).1 = true) :
    (act (.commit a) l).2 = owned a := by
  cases l with
  | free => cases h
  | held b d =>
      by_cases hb : b = a
      · simp [act, hb]
      · simp [act, hb] at h
  | owned b => simpa [act] using h

end Lease
