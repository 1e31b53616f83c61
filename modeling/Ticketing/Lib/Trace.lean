import Mathlib.Logic.Basic
import Mathlib.Order.Defs.PartialOrder

/-! Runs of a deterministic step over a list of inputs. -/

namespace Trace

variable {σ α : Type} {step : σ → α → σ} {P Q : σ → α → Prop} {s : σ} {xs ys : List α}

/-- Every input of the run satisfies `P` in the state it meets. -/
def Along (step : σ → α → σ) (P : σ → α → Prop) : σ → List α → Prop
  | _, [] => True
  | s, x :: xs => P s x ∧ Along step P (step s x) xs

theorem Along.mono (hPQ : ∀ s x, P s x → Q s x) (h : Along step P s xs) : Along step Q s xs := by
  induction xs generalizing s with
  | nil => trivial
  | cons x xs ih => exact ⟨hPQ s x h.1, ih h.2⟩

theorem Along.and (h : Along step P s xs) (h' : Along step Q s xs) : Along step (fun s x => P s x ∧ Q s x) s xs := by
  induction xs generalizing s with
  | nil => trivial
  | cons x xs ih => exact ⟨⟨h.1, h'.1⟩, ih h.2 h'.2⟩

theorem Along.and_mem {R : α → Prop} (h : Along step P s xs) (hR : ∀ x ∈ xs, R x) :
    Along step (fun s x => P s x ∧ R x) s xs := by
  induction xs generalizing s with
  | nil => trivial
  | cons x xs ih => exact ⟨⟨h.1, hR x List.mem_cons_self⟩, ih h.2 fun y hy => hR y (List.mem_cons_of_mem x hy)⟩

/-- What every step preserves holds at the end of every run. -/
theorem Along.invariant {I : σ → Prop} (hstep : ∀ s x, P s x → I s → I (step s x)) (h : Along step P s xs)
    (hs : I s) : I (xs.foldl step s) := by
  induction xs generalizing s with
  | nil => exact hs
  | cons x xs ih => exact ih h.2 (hstep s x h.1 hs)

instance decidableAlong [∀ s x, Decidable (P s x)] : ∀ s xs, Decidable (Along step P s xs)
  | _, [] => .isTrue trivial
  | s, x :: xs =>
    have := decidableAlong (step s x) xs
    inferInstanceAs (Decidable (_ ∧ _))

/-! ### Answers -/

section Answers

variable {τ β T : Type}

/-- What the steps of a run answer. -/
def answers (step : σ → α → β × σ) : σ → List α → List β
  | _, [] => []
  | s, x :: xs => (step s x).1 :: answers step (step s x).2 xs

theorem answers_append (step : σ → α → β × σ) (s : σ) (xs ys : List α) : answers step s (xs ++ ys) =
    answers step s xs ++ answers step (xs.foldl (fun s x => (step s x).2) s) ys := by
  induction xs generalizing s with
  | nil => rfl
  | cons x xs ih =>
      rw [List.cons_append, answers, answers, ih]
      rfl

theorem answers_length (step : σ → α → β × σ) (s : σ) (xs : List α) : (answers step s xs).length = xs.length := by
  induction xs generalizing s with
  | nil => rfl
  | cons x xs ih => rw [answers, List.length_cons, List.length_cons, ih]

/-- Two machines that stay related, on a clock that never goes back, answer alike. -/
theorem answers_eq [Preorder T] {time : α → T} {R : T → σ → τ → Prop} {Q : α → Prop} {step : σ → α → β × σ}
    {step' : τ → α → β × τ} (hlater : ∀ t t' s s', t ≤ t' → R t s s' → R t' s s')
    (hstep : ∀ x s s', Q x → R (time x) s s' →
      (step s x).1 = (step' s' x).1 ∧ R (time x) (step s x).2 (step' s' x).2)
    {t : T} {xs : List α} (htime : (t :: xs.map time).Pairwise (· ≤ ·)) (hQ : ∀ x ∈ xs, Q x) {s : σ} {s' : τ}
    (h : R t s s') : answers step s xs = answers step' s' xs := by
  induction xs generalizing t s s' with
  | nil => rfl
  | cons x xs ih =>
      obtain ⟨ht, hrest⟩ := List.pairwise_cons.mp htime
      have hx := hstep x s s' (hQ x (by simp)) (hlater t (time x) s s' (ht _ (by simp)) h)
      rw [answers, answers, hx.1, ih hrest (fun y hy => hQ y (by simp [hy])) hx.2]

end Answers

/-! ### Loops -/

section Loops

variable {round : σ → Option σ}

/-- The loop is left after at most so many rounds. -/
inductive Halts (round : σ → Option σ) : Nat → σ → Prop
  | exit {n s} (h : round s = none) : Halts round n s
  | round {n s s'} (h : round s = some s') (rest : Halts round n s') : Halts round (n + 1) s

theorem Halts.more {n m : Nat} {s : σ} (h : Halts round n s) (hle : n ≤ m) : Halts round m s := by
  induction h generalizing m with
  | exit h => exact .exit h
  | @round n s s' h rest ih =>
      cases m with
      | zero => exact absurd hle (Nat.not_succ_le_zero n)
      | succ m => exact .round h (ih (Nat.le_of_succ_le_succ hle))

/-- Every round makes the state smaller by `k`. -/
theorem halts_of_decrease {size : σ → Nat} {k : Nat} (hk : 0 < k)
    (h : ∀ s s', round s = some s' → size s' + k ≤ size s) (s : σ) : Halts round (size s / k) s := by
  induction hn : size s using Nat.strongRecOn generalizing s with
  | ind n ih =>
      cases hr : round s with
      | none => exact .exit hr
      | some s' =>
          have hlen := h s s' hr
          rw [hn] at hlen
          have hrest := ih (size s') (Nat.lt_of_lt_of_le (Nat.lt_add_of_pos_right hk) hlen) s' rfl
          have hle : size s' / k ≤ (n - k) / k := Nat.div_le_div_right (Nat.le_sub_of_add_le hlen)
          rw [Nat.div_eq_sub_div hk (Nat.le_trans (Nat.le_add_left k _) hlen)]
          exact .round hr (hrest.more hle)

end Loops

end Trace
