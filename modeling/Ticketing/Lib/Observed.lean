import Ticketing.Lib.Expanded
import Ticketing.Lib.Pool

/-! Programs that report to a second component, which they do not listen to. -/

namespace Interaction

variable {Op L : Type} {Res : Op → Type} {LRes : L → Type} {ε α β σ τ E ι : Type}

/-- The answers of two components. -/
abbrev Both (Res : Op → Type) (LRes : L → Type) : Op ⊕ L → Type
  | .inl op => Res op
  | .inr l => LRes l

namespace Program

/-- A program of the first component alone. -/
def lift : Program Op Res ε α → Program (Op ⊕ L) (Both Res LRes) ε α
  | ret a => ret a
  | raise e => raise e
  | call op k => call (.inl op) (fun x => (k x).lift)

/-- What is left without the second component, whose answers are taken to be `answer`. -/
def erase (answer : ∀ l, LRes l) : Program (Op ⊕ L) (Both Res LRes) ε α → Program Op Res ε α
  | ret a => ret a
  | raise e => raise e
  | call (.inl op) k => call op (fun x => (k x).erase answer)
  | call (.inr l) k => (k (.ok (answer l))).erase answer

/-- The answers of the second component make no difference. -/
def Deaf (answer : ∀ l, LRes l) : Program (Op ⊕ L) (Both Res LRes) ε α → Prop
  | ret _ => True
  | raise _ => True
  | call (.inl _) k => ∀ x, (k x).Deaf answer
  | call (.inr l) k => ∀ a, (k (.ok a)).Deaf answer ∧ (k (.ok a)).erase answer = (k (.ok (answer l))).erase answer

variable {answer : ∀ l, LRes l}

@[simp] theorem erase_ret (a : α) : (ret a : Program (Op ⊕ L) (Both Res LRes) ε α).erase answer = ret a := rfl

@[simp] theorem erase_raise (e : ε) : (raise e : Program (Op ⊕ L) (Both Res LRes) ε α).erase answer = raise e := rfl

@[simp] theorem erase_lift (p : Program Op Res ε α) :
    (p.lift : Program (Op ⊕ L) (Both Res LRes) ε α).erase answer = p := by
  induction p with
  | ret a => rfl
  | raise e => rfl
  | call op k ih => exact congrArg (call op) (funext ih)

@[simp] theorem erase_bind (p : Program (Op ⊕ L) (Both Res LRes) ε α) (f : α → Program (Op ⊕ L) (Both Res LRes) ε β) :
    (p >>= f).erase answer = (p.erase answer >>= fun a => (f a).erase answer) := by
  induction p with
  | ret a => rfl
  | raise e => rfl
  | call op k ih =>
      cases op with
      | inl op => exact congrArg (call op) (funext ih)
      | inr l => exact ih _

@[simp] theorem erase_tryCatch (p : Program (Op ⊕ L) (Both Res LRes) ε α)
    (f : ε → Program (Op ⊕ L) (Both Res LRes) ε α) :
    (MonadExcept.tryCatch p f : Program (Op ⊕ L) (Both Res LRes) ε α).erase answer =
      MonadExcept.tryCatch (p.erase answer) (fun e => (f e).erase answer) := by
  induction p with
  | ret a => rfl
  | raise e => rfl
  | call op k ih =>
      cases op with
      | inl op => exact congrArg (call op) (funext ih)
      | inr l => exact ih _

theorem Deaf.lift (p : Program Op Res ε α) : (p.lift : Program (Op ⊕ L) (Both Res LRes) ε α).Deaf answer := by
  induction p with
  | ret a => trivial
  | raise e => trivial
  | call op k ih => exact ih

theorem Deaf.bind {p : Program (Op ⊕ L) (Both Res LRes) ε α} {f : α → Program (Op ⊕ L) (Both Res LRes) ε β}
    (hp : p.Deaf answer) (hf : ∀ a, (f a).Deaf answer) : (p >>= f).Deaf answer := by
  induction p with
  | ret a => exact hf a
  | raise e => trivial
  | call op k ih =>
      cases op with
      | inl op => exact fun x => ih x (hp x)
      | inr l =>
          intro a
          obtain ⟨hdeaf, hsame⟩ := hp a
          refine ⟨ih _ hdeaf, ?_⟩
          have heq (x : Except ε (LRes l)) : ((k x).bind f).erase answer =
              ((k x).erase answer).bind fun a => (f a).erase answer := erase_bind _ _
          exact (heq _).trans ((congrArg (Program.bind · _) hsame).trans (heq _).symm)

theorem Deaf.tryCatch {p : Program (Op ⊕ L) (Both Res LRes) ε α} {f : ε → Program (Op ⊕ L) (Both Res LRes) ε α}
    (hp : p.Deaf answer) (hf : ∀ e, (f e).Deaf answer) :
    (MonadExcept.tryCatch p f : Program (Op ⊕ L) (Both Res LRes) ε α).Deaf answer := by
  induction p with
  | ret a => trivial
  | raise e => exact hf e
  | call op k ih =>
      cases op with
      | inl op => exact fun x => ih x (hp x)
      | inr l =>
          intro a
          obtain ⟨hdeaf, hsame⟩ := hp a
          refine ⟨ih _ hdeaf, ?_⟩
          have heq (x : Except ε (LRes l)) : ((k x).tryCatch f).erase answer =
              ((k x).erase answer).tryCatch fun e => (f e).erase answer := erase_tryCatch _ _
          exact (heq _).trans ((congrArg (Program.tryCatch · _) hsame).trans (heq _).symm)

/-- Both components, the second of which never raises. -/
def both (h : Handler E σ Op Res ε) (g : E → τ → (l : L) → LRes l × τ) : Handler E (σ × τ) (Op ⊕ L) (Both Res LRes) ε
  | e, s, .inl op => ((h e s.1 op).1, (h e s.1 op).2, s.2)
  | e, s, .inr l => (.ok (g e s.2 l).1, s.1, (g e s.2 l).2)

theorem Sat.lift {rely : σ → σ → Prop} {trans : σ → (op : Op) → Except ε (Res op) → σ → Prop} {guar : σ → Op → σ → Prop}
    {post : Except ε α → σ → Prop} {rely' : σ × τ → σ × τ → Prop}
    {trans' : σ × τ → (op : Op ⊕ L) → Except ε (Both Res LRes op) → σ × τ → Prop} {guar' : σ × τ → Op ⊕ L → σ × τ → Prop}
    (hrely : ∀ a b, rely' a b → rely a.1 b.1)
    (htrans : ∀ s op x s', trans' s (.inl op) x s' → trans s.1 op x s'.1)
    (hguar : ∀ s op s', guar s.1 op s'.1 → guar' s (.inl op) s') {p : Program Op Res ε α} {s : σ × τ}
    (h : Sat rely trans guar post p s.1) :
    Sat rely' trans' guar' (fun x s' => post x s'.1) (p.lift : Program (Op ⊕ L) (Both Res LRes) ε α) s := by
  induction p generalizing s with
  | ret a => exact fun s' hs => h _ (hrely _ _ hs)
  | raise e => exact fun s' hs => h _ (hrely _ _ hs)
  | call op k ih =>
      intro s₁ hs x s₂ ht
      obtain ⟨hg, hk⟩ := h _ (hrely _ _ hs) _ _ (htrans _ _ _ _ ht)
      exact ⟨hguar _ _ _ hg, ih x hk⟩

/-! ### Expanded programs -/

theorem erase_handle (p : Program (Op ⊕ L) (Both Res LRes) ε α)
    (f : Except ε α → Program (Op ⊕ L) (Both Res LRes) ε β) :
    (p.handle f).erase answer = (p.erase answer).handle fun x => (f x).erase answer := by
  induction p with
  | ret a => rfl
  | raise e => rfl
  | call op k ih =>
      cases op with
      | inl op => exact congrArg (call op) (funext ih)
      | inr l => exact ih _

theorem Deaf.handle {p : Program (Op ⊕ L) (Both Res LRes) ε α}
    {f : Except ε α → Program (Op ⊕ L) (Both Res LRes) ε β} (hp : p.Deaf answer) (hf : ∀ x, (f x).Deaf answer) :
    (p.handle f).Deaf answer := by
  induction p with
  | ret a => exact hf _
  | raise e => exact hf _
  | call op k ih =>
      cases op with
      | inl op => exact fun x => ih x (hp x)
      | inr l =>
          intro a
          obtain ⟨hdeaf, hsame⟩ := hp a
          exact ⟨ih _ hdeaf, by rw [erase_handle, hsame, erase_handle]⟩

/-- The programs that carry out the operations of the first component; the second answers for itself. -/
def alongside (m : (op : Op) → Program Op Res ε (Res op)) :
    (op : Op ⊕ L) → Program (Op ⊕ L) (Both Res LRes) ε (Both Res LRes op)
  | .inl op => lift (m op)
  | .inr l => invoke (Sum.inr l : Op ⊕ L)

section Expand

variable (m : (op : Op) → Program Op Res ε (Res op))

theorem erase_expand (p : Program (Op ⊕ L) (Both Res LRes) ε α) :
    (p.expand (alongside m)).erase answer = (p.erase answer).expand m := by
  induction p with
  | ret a => rfl
  | raise e => rfl
  | call op k ih =>
      cases op with
      | inl op =>
          rw [expand_call, erase_handle, alongside, erase_lift]
          exact congrArg ((m op).handle ·) (funext ih)
      | inr l => exact ih _

theorem Deaf.expand {p : Program (Op ⊕ L) (Both Res LRes) ε α} (hp : p.Deaf answer) :
    (p.expand (alongside m)).Deaf answer := by
  induction p with
  | ret a => trivial
  | raise e => trivial
  | call op k ih =>
      cases op with
      | inl op => exact Deaf.handle (Deaf.lift (m op)) fun x => ih x (hp x)
      | inr l =>
          intro a
          obtain ⟨hdeaf, hsame⟩ := hp a
          refine ⟨ih _ hdeaf, ?_⟩
          show ((k (.ok a)).expand (alongside m)).erase answer = ((k (.ok (answer l))).expand (alongside m)).erase answer
          rw [erase_expand, hsame, erase_expand]

end Expand

theorem lift_invoke (op : Op) :
    (lift (invoke op) : Program (Op ⊕ L) (Both Res LRes) ε (Res op)) = invoke (Sum.inl op : Op ⊕ L) := by
  refine congrArg (call (Sum.inl op)) (funext fun x => ?_)
  cases x <;> rfl

theorem refines_lift {rely : σ → σ → Prop} {trans : σ → (op : Op ⊕ L) → Except ε (Both Res LRes op) → σ → Prop}
    {guar : σ → Op ⊕ L → σ → Prop} (op : Op) : Refines rely trans guar (.inl op) (lift (invoke op)) := by
  intro post s h
  rw [lift_invoke]
  exact h

theorem lift_retried (again : ε → Bool) (report : ε → ε) (op : Op) :
    (lift (retried again report op) : Program (Op ⊕ L) (Both Res LRes) ε (Res op)) =
      retried again report (Sum.inl op : Op ⊕ L) := by
  refine congrArg (call (Sum.inl op)) (funext fun x => ?_)
  cases x with
  | ok a => rfl
  | error e =>
      show lift (if again e then _ else _) = if again e then _ else _
      split
      · refine congrArg (call (Sum.inl op)) (funext fun x => ?_)
        cases x <;> rfl
      · rfl

end Program

namespace Pool

variable [DecidableEq ι] {h : Program.Handler E σ Op Res ε} {g : E → τ → (l : L) → LRes l × τ} {answer : ∀ l, LRes l}

/-- The pool without its second component. -/
def erase (answer : ∀ l, LRes l) (c : Pool ι (σ × τ) (Op ⊕ L) (Both Res LRes) ε α) : Pool ι σ Op Res ε α :=
  ⟨c.state.1, fun i => (c.threads i).erase answer⟩

/-- A turn of the observed pool is a turn of the pool itself, or none. -/
theorem step_erase {c : Pool ι (σ × τ) (Op ⊕ L) (Both Res LRes) ε α} (hc : ∀ i, (c.threads i).Deaf answer) (t : ι × E) :
    ((c.step (Program.both h g) t).erase answer = (c.erase answer).step h t ∨
        (c.step (Program.both h g) t).erase answer = c.erase answer) ∧
      ∀ i, ((c.step (Program.both h g) t).threads i).Deaf answer := by
  obtain ⟨i, e⟩ := t
  cases hp : c.threads i with
  | ret a => simpa [step, hp] using hc
  | raise x => simpa [step, hp] using hc
  | call op k =>
      have hi := hc i
      rw [hp] at hi
      rw [step_call c i e hp]
      cases op with
      | inl op =>
          refine ⟨.inl ?_, fun j => ?_⟩
          · have herased : (c.erase answer).threads i = .call op (fun x => (k x).erase answer) := by
              show (c.threads i).erase answer = _
              rw [hp]
              rfl
            rw [step_call _ i e herased]
            refine congrArg (Pool.mk _) (funext fun j => ?_)
            by_cases hj : j = i
            · subst hj
              simp [Program.both, erase]
            · simp [hj, erase]
          · by_cases hj : j = i
            · subst hj
              simpa using hi _
            · simpa [hj] using hc j
      | inr l =>
          obtain ⟨hdeaf, hsame⟩ := hi (g e c.state.2 l).1
          refine ⟨.inr (congrArg (Pool.mk _) (funext fun j => ?_)), fun j => ?_⟩
          · by_cases hj : j = i
            · subst hj
              dsimp only
              rw [Function.update_self, hp]
              exact hsame
            · dsimp only
              rw [Function.update_of_ne hj]
          · by_cases hj : j = i
            · subst hj
              dsimp only
              rw [Function.update_self]
              exact hdeaf
            · dsimp only
              rw [Function.update_of_ne hj]
              exact hc j

/-- Every run of the observed pool is a run of the pool itself, with some of its turns left out. -/
theorem runs_erase {c : Pool ι (σ × τ) (Op ⊕ L) (Both Res LRes) ε α} (hc : ∀ i, (c.threads i).Deaf answer)
    (ts : List (ι × E)) : ∃ us, us.Sublist ts ∧
      (c.runs (Program.both h g) ts).erase answer = (c.erase answer).runs h us := by
  induction ts generalizing c with
  | nil => exact ⟨[], List.Sublist.refl _, rfl⟩
  | cons t ts ih =>
      obtain ⟨hstep, hdeaf⟩ := step_erase (h := h) (g := g) hc t
      obtain ⟨us, hsub, hruns⟩ := ih hdeaf
      rcases hstep with hstep | hstep
      · exact ⟨t :: us, hsub.cons_cons t, by rw [runs_cons, hruns, hstep, runs_cons]⟩
      · exact ⟨us, hsub.cons t, by rw [runs_cons, hruns, hstep]⟩

end Pool

end Interaction
