import Ticketing.Lib.Program

namespace Interaction.Program

variable {Op Op' : Type} {Res : Op → Type} {Res' : Op' → Type} {ε α β γ σ E : Type}

/-! ### Operations that are programs of other operations -/

/-- Go on with the result of a program, whether it has returned or raised. -/
def handle : Program Op Res ε α → (Except ε α → Program Op Res ε β) → Program Op Res ε β
  | ret a, f => f (.ok a)
  | raise e, f => f (.error e)
  | call op k, f => call op fun x => (k x).handle f

/-- Put for every operation the program that carries it out. -/
def expand (m : (op : Op) → Program Op' Res' ε (Res op)) : Program Op Res ε α → Program Op' Res' ε α
  | ret a => ret a
  | raise e => raise e
  | call op k => (m op).handle fun x => (k x).expand m

theorem handle_bind (p : Program Op Res ε α) (f : Except ε α → Program Op Res ε β) (g : β → Program Op Res ε γ) :
    (p.handle f >>= g) = p.handle fun x => f x >>= g := by
  induction p with
  | ret a => rfl
  | raise e => rfl
  | call op k ih => simp only [handle, bind_call, ih]

theorem handle_tryCatch (p : Program Op Res ε α) (f : Except ε α → Program Op Res ε β) (g : ε → Program Op Res ε β) :
    (MonadExcept.tryCatch (p.handle f) g : Program Op Res ε β) = p.handle fun x => MonadExcept.tryCatch (f x) g := by
  induction p with
  | ret a => rfl
  | raise e => rfl
  | call op k ih => simp only [handle, tryCatch_call, ih]

theorem handle_ofExcept (p : Program Op Res ε α) : p.handle ofExcept = p := by
  induction p with
  | ret a => rfl
  | raise e => rfl
  | call op k ih => simp only [handle, ih]

section Expand

variable (m : (op : Op) → Program Op' Res' ε (Res op))

@[simp] theorem expand_ret (a : α) : (ret a : Program Op Res ε α).expand m = ret a := rfl

@[simp] theorem expand_raise (e : ε) : (raise e : Program Op Res ε α).expand m = raise e := rfl

theorem expand_call (op : Op) (k : Except ε (Res op) → Program Op Res ε α) :
    (call op k).expand m = (m op).handle fun x => (k x).expand m := rfl

theorem expand_bind (p : Program Op Res ε α) (f : α → Program Op Res ε β) :
    (p >>= f).expand m = (p.expand m >>= fun a => (f a).expand m) := by
  induction p with
  | ret a => rfl
  | raise e => rfl
  | call op k ih => simp only [bind_call, expand_call, handle_bind, ih]

theorem expand_tryCatch (p : Program Op Res ε α) (f : ε → Program Op Res ε α) :
    (MonadExcept.tryCatch p f : Program Op Res ε α).expand m =
      MonadExcept.tryCatch (p.expand m) fun e => (f e).expand m := by
  induction p with
  | ret a => rfl
  | raise e => rfl
  | call op k ih => simp only [tryCatch_call, expand_call, handle_tryCatch, ih]

theorem expand_ofExcept (x : Except ε α) : (ofExcept x : Program Op Res ε α).expand m = ofExcept x := by
  cases x <;> rfl

/-- An operation is what carries it out. -/
theorem expand_invoke (op : Op) : (invoke op : Program Op Res ε (Res op)).expand m = m op := by
  simp only [invoke, expand_call, expand_ofExcept, handle_ofExcept]

end Expand

theorem Calls.handle {P : Op → Prop} {p : Program Op Res ε α} {f : Except ε α → Program Op Res ε β} (hp : p.Calls P)
    (hf : ∀ x, (f x).Calls P) : (p.handle f).Calls P := by
  induction p with
  | ret a => exact hf _
  | raise e => exact hf _
  | call op k ih => exact ⟨hp.1, fun x => ih x (hp.2 x)⟩

theorem Calls.expand {P : Op → Prop} {P' : Op' → Prop} {m : (op : Op) → Program Op' Res' ε (Res op)}
    (hm : ∀ op, P op → (m op).Calls P') {p : Program Op Res ε α} (hp : p.Calls P) : (p.expand m).Calls P' := by
  induction p with
  | ret a => trivial
  | raise e => trivial
  | call op k ih => exact (hm op hp.1).handle fun x => ih x (hp.2 x)

theorem atomically_handle {h : Handler E σ Op Res ε} (e : E) (p : Program Op Res ε α)
    (f : Except ε α → Program Op Res ε β) (s : σ) :
    atomically h e (p.handle f) s = atomically h e (f (atomically h e p s).1) (atomically h e p s).2 := by
  induction p generalizing s with
  | ret a => rfl
  | raise e => rfl
  | call op k ih => exact ih _ _

/-- Carried out with nothing in between, an expanded program does what the program does. -/
theorem atomically_expand {h : Handler E σ Op Res ε} {h' : Handler E σ Op' Res' ε}
    {m : (op : Op) → Program Op' Res' ε (Res op)} (hm : ∀ e op s, atomically h' e (m op) s = h e s op) (e : E)
    (p : Program Op Res ε α) (s : σ) : atomically h' e (p.expand m) s = atomically h e p s := by
  induction p generalizing s with
  | ret a => rfl
  | raise e => rfl
  | call op k ih => rw [expand_call, atomically_handle, hm, ih, atomically_call]

/-! ### What an expanded program meets -/

section Refinement

variable {rely : σ → σ → Prop} {trans : σ → (op : Op) → Except ε (Res op) → σ → Prop} {guar : σ → Op → σ → Prop}
  {post : Except ε α → σ → Prop} {s : σ}

/-- Whatever an invocation of the operation meets, the program in its place meets as well. -/
def Refines (rely : σ → σ → Prop) (trans : σ → (op : Op) → Except ε (Res op) → σ → Prop) (guar : σ → Op → σ → Prop)
    (op : Op) (p : Program Op Res ε (Res op)) : Prop :=
  ∀ post s, Sat rely trans guar post (invoke op) s → Sat rely trans guar post p s

theorem Sat.handle (hrefl : ∀ a, rely a a) {post : Except ε β → σ → Prop} {p : Program Op Res ε α}
    {f : Except ε α → Program Op Res ε β} (h : Sat rely trans guar (fun x s' => Sat rely trans guar post (f x) s') p s) :
    Sat rely trans guar post (p.handle f) s := by
  induction p generalizing s with
  | ret a => exact h s (hrefl s)
  | raise e => exact h s (hrefl s)
  | call op k ih => exact fun s₁ hs x s₂ ht => ⟨(h s₁ hs x s₂ ht).1, ih x (h s₁ hs x s₂ ht).2⟩

/-- A program whose operations are refined meets what it has met. -/
theorem Sat.expand (hrefl : ∀ a, rely a a) (htrans : ∀ a b c, rely a b → rely b c → rely a c)
    {m : (op : Op) → Program Op Res ε (Res op)} (hm : ∀ op, Refines rely trans guar op (m op)) {p : Program Op Res ε α}
    (h : Sat rely trans guar post p s) : Sat rely trans guar post (p.expand m) s := by
  induction p generalizing s with
  | ret a => exact h
  | raise e => exact h
  | call op k ih =>
      refine Sat.handle hrefl (hm op _ s (Sat.invoke fun s₁ hs x s₂ ht => ?_))
      obtain ⟨hg, hk⟩ := h s₁ hs x s₂ ht
      exact ⟨hg, fun s' hs' => ih x (hk.rely_trans htrans hs')⟩

/-- The operation, and once more after an exception that `again` names; any other exception is raised as `report`
says. -/
def retried (again : ε → Bool) (report : ε → ε) (op : Op) : Program Op Res ε (Res op) :=
  MonadExcept.tryCatch (invoke op) fun e =>
    if again e then MonadExcept.tryCatch (invoke op) fun e => throw (report e) else throw (report e)

/-- A second attempt breaks no promise: the first one, if it took effect, was a step that another party might have
taken, and an operation that can fail can fail with any exception. -/
theorem refines_retried (htrans : ∀ a b c, rely a b → rely b c → rely a c)
    (hguar : ∀ s op x s', trans s op x s' → guar s op s' → rely s s') {op : Op}
    (hfail : ∀ s e e' s', trans s op (.error e) s' → trans s op (.error e') s') (again : ε → Bool) (report : ε → ε) :
    Refines rely trans guar op (retried again report op) := by
  intro post s h s₁ hs x s₂ ht
  obtain ⟨hg, hp⟩ := h s₁ hs x s₂ ht
  refine ⟨hg, ?_⟩
  cases x with
  | ok a => exact hp
  | error e =>
      show Sat rely trans guar post
        (if again e then MonadExcept.tryCatch (invoke op) fun e => throw (report e) else throw (report e)) s₂
      split
      · intro s₃ hs₃ x s₄ ht'
        have hlater : rely s s₃ := htrans _ _ _ (htrans _ _ _ hs (hguar _ _ _ _ ht hg)) hs₃
        obtain ⟨hg', hp'⟩ := h s₃ hlater x s₄ ht'
        refine ⟨hg', ?_⟩
        cases x with
        | ok a => exact hp'
        | error e' => exact (h s₃ hlater (.error (report e')) s₄ (hfail _ _ _ _ ht')).2
      · exact (h s₁ hs (.error (report e)) s₂ (hfail _ _ _ _ ht)).2

end Refinement

end Interaction.Program
