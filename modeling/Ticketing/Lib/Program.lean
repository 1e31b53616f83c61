import Mathlib.Logic.Relation
import Mathlib.Logic.Function.Basic

namespace Interaction

/-- A program that calls operations of a signature and may raise. The
continuation of a call receives the answer of the operation, which is itself
either a result or an exception. -/
inductive Program (Op : Type) (Res : Op → Type) (ε α : Type)
  | ret (a : α)
  | raise (e : ε)
  | call (op : Op) (k : Except ε (Res op) → Program Op Res ε α)

variable {Op : Type} {Res : Op → Type} {ε α β γ σ E : Type}

namespace Program

def bind : Program Op Res ε α → (α → Program Op Res ε β) → Program Op Res ε β
  | ret a, f => f a
  | raise e, _ => raise e
  | call op k, f => call op (fun x => (k x).bind f)

def tryCatch : Program Op Res ε α → (ε → Program Op Res ε α) → Program Op Res ε α
  | ret a, _ => ret a
  | raise e, h => h e
  | call op k, h => call op (fun x => (k x).tryCatch h)

instance : Monad (Program Op Res ε) where
  pure := ret
  bind := bind

instance : MonadExceptOf ε (Program Op Res ε) where
  throw := raise
  tryCatch := tryCatch

def ofExcept : Except ε α → Program Op Res ε α
  | .ok a => ret a
  | .error e => raise e

/-- Call one operation; an exception of the operation is raised. -/
def invoke (op : Op) : Program Op Res ε (Res op) := call op ofExcept

@[simp] theorem pure_eq (a : α) : (pure a : Program Op Res ε α) = ret a := rfl

@[simp] theorem throw_eq (e : ε) : (throw e : Program Op Res ε α) = raise e := rfl

@[simp] theorem bind_ret (a : α) (f : α → Program Op Res ε β) : (ret a >>= f) = f a := rfl

@[simp] theorem bind_raise (e : ε) (f : α → Program Op Res ε β) : (raise e >>= f) = raise e := rfl

@[simp] theorem bind_call (op : Op) (k : Except ε (Res op) → Program Op Res ε α)
    (f : α → Program Op Res ε β) : (call op k >>= f) = call op (fun x => k x >>= f) := rfl

@[simp] theorem tryCatch_ret (a : α) (h : ε → Program Op Res ε α) :
    (MonadExcept.tryCatch (ret a) h : Program Op Res ε α) = ret a := rfl

@[simp] theorem tryCatch_raise (e : ε) (h : ε → Program Op Res ε α) :
    (MonadExcept.tryCatch (raise e) h : Program Op Res ε α) = h e := rfl

@[simp] theorem tryCatch_call (op : Op) (k : Except ε (Res op) → Program Op Res ε α)
    (h : ε → Program Op Res ε α) :
    (MonadExcept.tryCatch (call op k) h : Program Op Res ε α) =
      call op (fun x => MonadExcept.tryCatch (k x) h) := rfl

@[simp] theorem ofExcept_ok (a : α) : (ofExcept (.ok a) : Program Op Res ε α) = ret a := rfl

@[simp] theorem ofExcept_error (e : ε) : (ofExcept (.error e) : Program Op Res ε α) = raise e := rfl

theorem invoke_bind (op : Op) (f : Res op → Program Op Res ε α) :
    (invoke op >>= f) = call op (fun x => match x with | .ok a => f a | .error e => raise e) := by
  simp only [invoke, bind_call, call.injEq, heq_eq_eq, true_and]
  funext x
  cases x <;> rfl

theorem invoke_tryCatch_bind (op : Op) (f : ε → Program Op Res ε (Res op)) (g : Res op → Program Op Res ε α) :
    (MonadExcept.tryCatch (invoke op) f >>= g) =
      call op (fun x => match x with | .ok a => g a | .error e => f e >>= g) := by
  simp only [invoke, tryCatch_call, bind_call, call.injEq, heq_eq_eq, true_and]
  funext x
  cases x <;> rfl

theorem bind_assoc (p : Program Op Res ε α) (f : α → Program Op Res ε β) (g : β → Program Op Res ε γ) :
    ((p >>= f) >>= g) = (p >>= fun a => f a >>= g) := by
  induction p with
  | ret a => rfl
  | raise e => rfl
  | call op k ih => simp only [bind_call, ih]

/-! ### Sequential execution -/

/-- What one operation does to the state, for each choice of the environment. -/
abbrev Handler (E σ : Type) (Op : Type) (Res : Op → Type) (ε : Type) :=
  E → σ → (op : Op) → Except ε (Res op) × σ

structure Event (E σ Op : Type) where
  env : E
  before : σ
  op : Op
  after : σ

/-- Execute a program on its own; the `n`-th call meets the `n`-th choice of
the environment. -/
def run (h : Handler E σ Op Res ε) : Program Op Res ε α → σ → (Nat → E) → Except ε α × σ
  | ret a, s, _ => (.ok a, s)
  | raise e, s, _ => (.error e, s)
  | call op k, s, env =>
      (k (h (env 0) s op).1).run h (h (env 0) s op).2 (fun n => env (n + 1))

def events (h : Handler E σ Op Res ε) : Program Op Res ε α → σ → (Nat → E) → List (Event E σ Op)
  | ret _, _, _ => []
  | raise _, _, _ => []
  | call op k, s, env =>
      ⟨env 0, s, op, (h (env 0) s op).2⟩ ::
        (k (h (env 0) s op).1).events h (h (env 0) s op).2 (fun n => env (n + 1))

/-- Execute a program in one fixed environment, as one atomic action. -/
def atomically (h : Handler E σ Op Res ε) (e : E) (p : Program Op Res ε α) (s : σ) :
    Except ε α × σ :=
  p.run h s (fun _ => e)

variable {h : Handler E σ Op Res ε}

@[simp] theorem run_ret (a : α) (s : σ) (env : Nat → E) :
    (ret a : Program Op Res ε α).run h s env = (.ok a, s) := rfl

@[simp] theorem run_raise (e : ε) (s : σ) (env : Nat → E) :
    (raise e : Program Op Res ε α).run h s env = (.error e, s) := rfl

theorem run_call (op : Op) (k : Except ε (Res op) → Program Op Res ε α) (s : σ) (env : Nat → E) :
    (call op k).run h s env =
      (k (h (env 0) s op).1).run h (h (env 0) s op).2 (fun n => env (n + 1)) := rfl

@[simp] theorem events_ret (a : α) (s : σ) (env : Nat → E) :
    (ret a : Program Op Res ε α).events h s env = [] := rfl

@[simp] theorem events_raise (e : ε) (s : σ) (env : Nat → E) :
    (raise e : Program Op Res ε α).events h s env = [] := rfl

theorem events_call (op : Op) (k : Except ε (Res op) → Program Op Res ε α) (s : σ) (env : Nat → E) :
    (call op k).events h s env = ⟨env 0, s, op, (h (env 0) s op).2⟩ ::
      (k (h (env 0) s op).1).events h (h (env 0) s op).2 (fun n => env (n + 1)) := rfl

/-- The choices of the environment that a program leaves for what follows it. -/
def rest (h : Handler E σ Op Res ε) (p : Program Op Res ε α) (s : σ) (env : Nat → E) : Nat → E :=
  fun n => env (n + (p.events h s env).length)

@[simp] theorem rest_ret (a : α) (s : σ) (env : Nat → E) :
    rest h (ret a : Program Op Res ε α) s env = env := rfl

@[simp] theorem rest_raise (e : ε) (s : σ) (env : Nat → E) :
    rest h (raise e : Program Op Res ε α) s env = env := rfl

theorem rest_call (op : Op) (k : Except ε (Res op) → Program Op Res ε α) (s : σ) (env : Nat → E) :
    rest h (call op k) s env =
      rest h (k (h (env 0) s op).1) (h (env 0) s op).2 (fun n => env (n + 1)) := rfl

theorem run_bind (p : Program Op Res ε α) (f : α → Program Op Res ε β) (s : σ) (env : Nat → E) :
    (p >>= f).run h s env = match p.run h s env with
      | (.ok a, s') => (f a).run h s' (rest h p s env)
      | (.error e, s') => (.error e, s') := by
  induction p generalizing s env with
  | ret a => rfl
  | raise e => rfl
  | call op k ih => simpa only [bind_call, run_call, rest_call] using ih _ _ (fun n => env (n + 1))

theorem run_tryCatch (p : Program Op Res ε α) (f : ε → Program Op Res ε α) (s : σ) (env : Nat → E) :
    (MonadExcept.tryCatch p f).run h s env = match p.run h s env with
      | (.ok a, s') => (.ok a, s')
      | (.error e, s') => (f e).run h s' (rest h p s env) := by
  induction p generalizing s env with
  | ret a => rfl
  | raise e => rfl
  | call op k ih => simpa only [tryCatch_call, run_call, rest_call] using ih _ _ (fun n => env (n + 1))

theorem events_bind (p : Program Op Res ε α) (f : α → Program Op Res ε β) (s : σ) (env : Nat → E) :
    (p >>= f).events h s env = p.events h s env ++ match p.run h s env with
      | (.ok a, s') => (f a).events h s' (rest h p s env)
      | (.error _, _) => [] := by
  induction p generalizing s env with
  | ret a => rfl
  | raise e => rfl
  | call op k ih =>
      simpa only [bind_call, events_call, run_call, rest_call, List.cons_append, List.cons.injEq, true_and] using
        ih _ _ (fun n => env (n + 1))

theorem events_tryCatch (p : Program Op Res ε α) (f : ε → Program Op Res ε α) (s : σ) (env : Nat → E) :
    (MonadExcept.tryCatch p f).events h s env = p.events h s env ++ match p.run h s env with
      | (.ok _, _) => []
      | (.error e, s') => (f e).events h s' (rest h p s env) := by
  induction p generalizing s env with
  | ret a => exact (List.append_nil _).symm
  | raise e => rfl
  | call op k ih =>
      simpa only [tryCatch_call, events_call, run_call, rest_call, List.cons_append, List.cons.injEq, true_and] using
        ih _ _ (fun n => env (n + 1))

theorem mem_events_bind {p : Program Op Res ε α} {f : α → Program Op Res ε β} {s : σ} {env : Nat → E} {ev : Event E σ Op} :
    ev ∈ (p >>= f).events h s env ↔ ev ∈ p.events h s env ∨
      ∃ a s', p.run h s env = (.ok a, s') ∧ ev ∈ (f a).events h s' (rest h p s env) := by
  rw [events_bind, List.mem_append]
  rcases p.run h s env with ⟨x, s'⟩
  cases x <;> simp [and_assoc]

theorem mem_events_tryCatch {p : Program Op Res ε α} {f : ε → Program Op Res ε α} {s : σ} {env : Nat → E}
    {ev : Event E σ Op} : ev ∈ (MonadExcept.tryCatch p f).events h s env ↔ ev ∈ p.events h s env ∨
      ∃ e s', p.run h s env = (.error e, s') ∧ ev ∈ (f e).events h s' (rest h p s env) := by
  rw [events_tryCatch, List.mem_append]
  rcases p.run h s env with ⟨x, s'⟩
  cases x <;> simp [and_assoc]

theorem events_env {p : Program Op Res ε α} {s : σ} {env : Nat → E} {ev : Event E σ Op}
    (hev : ev ∈ p.events h s env) : ∃ n, ev.env = env n := by
  induction p generalizing s env with
  | ret a => simp at hev
  | raise e => simp at hev
  | call op k ih =>
      rw [events_call, List.mem_cons] at hev
      rcases hev with rfl | hev
      · exact ⟨0, rfl⟩
      · obtain ⟨n, hn⟩ := ih _ hev
        exact ⟨n + 1, hn⟩

theorem events_after {p : Program Op Res ε α} {s : σ} {env : Nat → E} {ev : Event E σ Op}
    (hev : ev ∈ p.events h s env) : ev.after = (h ev.env ev.before ev.op).2 := by
  induction p generalizing s env with
  | ret a => simp at hev
  | raise e => simp at hev
  | call op k ih =>
      rw [events_call, List.mem_cons] at hev
      rcases hev with rfl | hev
      · rfl
      · exact ih _ hev

/-- A program that only goes on to return does no more. -/
theorem events_map (p : Program Op Res ε α) (f : α → β) (s : σ) (env : Nat → E) :
    (p >>= fun a => ret (f a)).events h s env = p.events h s env := by
  rw [events_bind]
  split <;> simp

/-- What a step has brought about and no later step undoes holds in the end. -/
theorem events_stable {I : σ → Prop} {p : Program Op Res ε α} {s : σ} {env : Nat → E}
    (hI : ∀ ev ∈ p.events h s env, I ev.before → I ev.after)
    (hs : I s ∨ ∃ ev ∈ p.events h s env, I ev.after) : I (p.run h s env).2 := by
  induction p generalizing s env with
  | ret a => simpa using hs
  | raise e => simpa using hs
  | call op k ih =>
      simp only [events_call, List.mem_cons, forall_eq_or_imp, exists_eq_or_imp] at hI hs
      refine ih _ hI.2 ?_
      rcases hs with hs | hs | hs
      · exact .inl (hI.1 hs)
      · exact .inl hs
      · exact .inr hs

/-- What holds at first and is undone by no step holds before every step. -/
theorem events_invariant {I : σ → Prop} {p : Program Op Res ε α} {s : σ} {env : Nat → E}
    (hI : ∀ ev ∈ p.events h s env, I ev.before → I ev.after) (hs : I s) : ∀ ev ∈ p.events h s env, I ev.before := by
  induction p generalizing s env with
  | ret a => simp
  | raise e => simp
  | call op k ih =>
      simp only [events_call, List.mem_cons, forall_eq_or_imp] at hI ⊢
      exact ⟨hs, ih _ hI.2 (hI.1 hs)⟩

/-- What does not hold at first and holds in the end is brought about by a step. -/
theorem events_change {I : σ → Prop} {p : Program Op Res ε α} {s : σ} {env : Nat → E} (hs : ¬ I s)
    (hend : I (p.run h s env).2) : ∃ ev ∈ p.events h s env, ¬ I ev.before ∧ I ev.after := by
  by_contra hno
  refine events_stable (I := fun s => ¬ I s) (fun ev hev hbefore hafter => ?_) (.inl hs) hend
  exact hno ⟨ev, hev, hbefore, hafter⟩

@[simp] theorem atomically_ret (e : E) (a : α) (s : σ) :
    atomically h e (ret a : Program Op Res ε α) s = (.ok a, s) := rfl

@[simp] theorem atomically_raise (e : E) (x : ε) (s : σ) :
    atomically h e (raise x : Program Op Res ε α) s = (.error x, s) := rfl

@[simp] theorem atomically_call (e : E) (op : Op) (k : Except ε (Res op) → Program Op Res ε α) (s : σ) :
    atomically h e (call op k) s = atomically h e (k (h e s op).1) (h e s op).2 := rfl

theorem atomically_bind (e : E) (p : Program Op Res ε α) (f : α → Program Op Res ε β) (s : σ) :
    atomically h e (p >>= f) s = match atomically h e p s with
      | (.ok a, s') => atomically h e (f a) s'
      | (.error x, s') => (.error x, s') := run_bind p f s _

theorem atomically_tryCatch (e : E) (p : Program Op Res ε α) (f : ε → Program Op Res ε α) (s : σ) :
    atomically h e (MonadExcept.tryCatch p f) s = match atomically h e p s with
      | (.ok a, s') => (.ok a, s')
      | (.error x, s') => atomically h e (f x) s' := run_tryCatch p f s _

/-! ### Programs that return -/

/-- The program returns `a` in the state `s'`, after `n` operations. -/
structure Returns (h : Handler E σ Op Res ε) (p : Program Op Res ε α) (s : σ) (env : Nat → E) (a : α) (s' : σ)
    (n : Nat) : Prop where
  run : p.run h s env = (.ok a, s')
  length : (p.events h s env).length = n

theorem returns_ret (a : α) (s : σ) (env : Nat → E) : Returns h (ret a : Program Op Res ε α) s env a s 0 := ⟨rfl, rfl⟩

theorem returns_invoke {op : Op} {s s' : σ} {env : Nat → E} {a : Res op} (ha : h (env 0) s op = (.ok a, s')) :
    Returns h (Program.invoke op : Program Op Res ε (Res op)) s env a s' 1 := by
  constructor
  · rw [Program.invoke, run_call, ha]
    rfl
  · rw [Program.invoke, events_call, ha]
    rfl

theorem Returns.rest {p : Program Op Res ε α} {s s' : σ} {env : Nat → E} {a : α} {n : Nat}
    (hp : Returns h p s env a s' n) : Program.rest h p s env = fun i => env (i + n) := by
  funext i
  rw [Program.rest, hp.length]

theorem Returns.run_bind {p : Program Op Res ε α} {f : α → Program Op Res ε β} {s s' : σ} {env : Nat → E} {a : α} {n : Nat}
    (hp : Returns h p s env a s' n) : (p >>= f).run h s env = (f a).run h s' (fun i => env (i + n)) := by
  rw [Program.run_bind, hp.run, hp.rest]

theorem Returns.bind {p : Program Op Res ε α} {f : α → Program Op Res ε β} {s s' s'' : σ} {env : Nat → E} {a : α} {b : β}
    {n m : Nat} (hp : Returns h p s env a s' n) (hf : Returns h (f a) s' (fun i => env (i + n)) b s'' m) :
    Returns h (p >>= f) s env b s'' (n + m) := by
  constructor
  · rw [hp.run_bind, hf.run]
  · rw [events_bind, hp.run, List.length_append, hp.length, hp.rest]
    exact congrArg (n + ·) hf.length

theorem Returns.tryCatch {p : Program Op Res ε α} {f : ε → Program Op Res ε α} {s s' : σ} {env : Nat → E} {a : α} {n : Nat}
    (hp : Returns h p s env a s' n) : Returns h (MonadExcept.tryCatch p f) s env a s' n := by
  constructor
  · rw [run_tryCatch, hp.run]
  · rw [events_tryCatch, hp.run, List.append_nil, hp.length]

/-! ### The operations that a program may call -/

def Calls (P : Op → Prop) : Program Op Res ε α → Prop
  | ret _ => True
  | raise _ => True
  | call op k => P op ∧ ∀ x, (k x).Calls P

theorem Calls.bind {P : Op → Prop} {p : Program Op Res ε α} {f : α → Program Op Res ε β} (hp : p.Calls P)
    (hf : ∀ a, (f a).Calls P) : (p >>= f).Calls P := by
  induction p with
  | ret a => exact hf a
  | raise e => trivial
  | call op k ih => exact ⟨hp.1, fun x => ih x (hp.2 x)⟩

theorem Calls.tryCatch {P : Op → Prop} {p : Program Op Res ε α} {f : ε → Program Op Res ε α} (hp : p.Calls P)
    (hf : ∀ e, (f e).Calls P) : (MonadExcept.tryCatch p f : Program Op Res ε α).Calls P := by
  induction p with
  | ret a => trivial
  | raise e => exact hf e
  | call op k ih => exact ⟨hp.1, fun x => ih x (hp.2 x)⟩

theorem Calls.ofExcept (P : Op → Prop) (x : Except ε α) : (Program.ofExcept x : Program Op Res ε α).Calls P := by
  cases x <;> trivial

theorem Calls.invoke {P : Op → Prop} {op : Op} (h : P op) : (Program.invoke op : Program Op Res ε _).Calls P :=
  ⟨h, fun x => Calls.ofExcept P x⟩

theorem Calls.mono {P Q : Op → Prop} (hPQ : ∀ op, P op → Q op) {p : Program Op Res ε α} (hp : p.Calls P) :
    p.Calls Q := by
  induction p with
  | ret a => trivial
  | raise e => trivial
  | call op k ih => exact ⟨hPQ op hp.1, fun x => ih x (hp.2 x)⟩

theorem Calls.events {P : Op → Prop} {p : Program Op Res ε α} (hp : p.Calls P) (s : σ) (env : Nat → E) :
    ∀ ev ∈ p.events h s env, P ev.op := by
  induction p generalizing s env with
  | ret a => simp
  | raise e => simp
  | call op k ih =>
      simp only [events_call, List.mem_cons, forall_eq_or_imp]
      exact ⟨hp.1, ih _ (hp.2 _) _ _⟩

/-! ### A rely and guarantee logic -/

/-- `Sat rely trans guar post p s`: started in a state that the other parties
may have moved from `s` along `rely`, every step of `p` that `trans` allows
satisfies `guar`, and every end of `p` satisfies `post`. -/
def Sat (rely : σ → σ → Prop) (trans : σ → (op : Op) → Except ε (Res op) → σ → Prop)
    (guar : σ → Op → σ → Prop) (post : Except ε α → σ → Prop) : Program Op Res ε α → σ → Prop
  | ret a, s => ∀ s', rely s s' → post (.ok a) s'
  | raise e, s => ∀ s', rely s s' → post (.error e) s'
  | call op k, s => ∀ s₁, rely s s₁ → ∀ x s₂, trans s₁ op x s₂ →
      guar s₁ op s₂ ∧ Sat rely trans guar post (k x) s₂

section Rules

variable {rely : σ → σ → Prop} {trans : σ → (op : Op) → Except ε (Res op) → σ → Prop}
  {guar : σ → Op → σ → Prop} {post : Except ε α → σ → Prop} {s s' : σ}

theorem Sat.mono {post' : Except ε α → σ → Prop} {p : Program Op Res ε α}
    (h : Sat rely trans guar post p s) (hpost : ∀ x s', post x s' → post' x s') :
    Sat rely trans guar post' p s := by
  induction p generalizing s with
  | ret a => exact fun s' hs => hpost _ _ (h s' hs)
  | raise e => exact fun s' hs => hpost _ _ (h s' hs)
  | call op k ih => exact fun s₁ hs x s₂ ht => ⟨(h s₁ hs x s₂ ht).1, ih x (h s₁ hs x s₂ ht).2⟩

theorem Sat.rely_trans (htrans : ∀ a b c, rely a b → rely b c → rely a c) {p : Program Op Res ε α}
    (h : Sat rely trans guar post p s) (hs : rely s s') : Sat rely trans guar post p s' := by
  cases p with
  | ret a => exact fun t ht => h t (htrans _ _ _ hs ht)
  | raise e => exact fun t ht => h t (htrans _ _ _ hs ht)
  | call op k => exact fun t ht => h t (htrans _ _ _ hs ht)

/-- What holds under interference holds under less of it. -/
theorem Sat.weaken {rely' : σ → σ → Prop} (hrely : ∀ a b, rely' a b → rely a b) {p : Program Op Res ε α}
    (h : Sat rely trans guar post p s) : Sat rely' trans guar post p s := by
  induction p generalizing s with
  | ret a => exact fun s' hs => h s' (hrely _ _ hs)
  | raise e => exact fun s' hs => h s' (hrely _ _ hs)
  | call op k ih => exact fun s₁ hs x s₂ ht => ⟨(h s₁ (hrely _ _ hs) x s₂ ht).1, ih x (h s₁ (hrely _ _ hs) x s₂ ht).2⟩

/-- The state in which a program ends, for the next program to start from. -/
theorem Sat.bind (hrefl : ∀ a, rely a a) {post' : Except ε β → σ → Prop} {p : Program Op Res ε α}
    {f : α → Program Op Res ε β}
    (h : Sat rely trans guar post p s)
    (hok : ∀ a s', post (.ok a) s' → Sat rely trans guar post' (f a) s')
    (herr : ∀ e s', post (.error e) s' → post' (.error e) s') :
    Sat rely trans guar post' (p >>= f) s := by
  induction p generalizing s with
  | ret a => exact hok a s (h s (hrefl s))
  | raise e => exact fun s' hs => herr e s' (h s' hs)
  | call op k ih => exact fun s₁ hs x s₂ ht => ⟨(h s₁ hs x s₂ ht).1, ih x (h s₁ hs x s₂ ht).2⟩

/-- A postcondition of the results only. -/
def onOk (Q : α → σ → Prop) : Except ε α → σ → Prop
  | .ok a, s => Q a s
  | .error _, _ => True

/-- Where only results matter, an exception ends a sequence. -/
theorem Sat.seq (hrefl : ∀ a, rely a a) {Q : α → σ → Prop} {Q' : β → σ → Prop} {p : Program Op Res ε α}
    {f : α → Program Op Res ε β} (h : Sat rely trans guar (onOk Q) p s)
    (hok : ∀ a s', Q a s' → Sat rely trans guar (onOk Q') (f a) s') :
    Sat rely trans guar (onOk Q') (p >>= f) s :=
  h.bind hrefl hok fun _ _ _ => trivial

theorem Sat.tryCatch (hrefl : ∀ a, rely a a) {post' : Except ε α → σ → Prop}
    {p : Program Op Res ε α} {f : ε → Program Op Res ε α}
    (h : Sat rely trans guar post p s)
    (hok : ∀ a s', post (.ok a) s' → post' (.ok a) s')
    (herr : ∀ e s', post (.error e) s' → Sat rely trans guar post' (f e) s') :
    Sat rely trans guar post' (MonadExcept.tryCatch p f) s := by
  induction p generalizing s with
  | ret a => exact fun s' hs => hok a s' (h s' hs)
  | raise e => exact herr e s (h s (hrefl s))
  | call op k ih => exact fun s₁ hs x s₂ ht => ⟨(h s₁ hs x s₂ ht).1, ih x (h s₁ hs x s₂ ht).2⟩

theorem Sat.invoke {op : Op} {post : Except ε (Res op) → σ → Prop}
    (h : ∀ s₁, rely s s₁ → ∀ x s₂, trans s₁ op x s₂ → guar s₁ op s₂ ∧ ∀ s', rely s₂ s' → post x s') :
    Sat rely trans guar post (Program.invoke op) s := by
  intro s₁ hs x s₂ ht
  obtain ⟨hg, hp⟩ := h s₁ hs x s₂ ht
  refine ⟨hg, ?_⟩
  cases x with
  | ok a => exact hp
  | error e => exact hp

/-- What the other parties and the guarantee keep is kept. -/
theorem Sat.frame {I : σ → Prop} (hrely : ∀ a b, rely a b → I a → I b)
    (hguar : ∀ s op x s', trans s op x s' → guar s op s' → I s → I s') {p : Program Op Res ε α}
    (h : Sat rely trans guar post p s) (hs : I s) : Sat rely trans guar (fun x s' => post x s' ∧ I s') p s := by
  induction p generalizing s with
  | ret a => exact fun s' hr => ⟨h s' hr, hrely _ _ hr hs⟩
  | raise e => exact fun s' hr => ⟨h s' hr, hrely _ _ hr hs⟩
  | call op k ih =>
      intro s₁ hr x s₂ ht
      obtain ⟨hg, hk⟩ := h s₁ hr x s₂ ht
      exact ⟨hg, ih x hk (hguar _ _ _ _ ht hg (hrely _ _ hr hs))⟩

/-- Operations that keep an invariant, whatever their order. -/
theorem Calls.sat {P : Op → Prop} {I : σ → Prop} (hrely : ∀ a b, rely a b → I a → I b)
    (hstep : ∀ s op x s', P op → trans s op x s' → I s → guar s op s' ∧ I s') {p : Program Op Res ε α}
    (hp : p.Calls P) (hs : I s) : Sat rely trans guar (fun _ s' => I s') p s := by
  induction p generalizing s with
  | ret a => exact fun s' hr => hrely _ _ hr hs
  | raise e => exact fun s' hr => hrely _ _ hr hs
  | call op k ih =>
      intro s₁ hr x s₂ ht
      obtain ⟨hg, hI⟩ := hstep s₁ op x s₂ hp.1 ht (hrely _ _ hr hs)
      exact ⟨hg, ih x (hp.2 x) hI⟩

end Rules

/-- A program on its own meets what the logic proves with no interference. -/
theorem Sat.run {trans : σ → (op : Op) → Except ε (Res op) → σ → Prop}
    {guar : σ → Op → σ → Prop} {post : Except ε α → σ → Prop} {p : Program Op Res ε α} {s : σ}
    (hs : Sat Eq trans guar post p s) {env : Nat → E}
    (ht : ∀ ev ∈ p.events h s env, trans ev.before ev.op (h ev.env ev.before ev.op).1 (h ev.env ev.before ev.op).2) :
    post (p.run h s env).1 (p.run h s env).2 ∧
      ∀ ev ∈ p.events h s env, guar ev.before ev.op ev.after := by
  induction p generalizing s env with
  | ret a => exact ⟨hs s rfl, by simp⟩
  | raise e => exact ⟨hs s rfl, by simp⟩
  | call op k ih =>
      simp only [events_call, List.mem_cons, forall_eq_or_imp] at ht ⊢
      obtain ⟨hg, hk⟩ := hs s rfl _ _ ht.1
      obtain ⟨hp, he⟩ := ih _ hk ht.2
      exact ⟨hp, hg, he⟩

end Program

end Interaction
