import Ticketing.Lib.Program

namespace Interaction

variable {Op : Type} {Res : Op → Type} {ε α σ E ι : Type} [DecidableEq ι]

/-- A shared state and the rest of the program of each thread. -/
structure Pool (ι σ : Type) (Op : Type) (Res : Op → Type) (ε α : Type) where
  state : σ
  threads : ι → Program Op Res ε α

namespace Pool

variable {h : Program.Handler E σ Op Res ε}

/-- One turn: thread `t.1` executes its next call, if it has one. -/
def step (h : Program.Handler E σ Op Res ε) (c : Pool ι σ Op Res ε α) (t : ι × E) :
    Pool ι σ Op Res ε α :=
  match c.threads t.1 with
  | .call op k => ⟨(h t.2 c.state op).2, Function.update c.threads t.1 (k (h t.2 c.state op).1)⟩
  | _ => c

def runs (h : Program.Handler E σ Op Res ε) (c : Pool ι σ Op Res ε α) (schedule : List (ι × E)) :
    Pool ι σ Op Res ε α :=
  schedule.foldl (step h) c

def nextOp (c : Pool ι σ Op Res ε α) (i : ι) : Option Op :=
  match c.threads i with
  | .call op _ => some op
  | _ => none

@[simp] theorem runs_nil (c : Pool ι σ Op Res ε α) : c.runs h [] = c := rfl

@[simp] theorem runs_cons (c : Pool ι σ Op Res ε α) (t : ι × E) (ts : List (ι × E)) :
    c.runs h (t :: ts) = (c.step h t).runs h ts := rfl

theorem runs_append (c : Pool ι σ Op Res ε α) (ts us : List (ι × E)) :
    c.runs h (ts ++ us) = (c.runs h ts).runs h us :=
  List.foldl_append

theorem step_call (c : Pool ι σ Op Res ε α) (i : ι) (e : E) {op : Op}
    {k : Except ε (Res op) → Program Op Res ε α} (hc : c.threads i = .call op k) :
    c.step h (i, e) = ⟨(h e c.state op).2, Function.update c.threads i (k (h e c.state op).1)⟩ := by
  simp [step, hc]

theorem step_threads_ne (c : Pool ι σ Op Res ε α) {t : ι × E} {j : ι} (hj : j ≠ t.1) :
    (c.step h t).threads j = c.threads j := by
  unfold step
  split
  · exact Function.update_of_ne hj _ _
  · rfl

/-- A thread that has no turn stays where it is. -/
theorem runs_threads_ne (c : Pool ι σ Op Res ε α) {ts : List (ι × E)} {i : ι} (hi : ∀ t ∈ ts, t.1 ≠ i) :
    (c.runs h ts).threads i = c.threads i := by
  induction ts generalizing c with
  | nil => rfl
  | cons t ts ih =>
      rw [runs_cons, ih (c.step h t) fun u hu => hi u (List.mem_cons_of_mem _ hu)]
      exact step_threads_ne c (hi t List.mem_cons_self).symm

/-- Every turn of the schedule satisfies `P` in the configuration before it. -/
def Throughout (h : Program.Handler E σ Op Res ε) (P : Pool ι σ Op Res ε α → ι × E → Prop) :
    Pool ι σ Op Res ε α → List (ι × E) → Prop
  | _, [] => True
  | c, t :: ts => P c t ∧ Throughout h P (c.step h t) ts

instance decidableThroughout {P : Pool ι σ Op Res ε α → ι × E → Prop} [∀ c t, Decidable (P c t)] :
    ∀ c ts, Decidable (Throughout h P c ts)
  | _, [] => .isTrue trivial
  | c, t :: ts =>
    have := decidableThroughout (P := P) (c.step h t) ts
    inferInstanceAs (Decidable (_ ∧ _))

theorem throughout_append {P : Pool ι σ Op Res ε α → ι × E → Prop} {c : Pool ι σ Op Res ε α}
    {ts us : List (ι × E)} :
    Throughout h P c (ts ++ us) ↔ Throughout h P c ts ∧ Throughout h P (c.runs h ts) us := by
  induction ts generalizing c with
  | nil => simp [Throughout]
  | cons t ts ih => simp [Throughout, ih, and_assoc]

theorem Throughout.mono {P Q : Pool ι σ Op Res ε α → ι × E → Prop} (hPQ : ∀ c t, P c t → Q c t)
    {c : Pool ι σ Op Res ε α} {ts : List (ι × E)} (hP : Throughout h P c ts) : Throughout h Q c ts := by
  induction ts generalizing c with
  | nil => trivial
  | cons t ts ih => exact ⟨hPQ c t hP.1, ih hP.2⟩

/-- What every turn preserves holds after every schedule. -/
theorem runs_invariant {P : Pool ι σ Op Res ε α → ι × E → Prop} {Inv : Pool ι σ Op Res ε α → Prop}
    (hstep : ∀ c t, P c t → Inv c → Inv (c.step h t)) {c : Pool ι σ Op Res ε α} {ts : List (ι × E)}
    (hP : Throughout h P c ts) (hc : Inv c) : Inv (c.runs h ts) := by
  induction ts generalizing c with
  | nil => exact hc
  | cons t ts ih => exact ih hP.2 (hstep c t hP.1 hc)

/-- Threads that each meet their specification under `rely`, and whose steps
`rely` covers, still meet it after any interleaving. -/
theorem runs_sat {rely : σ → σ → Prop} {trans : ι → σ → (op : Op) → Except ε (Res op) → σ → Prop}
    {guar : σ → Op → σ → Prop} {post : ι → Except ε α → σ → Prop}
    (hrefl : ∀ a, rely a a) (htrans : ∀ a b c, rely a b → rely b c → rely a c)
    (hguar : ∀ i s op x s', trans i s op x s' → guar s op s' → rely s s')
    {c : Pool ι σ Op Res ε α} {ts : List (ι × E)}
    (hP : Throughout h (fun c t => ∀ op, c.nextOp t.1 = some op →
      trans t.1 c.state op (h t.2 c.state op).1 (h t.2 c.state op).2) c ts)
    (hc : ∀ i, (c.threads i).Sat rely (trans i) guar (post i) c.state) :
    rely c.state (c.runs h ts).state ∧
      ∀ i, ((c.runs h ts).threads i).Sat rely (trans i) guar (post i) (c.runs h ts).state := by
  induction ts generalizing c with
  | nil => exact ⟨hrefl _, hc⟩
  | cons t ts ih =>
      obtain ⟨i, e⟩ := t
      have key : rely c.state (c.step h (i, e)).state ∧ ∀ j,
          ((c.step h (i, e)).threads j).Sat rely (trans j) guar (post j) (c.step h (i, e)).state := by
        cases hp : c.threads i with
        | ret a => simpa [step, hp] using ⟨hrefl c.state, hc⟩
        | raise x => simpa [step, hp] using ⟨hrefl c.state, hc⟩
        | call op k =>
            have ht := hP.1 op (by simp [nextOp, hp])
            have hi := hc i
            rw [hp] at hi
            obtain ⟨hg, hk⟩ := hi c.state (hrefl _) _ _ ht
            have hr := hguar i _ _ _ _ ht hg
            rw [step_call c i e hp]
            refine ⟨hr, fun j => ?_⟩
            by_cases hj : j = i
            · subst j; simpa using hk
            · simpa [Function.update_of_ne hj] using (hc j).rely_trans htrans hr
      obtain ⟨hr, hs⟩ := ih hP.2 key.2
      exact ⟨htrans _ _ _ key.1 hr, hs⟩

end Pool

end Interaction
