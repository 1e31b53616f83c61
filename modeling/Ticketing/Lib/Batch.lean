import Ticketing.Lib.Program
import Mathlib.Data.List.Forall2

/-! Items one after another, each of which acts on its own part of the state. -/

namespace Interaction

open Program

variable {Op : Type} {Res : Op → Type} {ε E σ κ V α β γ : Type} {h : Handler E σ Op Res ε}

theorem exists_of_forall₂ {R : α → β → Prop} {as : List α} {bs : List β} (hr : List.Forall₂ R as bs) :
    ∀ a ∈ as, ∃ b ∈ bs, R a b := by
  induction hr with
  | nil => simp
  | cons hab _ ih =>
      simp only [List.mem_cons, forall_eq_or_imp, exists_eq_or_imp]
      exact ⟨.inl hab, fun a ha => .inr (ih a ha)⟩

theorem forall₂_imp {R S : α → β → Prop} {as : List α} {bs : List β} (hr : List.Forall₂ R as bs)
    (h : ∀ a ∈ as, ∀ b, R a b → S a b) : List.Forall₂ S as bs := by
  induction hr with
  | nil => exact .nil
  | cons hab _ ih => exact .cons (h _ List.mem_cons_self _ hab) (ih fun a ha => h a (List.mem_cons_of_mem _ ha))

/-- Run the items in turn, and collect their results. -/
def collect (item : α → Program Op Res ε β) : List α → Program Op Res ε (List β)
  | [] => .ret []
  | a :: as => item a >>= fun b => collect item as >>= fun bs => .ret (b :: bs)

/-- What an operation on a part answers and makes of the part depends on the part alone, and
an operation on another part leaves the part as it is. -/
structure Local (h : Handler E σ Op Res ε) (part : Op → Option κ) (view : κ → σ → V) (same : E → E → Prop) : Prop where
  answer : ∀ k op e e' s s', part op = some k → same e e' → view k s = view k s' → (h e s op).1 = (h e' s' op).1
  effect : ∀ k op e e' s s', part op = some k → same e e' → view k s = view k s' →
    view k (h e s op).2 = view k (h e' s' op).2
  frame : ∀ k k' op e s, part op = some k' → k' ≠ k → view k (h e s op).2 = view k s

/-- The steps of two histories meet the same, as far as both go. -/
def Alike (same : E → E → Prop) (xs ys : List (Event E σ Op)) : Prop :=
  ∀ (i : Nat) (x y : Event E σ Op), xs[i]? = some x → ys[i]? = some y → same x.env y.env

variable {same : E → E → Prop} {xs ys zs ts : List (Event E σ Op)}

theorem Alike.head {x y : Event E σ Op} (ha : Alike same (x :: xs) (y :: ys)) : same x.env y.env := ha 0 x y rfl rfl

theorem Alike.tail {x y : Event E σ Op} (ha : Alike same (x :: xs) (y :: ys)) : Alike same xs ys :=
  fun i => ha (i + 1)

theorem Alike.left (ha : Alike same (xs ++ zs) (ys ++ ts)) : Alike same xs ys := by
  intro i x y hx hy
  refine ha i x y ?_ ?_
  · rw [List.getElem?_append_left (List.getElem?_eq_some_iff.mp hx).1]
    exact hx
  · rw [List.getElem?_append_left (List.getElem?_eq_some_iff.mp hy).1]
    exact hy

theorem Alike.right (ha : Alike same (xs ++ zs) (ys ++ ts)) (hlen : xs.length = ys.length) : Alike same zs ts := by
  intro i x y hx hy
  refine ha (xs.length + i) x y ?_ ?_
  · rwa [List.getElem?_append_right (Nat.le_add_right _ _), Nat.add_sub_cancel_left]
  · rwa [hlen, List.getElem?_append_right (Nat.le_add_right _ _), Nat.add_sub_cancel_left]

section Parts

variable {part : Op → Option κ} {view : κ → σ → V} {k : κ} {s s' : σ} {env env' : Nat → E}

/-- Two runs on a part that looks the same do the same. -/
theorem Local.run_eq (hl : Local h part view same) {p : Program Op Res ε α}
    (hp : p.Calls (fun op => part op = some k)) (hv : view k s = view k s')
    (ha : Alike same (p.events h s env) (p.events h s' env')) :
    (p.run h s env).1 = (p.run h s' env').1 ∧ view k (p.run h s env).2 = view k (p.run h s' env').2 ∧
      (p.events h s env).map Event.op = (p.events h s' env').map Event.op := by
  induction p generalizing s s' env env' with
  | ret a => exact ⟨rfl, hv, rfl⟩
  | raise e => exact ⟨rfl, hv, rfl⟩
  | call op next ih =>
      rw [events_call, events_call] at ha
      have hanswer := hl.answer k op _ _ s s' hp.1 ha.head hv
      have heffect := hl.effect k op _ _ s s' hp.1 ha.head hv
      have hrest := ha.tail
      rw [← hanswer] at hrest
      obtain ⟨hrun, hview, hops⟩ := ih _ (hp.2 _) heffect hrest
      simp only [run_call, events_call, List.map_cons, ← hanswer]
      exact ⟨hrun, hview, by rw [hops]⟩

theorem Local.run_frame (hl : Local h part view same) {p : Program Op Res ε α}
    (hp : p.Calls (fun op => ∃ k', part op = some k' ∧ k' ≠ k)) (s : σ) (env : Nat → E) :
    view k (p.run h s env).2 = view k s := by
  induction p generalizing s env with
  | ret a => rfl
  | raise e => rfl
  | call op next ih =>
      obtain ⟨k', hpart, hne⟩ := hp.1
      rw [run_call, ih _ (hp.2 _)]
      exact hl.frame k k' op _ s hpart hne

/-! ### Batches -/

variable {item : α → Program Op Res ε β} {place : α → κ} {as : List α}

theorem events_collect_cons (item : α → Program Op Res ε β) (a : α) (as : List α) (s : σ) (env : Nat → E) {b : β}
    (hb : ((item a).run h s env).1 = .ok b) : (collect item (a :: as)).events h s env =
      (item a).events h s env ++ (collect item as).events h ((item a).run h s env).2 (rest h (item a) s env) := by
  rw [collect, events_bind]
  generalize (item a).run h s env = r at hb
  obtain ⟨x, s'⟩ := r
  cases hb
  dsimp only
  rw [events_bind]
  split <;> simp

theorem run_collect_cons (item : α → Program Op Res ε β) (a : α) (as : List α) (s : σ) (env : Nat → E) {b : β} {bs : List β}
    (hb : ((item a).run h s env).1 = .ok b)
    (hbs : ((collect item as).run h ((item a).run h s env).2 (rest h (item a) s env)).1 = .ok bs) :
    (collect item (a :: as)).run h s env =
      (.ok (b :: bs), ((collect item as).run h ((item a).run h s env).2 (rest h (item a) s env)).2) := by
  rw [collect, Program.run_bind]
  generalize (item a).run h s env = r at hb hbs
  obtain ⟨x, s'⟩ := r
  cases hb
  dsimp only at hbs ⊢
  rw [Program.run_bind]
  generalize (collect item as).run h s' _ = r at hbs
  obtain ⟨y, s''⟩ := r
  cases hbs
  rfl

theorem calls_collect {P : Op → Prop} (hp : ∀ a ∈ as, (item a).Calls P) : (collect item as).Calls P := by
  induction as with
  | nil => trivial
  | cons a as ih =>
      refine (hp a List.mem_cons_self).bind fun b => ?_
      exact (ih fun a' ha' => hp a' (List.mem_cons_of_mem a ha')).bind fun bs => trivial

/-- A step of a batch is a step of one of its items. -/
theorem mem_events_collect {s : σ} {env : Nat → E} {ev : Event E σ Op} (hev : ev ∈ (collect item as).events h s env) :
    ∃ a ∈ as, ∃ s₁ n, ev ∈ (item a).events h s₁ (fun i => env (i + n)) := by
  induction as generalizing s env with
  | nil => cases hev
  | cons a as ih =>
      rcases mem_events_bind.mp hev with hev | ⟨b, s', _, hev⟩
      · exact ⟨a, List.mem_cons_self, s, 0, hev⟩
      rcases mem_events_bind.mp hev with hev | ⟨bs, s'', _, hev⟩
      · obtain ⟨a', ha', s₁, n, hev⟩ := ih hev
        refine ⟨a', List.mem_cons_of_mem a ha', s₁, n + ((item a).events h s env).length, ?_⟩
        simpa only [rest, Nat.add_assoc] using hev
      · cases hev

/-- Where each item has a part to itself, the part is as it was until the item comes, and ends as the item leaves it. -/
theorem Local.collect_run (hl : Local h part view same)
    (hcalls : ∀ a, (item a).Calls (fun op => part op = some (place a)))
    (hret : ∀ a s env, ∃ b, ((item a).run h s env).1 = .ok b) (as : List α) (s : σ) (env : Nat → E) :
    ∃ bs, ((collect item as).run h s env).1 = .ok bs ∧
      List.Forall₂ (fun a b => ∃ s₁ n, ((item a).run h s₁ (fun i => env (i + n))).1 = .ok b ∧
        (item a).events h s₁ (fun i => env (i + n)) ⊆ (collect item as).events h s env ∧
        ((as.map place).Nodup → view (place a) s₁ = view (place a) s ∧
          view (place a) ((collect item as).run h s env).2 =
            view (place a) ((item a).run h s₁ (fun i => env (i + n))).2)) as bs := by
  induction as generalizing s env with
  | nil => exact ⟨[], rfl, .nil⟩
  | cons a as ih =>
      obtain ⟨b, hb⟩ := hret a s env
      obtain ⟨bs, hbs, hitems⟩ := ih ((item a).run h s env).2 (rest h (item a) s env)
      rw [run_collect_cons item a as s env hb hbs, events_collect_cons item a as s env hb]
      refine ⟨b :: bs, rfl, .cons ⟨s, 0, hb, List.subset_append_left _ _, fun hnodup => ⟨rfl, ?_⟩⟩ ?_⟩
      · refine hl.run_frame (calls_collect fun a' ha' => (hcalls a').mono fun op hop => ⟨_, hop, fun he => ?_⟩) _ _
        exact (List.nodup_cons.mp hnodup).1 (List.mem_map.mpr ⟨a', ha', he⟩)
      · refine forall₂_imp hitems fun a' ha' b' ⟨s₁, n, hrun, hevents, hview⟩ => ?_
        have henv : (fun i => rest h (item a) s env (i + n)) =
            fun i => env (i + (n + ((item a).events h s env).length)) := by
          funext i
          rw [rest, Nat.add_assoc]
        rw [henv] at hrun hevents hview
        refine ⟨s₁, _, hrun, fun ev hev => List.mem_append_right _ (hevents hev), fun hnodup => ?_⟩
        obtain ⟨hnew, hnodup⟩ := List.nodup_cons.mp hnodup
        obtain ⟨hstart, hend⟩ := hview hnodup
        refine ⟨hstart.trans (hl.run_frame ((hcalls a).mono fun op hop => ⟨_, hop, fun he => ?_⟩) s env), hend⟩
        exact hnew (List.mem_map.mpr ⟨a', ha', he.symm⟩)

variable [DecidableEq κ]

/-- The steps of a history that act on a part. -/
def onPart (part : Op → Option κ) (k : κ) (events : List (Event E σ Op)) : List (Event E σ Op) :=
  events.filter (fun ev => part ev.op = some k)

theorem onPart_append (k : κ) (xs ys : List (Event E σ Op)) :
    onPart part k (xs ++ ys) = onPart part k xs ++ onPart part k ys := List.filter_append ..

theorem onPart_eq_self (hp : ∀ ev ∈ xs, part ev.op = some k) : onPart part k xs = xs :=
  List.filter_eq_self.mpr fun ev hev => by simpa using hp ev hev

theorem onPart_eq_nil (hp : ∀ ev ∈ xs, part ev.op ≠ some k) : onPart part k xs = [] :=
  List.filter_eq_nil_iff.mpr fun ev hev => by simpa using hp ev hev

/-- Two runs of a batch that agree on a part, and meet the same in the steps on it, do the same there. -/
theorem Local.collect_eq (hl : Local h part view same)
    (hcalls : ∀ a, (item a).Calls (fun op => part op = some (place a)))
    (hret : ∀ a s env, ∃ b, ((item a).run h s env).1 = .ok b) (as : List α) {s s' : σ} {env env' : Nat → E}
    (hv : view k s = view k s') (ha : Alike same (onPart part k ((collect item as).events h s env))
      (onPart part k ((collect item as).events h s' env'))) :
    ∃ bs bs', ((collect item as).run h s env).1 = .ok bs ∧ ((collect item as).run h s' env').1 = .ok bs' ∧
      List.Forall₂ (fun a x => place a = k → x.1 = x.2) as (bs.zip bs') ∧
      view k ((collect item as).run h s env).2 = view k ((collect item as).run h s' env').2 ∧
      (onPart part k ((collect item as).events h s env)).map Event.op =
        (onPart part k ((collect item as).events h s' env')).map Event.op := by
  induction as generalizing s s' env env' with
  | nil => exact ⟨[], [], rfl, rfl, .nil, hv, rfl⟩
  | cons a as ih =>
      obtain ⟨b, hb⟩ := hret a s env
      obtain ⟨b', hb'⟩ := hret a s' env'
      rw [events_collect_cons item a as s env hb, events_collect_cons item a as s' env' hb', onPart_append,
        onPart_append] at ha ⊢
      have hevents (s : σ) (env : Nat → E) : ∀ ev ∈ (item a).events h s env, part ev.op = some (place a) :=
        (hcalls a).events s env
      have hhead : (place a = k → b = b') ∧
          view k ((item a).run h s env).2 = view k ((item a).run h s' env').2 ∧
          (onPart part k ((item a).events h s env)).map Event.op = (onPart part k ((item a).events h s' env')).map Event.op := by
        by_cases hk : place a = k
        · subst hk
          rw [onPart_eq_self (hevents s env), onPart_eq_self (hevents s' env')] at ha ⊢
          obtain ⟨hrun, hview, hops⟩ := hl.run_eq (hcalls a) hv ha.left
          rw [hb, hb'] at hrun
          exact ⟨fun _ => Except.ok.inj hrun, hview, hops⟩
        · have hne (op : Op) (hop : part op = some (place a)) : part op ≠ some k := fun he =>
            hk (Option.some.inj (hop.symm.trans he))
          rw [onPart_eq_nil fun ev hev => hne _ (hevents s env ev hev),
            onPart_eq_nil fun ev hev => hne _ (hevents s' env' ev hev)]
          have hcalls' := (hcalls a).mono fun op hop => (⟨_, hop, hk⟩ : ∃ k', part op = some k' ∧ k' ≠ k)
          exact ⟨fun he => absurd he hk, by rw [hl.run_frame hcalls', hl.run_frame hcalls', hv], rfl⟩
      obtain ⟨hsame, hview, hops⟩ := hhead
      have hlen := congrArg List.length hops
      rw [List.length_map, List.length_map] at hlen
      obtain ⟨bs, bs', hbs, hbs', hitems, hview', hops'⟩ := ih hview (ha.right hlen)
      rw [run_collect_cons item a as s env hb hbs, run_collect_cons item a as s' env' hb' hbs']
      refine ⟨b :: bs, b' :: bs', rfl, rfl, .cons hsame hitems, hview', ?_⟩
      rw [List.map_append, List.map_append, hops, hops']

end Parts

end Interaction
