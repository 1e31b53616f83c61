import Ticketing.Server.ExecutorRuns

namespace Ticketing.Server.Executor

open Python Commands Trace

variable {κ σ T : Type} [DecidableEq κ] {S : Service σ T} {x : Executor κ σ T} {k : κ} {command : List String} {n : Nat}

/-! ### The sentinel -/

/-- No task is put after the sentinel. -/
def Early (x : Executor κ σ T) (turn : Turn κ T) : Prop :=
  ∀ k command, turn = .put k → x.calls k = .checked command → x.stop ≠ .sent

/-- Tasks stand before the sentinel only, and the worker ends with an empty queue. -/
def Sealed (x : Executor κ σ T) : Prop :=
  (x.stop ≠ .sent ∧ x.worker ≠ .ended ∧ none ∉ x.queue) ∨
    (x.stop = .sent ∧ x.worker ≠ .ended ∧ ∃ tasks : List (κ × List String), x.queue = tasks.map some ++ [none]) ∨
    (x.stop = .sent ∧ x.worker = .ended ∧ x.queue = [])

theorem map_some_reduceOption {α : Type} {xs : List (Option α)} (h : none ∉ xs) : xs.reduceOption.map some = xs := by
  induction xs with
  | nil => rfl
  | cons y ys ih =>
      rw [List.mem_cons, not_or] at h
      cases y with
      | none => exact absurd rfl h.1
      | some a => rw [List.reduceOption_cons_of_some, List.map_cons, ih h.2]

theorem Sealed.put (h : Sealed x) (hearly : Early x (.put k)) : Sealed (x.put k) := by
  unfold Executor.put
  split
  next command hk =>
    have hsent := hearly k command rfl hk
    rcases h with ⟨hs, hw, hq⟩ | ⟨hs, _⟩ | ⟨hs, _⟩
    · exact .inl ⟨hs, hw, by simpa using hq⟩
    · exact absurd hs hsent
    · exact absurd hs hsent
  next => exact h

theorem Sealed.work (h : Sealed x) (time : T) : Sealed (x.work S time) := by
  unfold Executor.work
  split
  next hidle =>
    split
    next => exact h
    next queue hq =>
      rcases h with ⟨_, _, hnone⟩ | ⟨hs, _, tasks, htasks⟩ | ⟨_, hw, _⟩
      · exact absurd (by simp [hq]) hnone
      · cases tasks with
        | nil =>
            rw [hq] at htasks
            exact .inr (.inr ⟨hs, rfl, (List.cons.inj htasks).2⟩)
        | cons task tasks =>
            rw [hq] at htasks
            cases (List.cons.inj htasks).1
      · rw [hidle] at hw
        cases hw
    next k command queue hq =>
      rcases h with ⟨hs, _, hnone⟩ | ⟨hs, _, tasks, htasks⟩ | ⟨_, hw, _⟩
      · exact .inl ⟨hs, nofun, fun hmem => hnone (by simp [hq, hmem])⟩
      · cases tasks with
        | nil =>
            rw [hq] at htasks
            cases (List.cons.inj htasks).1
        | cons task tasks =>
            rw [hq] at htasks
            exact .inr (.inl ⟨hs, nofun, tasks, (List.cons.inj htasks).2⟩)
      · rw [hidle] at hw
        cases hw
  next k command hholding =>
    rcases h with ⟨hs, _, hnone⟩ | ⟨hs, _, htasks⟩ | ⟨_, hw, _⟩
    · exact .inl ⟨hs, nofun, hnone⟩
    · exact .inr (.inl ⟨hs, nofun, htasks⟩)
    · rw [hholding] at hw
      cases hw
  next => exact h

omit [DecidableEq κ] in
theorem Sealed.halt (h : Sealed x) : Sealed x.halt := by
  unfold Executor.halt
  split
  next hs =>
    rcases h with ⟨_, hw, hnone⟩ | ⟨hsent, _⟩ | ⟨hsent, _⟩
    · exact .inl ⟨nofun, hw, hnone⟩
    · rw [hs] at hsent
      cases hsent
    · rw [hs] at hsent
      cases hsent
  next hs =>
    rcases h with ⟨_, hw, hnone⟩ | ⟨hsent, _⟩ | ⟨hsent, _⟩
    · exact .inr (.inl ⟨rfl, hw, x.queue.reduceOption, by rw [map_some_reduceOption hnone]⟩)
    · rw [hs] at hsent
      cases hsent
    · rw [hs] at hsent
      cases hsent
  next => exact h

theorem Sealed.step (h : Sealed x) {turn : Turn κ T} (hearly : Early x turn) : Sealed (step S x turn) := by
  cases turn with
  | call k command =>
      show Sealed (x.call k command)
      unfold Executor.call
      split <;> exact h
  | put k => exact h.put hearly
  | take k =>
      show Sealed (x.take k)
      unfold Executor.take
      split <;> exact h
  | work time => exact h.work time
  | snapshot time => exact h
  | halt => exact h.halt

/-! ### Tasks ahead -/

def busy : Worker κ → Nat
  | .holding _ _ => 1
  | _ => 0

def Turn.isWork : Turn κ T → Bool
  | .work _ => true
  | _ => false

/-- The worker comes to the task within `n` of its steps. -/
def Ahead (k : κ) (command : List String) (n : Nat) (x : Executor κ σ T) : Prop :=
  (x.worker = .holding k command ∧ 1 ≤ n) ∨
    (x.worker ≠ .ended ∧ ∃ (before : List (κ × List String)) (after : List (Option (κ × List String))),
      x.queue = before.map some ++ some (k, command) :: after ∧ 2 * before.length + 2 + busy x.worker ≤ n)

theorem log_step (S : Service σ T) (x : Executor κ σ T) (turn : Turn κ T) : x.log <+: (step S x turn).log := by
  cases turn with
  | call k command =>
      show x.log <+: (x.call k command).log
      unfold Executor.call
      split <;> exact List.prefix_refl _
  | put k =>
      show x.log <+: (x.put k).log
      unfold Executor.put
      split <;> exact List.prefix_refl _
  | take k =>
      show x.log <+: (x.take k).log
      unfold Executor.take
      split <;> exact List.prefix_refl _
  | work time =>
      show x.log <+: (x.work S time).log
      unfold Executor.work
      split
      · split <;> exact List.prefix_refl _
      · exact List.prefix_append _ _
      · exact List.prefix_refl _
  | snapshot time => exact List.prefix_append _ _
  | halt =>
      show x.log <+: x.halt.log
      unfold Executor.halt
      split <;> exact List.prefix_refl _

theorem log_run (S : Service σ T) (x : Executor κ σ T) (turns : List (Turn κ T)) :
    x.log <+: (turns.foldl (step S) x).log := by
  induction turns generalizing x with
  | nil => exact List.prefix_refl _
  | cons turn turns ih => exact (log_step S x turn).trans (ih _)

theorem Ahead.work (h : Ahead k command (n + 1) x) (time : T) :
    (x.work S time).log = x.log ++ [.ran k command time] ∨ Ahead k command n (x.work S time) := by
  rcases h with ⟨hw, _⟩ | ⟨hw, before, after, hq, hn⟩
  · left
    simp only [Executor.work, hw]
  · right
    cases hworker : x.worker with
    | ended => exact absurd hworker hw
    | holding k' command' =>
        rw [hworker] at hn
        simp only [Executor.work, hworker]
        refine .inr ⟨nofun, before, after, hq, ?_⟩
        simp only [busy] at hn ⊢
        omega
    | idle =>
        rw [hworker] at hn
        cases before with
        | nil =>
            simp only [Executor.work, hworker, hq, List.map_nil, List.nil_append]
            refine .inl ⟨rfl, ?_⟩
            simp only [busy] at hn
            omega
        | cons task before =>
            simp only [Executor.work, hworker, hq, List.map_cons, List.cons_append]
            refine .inr ⟨nofun, before, after, rfl, ?_⟩
            simp only [List.length_cons, busy] at hn ⊢
            omega

/-- The other threads delay no task. -/
theorem Ahead.step (h : Ahead k command n x) {turn : Turn κ T} (hturn : turn.isWork = false) :
    Ahead k command n (step S x turn) := by
  have happend (y : Executor κ σ T) (more : List (Option (κ × List String))) (hw : y.worker = x.worker)
      (hq : y.queue = x.queue ++ more) : Ahead k command n y := by
    unfold Ahead
    rw [hw]
    rcases h with hhold | ⟨hne, before, after, hsplit, hn⟩
    · exact .inl hhold
    · exact .inr ⟨hne, before, after ++ more, by rw [hq, hsplit, List.append_assoc, List.cons_append], hn⟩
  cases turn with
  | call j c =>
      show Ahead k command n (x.call j c)
      unfold Executor.call
      split <;> exact h
  | put j =>
      show Ahead k command n (x.put j)
      unfold Executor.put
      split
      · exact happend _ _ rfl rfl
      · exact h
  | take j =>
      show Ahead k command n (x.take j)
      unfold Executor.take
      split <;> exact h
  | work time => cases hturn
  | snapshot time => exact h
  | halt =>
      show Ahead k command n x.halt
      unfold Executor.halt
      split
      · exact h
      · exact happend _ _ rfl rfl
      · exact h

/-- Whatever the other threads do, enough steps of the worker run the task. -/
theorem Ahead.run (h : Ahead k command n x) {turns : List (Turn κ T)} (hn : n ≤ turns.countP Turn.isWork) :
    ∃ later, (turns.foldl (Executor.step S) x).log = x.log ++ later ∧ ∃ time, .ran k command time ∈ later := by
  induction turns generalizing x n with
  | nil => rcases h with ⟨_, h⟩ | ⟨_, _, _, _, h⟩ <;> simp at hn <;> omega
  | cons turn turns ih =>
      have hgo {m : Nat} (hahead : Ahead k command m (Executor.step S x turn)) (hm : m ≤ turns.countP Turn.isWork) :
          ∃ later, ((turn :: turns).foldl (Executor.step S) x).log = x.log ++ later ∧
            ∃ time, .ran k command time ∈ later := by
        obtain ⟨later, hlater, time, hmem⟩ := ih hahead hm
        obtain ⟨now, hnow⟩ := log_step S x turn
        refine ⟨now ++ later, ?_, time, List.mem_append_right _ hmem⟩
        rw [List.foldl_cons, hlater, ← hnow, List.append_assoc]
      cases hturn : turn.isWork with
      | false => exact hgo (h.step hturn) (by simpa [List.countP_cons, hturn] using hn)
      | true =>
          rw [List.countP_cons_of_pos hturn] at hn
          obtain ⟨time, rfl⟩ : ∃ time, turn = .work time := by
            cases turn <;> first | exact ⟨_, rfl⟩ | cases hturn
          cases n with
          | zero => rcases h with ⟨_, h⟩ | ⟨_, _, _, _, h⟩ <;> omega
          | succ n =>
              rcases h.work (S := S) time with hran | hahead
              · obtain ⟨later, hlater⟩ := log_run S (Executor.step S x (.work time)) turns
                refine ⟨.ran k command time :: later, ?_, time, by simp⟩
                rw [List.foldl_cons, ← hlater]
                show (x.work S time).log ++ later = _
                rw [hran, List.append_assoc, List.singleton_append]
              · exact hgo hahead (by omega)

theorem ahead_of_waiting {s₀ : σ} (h : Coherent S s₀ x) (hs : Sealed x) (hk : x.calls k = .waiting command) :
    Ahead k command (2 * x.queue.length + 1) x := by
  rcases h.waiting k command hk with hmem | hw
  · have hsplit : ∃ before after, x.queue = before ++ some (k, command) :: after ∧ none ∉ before := by
      obtain ⟨before, after, hq⟩ := List.append_of_mem hmem
      refine ⟨before, after, hq, fun hnone => ?_⟩
      rcases hs with ⟨_, _, hnot⟩ | ⟨_, _, tasks, htasks⟩ | ⟨_, _, hempty⟩
      · exact hnot (by simp [hq, hnone])
      · -- the sentinel is the last of the queue
        have hlen := congrArg List.dropLast (hq.symm.trans htasks)
        rw [List.dropLast_concat, List.dropLast_append_of_ne_nil (List.cons_ne_nil _ _)] at hlen
        have hin : (none : Option (κ × List String)) ∈ tasks.map some := hlen ▸ List.mem_append_left _ hnone
        simp at hin
      · simp [hq] at hempty
    obtain ⟨before, after, hq, hnone⟩ := hsplit
    have hended : x.worker ≠ .ended := by
      intro hended
      rcases hs with ⟨_, hw, _⟩ | ⟨_, hw, _⟩ | ⟨_, _, hempty⟩
      · exact hw hended
      · exact hw hended
      · simp [hq] at hempty
    refine .inr ⟨hended, before.reduceOption, after, by rw [map_some_reduceOption hnone, hq], ?_⟩
    have hlen : before.reduceOption.length = before.length := by
      rw [← List.length_map some, map_some_reduceOption hnone]
    have hbusy : busy x.worker ≤ 1 := by
      unfold busy
      split <;> omega
    rw [hq, List.length_append, List.length_cons, hlen]
    omega
  · exact .inl ⟨hw, by omega⟩

/-! ### Runs -/

/-- Where every task is put before the sentinel, the worker never ends before a waiting caller's
task, and it runs every such task within a bounded number of its steps. -/
theorem waiting_executed (S : Service σ T) (storage : σ) {turns : List (Turn κ T)}
    (h : Along (step S) Early (start storage) turns) (hx : turns.foldl (step S) (start storage) = x) :
    (x.worker = .ended → ∀ k command, x.calls k ≠ .waiting command ∧ some (k, command) ∉ x.queue) ∧
      ∀ k command, x.calls k = .waiting command → ∀ more : List (Turn κ T), 2 * x.queue.length + 1 ≤ more.countP Turn.isWork →
        ∃ later, (more.foldl (step S) x).log = x.log ++ later ∧ ∃ time, .ran k command time ∈ later := by
  have hinv : Coherent S storage x ∧ Sealed x := hx ▸ h.invariant
    (I := fun x => Coherent S storage x ∧ Sealed x)
    (fun x turn hearly hx => ⟨hx.1.step turn, hx.2.step hearly⟩)
    ⟨coherent_start S storage, .inl ⟨nofun, nofun, List.not_mem_nil⟩⟩
  refine ⟨fun hended k command => ?_, fun k command hk more hmore => (ahead_of_waiting hinv.1 hinv.2 hk).run hmore⟩
  have hqueue : x.queue = [] := by
    rcases hinv.2 with ⟨_, hw, _⟩ | ⟨_, hw, _⟩ | ⟨_, _, hempty⟩
    · exact absurd hended hw
    · exact absurd hended hw
    · exact hempty
  have hnot : some (k, command) ∉ x.queue := by rw [hqueue]; exact List.not_mem_nil
  refine ⟨fun hk => ?_, hnot⟩
  rcases hinv.1.waiting k command hk with hmem | hw
  · exact hnot hmem
  · rw [hended] at hw
    cases hw

/-- `stop` runs between the check of `_running` and the put. -/
def lateTask : List (Turn Unit ℚ) := [.call () ["GET", "k"], .halt, .halt, .work 0, .put ()]

theorem ended_step (S : Service σ T) (hw : x.worker = .ended) (hk : x.calls k = .waiting command) (turn : Turn κ T) :
    (step S x turn).worker = .ended ∧ (step S x turn).calls k = .waiting command := by
  have hother {j : κ} {call : Call} (hj : ∀ c, x.calls j ≠ .waiting c) :
      Function.update x.calls j call k = .waiting command := by
    have hne : k ≠ j := by
      rintro rfl
      exact hj command hk
    rw [Function.update_of_ne hne, hk]
  cases turn with
  | call j c =>
      show (x.call j c).worker = .ended ∧ (x.call j c).calls k = .waiting command
      unfold Executor.call
      split
      next hj => exact ⟨hw, hother (by simp [hj])⟩
      next => exact ⟨hw, hk⟩
  | put j =>
      show (x.put j).worker = .ended ∧ (x.put j).calls k = .waiting command
      unfold Executor.put
      split
      next c hj => exact ⟨hw, hother (by simp [hj])⟩
      next => exact ⟨hw, hk⟩
  | take j =>
      show (x.take j).worker = .ended ∧ (x.take j).calls k = .waiting command
      unfold Executor.take
      split
      next c result hj => exact ⟨hw, hother (by simp [hj])⟩
      next c hj => exact ⟨hw, hother (by simp [hj])⟩
      next => exact ⟨hw, hk⟩
  | work time => simp only [step, Executor.work, hw, hk, and_self]
  | snapshot time => exact ⟨hw, hk⟩
  | halt =>
      show x.halt.worker = .ended ∧ x.halt.calls k = .waiting command
      unfold Executor.halt
      split <;> exact ⟨hw, hk⟩

/-- The caller that was overtaken by `stop` waits for ever. -/
theorem lateTask_stranded : ¬ Along (step engineService) Early (start (∅ : Storage.Store)) lateTask ∧
    ∀ more, let x := (lateTask ++ more).foldl (step engineService) (start (∅ : Storage.Store))
      x.worker = .ended ∧ x.calls () = .waiting ["GET", "k"] := by
  constructor
  · intro h
    exact h.2.2.2.2.1 () ["GET", "k"] rfl rfl rfl
  · intro more
    rw [List.foldl_append]
    have hrun : ∀ x : Executor Unit Storage.Store ℚ, x.worker = .ended ∧ x.calls () = .waiting ["GET", "k"] →
        (more.foldl (step engineService) x).worker = .ended ∧
          (more.foldl (step engineService) x).calls () = .waiting ["GET", "k"] := by
      induction more with
      | nil => exact fun x hx => hx
      | cons turn more ih => exact fun x hx => ih _ (ended_step engineService hx.1 hx.2 turn)
    exact hrun _ ⟨rfl, rfl⟩

/-- `stop` runs its first step before the put and its second one after it. -/
def promptTask : List (Turn Unit ℚ) := [.call () ["GET", "k"], .halt, .put (), .halt]

theorem promptTask_early : Along (step engineService) Early (start (∅ : Storage.Store)) promptTask :=
  ⟨nofun, nofun, fun _ _ _ _ => nofun, nofun, trivial⟩

theorem promptTask_executed : ∃ later,
    ([.work 1, .work 2, .work 3, .work 4, .work 5].foldl (step engineService)
      (promptTask.foldl (step engineService) (start (∅ : Storage.Store)))).log = [] ++ later ∧
      ∃ time, .ran () ["GET", "k"] time ∈ later :=
  (waiting_executed engineService (∅ : Storage.Store) promptTask_early rfl).2 () ["GET", "k"] rfl _ (by decide)

end Ticketing.Server.Executor
