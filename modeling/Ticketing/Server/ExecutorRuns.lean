import Ticketing.Server.Executor
import Mathlib.Data.List.ReduceOption

namespace Ticketing.Server.Executor

open Python Commands Trace

variable {κ σ T : Type} [DecidableEq κ] {S : Service σ T} {s₀ : σ} {x : Executor κ σ T}

/-- The reply that waits for its caller. -/
def pending : Call → List (List String × Except Error CommandResult)
  | .done command result => [(command, result)]
  | _ => []

/-- The threads with a task in the queue. -/
def queuedThreads (x : Executor κ σ T) : List κ := x.queue.reduceOption.map Prod.fst

/-- What every run keeps: the storage is the one that the log leads to, and every thread has got, or
is about to get, the replies that the log gives to its commands. -/
structure Coherent (S : Service σ T) (s₀ : σ) (x : Executor κ σ T) : Prop where
  storage : x.storage = storageAfter S s₀ x.log
  replies : ∀ k, x.returned k ++ pending (x.calls k) = repliesTo S s₀ x.log k
  queued : ∀ k command, some (k, command) ∈ x.queue → x.calls k = .waiting command
  distinct : (queuedThreads x).Nodup
  held : ∀ k command, x.worker = .holding k command → x.calls k = .waiting command ∧ k ∉ queuedThreads x
  waiting : ∀ k command, x.calls k = .waiting command → some (k, command) ∈ x.queue ∨ x.worker = .holding k command

omit [DecidableEq κ] in
theorem mem_queuedThreads {k : κ} : k ∈ queuedThreads x ↔ ∃ command, some (k, command) ∈ x.queue := by
  simp [queuedThreads, List.reduceOption_mem_iff]

theorem coherent_start (S : Service σ T) (storage : σ) : Coherent S storage (start storage : Executor κ σ T) where
  storage := rfl
  replies _ := rfl
  queued _ _ h := by cases h
  distinct := List.nodup_nil
  held _ _ h := by cases h
  waiting _ _ h := by cases h

/-! ### Steps -/

@[simp] theorem setCall_calls (x : Executor κ σ T) (k : κ) (call : Call) :
    (x.setCall k call).calls = Function.update x.calls k call := rfl

theorem Coherent.not_queued (h : Coherent S s₀ x) {k : κ} (hk : ∀ command, x.calls k ≠ .waiting command) :
    k ∉ queuedThreads x := fun hmem =>
  (mem_queuedThreads.mp hmem).elim fun command hq => hk command (h.queued k command hq)

/-- A thread moves without its task. -/
theorem Coherent.setCall (h : Coherent S s₀ x) {k : κ} {call : Call} (hk : ∀ command, x.calls k ≠ .waiting command)
    (hcall : ∀ command, call ≠ .waiting command) (hp : pending call = pending (x.calls k)) :
    Coherent S s₀ (x.setCall k call) where
  storage := h.storage
  replies j := by
    by_cases hj : j = k
    · subst hj
      rw [setCall_calls, Function.update_self, hp]
      exact h.replies j
    · rw [setCall_calls, Function.update_of_ne hj]
      exact h.replies j
  queued j command hq := by
    have hj : j ≠ k := by
      rintro rfl
      exact hk command (h.queued j command hq)
    rw [setCall_calls, Function.update_of_ne hj]
    exact h.queued j command hq
  distinct := h.distinct
  held j command hw := by
    obtain ⟨hwait, hnot⟩ := h.held j command hw
    have hj : j ≠ k := by
      rintro rfl
      exact hk command hwait
    rw [setCall_calls, Function.update_of_ne hj]
    exact ⟨hwait, hnot⟩
  waiting j command hwait := by
    by_cases hj : j = k
    · subst hj
      rw [setCall_calls, Function.update_self] at hwait
      exact absurd hwait (hcall command)
    · rw [setCall_calls, Function.update_of_ne hj] at hwait
      exact h.waiting j command hwait

theorem Coherent.call (h : Coherent S s₀ x) (k : κ) (command : List String) : Coherent S s₀ (x.call k command) := by
  unfold Executor.call
  split
  next hk =>
    refine h.setCall (by simp [hk]) (fun c => ?_) ?_
    · split <;> simp
    · rw [hk]
      split <;> rfl
  next => exact h

theorem Coherent.put (h : Coherent S s₀ x) (k : κ) : Coherent S s₀ (x.put k) := by
  unfold Executor.put
  split
  next command hk =>
    have hnot := h.not_queued (k := k) (by simp [hk])
    have hqueue : queuedThreads { x with calls := Function.update x.calls k (.waiting command), queue := x.queue ++ [some (k, command)] } =
        queuedThreads x ++ [k] := by
      simp [queuedThreads, List.reduceOption_append]
    refine ⟨h.storage, fun j => ?_, fun j c hq => ?_, ?_, fun j c hw => ?_, fun j c hwait => ?_⟩
    · by_cases hj : j = k
      · subst hj
        have hold := h.replies j
        rw [hk] at hold
        simpa [pending] using hold
      · simpa [hj] using h.replies j
    · rcases List.mem_append.mp hq with hmem | hmem
      · have hj : j ≠ k := by
          rintro rfl
          exact hnot (mem_queuedThreads.mpr ⟨c, hmem⟩)
        simpa [hj] using h.queued j c hmem
      · cases List.mem_singleton.mp hmem
        simp
    · rw [hqueue]
      exact h.distinct.append (List.nodup_singleton k) (by simpa using hnot)
    · obtain ⟨hwait, hout⟩ := h.held j c hw
      have hj : j ≠ k := by
        rintro rfl
        rw [hk] at hwait
        cases hwait
      rw [hqueue]
      exact ⟨by simpa [hj] using hwait, by simp [hout, hj]⟩
    · by_cases hj : j = k
      · subst hj
        have hc : command = c := by simpa using hwait
        subst hc
        exact .inl (by simp)
      · have hwait : x.calls j = .waiting c := by simpa [hj] using hwait
        rcases h.waiting j c hwait with hq | hw
        · exact .inl (List.mem_append_left _ hq)
        · exact .inr hw
  next => exact h

theorem Coherent.take (h : Coherent S s₀ x) (k : κ) : Coherent S s₀ (x.take k) := by
  unfold Executor.take
  split
  next command result hk =>
    have hk' : ∀ c, x.calls k ≠ .waiting c := by simp [hk]
    -- the reply moves from the waiting one to the returned ones
    refine ⟨h.storage, fun j => ?_, fun j c hq => ?_, h.distinct, fun j c hw => ?_, fun j c hwait => ?_⟩
    · by_cases hj : j = k
      · subst hj
        have hold := h.replies j
        rw [hk] at hold
        simpa [pending] using hold
      · simpa [hj] using h.replies j
    · have hj : j ≠ k := by
        rintro rfl
        exact hk' c (h.queued j c hq)
      simpa [hj] using h.queued j c hq
    · obtain ⟨hwait, hout⟩ := h.held j c hw
      have hj : j ≠ k := by
        rintro rfl
        exact hk' c hwait
      exact ⟨by simpa [hj] using hwait, hout⟩
    · by_cases hj : j = k
      · subst hj
        simp at hwait
      · exact h.waiting j c (by simpa [hj] using hwait)
  next command hk => exact h.setCall (by simp [hk]) (by simp) (by rw [hk]; rfl)
  next => exact h

theorem Coherent.work (h : Coherent S s₀ x) (time : T) : Coherent S s₀ (x.work S time) := by
  unfold Executor.work
  split
  next hidle =>
    split
    next => exact h
    next queue hq =>
      have hthreads : queuedThreads { x with queue := queue, worker := .ended } = queuedThreads x := by
        simp [queuedThreads, hq]
      refine ⟨h.storage, h.replies, fun j c hmem => h.queued j c (by simp [hq, hmem]), by rw [hthreads]; exact h.distinct,
        fun j c hw => ?_, fun j c hwait => ?_⟩
      · cases hw
      · rcases h.waiting j c hwait with hmem | hw
        · exact .inl (by simpa [hq] using hmem)
        · rw [hidle] at hw
          cases hw
    next k command queue hq =>
      have hthreads : queuedThreads x = k :: queuedThreads { x with queue := queue, worker := .holding k command } := by
        simp [queuedThreads, hq]
      have hdistinct := h.distinct
      rw [hthreads, List.nodup_cons] at hdistinct
      refine ⟨h.storage, h.replies, fun j c hmem => h.queued j c (by simp [hq, hmem]), hdistinct.2, fun j c hw => ?_,
        fun j c hwait => ?_⟩
      · cases hw
        exact ⟨h.queued k command (by simp [hq]), hdistinct.1⟩
      · rcases h.waiting j c hwait with hmem | hw
        · rw [hq] at hmem
          rcases List.mem_cons.mp hmem with hmem | hmem
          · cases hmem
            exact .inr rfl
          · exact .inl hmem
        · rw [hidle] at hw
          cases hw
  next k command hholding =>
    obtain ⟨hk, hnot⟩ := h.held k command hholding
    refine ⟨?_, fun j => ?_, fun j c hmem => ?_, h.distinct, fun j c hw => ?_, fun j c hwait => ?_⟩
    · rw [storageAfter_append, ← h.storage]
      rfl
    · have hold := h.replies j
      by_cases hj : j = k
      · subst hj
        rw [hk] at hold
        rw [repliesTo_append, ← hold, ← h.storage]
        simp [pending, repliesTo, answers, access, replyTo]
      · rw [repliesTo_append, ← hold, ← h.storage]
        simp [repliesTo, answers, access, replyTo, hj, Ne.symm hj]
    · have hj : j ≠ k := by
        rintro rfl
        exact hnot (mem_queuedThreads.mpr ⟨c, hmem⟩)
      simpa [hj] using h.queued j c hmem
    · cases hw
    · by_cases hj : j = k
      · subst hj
        simp at hwait
      · have hwait : x.calls j = .waiting c := by simpa [hj] using hwait
        rcases h.waiting j c hwait with hmem | hw
        · exact .inl hmem
        · rw [hholding] at hw
          cases hw
          exact absurd rfl hj
  next => exact h

theorem Coherent.snapshot (h : Coherent S s₀ x) (time : T) : Coherent S s₀ (x.snapshot S time) := by
  refine ⟨?_, fun k => ?_, h.queued, h.distinct, h.held, h.waiting⟩
  · show S.snapshot time x.storage = storageAfter S s₀ (x.log ++ [.snapshot time])
    rw [storageAfter_append, ← h.storage]
    rfl
  · show x.returned k ++ pending (x.calls k) = repliesTo S s₀ (x.log ++ [.snapshot time]) k
    rw [repliesTo_append, h.replies k]
    simp [repliesTo, answers, access, replyTo]

theorem Coherent.halt (h : Coherent S s₀ x) : Coherent S s₀ x.halt := by
  unfold Executor.halt
  split
  · exact ⟨h.storage, h.replies, h.queued, h.distinct, h.held, h.waiting⟩
  · have hthreads : queuedThreads { x with stop := .sent, queue := x.queue ++ [none] } = queuedThreads x := by
      simp [queuedThreads, List.reduceOption_append]
    refine ⟨h.storage, h.replies, fun j c hmem => h.queued j c (by simpa using hmem), by rw [hthreads]; exact h.distinct,
      fun j c hw => by rw [hthreads]; exact h.held j c hw, fun j c hwait => ?_⟩
    rcases h.waiting j c hwait with hmem | hw
    · exact .inl (List.mem_append_left _ hmem)
    · exact .inr hw
  · exact h

theorem Coherent.step (h : Coherent S s₀ x) (turn : Turn κ T) : Coherent S s₀ (step S x turn) := by
  cases turn with
  | call k command => exact h.call k command
  | put k => exact h.put k
  | take k => exact h.take k
  | work time => exact h.work time
  | snapshot time => exact h.snapshot time
  | halt => exact h.halt

end Ticketing.Server.Executor
