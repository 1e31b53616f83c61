import Ticketing.Server.Clients

namespace Ticketing.Server

open Parsing Framing Python Commands Protocol Trace Executor

namespace Executor

variable {κ σ T : Type} [DecidableEq κ] {S : Service σ T} {s₀ : σ} {x : Executor κ σ T}

/-! ### Calls -/

theorem put_command? (x : Executor κ σ T) (k i : κ) : ((x.put k).calls i).command? = (x.calls i).command? := by
  unfold Executor.put
  split
  next command hk =>
    by_cases hi : i = k
    · subst hi
      simp [hk, Call.command?]
    · simp [hi]
  next => rfl

theorem work_command? (h : Coherent S s₀ x) (time : T) (i : κ) :
    ((x.work S time).calls i).command? = (x.calls i).command? := by
  unfold Executor.work
  split
  next => split <;> rfl
  next k command hholding =>
    obtain ⟨hk, _⟩ := h.held k command hholding
    by_cases hi : i = k
    · subst hi
      simp [hk, Call.command?]
    · simp [hi]
  next => rfl

theorem call_calls {k : κ} {command : List String} (hk : x.calls k = .out) (hs : x.stop = .uncalled) :
    x.call k command = x.setCall k (.checked command) := by
  unfold Executor.call
  rw [hk]
  dsimp only
  rw [if_pos hs]

theorem out_of_command? {call : Call} (h : call.command? = none) : call = .out := by
  cases call <;> first | rfl | cases h

theorem put_stop (x : Executor κ σ T) (k : κ) : (x.put k).stop = x.stop ∧ (x.put k).returned = x.returned := by
  unfold Executor.put
  split <;> exact ⟨rfl, rfl⟩

theorem work_stop (S : Service σ T) (x : Executor κ σ T) (time : T) :
    (x.work S time).stop = x.stop ∧ (x.work S time).returned = x.returned := by
  unfold Executor.work
  split
  · split <;> exact ⟨rfl, rfl⟩
  · exact ⟨rfl, rfl⟩
  · exact ⟨rfl, rfl⟩

theorem put_accepted (h : ∀ i command, x.calls i ≠ .refused command) (k i : κ) (command : List String) :
    (x.put k).calls i ≠ .refused command := by
  unfold Executor.put
  split
  next =>
    by_cases hi : i = k
    · subst hi
      simp
    · simpa [hi] using h i command
  next => exact h i command

theorem work_accepted (h : ∀ i command, x.calls i ≠ .refused command) (time : T) (i : κ) (command : List String) :
    (x.work S time).calls i ≠ .refused command := by
  unfold Executor.work
  split
  next => split <;> exact h i command
  next k _ _ =>
    by_cases hi : i = k
    · subst hi
      simp
    · simpa [hi] using h i command
  next => exact h i command

theorem finished_command? {call : Call} {r : List String × Except Error CommandResult} (h : call.finished = some r) :
    call.command? = some r.1 := by
  cases call <;> cases h <;> rfl

/-- What `take` does when a reply is there. -/
theorem take_done {k : κ} {command : List String} {result : Except Error CommandResult}
    (h : (x.calls k).finished = some (command, result)) (hacc : ∀ c, x.calls k ≠ .refused c) :
    (x.take k).calls = Function.update x.calls k .out ∧
      (x.take k).returned = Function.update x.returned k (x.returned k ++ [(command, result)]) ∧
      (x.take k).stop = x.stop := by
  unfold Executor.take
  cases hk : x.calls k with
  | out => rw [hk] at h; cases h
  | checked c => rw [hk] at h; cases h
  | waiting c => rw [hk] at h; cases h
  | done c r =>
      rw [hk] at h
      cases h
      exact ⟨rfl, rfl, rfl⟩
  | refused c => exact absurd hk (hacc c)

/-! ### The log of one thread -/

def commandOf (k : κ) : Access κ T → Option (List String)
  | .ran k' command _ => if k' = k then some command else none
  | .snapshot _ => none

/-- The commands of a thread, in the order in which they were run. -/
def executedBy (log : List (Access κ T)) (k : κ) : List (List String) := log.filterMap (commandOf k)

theorem repliesTo_commands (S : Service σ T) (storage : σ) (log : List (Access κ T)) (k : κ) :
    (repliesTo S storage log k).map Prod.fst = executedBy log k := by
  induction log generalizing storage with
  | nil => rfl
  | cons a log ih =>
      have hstep : repliesTo S storage (a :: log) k =
          repliesTo S storage [a] k ++ repliesTo S (access S storage a).2 log k := repliesTo_append S storage [a] log k
      rw [hstep, List.map_append, ih]
      cases a with
      | ran k' command time =>
          by_cases hk : k' = k
          · simp [repliesTo, answers, access, replyTo, executedBy, commandOf, hk]
          · simp [repliesTo, answers, access, replyTo, executedBy, commandOf, hk]
      | snapshot time => rfl

end Executor

namespace Clients

variable {ι σ T : Type} [DecidableEq ι] {S : Service σ T} {s₀ : σ} {x : Clients ι σ T}
  {commands : ι → List (List String)}

/-- The session and the call of a thread agree. -/
def InStep (s : Session) (call : Call) : Prop :=
  match s.place with
  | .executing rest => ∃ command, call.command? = some command ∧ parseRespFrame s.buffer = .ok (command, rest)
  | .parsing => call.command? = none
  | _ => call.command? = none ∧ parseAll RespError.isShort parseRespFrame s.buffer = ([], s.buffer)

/-- The event that a session sends for a reply. -/
def served (r : List String × Except Error CommandResult) : Event := .served r.1 (respond r.1 r.2)

/-- What every run keeps, as long as nothing stops the executor. -/
structure Tracked (S : Service σ T) (s₀ : σ) (commands : ι → List (List String)) (x : Clients ι σ T) : Prop where
  coherent : Coherent S s₀ x.executor
  running : x.executor.stop = .uncalled
  accepted : ∀ i command, x.executor.calls i ≠ .refused command
  inStep : ∀ i, InStep (x.sessions i) (x.executor.calls i)
  sent : ∀ i, (x.sessions i).sent = (x.executor.returned i).map served
  toServe : ∀ i, ∃ later, Clients.toServe (x.sessions i) = later.map .ok ∧
    (x.executor.returned i).map Prod.fst ++ later = commands i

/-- Only the session of one thread changes, and it has the same frames to serve. -/
theorem Tracked.setSession (h : Tracked S s₀ commands x) {i : ι} {s : Session}
    (hstep : InStep s (x.executor.calls i)) (hsent : s.sent = (x.sessions i).sent)
    (hserve : Clients.toServe s = Clients.toServe (x.sessions i)) : Tracked S s₀ commands (x.setSession i s) where
  coherent := h.coherent
  running := h.running
  accepted := h.accepted
  inStep j := by
    by_cases hj : j = i
    · subst hj
      simpa [Clients.setSession] using hstep
    · simpa [Clients.setSession, hj] using h.inStep j
  sent j := by
    by_cases hj : j = i
    · subst hj
      simpa [Clients.setSession, hsent] using h.sent j
    · simpa [Clients.setSession, hj] using h.sent j
  toServe j := by
    by_cases hj : j = i
    · subst hj
      simpa [Clients.setSession, hserve] using h.toServe j
    · simpa [Clients.setSession, hj] using h.toServe j

theorem Tracked.look (h : Tracked S s₀ commands x) (i : ι) : Tracked S s₀ commands (x.look i) := by
  unfold Clients.look
  split
  next hplace =>
    have hin := h.inStep i
    rw [InStep, hplace] at hin
    refine h.setSession ?_ rfl rfl
    unfold InStep
    dsimp only
    split_ifs <;> exact hin
  next => exact h

theorem Tracked.recv (h : Tracked S s₀ commands x) (i : ι) : Tracked S s₀ commands (x.recv i) := by
  unfold Clients.recv
  split
  next hplace _ =>
    have hin := h.inStep i
    rw [InStep, hplace] at hin
    exact h.setSession hin rfl rfl
  next data chunks hplace hchunks =>
    have hin := h.inStep i
    rw [InStep, hplace] at hin
    split
    next => exact h.setSession hin rfl rfl
    next =>
      refine h.setSession hin.1 rfl ?_
      unfold Clients.toServe
      dsimp only
      rw [hin.2, hchunks]
      rfl
  next => exact h

theorem Tracked.reset (h : Tracked S s₀ commands x) (i : ι) : Tracked S s₀ commands (x.reset i) := by
  unfold Clients.reset
  split
  next hplace =>
    have hin := h.inStep i
    rw [InStep, hplace] at hin
    exact h.setSession hin rfl rfl
  next => exact h

theorem Tracked.parse (h : Tracked S s₀ commands x) (i : ι) : Tracked S s₀ commands (x.parse i) := by
  unfold Clients.parse
  split
  next hplace =>
    have hin := h.inStep i
    rw [InStep, hplace] at hin
    split
    next hempty =>
      refine h.setSession ⟨hin, ?_⟩ rfl rfl
      rw [hempty]
      rfl
    next hne =>
      split
      next message hparse => exact h.setSession ⟨hin, parseAll_short hparse rfl⟩ rfl rfl
      next message hparse =>
        -- a malformed frame is not one of the frames to serve
        obtain ⟨later, hlater, _⟩ := h.toServe i
        have hbad : parseAll RespError.isShort parseRespFrame (x.sessions i).buffer =
            ([.error (.malformed message)], []) := parseAll_bad hne hparse rfl
        rw [Clients.toServe, hbad] at hlater
        have hmem : .error (.malformed message) ∈ later.map (.ok : List String → Except RespError (List String)) := by
          rw [← hlater]
          exact List.mem_append_left _ (List.mem_singleton_self _)
        exact absurd hmem (clean_oks later _)
      next command rest hparse =>
        have hcall : x.executor.call i command = x.executor.setCall i (.checked command) :=
          call_calls (out_of_command? hin) h.running
        refine ⟨h.coherent.call i command, ?_, fun j => ?_, fun j => ?_, fun j => ?_, fun j => ?_⟩
        all_goals rw [hcall]
        · exact h.running
        · by_cases hj : j = i
          · subst hj
            simp
          · simpa [hj] using h.accepted j
        · by_cases hj : j = i
          · subst hj
            simp only [Function.update_self, setCall_calls]
            exact ⟨command, rfl, hparse⟩
          · simpa [hj] using h.inStep j
        · by_cases hj : j = i
          · subst hj
            simpa [setCall] using h.sent j
          · simpa [hj, setCall] using h.sent j
        · by_cases hj : j = i
          · subst hj
            simp only [Function.update_self]
            exact h.toServe j
          · simpa [hj, setCall] using h.toServe j
  next => exact h

theorem Tracked.reply (h : Tracked S s₀ commands x) (i : ι) : Tracked S s₀ commands (x.reply i) := by
  unfold Clients.reply
  split
  next rest command result hplace hfinished =>
    have hin := h.inStep i
    rw [InStep, hplace] at hin
    obtain ⟨command', hcommand, hparse⟩ := hin
    have hcoherent := h.coherent.take i
    obtain ⟨hcalls, hreturned, hstop⟩ := take_done hfinished (h.accepted i)
    obtain rfl : command' = command := by simpa using hcommand.symm.trans (finished_command? hfinished)
    refine ⟨hcoherent, hstop.trans h.running, fun j => ?_, fun j => ?_, fun j => ?_, fun j => ?_⟩
    · rw [hcalls]
      by_cases hj : j = i
      · subst hj
        simp
      · simpa [hj] using h.accepted j
    · rw [hcalls]
      by_cases hj : j = i
      · subst hj
        simp [InStep, Call.command?]
      · simpa [hj] using h.inStep j
    · rw [hreturned]
      by_cases hj : j = i
      · subst hj
        simp [h.sent j, served]
      · simpa [hj] using h.sent j
    · rw [hreturned]
      by_cases hj : j = i
      · subst hj
        obtain ⟨later, hlater, hall⟩ := h.toServe j
        rw [Clients.toServe, parseAll_ok parseRespFrame_consumes hparse] at hlater
        cases later with
        | nil => cases hlater
        | cons next later =>
            obtain ⟨hnext, hlater⟩ := List.cons.inj hlater
            cases hnext
            refine ⟨later, by simpa [Clients.toServe] using hlater, ?_⟩
            rw [Function.update_self, List.map_append, List.append_assoc]
            exact hall
      · simpa [hj] using h.toServe j
  next => exact h

theorem Tracked.put (h : Tracked S s₀ commands x) (i : ι) :
    Tracked S s₀ commands { x with executor := x.executor.put i } := by
  obtain ⟨hstop, hreturned⟩ := put_stop x.executor i
  refine ⟨h.coherent.put i, hstop.trans h.running, put_accepted h.accepted i, fun j => ?_, fun j => ?_, fun j => ?_⟩
  · have hin := h.inStep j
    unfold InStep at hin ⊢
    rwa [put_command?]
  · rw [hreturned]
    exact h.sent j
  · rw [hreturned]
    exact h.toServe j

theorem Tracked.work (h : Tracked S s₀ commands x) (time : T) :
    Tracked S s₀ commands { x with executor := x.executor.work S time } := by
  obtain ⟨hstop, hreturned⟩ := work_stop S x.executor time
  refine ⟨h.coherent.work time, hstop.trans h.running, work_accepted h.accepted time, fun j => ?_, fun j => ?_,
    fun j => ?_⟩
  · have hin := h.inStep j
    unfold InStep at hin ⊢
    rwa [work_command? h.coherent]
  · rw [hreturned]
    exact h.sent j
  · rw [hreturned]
    exact h.toServe j

theorem Tracked.step (h : Tracked S s₀ commands x) (turn : Turn ι T) : Tracked S s₀ commands (step S x turn) := by
  cases turn with
  | look i => exact h.look i
  | recv i => exact h.recv i
  | reset i => exact h.reset i
  | parse i => exact h.parse i
  | put i => exact h.put i
  | reply i => exact h.reply i
  | work time => exact h.work time
  | snapshot time => exact ⟨h.coherent.snapshot time, h.running, h.accepted, h.inStep, h.sent, h.toServe⟩

/-! ### Runs -/

theorem tracked_start (S : Service σ T) (storage : σ) {frames chunks : ι → List (List UInt8)}
    (hf : ∀ i, List.Forall₂ Encodes (commands i) (frames i)) (hc : ∀ i, (chunks i).flatten = (frames i).flatten) :
    Tracked S storage commands (start storage chunks : Clients ι σ T) where
  coherent := coherent_start S storage
  running := rfl
  accepted _ _ := nofun
  inStep _ := ⟨rfl, rfl⟩
  sent _ := rfl
  toServe i := by
    have hread : List.Forall₂ (Reads parseRespFrame) (frames i) (commands i) := (hf i).flip.imp fun _ _ => frame_reads
    have hall : parseAll RespError.isShort parseRespFrame ((frames i).flatten ++ []) = ((commands i).map .ok, []) :=
      parseAll_frames parseRespFrame_consumes hread ⟨_, rfl, rfl⟩
    rw [List.append_nil, ← hc i] at hall
    have hclean : Clean (parseAll RespError.isShort parseRespFrame ([] ++ (chunks i).flatten)).1 := by
      rw [List.nil_append, hall]
      exact clean_oks _
    have hrec := receiveAll_clean parseRespFrame_stable parseRespFrame_consumes parseAll_nil hclean
    rw [List.nil_append, hall] at hrec
    refine ⟨commands i, ?_, rfl⟩
    show [] ++ (receiveAll RespError.isShort parseRespFrame [] (chunks i)).1 = _
    rw [hrec, List.nil_append]

/-- The stream has been read to its end, and nothing of it is left to serve. -/
def Finished (s : Session) : Prop := s.chunks = [] ∧ s.place ∈ [.top, .receiving, .closed]

/-- The reply that waits for its thread is one to the next command of the thread. -/
theorem Tracked.executed (h : Tracked S s₀ commands x) (i : ι) :
    executedBy x.executor.log i = (x.executor.returned i).map Prod.fst ++ (pending (x.executor.calls i)).map Prod.fst ∧
      executedBy x.executor.log i <+: commands i := by
  have heq : executedBy x.executor.log i =
      (x.executor.returned i).map Prod.fst ++ (pending (x.executor.calls i)).map Prod.fst := by
    rw [← repliesTo_commands S s₀, ← h.coherent.replies i, List.map_append]
  refine ⟨heq, ?_⟩
  obtain ⟨later, hlater, hall⟩ := h.toServe i
  rw [heq, ← hall, List.prefix_append_right_inj]
  cases hcall : x.executor.calls i with
  | done c r =>
      have hin := h.inStep i
      rw [InStep, hcall] at hin
      split at hin
      next rest hplace =>
        obtain ⟨command, hcommand, hparse⟩ := hin
        cases hcommand
        rw [Clients.toServe, parseAll_ok parseRespFrame_consumes hparse] at hlater
        cases later with
        | nil => cases hlater
        | cons next later =>
            cases (List.cons.inj hlater).1
            exact ⟨later, rfl⟩
      next => cases hin
      next => cases hin.1
  | out => exact List.nil_prefix
  | checked c => exact List.nil_prefix
  | waiting c => exact List.nil_prefix
  | refused c => exact List.nil_prefix

theorem Tracked.finished (h : Tracked S s₀ commands x) {i : ι} (hi : Finished (x.sessions i)) :
    executedBy x.executor.log i = commands i ∧
      (x.sessions i).sent = (repliesTo S s₀ x.executor.log i).map served := by
  obtain ⟨hchunks, hplace⟩ := hi
  have hin : (x.executor.calls i).command? = none ∧
      parseAll RespError.isShort parseRespFrame (x.sessions i).buffer = ([], (x.sessions i).buffer) := by
    have hin := h.inStep i
    unfold InStep at hin
    split at hin
    next rest hp => rw [hp] at hplace; simp at hplace
    next hp => rw [hp] at hplace; simp at hplace
    next => exact hin
  obtain ⟨later, hlater, hall⟩ := h.toServe i
  have hlater : later = [] := by
    rw [Clients.toServe, hin.2, hchunks] at hlater
    exact List.map_eq_nil_iff.mp hlater.symm
  have hpending : pending (x.executor.calls i) = [] := by
    rw [out_of_command? hin.1]
    rfl
  obtain ⟨heq, _⟩ := h.executed i
  rw [hpending, List.map_nil, List.append_nil] at heq
  rw [hlater, List.append_nil] at hall
  refine ⟨heq.trans hall, ?_⟩
  rw [h.sent i, ← h.coherent.replies i, hpending, List.append_nil]

/-- Any number of connections on one executor: the log is one order of all the commands that have
been executed, it keeps the order of every connection, and run alone it gives every connection the
replies that it has got. -/
theorem linearized (store : Storage.Store) {frames chunks : ι → List (List UInt8)}
    (hf : ∀ i, List.Forall₂ Encodes (commands i) (frames i)) (hc : ∀ i, (chunks i).flatten = (frames i).flatten)
    (turns : List (Turn ι ℚ)) {x : Clients ι Storage.Store ℚ}
    (hx : turns.foldl (step engineService) (start store chunks) = x) (i : ι) :
    executedBy x.executor.log i <+: commands i ∧
      (x.sessions i).sent <+: (repliesTo engineService store x.executor.log i).map served ∧
      (Finished (x.sessions i) → executedBy x.executor.log i = commands i ∧
        (x.sessions i).sent = (repliesTo engineService store x.executor.log i).map served) := by
  have h : Tracked engineService store commands x := by
    rw [← hx]
    clear hx
    have hstart : Tracked engineService store commands (start store chunks : Clients ι Storage.Store ℚ) :=
      tracked_start engineService store hf hc
    generalize (start store chunks : Clients ι Storage.Store ℚ) = y at hstart
    induction turns generalizing y with
    | nil => exact hstart
    | cons turn turns ih => exact ih _ (hstart.step turn)
  refine ⟨(h.executed i).2, ?_, h.finished⟩
  rw [h.sent i, ← h.coherent.replies i, List.map_append]
  exact List.prefix_append _ _

def twoCommands : Bool → List (List String)
  | true => [["SET", "k", "v"]]
  | false => [["GET", "k"], []]

def twoFrames : Bool → List (List UInt8)
  | true => [Utf8.encode "*3\r\n$3\r\nSET\r\n$1\r\nk\r\n$1\r\nv\r\n"]
  | false => [Utf8.encode "*2\r\n$3\r\nGET\r\n$1\r\nk\r\n", Utf8.encode "*0\r\n"]

def twoChunks (i : Bool) : List (List UInt8) := [(twoFrames i).flatten.take 9, (twoFrames i).flatten.drop 9]

/-- Both connections send, the worker runs SET between GET and the empty command, a snapshot comes in between. -/
def twoTurns : List (Turn Bool ℚ) :=
  [.look true, .look false, .recv false, .parse false, .look false, .recv false, .parse false, .put false, .recv true,
    .parse true, .look true, .recv true, .parse true, .put true, .work 1, .work 1, .work 2, .snapshot 2, .reply false,
    .parse false, .put false, .work 3, .reply true, .work 3, .work 4, .parse true, .reply false, .parse false]

theorem twoFrames_encode : ∀ i, List.Forall₂ Encodes (twoCommands i) (twoFrames i)
  | true => .cons (by decide +kernel) .nil
  | false => .cons (by decide +kernel) (.cons (by decide +kernel) .nil)

theorem twoClients_linearized :
    executedBy (twoTurns.foldl (step engineService) (start ∅ twoChunks)).executor.log false = twoCommands false ∧
      ((twoTurns.foldl (step engineService) (start ∅ twoChunks)).sessions false).sent =
        (repliesTo engineService ∅ (twoTurns.foldl (step engineService) (start ∅ twoChunks)).executor.log false).map
          served :=
  (linearized (∅ : Storage.Store) twoFrames_encode (fun i => by simp [twoChunks]) twoTurns rfl false).2.2
    ⟨by decide +kernel, by decide +kernel⟩

end Clients

end Ticketing.Server
