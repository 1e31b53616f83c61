import Ticketing.Commands.Handler
import Ticketing.Lib.Trace
import Ticketing.Storage.Snapshot

namespace Ticketing.Server

open Python Commands Trace

/-- The command handler on its storage, and what `snapshot` does to the storage. A step of either
comes with a reading of the clock. -/
structure Service (σ T : Type) where
  handle : T → List String → σ → Except Error CommandResult × σ
  snapshot : T → σ → σ

def engineService : Service Storage.Store ℚ where
  handle now command store := handleCommand command now store
  snapshot now store := (Storage.snapshot store now).2

/-- Where a thread is in `execute`. -/
inductive Call
  | out
  | checked (command : List String)
  | waiting (command : List String)
  | done (command : List String) (result : Except Error CommandResult)
  | refused (command : List String)

inductive Worker (κ : Type)
  | idle
  | holding (k : κ) (command : List String)
  | ended

/-- How far the one call of `stop` has come. -/
inductive Stop
  | uncalled
  | flagged
  | sent
  deriving DecidableEq

/-- An access to the storage. -/
inductive Access (κ T : Type)
  | ran (k : κ) (command : List String) (time : T)
  | snapshot (time : T)

/-- `SerialCommandExecutor` with its storage, its worker and the threads that call it. `none` in
the queue is the sentinel; `log` and `returned` are history. -/
structure Executor (κ σ T : Type) where
  storage : σ
  queue : List (Option (κ × List String))
  worker : Worker κ
  stop : Stop
  calls : κ → Call
  log : List (Access κ T)
  returned : κ → List (List String × Except Error CommandResult)

namespace Executor

variable {κ σ T : Type} [DecidableEq κ]

def start (storage : σ) : Executor κ σ T := ⟨storage, [], .idle, .uncalled, fun _ => .out, [], fun _ => []⟩

def setCall (x : Executor κ σ T) (k : κ) (call : Call) : Executor κ σ T :=
  { x with calls := Function.update x.calls k call }

/-! ### Steps -/

def notRunning : Error := ⟨.runtimeError, "command executor is not running"⟩

/-- `execute` checks `_running`. -/
def call (x : Executor κ σ T) (k : κ) (command : List String) : Executor κ σ T :=
  match x.calls k with
  | .out => x.setCall k (if x.stop = .uncalled then .checked command else .refused command)
  | _ => x

def put (x : Executor κ σ T) (k : κ) : Executor κ σ T :=
  match x.calls k with
  | .checked command =>
    { x with calls := Function.update x.calls k (.waiting command), queue := x.queue ++ [some (k, command)] }
  | _ => x

/-- `execute` returns or raises. -/
def take (x : Executor κ σ T) (k : κ) : Executor κ σ T :=
  match x.calls k with
  | .done command result =>
    { x with
      calls := Function.update x.calls k .out
      returned := Function.update x.returned k (x.returned k ++ [(command, result)]) }
  | .refused _ => x.setCall k .out
  | _ => x

/-- The next step of the worker: `get`, or the execution of the task that it holds. -/
def work (S : Service σ T) (x : Executor κ σ T) (time : T) : Executor κ σ T :=
  match x.worker with
  | .idle => match x.queue with
    | [] => x
    | none :: queue => { x with queue := queue, worker := .ended }
    | some (k, command) :: queue => { x with queue := queue, worker := .holding k command }
  | .holding k command =>
    { x with
      storage := (S.handle time command x.storage).2
      worker := .idle
      calls := Function.update x.calls k (.done command (S.handle time command x.storage).1)
      log := x.log ++ [.ran k command time] }
  | .ended => x

def snapshot (S : Service σ T) (x : Executor κ σ T) (time : T) : Executor κ σ T :=
  { x with storage := S.snapshot time x.storage, log := x.log ++ [.snapshot time] }

/-- The next step of `stop`: clear `_running`, then put the sentinel. -/
def halt (x : Executor κ σ T) : Executor κ σ T :=
  match x.stop with
  | .uncalled => { x with stop := .flagged }
  | .flagged => { x with stop := .sent, queue := x.queue ++ [none] }
  | .sent => x

/-- Whose step comes next. A step that is not enabled changes nothing. -/
inductive Turn (κ T : Type)
  | call (k : κ) (command : List String)
  | put (k : κ)
  | take (k : κ)
  | work (time : T)
  | snapshot (time : T)
  | halt

def step (S : Service σ T) (x : Executor κ σ T) : Turn κ T → Executor κ σ T
  | .call k command => x.call k command
  | .put k => x.put k
  | .take k => x.take k
  | .work time => x.work S time
  | .snapshot time => x.snapshot S time
  | .halt => x.halt

/-! ### The sequential run -/

/-- One access at a time: the reply with its caller and command, and the storage after it. -/
def access (S : Service σ T) (storage : σ) :
    Access κ T → Option (κ × List String × Except Error CommandResult) × σ
  | .ran k command time =>
    (some (k, command, (S.handle time command storage).1), (S.handle time command storage).2)
  | .snapshot time => (none, S.snapshot time storage)

def storageAfter (S : Service σ T) (storage : σ) (log : List (Access κ T)) : σ :=
  log.foldl (fun storage a => (access S storage a).2) storage

def replyTo (k : κ) : Option (κ × List String × Except Error CommandResult) →
    Option (List String × Except Error CommandResult)
  | some (k', reply) => if k' = k then some reply else none
  | none => none

/-- The replies to the commands of a caller when the log is run from the start. -/
def repliesTo (S : Service σ T) (storage : σ) (log : List (Access κ T)) (k : κ) :
    List (List String × Except Error CommandResult) :=
  (answers (access S) storage log).filterMap (replyTo k)

omit [DecidableEq κ] in
theorem storageAfter_append (S : Service σ T) (storage : σ) (log log' : List (Access κ T)) :
    storageAfter S storage (log ++ log') = storageAfter S (storageAfter S storage log) log' :=
  List.foldl_append

theorem repliesTo_append (S : Service σ T) (storage : σ) (log log' : List (Access κ T)) (k : κ) :
    repliesTo S storage (log ++ log') k =
      repliesTo S storage log k ++ repliesTo S (storageAfter S storage log) log' k := by
  rw [repliesTo, answers_append, List.filterMap_append]
  rfl

end Executor

end Ticketing.Server
