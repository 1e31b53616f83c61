import Ticketing.Server.Linearization

namespace Ticketing.Server

open Python Commands Protocol Trace Executor
open Storage (Store SnapshotEntry LoadEntries loadSnapshot saveEntries live)

/-- Where the snapshot thread is. Entries that it holds are `late` when the final snapshot was
taken before them. -/
inductive Flusher
  | waiting
  | flushing
  | holding (entries : List SnapshotEntry) (late : Bool)
  | ended
  deriving DecidableEq

/-- Where `serve_forever` is: in the accept loop, at the join of the client threads, with the final
snapshot in hand, at the join of the snapshot thread, between the two steps of `stop`, at the
join of the worker, and returned. -/
inductive Main
  | serving
  | joining
  | holding (entries : List SnapshotEntry)
  | flushed
  | stopping
  | stopped
  | returned
  deriving DecidableEq

structure MiniRedisServer (ι : Type) where
  clients : Clients ι Store ℚ
  flusher : Flusher
  main : Main
  table : List SnapshotEntry
  now : ℚ
  acked : ℕ

/-- The final snapshot has been taken. -/
def Main.pastSnapshot : Main → Bool
  | .serving => false
  | .joining => false
  | _ => true

/-- The final save is over. -/
def Main.pastSave : Main → Bool
  | .serving => false
  | .joining => false
  | .holding _ => false
  | _ => true

namespace MiniRedisServer

variable {ι : Type} [DecidableEq ι]

/-- After the entries have been loaded. -/
def start (rows : List SnapshotEntry) (now : ℚ) (chunks : ι → List (List UInt8)) : MiniRedisServer ι where
  clients := Clients.start (loadSnapshot rows now) chunks
  flusher := .waiting
  main := .serving
  table := rows
  now := now
  acked := 0

/-! ### Acknowledgements -/

/-- How much of the log it takes to come to the last command of a thread. -/
def lastRun (log : List (Access ι ℚ)) (i : ι) : ℕ :=
  (log.reverse.dropWhile (fun a => (commandOf i a).isNone)).length

def isSuccess (command : List String) (result : Except Error CommandResult) : Bool :=
  match result.bind (encodeCommandResult command) with
  | .ok _ => true
  | .error _ => false

/-- The part of the log up to the last command whose success reply has been sent. -/
def ackedAfter (x : MiniRedisServer ι) : Clients.Turn ι ℚ → ℕ
  | .reply i => match (x.clients.sessions i).place, (x.clients.executor.calls i).finished with
    | .executing _, some (command, result) =>
      if isSuccess command result then max x.acked (lastRun x.clients.executor.log i) else x.acked
    | _, _ => x.acked
  | _ => x.acked

/-! ### Steps -/

/-- `save_entries`; an exception is printed and the table stays. -/
def save (x : MiniRedisServer ι) (entries : List SnapshotEntry) (succeeds : Bool) : List SnapshotEntry :=
  if succeeds then (saveEntries x.table entries).2 else x.table

def snapshot (x : MiniRedisServer ι) (time : ℚ) : List SnapshotEntry × Clients ι Store ℚ :=
  ((Storage.snapshot x.clients.executor.storage time).1, Clients.step engineService x.clients (.snapshot time))

/-- The snapshot thread. -/
def flusherStep (x : MiniRedisServer ι) (time : ℚ) (succeeds : Bool) : MiniRedisServer ι :=
  match x.flusher with
  | .waiting => { x with flusher := if x.clients.stopEvent then .ended else .flushing }
  | .flushing =>
    { x with
      flusher := .holding (x.snapshot time).1 x.main.pastSnapshot
      clients := (x.snapshot time).2
      now := time }
  | .holding entries _ => { x with flusher := .waiting, table := x.save entries succeeds }
  | .ended => x

/-- `serve_forever`. A join may give up at any point, so that it delays no step. -/
def mainStep (x : MiniRedisServer ι) (time : ℚ) (succeeds : Bool) : MiniRedisServer ι :=
  match x.main with
  | .serving => { x with main := .joining, clients := { x.clients with stopEvent := true } }
  | .joining =>
    { x with
      main := .holding (x.snapshot time).1
      clients := (x.snapshot time).2
      now := time }
  | .holding entries => { x with main := .flushed, table := x.save entries succeeds }
  | .flushed => { x with main := .stopping, clients := { x.clients with executor := x.clients.executor.halt } }
  | .stopping => { x with main := .stopped, clients := { x.clients with executor := x.clients.executor.halt } }
  | .stopped => { x with main := .returned }
  | .returned => x

def clientTime : Clients.Turn ι ℚ → Option ℚ
  | .work time => some time
  | .snapshot time => some time
  | _ => none

inductive Turn (ι : Type)
  | client (turn : Clients.Turn ι ℚ)
  | shutdown
  | flusher (time : ℚ) (succeeds : Bool)
  | main (time : ℚ) (succeeds : Bool)

def step (x : MiniRedisServer ι) : Turn ι → MiniRedisServer ι
  | .client turn =>
    { x with
      clients := Clients.step engineService x.clients turn
      now := (clientTime turn).getD x.now
      acked := x.ackedAfter turn }
  | .shutdown => { x with clients := { x.clients with stopEvent := true } }
  | .flusher time succeeds => x.flusherStep time succeeds
  | .main time succeeds => x.mainStep time succeeds

end MiniRedisServer

end Ticketing.Server
