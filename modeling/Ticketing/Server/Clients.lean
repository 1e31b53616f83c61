import Ticketing.Server.Connection
import Ticketing.Server.ExecutorRuns

namespace Ticketing.Server

open Parsing Framing Python Commands Protocol Trace

/-- Where `handle_client` is: at the check of `stop_event`, at `recv`, in the loop over the buffer, in
`execute` (with the bytes after the frame), or returned. -/
inductive Place
  | top
  | receiving
  | parsing
  | executing (rest : List UInt8)
  | closed
  deriving DecidableEq

structure Session where
  chunks : List (List UInt8)
  buffer : List UInt8
  place : Place
  sent : List Event

/-- The threads of the connections and their executor. -/
structure Clients (ι σ T : Type) where
  executor : Executor ι σ T
  sessions : ι → Session
  stopEvent : Bool

/-- The command of the call that a thread is in. -/
def Call.command? : Call → Option (List String)
  | .out => none
  | .checked command => some command
  | .waiting command => some command
  | .done command _ => some command
  | .refused command => some command

/-- What a call returns or raises, once it does. -/
def Call.finished : Call → Option (List String × Except Error CommandResult)
  | .done command result => some (command, result)
  | .refused command => some (command, .error Executor.notRunning)
  | _ => none

namespace Clients

variable {ι σ T : Type} [DecidableEq ι]

def start (storage : σ) (chunks : ι → List (List UInt8)) : Clients ι σ T :=
  ⟨Executor.start storage, fun i => ⟨chunks i, [], .top, []⟩, false⟩

def setSession (x : Clients ι σ T) (i : ι) (s : Session) : Clients ι σ T :=
  { x with sessions := Function.update x.sessions i s }

/-! ### Steps -/

def look (x : Clients ι σ T) (i : ι) : Clients ι σ T :=
  match (x.sessions i).place with
  | .top => x.setSession i { x.sessions i with place := if x.stopEvent then .closed else .receiving }
  | _ => x

def recv (x : Clients ι σ T) (i : ι) : Clients ι σ T :=
  match (x.sessions i).place, (x.sessions i).chunks with
  | .receiving, [] => x.setSession i { x.sessions i with place := .closed }
  | .receiving, data :: chunks =>
    if data = [] then x.setSession i { x.sessions i with place := .closed }
    else x.setSession i
      { x.sessions i with chunks := chunks, buffer := (x.sessions i).buffer ++ data, place := .parsing }
  | _, _ => x

/-- `recv` raises an `OSError`. -/
def reset (x : Clients ι σ T) (i : ι) : Clients ι σ T :=
  match (x.sessions i).place with
  | .receiving => x.setSession i { x.sessions i with place := .closed }
  | _ => x

/-- One round of the loop over the buffer, up to the check in `execute`. -/
def parse (x : Clients ι σ T) (i : ι) : Clients ι σ T :=
  match (x.sessions i).place with
  | .parsing =>
    if (x.sessions i).buffer = [] then x.setSession i { x.sessions i with place := .top }
    else match parseRespFrame (x.sessions i).buffer with
      | .error (.incomplete _) => x.setSession i { x.sessions i with place := .top }
      | .error (.malformed message) => x.setSession i
          { x.sessions i with
            buffer := []
            place := .top
            sent := (x.sessions i).sent ++ [.refused (errorReply ⟨.protocolError, message⟩)] }
      | .ok (command, rest) =>
        { x with
          executor := x.executor.call i command
          sessions := Function.update x.sessions i { x.sessions i with place := .executing rest } }
  | _ => x

/-- `execute` returns or raises, and the reply is sent. -/
def reply (x : Clients ι σ T) (i : ι) : Clients ι σ T :=
  match (x.sessions i).place, (x.executor.calls i).finished with
  | .executing rest, some (command, result) =>
    { x with
      executor := x.executor.take i
      sessions := Function.update x.sessions i
        { x.sessions i with
          buffer := rest
          place := .parsing
          sent := (x.sessions i).sent ++ [.served command (respond command result)] } }
  | _, _ => x

/-- Whose step comes next: a connection's, the worker's or that of a thread that takes a snapshot. -/
inductive Turn (ι T : Type)
  | look (i : ι)
  | recv (i : ι)
  | reset (i : ι)
  | parse (i : ι)
  | put (i : ι)
  | reply (i : ι)
  | work (time : T)
  | snapshot (time : T)

def step (S : Service σ T) (x : Clients ι σ T) : Turn ι T → Clients ι σ T
  | .look i => x.look i
  | .recv i => x.recv i
  | .reset i => x.reset i
  | .parse i => x.parse i
  | .put i => { x with executor := x.executor.put i }
  | .reply i => x.reply i
  | .work time => { x with executor := x.executor.work S time }
  | .snapshot time => { x with executor := x.executor.snapshot S time }

/-- The frames that a session has still to serve, the one in execution included. -/
def toServe (s : Session) : List (Except RespError (List String)) :=
  let r := parseAll RespError.isShort parseRespFrame s.buffer
  r.1 ++ (receiveAll RespError.isShort parseRespFrame r.2 s.chunks).1

end Clients

end Ticketing.Server
