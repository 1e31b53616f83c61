import Ticketing.Lib.Framing
import Ticketing.Lib.Trace
import Ticketing.Protocol.RespParser
import Ticketing.Server.Responses

namespace Ticketing.Server

open Parsing Framing Python Commands Protocol Trace

/-- What `handle_client` does, in order. -/
inductive Event
  | served (command : List String) (response : String)
  | refused (response : String)
  deriving DecidableEq

def Event.command? : Event → Option (List String)
  | .served command _ => some command
  | .refused _ => none

def Event.response : Event → String
  | .served _ response => response
  | .refused response => response

/-- The storage engine, and the readings of the clock that are still to come. -/
structure Engine where
  store : Storage.Store
  clock : ℕ → ℚ

def Engine.execute (command : List String) (engine : Engine) : Except Error CommandResult × Engine :=
  let r := handleCommand command (engine.clock 0) engine.store
  (r.1, ⟨r.2, fun n => engine.clock (n + 1)⟩)

variable {σ : Type} (execute : List String → σ → Except Error CommandResult × σ)

def serve (s : σ) (command : List String) : Event × σ :=
  let r := execute command s
  (.served command (respond command r.1), r.2)

/-- The loop over the buffer. -/
def drain : Nat → σ → List UInt8 → List Event × σ × List UInt8
  | 0, s, buffer => ([], s, buffer)
  | n + 1, s, buffer =>
    if buffer = [] then ([], s, buffer)
    else match parseRespFrame buffer with
      | .error (.incomplete _) => ([], s, buffer)
      | .error (.malformed message) => ([.refused (errorReply ⟨.protocolError, message⟩)], s, [])
      | .ok (command, rest) =>
        let r := serve execute s command
        let d := drain n r.2 rest
        (r.1 :: d.1, d.2)

/-- Chunk after chunk as `recv` returns them; an empty one is the end of the stream. Every frame
consumes a byte, so the length bounds their number. -/
def handleClient : σ → List UInt8 → List (List UInt8) → List Event × σ × List UInt8
  | s, buffer, [] => ([], s, buffer)
  | s, buffer, data :: chunks =>
    if data = [] then ([], s, buffer)
    else
      let d := drain execute (buffer ++ data).length s (buffer ++ data)
      let r := handleClient d.2.1 d.2.2 chunks
      (d.1 ++ r.1, r.2)

/-! ### Items -/

/-- What is done with one item of the stream. -/
def handleItem (s : σ) : Except RespError (List String) → Event × σ
  | .ok command => serve execute s command
  | .error e => (.refused (errorReply ⟨.protocolError, e.message⟩), s)

def afterItems (s : σ) (items : List (Except RespError (List String))) : σ :=
  items.foldl (fun s item => (handleItem execute s item).2) s

theorem afterItems_append (s : σ) (items items' : List (Except RespError (List String))) :
    afterItems execute s (items ++ items') = afterItems execute (afterItems execute s items) items' :=
  List.foldl_append

theorem drain_eq (n : Nat) (s : σ) (buffer : List UInt8) :
    drain execute n s buffer =
      (answers (handleItem execute) s (scan RespError.isShort parseRespFrame n buffer).1,
        afterItems execute s (scan RespError.isShort parseRespFrame n buffer).1,
        (scan RespError.isShort parseRespFrame n buffer).2) := by
  induction n generalizing s buffer with
  | zero => rfl
  | succ n ih =>
      rw [drain, scan]
      cases buffer with
      | nil => rfl
      | cons b bs =>
          rw [if_neg (List.cons_ne_nil b bs)]
          cases h : parseRespFrame (b :: bs) with
          | error e => cases e <;> rfl
          | ok r =>
              dsimp only
              rw [ih]
              rfl

theorem handleClient_eq {chunks : List (List UInt8)} (hc : [] ∉ chunks) (s : σ) (buffer : List UInt8) :
    handleClient execute s buffer chunks =
      (answers (handleItem execute) s (receiveAll RespError.isShort parseRespFrame buffer chunks).1,
        afterItems execute s (receiveAll RespError.isShort parseRespFrame buffer chunks).1,
        (receiveAll RespError.isShort parseRespFrame buffer chunks).2) := by
  induction chunks generalizing s buffer with
  | nil => rfl
  | cons data chunks ih =>
      rw [List.mem_cons, not_or] at hc
      obtain ⟨hdata, hc⟩ := hc
      rw [handleClient, if_neg (Ne.symm hdata), receiveAll]
      dsimp only
      rw [ih hc, drain_eq]
      simp only [answers_append, afterItems, List.foldl_append, parseAll]

theorem answers_oks (s : σ) (commands : List (List String)) :
    answers (handleItem execute) s (commands.map .ok) = answers (serve execute) s commands := by
  induction commands generalizing s with
  | nil => rfl
  | cons command commands ih =>
      rw [List.map_cons, answers, answers, ← ih]
      rfl

theorem afterItems_oks (s : σ) (commands : List (List String)) :
    afterItems execute s (commands.map .ok) = commands.foldl (fun s command => (execute command s).2) s := by
  rw [afterItems, List.foldl_map]
  rfl

theorem served_commands (s : σ) (commands : List (List String)) :
    (answers (serve execute) s commands).map Event.command? = commands.map some := by
  induction commands generalizing s with
  | nil => rfl
  | cons command commands ih =>
      rw [answers, List.map_cons, List.map_cons, ih]
      rfl

end Ticketing.Server
