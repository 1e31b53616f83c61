import Ticketing.AppServer.Retries
import Ticketing.Lib.Batch
import Ticketing.Server.ErrorReplies
import Ticketing.Server.Linearization
import Ticketing.Server.Recovery

namespace Ticketing.AppServer

open Parsing Python JsonText Commands Protocol Server Storage Trace

/-! ### Replies that cannot be sent -/

def SizedScalar : RespScalar → Prop
  | .str s => ∀ text ∈ s.toString?, (Utf8.encode text).length ≤ maxsize
  | .int _ => True
  | .null => True

def SizedResult : CommandResult → Prop
  | .scalar x => SizedScalar x
  | .list items => items.length ≤ maxsize ∧ ∀ x ∈ items, SizedScalar x

/-- No text and no list in the result of a command is longer than a container can be. -/
def Sized : Except Error CommandResult → Prop
  | .ok result => SizedResult result
  | .error _ => True

instance decidableSizedScalar : ∀ x, Decidable (SizedScalar x)
  | .str s => inferInstanceAs (Decidable (∀ text ∈ s.toString?, _))
  | .int _ => .isTrue trivial
  | .null => .isTrue trivial

instance decidableSizedResult : ∀ result, Decidable (SizedResult result)
  | .scalar x => decidableSizedScalar x
  | .list _ => inferInstanceAs (Decidable (_ ∧ _))

instance decidableSized : ∀ result, Decidable (Sized result)
  | .ok result => decidableSizedResult result
  | .error _ => .isTrue trivial

theorem scalar_error {x : RespScalar} {e : Error} (hs : SizedScalar x) (h : encodeArrayItem x = .error e) :
    scalarReply x = .error e := by
  cases x with
  | null => cases h
  | int n =>
      rw [encodeArrayItem, encodeInteger] at h
      rw [scalarReply]
      cases hn : strInt n with
      | error e' => rw [hn] at h; cases h; rfl
      | ok s => rw [hn] at h; cases h
  | str s =>
      rw [encodeArrayItem, encodeBulkString] at h
      rw [scalarReply]
      cases ht : s.toString? with
      | none => rw [ht] at h; cases h; rfl
      | some text =>
          obtain ⟨length, hlength⟩ := strInt_printable (printable_size (hs text ht))
          rw [ht] at h
          dsimp only at h
          rw [hlength] at h
          cases h

theorem scalars_error {items : List RespScalar} {e : Error} (hs : ∀ x ∈ items, SizedScalar x)
    (h : items.mapM encodeArrayItem = .error e) : items.mapM scalarReply = .error e := by
  induction items with
  | nil => cases h
  | cons x items ih =>
      rw [List.mapM_cons] at h ⊢
      cases hx : encodeArrayItem x with
      | error e' =>
          rw [hx] at h
          cases h
          rw [scalar_error (hs x List.mem_cons_self) hx]
          rfl
      | ok text =>
          obtain ⟨reply, hreply, _⟩ := scalar_reads 0 hx
          rw [hx] at h
          rw [hreply]
          cases hitems : items.mapM encodeArrayItem with
          | error e' =>
              rw [hitems] at h
              cases h
              rw [ih (fun y hy => hs y (List.mem_cons_of_mem _ hy)) hitems]
              rfl
          | ok texts => rw [hitems] at h; cases h

theorem resultValue_error {result : CommandResult} {e : Error} (hs : SizedResult result)
    (h : encodeResultValue result = .error e) : resultReply result = .error e := by
  cases result with
  | scalar x =>
      refine scalar_error hs (Eq.trans ?_ h)
      cases x <;> rfl
  | list items =>
      obtain ⟨hlen, hitems⟩ := hs
      rw [encodeResultValue, encodeArray] at h
      rw [resultReply]
      cases htexts : items.mapM encodeArrayItem with
      | error e' =>
          rw [htexts] at h
          cases h
          rw [scalars_error hitems htexts]
          rfl
      | ok texts =>
          obtain ⟨count, hcount⟩ := strInt_printable (printable_size hlen)
          rw [htexts] at h
          simp only [hcount, bind, Except.bind, pure, Except.pure, reduceCtorEq] at h

/-- A result that the server fails to encode is one that the client could not have read. -/
theorem commandResult_error {command : List String} {now : ℚ} {store : Store} {result : CommandResult} {e : Error}
    (hr : (handleCommand command now store).1 = .ok result) (hs : SizedResult result)
    (h : encodeCommandResult command result = .error e) : resultReply result = .error e := by
  obtain ⟨token, args, rfl, hne⟩ := handleCommand_named hr
  unfold encodeCommandResult at h
  dsimp only at h
  rw [if_neg hne] at h
  by_cases hset : upper token = "SET"
  · obtain rfl := handleCommand_set hset hr
    rw [if_pos hset] at h
    cases h
  · rw [if_neg hset] at h
    exact resultValue_error hs h

/-! ### One reply -/

variable {depth : Nat} {command : List String} {now : ℚ} {store : Store}

/-- What the client reads in the bytes of the server is the reply of the atomic command. -/
theorem resultOf_serve (depth : Nat) (hs : Sized (handleCommand command now store).1) :
    resultOf (depth + 2) (serve command now store).1 = (redisReply command now store).1 := by
  have herror (e : Error) : resultOf (depth + 2) (Utf8.encode (errorReply e)) =
      .error ⟨.conflictError, "ERR " ++ formatErrorMessage e⟩ := by
    rw [resultOf, error_whole]
    rfl
  rw [serve, respond, redisReply]
  cases hr : (handleCommand command now store).1 with
  | error e => exact herror e
  | ok result =>
      rw [hr] at hs
      cases he : encodeCommandResult command result with
      | error e =>
          simp only [Except.bind, he, commandResult_error hr hs he]
          exact herror e
      | ok response =>
          obtain ⟨reply, hreply, hreads⟩ := result_reads depth he
          simp only [Except.bind, he, hreply]
          rw [resultOf, hreads.whole]

theorem serve_verdict (depth : Nat) (command : List String) (now : ℚ) (store : Store) :
    ¬ isIncomplete (parseRespReply (depth + 2) (serve command now store).1) := by
  rw [serve, respond]
  cases (handleCommand command now store).1 with
  | error e => simp [Except.bind, error_whole, isIncomplete]
  | ok result =>
      cases he : encodeCommandResult command result with
      | error e => simp [Except.bind, he, error_whole, isIncomplete]
      | ok response =>
          obtain ⟨reply, _, hreads⟩ := result_reads depth he
          simp [Except.bind, he, hreads.whole, isIncomplete]

/-- A call on a connection that holds: the request is sent, and the reply to it comes, in whatever chunks. -/
structure Prompt (call : Call) (command : List String) (reply : List UInt8) : Prop where
  tokens : call.tokens = command.map Str.ofString
  connected : call.first.connectError = none
  sent : call.first.sendError = none
  answered : call.first.reply = reply
  chunked : ∃ chunks : List (List UInt8), (∀ chunk ∈ chunks, chunk ≠ [] ∧ chunk.length ≤ recvSize) ∧
    chunks.flatten = reply ∧ call.first.recvs = chunks.map fun chunk => .chunk (chunk.length - 1)

theorem Prompt.executed (depth : Nat) {call : Call} (h : Prompt call command (serve command now store).1)
    {frame : List UInt8} (hf : Encodes command frame) {conn : Option Connection} (hd : Drained conn) (i : Nat) :
    execute (depth + 2) i call conn =
      (⟨resultOf (depth + 2) (serve command now store).1, tag i (serve command now store).1⟩, some []) := by
  obtain ⟨chunks, hne, hflat, hrecvs⟩ := h.chunked
  have hv := serve_verdict depth command now store
  have hread := readReply_chunks (i := i) (serve_complete command now store) hv [] hne hflat (chunks_ne_nil hv hflat)
  have hconn : ensureConnection call.first.connectError conn = .ok [] := by
    rw [h.connected]
    rcases hd with rfl | rfl <;> rfl
  have hexchange : exchange (depth + 2) i call.first [] =
      (.done (resultOf (depth + 2) (serve command now store).1) (tag i (serve command now store).1), some []) := by
    rw [hflat] at hread
    rw [exchange, h.sent, h.answered, hrecvs]
    exact hread
  have hencode : encodeCommand call.tokens = .ok frame := by
    rw [h.tokens]
    exact hf
  rw [execute, hencode]
  simp only [hconn, hexchange]

/-! ### All connections -/

section Connections

variable {ι : Type} [DecidableEq ι]

/-- An access to the storage as a step of the world of the app server: who reads which reply, and the storage after it. -/
def atomicStep (store : Store) : Access ι ℚ → Option (ι × Except Error Reply) × Store
  | .ran i command now => (some (i, (redisReply command now store).1), (redisReply command now store).2)
  | .snapshot now => (none, (Storage.snapshot store now).2)

def readBy (i : ι) : Option (ι × Except Error Reply) → Option (Except Error Reply)
  | some (j, reply) => if j = i then some reply else none
  | none => none

/-- What one connection reads when the commands of all of them run one at a time. -/
def atomicReplies (store : Store) (log : List (Access ι ℚ)) (i : ι) : List (Except Error Reply) :=
  (answers atomicStep store log).filterMap (readBy i)

omit [DecidableEq ι] in
theorem atomicStep_storage (store : Store) (a : Access ι ℚ) :
    (atomicStep store a).2 = (Executor.access engineService store a).2 := by
  cases a <;> rfl

/-- The bytes that a connection gets for a command, and what it reads in them. -/
def wireReply (depth : Nat) (r : List String × Except Error CommandResult) : Except Error Reply :=
  resultOf (depth + 2) (Utf8.encode (respond r.1 r.2))

theorem atomicReplies_cons (store : Store) (a : Access ι ℚ) (log : List (Access ι ℚ)) (i : ι) :
    atomicReplies store (a :: log) i = atomicReplies store [a] i ++ atomicReplies (atomicStep store a).2 log i := by
  rw [atomicReplies, ← List.singleton_append, answers_append, List.filterMap_append]
  rfl

theorem wireReply_access (depth : Nat) (store : Store) (a : Access ι ℚ) (i : ι)
    (hs : ∀ r ∈ Executor.repliesTo engineService store [a] i, Sized r.2) :
    (Executor.repliesTo engineService store [a] i).map (wireReply depth) = atomicReplies store [a] i := by
  cases a with
  | snapshot now => rfl
  | ran j command now =>
      by_cases hj : j = i
      · have hone : Executor.repliesTo engineService store [.ran j command now] i =
            [(command, (handleCommand command now store).1)] := by
          simp [Executor.repliesTo, answers, Executor.access, Executor.replyTo, engineService, hj]
        have hatomic : atomicReplies store [.ran j command now] i = [(redisReply command now store).1] := by
          simp [atomicReplies, answers, atomicStep, readBy, hj]
        rw [hone] at hs ⊢
        rw [hatomic, List.map_singleton]
        exact congrArg List.singleton (resultOf_serve depth (hs _ List.mem_cons_self))
      · simp [Executor.repliesTo, atomicReplies, answers, Executor.access, Executor.replyTo, atomicStep, readBy, hj]

theorem wireReplies_eq (depth : Nat) {log : List (Access ι ℚ)} {i : ι} (store : Store)
    (hs : ∀ r ∈ Executor.repliesTo engineService store log i, Sized r.2) :
    (Executor.repliesTo engineService store log i).map (wireReply depth) = atomicReplies store log i := by
  induction log generalizing store with
  | nil => rfl
  | cons a log ih =>
      have hsplit : Executor.repliesTo engineService store (a :: log) i =
          Executor.repliesTo engineService store [a] i ++
            Executor.repliesTo engineService (atomicStep store a).2 log i := by
        rw [atomicStep_storage]
        exact Executor.repliesTo_append engineService store [a] log i
      rw [hsplit] at hs ⊢
      rw [List.map_append, atomicReplies_cons,
        wireReply_access depth store a i fun r hr => hs r (List.mem_append_left _ hr),
        ih _ fun r hr => hs r (List.mem_append_right _ hr)]

omit [DecidableEq ι] in
theorem atomicStorage_eq (store : Store) (log : List (Access ι ℚ)) :
    log.foldl (fun store a => (atomicStep store a).2) store = Executor.storageAfter engineService store log := by
  simp only [Executor.storageAfter, atomicStep_storage]

/-! ### Conversations -/

/-- Calls that get the replies the server has sent, one by one. -/
def Answered (calls : List Call) (sent : List Event) : Prop :=
  List.Forall₂ (fun call event => ∃ command, event.command? = some command ∧
    Prompt call command (Utf8.encode event.response)) calls sent

theorem executeAll_answered {calls : List Call} {replies : List (List String × Except Error CommandResult)}
    (hreplies : ∀ r ∈ replies, (∃ now store, r.2 = (handleCommand r.1 now store).1) ∧ ∃ frame, Encodes r.1 frame)
    (h : Answered calls (replies.map Clients.served)) {conn : Option Connection} (hd : Drained conn) (i : Nat) :
    (executeAll (depth + 2) i conn calls).map Outcome.result = replies.map (wireReply depth) := by
  induction replies generalizing calls i conn with
  | nil =>
      cases h
      rfl
  | cons r replies ih =>
      obtain ⟨command, result⟩ := r
      obtain ⟨⟨now, store, hresult⟩, frame, hframe⟩ := hreplies _ List.mem_cons_self
      obtain rfl : result = (handleCommand command now store).1 := hresult
      cases h with
      | cons hfirst hcalls =>
          obtain ⟨_, hcommand, hprompt⟩ := hfirst
          cases hcommand
          have hexecute := hprompt.executed depth hframe hd i
          rw [executeAll, hexecute, List.map_cons, List.map_cons,
            ih (fun r hr => hreplies r (List.mem_cons_of_mem _ hr)) hcalls (.inr rfl)]
          rfl

theorem mem_repliesTo {log : List (Access ι ℚ)} {i : ι} {store : Store} {r : List String × Except Error CommandResult}
    (h : r ∈ Executor.repliesTo engineService store log i) : ∃ now store', r.2 = (handleCommand r.1 now store').1 := by
  induction log generalizing store with
  | nil => cases h
  | cons a log ih =>
      rw [← List.singleton_append, Executor.repliesTo_append, List.mem_append] at h
      rcases h with h | h
      · cases a with
        | snapshot now => cases h
        | ran j command now =>
            simp only [Executor.repliesTo, answers, Executor.access, Executor.replyTo, engineService,
              List.filterMap_cons, List.filterMap_nil] at h
            split at h
            next => cases h
            next heq =>
              split at heq
              · cases heq
                rw [List.mem_singleton] at h
                exact ⟨now, store, by rw [h]⟩
              · cases heq
      · exact ih h

/-- Any number of clients, on connections that hold, whose requests and replies come in any chunks: what each of them
reads is what the commands answer when they run one at a time, each at once on the whole storage, in the order of the
log. -/
theorem conversations_atomic (depth : Nat) (store : Store) {commands : ι → List (List String)}
    {frames chunks : ι → List (List UInt8)} (hf : ∀ i, List.Forall₂ Encodes (commands i) (frames i))
    (hc : ∀ i, (chunks i).flatten = (frames i).flatten) (turns : List (Clients.Turn ι ℚ)) {x : Clients ι Store ℚ}
    (hx : turns.foldl (Clients.step engineService) (Clients.start store chunks) = x) (i : ι)
    (hs : ∀ r ∈ Executor.repliesTo engineService store x.executor.log i, Sized r.2)
    {calls : List Call} (hcalls : Answered calls (x.sessions i).sent) :
    (executeAll (depth + 2) 0 none calls).map Outcome.result <+: atomicReplies store x.executor.log i ∧
      (Clients.Finished (x.sessions i) →
        (executeAll (depth + 2) 0 none calls).map Outcome.result = atomicReplies store x.executor.log i ∧
          Executor.executedBy x.executor.log i = commands i) ∧
      x.executor.storage = x.executor.log.foldl (fun store a => (atomicStep store a).2) store ∧
      ∀ more : List (Clients.Turn ι ℚ), x.executor.log <+: (more.foldl (Clients.step engineService) x).executor.log := by
  have h : Clients.Tracked engineService store commands x := by
    rw [← hx]
    exact List.foldlRecOn turns _ (Clients.tracked_start engineService store hf hc) fun _ hy turn _ => hy.step turn
  obtain ⟨hexecuted, hcommands⟩ := h.executed i
  have hlog := h.coherent.replies i
  have hread : (executeAll (depth + 2) 0 none calls).map Outcome.result =
      (x.executor.returned i).map (wireReply depth) := by
    rw [h.sent i] at hcalls
    refine executeAll_answered (fun r hr => ⟨mem_repliesTo (hlog ▸ List.mem_append_left _ hr), ?_⟩) hcalls (.inl rfl) 0
    have hmem : r.1 ∈ commands i := by
      refine hcommands.subset ?_
      rw [hexecuted]
      exact List.mem_append_left _ (List.mem_map_of_mem hr)
    obtain ⟨frame, _, hframe⟩ := Interaction.exists_of_forall₂ (hf i) _ hmem
    exact ⟨frame, hframe⟩
  have hatomic := wireReplies_eq depth store hs
  refine ⟨?_, fun hfinished => ?_, ?_, fun more => ?_⟩
  · rw [hread, ← hatomic, ← hlog, List.map_append]
    exact List.prefix_append _ _
  · obtain ⟨hall, hserved⟩ := h.finished hfinished
    have hlen : (x.executor.returned i).length = (Executor.repliesTo engineService store x.executor.log i).length := by
      rw [h.sent i] at hserved
      simpa using congrArg List.length hserved
    have hpending : Executor.pending (x.executor.calls i) = [] := by
      rw [← hlog, List.length_append] at hlen
      exact List.length_eq_zero_iff.mp (by omega)
    rw [hpending, List.append_nil] at hlog
    rw [hread, hlog]
    exact ⟨hatomic, hall⟩
  · rw [atomicStorage_eq]
    exact h.coherent.storage
  · clear hx hs hcalls h hlog hread hatomic hexecuted hcommands
    induction more generalizing x with
    | nil => exact List.prefix_refl _
    | cons turn more ih => exact (MiniRedisServer.client_log x turn).trans ih

/-- The calls of the client that sends the second and the third command of the run. -/
def twoCalls : List Call :=
  [⟨["GET", "k"].map Str.ofString, ⟨none, none, true, Utf8.encode "$-1\r\n", [.chunk 1, .chunk 2]⟩,
      ⟨none, none, true, [], []⟩⟩,
    ⟨[], ⟨none, none, true, Utf8.encode "-ERR empty command\r\n", [.chunk 19]⟩, ⟨none, none, true, [], []⟩⟩]

end Connections

theorem twoCalls_answered :
    Answered twoCalls ((Clients.twoTurns.foldl (Clients.step engineService) (Clients.start ∅ Clients.twoChunks)).sessions
      false).sent := by
  have hsent : ((Clients.twoTurns.foldl (Clients.step engineService) (Clients.start ∅ Clients.twoChunks)).sessions
      false).sent = [.served ["GET", "k"] "$-1\r\n", .served [] "-ERR empty command\r\n"] := by
    decide +kernel
  rw [hsent]
  refine .cons ⟨_, rfl, rfl, rfl, rfl, rfl, ?_⟩ (.cons ⟨_, rfl, rfl, rfl, rfl, rfl, ?_⟩ .nil)
  · exact ⟨[(Utf8.encode "$-1\r\n").take 2, (Utf8.encode "$-1\r\n").drop 2], by decide +kernel, by decide +kernel, rfl⟩
  · exact ⟨[Utf8.encode "-ERR empty command\r\n"], by decide +kernel, by decide +kernel, rfl⟩

theorem twoCalls_atomic : (executeAll 2 0 none twoCalls).map Outcome.result =
    atomicReplies ∅ (Clients.twoTurns.foldl (Clients.step engineService) (Clients.start ∅ Clients.twoChunks)).executor.log
      false :=
  ((conversations_atomic 0 ∅ Clients.twoFrames_encode (fun i => by simp [Clients.twoChunks]) Clients.twoTurns rfl false
    (by decide +kernel) twoCalls_answered).2.1 ⟨by decide +kernel, by decide +kernel⟩).1

end Ticketing.AppServer
