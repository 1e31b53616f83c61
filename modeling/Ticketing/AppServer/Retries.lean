import Ticketing.AppServer.ReplyChunks
import Ticketing.Commands.LateRepeats

namespace Ticketing.AppServer

open Python JsonText Commands Storage Server

variable {depth i : Nat}

/-! ### The server behind the retry -/

/-- The bytes that the server sends for a command, and its store after it. -/
def serve (command : List String) (now : ℚ) (store : Store) : List UInt8 × Store :=
  (Utf8.encode (respond command (handleCommand command now store).1), (handleCommand command now store).2)

/-- What comes back for a request that is executed at a time, or never. -/
def answered (command : List String) (executed : Option ℚ) (store : Store) : List UInt8 × Store :=
  match executed with
  | none => ([], store)
  | some now => serve command now store

/-- When the server executes the request of the first attempt: never, before it has the request of the second one,
or when it has answered that one. -/
inductive FirstRequest
  | never
  | before (t : ℚ)
  | after (t : ℚ)

def FirstRequest.early : FirstRequest → Option ℚ
  | .before t => some t
  | _ => none

def FirstRequest.late : FirstRequest → Option ℚ
  | .after t => some t
  | _ => none

/-- A call whose first attempt breaks: the server may execute its request all the same, and meets the request again
with the second attempt. -/
structure Retried (depth i : Nat) (conn : Option Connection) (command : List String) (store : Store) (call : Call)
    (request : FirstRequest) (again : Option ℚ) : Prop where
  tokens : call.tokens = command.map Str.ofString
  breaks : ∃ c m c', ensureConnection call.first.connectError conn = .ok c ∧
    exchange depth i call.first c = (.osError m, c')
  first : call.first.reply = (answered command request.early store).1
  second : call.second.reply = (answered command again (answered command request.early store).2).1
  order : ∀ t' ∈ again, (∀ t ∈ request.early, t ≤ t') ∧ ∀ t ∈ request.late, t' ≤ t

/-- The times at which the server executes the command. -/
def executions (request : FirstRequest) (again : Option ℚ) : List ℚ :=
  request.early.toList ++ again.toList ++ request.late.toList

/-- The store when both requests are done with. -/
def finalStore (command : List String) (store : Store) (request : FirstRequest) (again : Option ℚ) : Store :=
  (answered command request.late (answered command again (answered command request.early store).2).2).2

/-- The store is as after one execution of the command, at a time between those of the server, and the value is the
reply to it. -/
def ExactlyOnce (depth : Nat) (command : List String) (store : Store) (request : FirstRequest) (again : Option ℚ)
    (value : Reply) : Prop :=
  ∃ now, (∃ t ∈ executions request again, t ≤ now) ∧ (∃ t ∈ executions request again, now ≤ t) ∧
    (∀ k, (finalStore command store request again).lookup k = (serve command now store).2.lookup k) ∧
    resultOf depth (serve command now store).1 = .ok value

/-! ### Replies with a value -/

/-- The scalar that a reply has been made from. -/
def Reply.scalar : Reply → RespScalar
  | .str s => .str (Str.ofString s)
  | .int n => .int n
  | .null => .null
  | .list _ => .null

theorem scalarReply_scalar {x : RespScalar} {reply : Reply} (h : scalarReply x = .ok reply) :
    reply.scalar = x ∧ ∀ items, reply ≠ .list items := by
  cases x with
  | str s =>
      rw [scalarReply] at h
      cases hs : s.toString? with
      | none => rw [hs] at h; cases h
      | some text =>
          rw [hs] at h
          cases h
          rw [toString?_eq_some.mp hs]
          exact ⟨rfl, fun items h => by cases h⟩
  | int n =>
      rw [scalarReply] at h
      cases hn : strInt n with
      | error e => rw [hn] at h; cases h
      | ok s => rw [hn] at h; cases h; exact ⟨rfl, fun items h => by cases h⟩
  | null => cases h; exact ⟨rfl, fun items h => by cases h⟩

theorem scalarReplies_scalar {xs : List RespScalar} {replies : List Reply}
    (h : List.Forall₂ (fun x reply => scalarReply x = .ok reply) xs replies) : replies.map Reply.scalar = xs := by
  induction h with
  | nil => rfl
  | cons hx _ ih => rw [List.map_cons, (scalarReply_scalar hx).1, ih]

theorem resultReply_injective {x y : CommandResult} {reply : Reply} (hx : resultReply x = .ok reply)
    (hy : resultReply y = .ok reply) : x = y := by
  have items {xs : List RespScalar} (h : resultReply (.list xs) = .ok reply) :
      ∃ replies, reply = .list replies ∧ replies.map Reply.scalar = xs := by
    rw [resultReply] at h
    cases hm : xs.mapM scalarReply with
    | error e => rw [hm] at h; cases h
    | ok replies => rw [hm] at h; cases h; exact ⟨replies, rfl, scalarReplies_scalar (mapM_ok.mp hm)⟩
  cases x with
  | scalar x =>
      obtain ⟨hx, hlist⟩ := scalarReply_scalar (show scalarReply x = .ok reply from hx)
      cases y with
      | scalar y => rw [← hx, (scalarReply_scalar (show scalarReply y = .ok reply from hy)).1]
      | list ys =>
          obtain ⟨replies, hreply, _⟩ := items hy
          exact absurd hreply (hlist replies)
  | list xs =>
      obtain ⟨replies, rfl, hxs⟩ := items hx
      cases y with
      | scalar y => exact absurd rfl ((scalarReply_scalar (show scalarReply y = _ from hy)).2 replies)
      | list ys =>
          obtain ⟨replies', hreply, hys⟩ := items hy
          cases hreply
          rw [← hxs, hys]

/-- A reply is read as a value exactly where the command has succeeded and its result could be sent. -/
theorem serve_value {command : List String} {now : ℚ} {store : Store} {value : Reply} :
    resultOf (depth + 2) (serve command now store).1 = .ok value ↔ ∃ result response,
      (handleCommand command now store).1 = .ok result ∧ encodeCommandResult command result = .ok response ∧
        resultReply result = .ok value := by
  have herror (e : Error) : resultOf (depth + 2) (Utf8.encode (errorReply e)) ≠ .ok value := by
    rw [resultOf, error_whole]
    intro h
    cases h
  rw [serve, respond]
  cases hr : (handleCommand command now store).1 with
  | error e =>
      refine iff_of_false (herror e) ?_
      rintro ⟨_, _, h, _⟩
      cases h
  | ok result =>
      cases he : encodeCommandResult command result with
      | error e =>
          simp only [Except.bind, he]
          refine iff_of_false (herror e) ?_
          rintro ⟨_, _, h, hresponse, _⟩
          cases h
          rw [he] at hresponse
          cases hresponse
      | ok response =>
          obtain ⟨reply, hreply, hreads⟩ := result_reads depth he
          simp only [Except.bind, he]
          rw [resultOf, hreads.whole]
          constructor
          · intro h
            cases h
            exact ⟨result, response, rfl, he, hreply⟩
          · rintro ⟨_, _, h, _, hvalue⟩
            cases h
            exact hreply.symm.trans hvalue

theorem serve_complete (command : List String) (now : ℚ) (store : Store) :
    Complete (depth + 2) (serve command now store).1 := by
  rw [serve, respond]
  cases (handleCommand command now store).1 with
  | error e => exact error_complete e
  | ok result =>
      cases he : encodeCommandResult command result with
      | error e =>
          simp only [Except.bind, he]
          exact error_complete e
      | ok response =>
          obtain ⟨reply, _, hreads⟩ := result_reads depth he
          simp only [Except.bind, he]
          exact complete_of_reads hreads

/-! ### The retry -/

variable {conn : Option Connection} {command : List String} {store : Store} {call : Call} {request : FirstRequest}
  {again : Option ℚ} {value : Reply}

/-- A value that a retry returns is the reply to the second request. -/
theorem Retried.returned (h : Retried (depth + 2) i conn command store call request again)
    (hv : (execute (depth + 2) i call conn).1.result = .ok value) :
    ∃ t', again = some t' ∧
      resultOf (depth + 2) (serve command t' (answered command request.early store).2).1 = .ok value := by
  obtain ⟨c, m, c', hconn, hbreaks⟩ := h.breaks
  have hresult : resultOf (depth + 2) call.second.reply = .ok value := by
    have hcomplete : Complete (depth + 2) call.second.reply := by
      rw [h.second]
      cases again with
      | none => exact fun n hn => absurd hn (Nat.not_lt_zero n)
      | some t' => exact serve_complete command t' _
    unfold execute at hv
    split at hv
    next => cases hv
    next =>
      rw [hconn] at hv
      dsimp only at hv
      rw [hbreaks] at hv
      dsimp only at hv
      cases hsecond : ensureConnection call.second.connectError none with
      | error message => rw [hsecond] at hv; cases hv
      | ok c'' =>
          obtain rfl := ensureConnection_drained (.inl rfl) hsecond
          rw [hsecond] at hv
          dsimp only at hv
          rcases hex : exchange (depth + 2) i call.second [] with ⟨m' | ⟨result, buffer⟩, conn'⟩
          · rw [hex] at hv; cases hv
          · rw [hex] at hv
            rcases exchange_answers hcomplete hex with ⟨hclosed, _⟩ | ⟨_, hown, _⟩
            · rw [hclosed] at hv; cases hv
            · exact hown.symm.trans hv
  rw [h.second] at hresult
  cases again with
  | none => cases hresult
  | some t' => exact ⟨t', rfl, hresult⟩

theorem serve_lookup {r : Request} (hp : parseCommand command = .ok r) (now : ℚ) (store : Store) :
    (handleCommand command now store).1 = (r.once now (store.lookup r.target.key)).1 ∧
      (serve command now store).2.lookup r.target.key = (r.once now (store.lookup r.target.key)).2 := by
  have hsee : r.seen store now = r.see now (store.lookup r.target.key) := rfl
  obtain ⟨hreply, hentry⟩ := perform_seen (parseCommand_checked hp) now store
  rw [hsee] at hreply hentry
  simp only [serve, handleCommand, hp]
  exact ⟨hreply, hentry⟩

theorem serve_lookup_ne {r : Request} (hp : parseCommand command = .ok r) (now : ℚ) (store : Store) {k : String}
    (hk : k ≠ r.target.key) : (serve command now store).2.lookup k = store.lookup k := by
  simp only [serve, handleCommand, hp]
  exact perform_lookup_ne r now store hk

/-- What one execution answers and leaves is what it answers and leaves on the entry of the command. -/
theorem oneExecution_iff {r : Request} (hp : parseCommand command = .ok r) {result : CommandResult} {response : String}
    (hresponse : encodeCommandResult command result = .ok response) (hvalue : resultReply result = .ok value)
    {final : Store} (hne : ∀ k ≠ r.target.key, final.lookup k = store.lookup k) (now : ℚ) :
    ((∀ k, final.lookup k = (serve command now store).2.lookup k) ∧
        resultOf (depth + 2) (serve command now store).1 = .ok value) ↔
      r.once now (store.lookup r.target.key) = (.ok result, final.lookup r.target.key) := by
  have hserve := serve_lookup hp now store
  constructor
  · rintro ⟨hstore, hreply⟩
    obtain ⟨result', _, hresult', _, hvalue'⟩ := serve_value.mp hreply
    obtain rfl := resultReply_injective hvalue hvalue'
    exact Prod.ext (hserve.1.symm.trans hresult') (hserve.2.symm.trans (hstore _).symm)
  · intro honce
    refine ⟨fun k => ?_, serve_value.mpr ⟨result, response, hserve.1.trans (congrArg Prod.fst honce), hresponse, hvalue⟩⟩
    by_cases hk : k = r.target.key
    · rw [hk, hserve.2, honce]
    · rw [hne k hk, serve_lookup_ne hp now store hk]

theorem between_iff {a b now : ℚ} (hle : a ≤ b) :
    ((∃ t ∈ [a, b], t ≤ now) ∧ ∃ t ∈ [a, b], now ≤ t) ↔ a ≤ now ∧ now ≤ b := by
  simp only [List.mem_cons, List.not_mem_nil, or_false, exists_eq_or_imp, exists_eq_left]
  constructor
  · rintro ⟨ha | hb, ha' | hb'⟩
    · exact ⟨ha, ha'.trans hle⟩
    · exact ⟨ha, hb'⟩
    · exact ⟨hle.trans hb, ha'.trans hle⟩
    · exact ⟨hle.trans hb, hb'⟩
  · exact fun ⟨ha, hb⟩ => ⟨.inl ha, .inr hb⟩

/-- One execution is left of two exactly when they come to one on the entry of the command. -/
theorem exactlyOnce_iff {r : Request} (hp : parseCommand command = .ok r) {a b : ℚ} (hle : a ≤ b)
    (htimes : executions request again = [a, b]) {result : CommandResult} {response : String}
    (hresponse : encodeCommandResult command result = .ok response) (hvalue : resultReply result = .ok value)
    (hne : ∀ k ≠ r.target.key, (finalStore command store request again).lookup k = store.lookup k) :
    ExactlyOnce (depth + 2) command store request again value ↔ ∃ now, a ≤ now ∧ now ≤ b ∧
      r.once now (store.lookup r.target.key) =
        (.ok result, (finalStore command store request again).lookup r.target.key) := by
  refine exists_congr fun now => ?_
  rw [oneExecution_iff hp hresponse hvalue hne, htimes, ← and_assoc, between_iff hle, and_assoc]

/-- The request of the first attempt has been executed before the one that is answered. -/
theorem before_iff {r : Request} (hp : parseCommand command = .ok r) {t t' : ℚ} (hle : t ≤ t')
    (hv : resultOf (depth + 2) (serve command t' (serve command t store).2).1 = .ok value) :
    ExactlyOnce (depth + 2) command store (.before t) (some t') value ↔
      r.Repeatable t t' (store.lookup r.target.key) := by
  obtain ⟨result, response, hresult, hresponse, hvalue⟩ := serve_value.mp hv
  have hsecond := serve_lookup hp t' (serve command t store).2
  rw [(serve_lookup hp t store).2] at hsecond
  have hok : (r.twice t t' (store.lookup r.target.key)).1 = .ok result := hsecond.1.symm.trans hresult
  have htwice : r.twice t t' (store.lookup r.target.key) =
      (.ok result, (finalStore command store (.before t) (some t')).lookup r.target.key) :=
    Prod.ext hok hsecond.2.symm
  rw [← once_iff (parseCommand_checked hp) hle hok, Request.Once, htwice]
  exact exactlyOnce_iff hp hle rfl hresponse hvalue fun k hk =>
    (serve_lookup_ne hp t' _ hk).trans (serve_lookup_ne hp t store hk)

/-- The request of the first attempt is executed when the other has been answered. -/
theorem after_iff {r : Request} (hp : parseCommand command = .ok r) {t t' : ℚ} (hle : t' ≤ t)
    (hv : resultOf (depth + 2) (serve command t' store).1 = .ok value) :
    ExactlyOnce (depth + 2) command store (.after t) (some t') value ↔ r.Unnoticed t' t (store.lookup r.target.key) := by
  obtain ⟨result, response, hresult, hresponse, hvalue⟩ := serve_value.mp hv
  have hlate := (serve_lookup hp t (serve command t' store).2).2
  rw [(serve_lookup hp t' store).2] at hlate
  have hok : (r.once t' (store.lookup r.target.key)).1 = .ok result := (serve_lookup hp t' store).1.symm.trans hresult
  have hfinal : (r.twice t' t (store.lookup r.target.key)).2 =
      (finalStore command store (.after t) (some t')).lookup r.target.key := hlate.symm
  rw [← answeredOnce_iff (parseCommand_checked hp) hle hok, Request.AnsweredOnce, hok, hfinal]
  exact exactlyOnce_iff hp hle rfl hresponse hvalue fun k hk =>
    (serve_lookup_ne hp t _ hk).trans (serve_lookup_ne hp t' store hk)

/-- The first request leaves no trace beside the one that is answered at `t'`. -/
def FirstRequest.Harmless (t' : ℚ) (x : Option Entry) (r : Request) : FirstRequest → Prop
  | .never => True
  | .before t => r.Repeatable t t' x
  | .after t => r.Unnoticed t' t x

/-- The reply of the first execution is lost, and the second is read whole. -/
def lostReply (command : List String) (store : Store) : Call :=
  ⟨command.map Str.ofString, ⟨none, none, true, (serve command 0 store).1, []⟩,
    ⟨none, none, true, (serve command 1 (serve command 0 store).2).1, [.chunk 100]⟩⟩

theorem lostReply_retried (command : List String) (store : Store) :
    Retried (depth + 2) i none command store (lostReply command store) (.before 0) (some 1) where
  tokens := rfl
  breaks := ⟨[], "timed out", _, rfl, rfl⟩
  first := rfl
  second := rfl
  order t' ht' := by
    cases ht'
    exact ⟨fun t ht => by cases ht; exact zero_le_one, fun t ht => by cases ht⟩

/-- The first request waits at the server until the second has been answered. -/
def overtaken (command : List String) (store : Store) : Call :=
  ⟨command.map Str.ofString, ⟨none, none, true, [], []⟩, ⟨none, none, true, (serve command 0 store).1, [.chunk 100]⟩⟩

theorem overtaken_retried (command : List String) (store : Store) :
    Retried (depth + 2) i none command store (overtaken command store) (.after 1) (some 0) where
  tokens := rfl
  breaks := ⟨[], "timed out", _, rfl, rfl⟩
  first := rfl
  second := rfl
  order t' ht' := by
    cases ht'
    exact ⟨fun t ht => (by cases ht), fun t ht => by cases ht; exact zero_le_one⟩

end Ticketing.AppServer
