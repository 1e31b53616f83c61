import Ticketing.AppServer.RedisClient

namespace Ticketing.AppServer

open Python

/-! ### Replies of the server -/

def isIncomplete : Parsed Reply → Bool
  | .error (.incomplete _) => true
  | _ => false

/-- The bytes of one reply: no proper prefix of them has a verdict. -/
def Complete (depth : Nat) (reply : List UInt8) : Prop :=
  ∀ n < reply.length, isIncomplete (parseRespReply depth (reply.take n))

instance (depth : Nat) (reply : List UInt8) : Decidable (Complete depth reply) :=
  inferInstanceAs (Decidable (∀ n < reply.length, _))

def tag (i : Nat) (reply : List UInt8) : List ReplyByte := reply.map (fun b => (b, i))

/-- What `execute` makes of a reply that it has read to the end. -/
def resultOf (depth : Nat) (reply : List UInt8) : Except Error Reply :=
  match parseRespReply depth reply with
  | .ok (value, []) => .ok value
  | .ok (_, _ :: _) => .error ⟨.upstreamError, "Redis reply contained unexpected trailing data"⟩
  | .error e => .error (verdictError e)

variable {depth i : Nat}

theorem complete_append {xs ys : List UInt8} (hc : Complete depth (xs ++ ys)) (hy : ys ≠ []) :
    isIncomplete (parseRespReply depth xs) := by
  have hlt : xs.length < (xs ++ ys).length := by
    rw [List.length_append]
    have := List.length_pos_iff.mpr hy
    omega
  simpa using hc xs.length hlt

/-! ### One exchange -/

/-- An answer is the server's own words, and it leaves nothing behind. -/
def Answers (depth i : Nat) (reply : List UInt8) (result : Except Error Reply) (buffer : List ReplyByte)
    (conn : Option Connection) : Prop :=
  (result = .error ⟨.upstreamError, "Redis closed the connection before replying"⟩ ∧ conn = none) ∨
    (buffer = tag i reply ∧ result = resultOf depth reply ∧ conn = some [])

theorem readReply_answers {reply : List UInt8} (hc : Complete depth reply) {recvs : List Recv}
    {buffer : List ReplyByte} {conn : Connection} (h : buffer ++ conn = tag i reply)
    {result : Except Error Reply} {buffer' : List ReplyByte} {conn' : Option Connection}
    (hr : readReply depth recvs buffer conn = (.done result buffer', conn')) :
    Answers depth i reply result buffer' conn' := by
  induction recvs generalizing buffer conn with
  | nil => simp [readReply] at hr
  | cons r recvs ih =>
      cases r with
      | fails message => simp [readReply] at hr
      | closed =>
          simp only [readReply, Prod.mk.injEq, Exchange.done.injEq] at hr
          obtain ⟨⟨rfl, rfl⟩, rfl⟩ := hr
          exact .inl ⟨rfl, rfl⟩
      | chunk size =>
          simp only [readReply] at hr
          split at hr
          next => simp at hr
          next hne =>
            generalize hn : min (size + 1) recvSize = n at hr
            have hsplit : (buffer ++ conn.take n) ++ conn.drop n = tag i reply := by
              rw [List.append_assoc, List.take_append_drop, h]
            have hbytes : (buffer ++ conn.take n).map Prod.fst ++ (conn.drop n).map Prod.fst = reply := by
              rw [← List.map_append, hsplit, tag, List.map_map]
              exact List.map_id _
            by_cases hi : isIncomplete (parseRespReply depth ((buffer ++ conn.take n).map Prod.fst))
            · split at hr
              next => exact ih hsplit hr
              all_goals rename_i he; simp_all [isIncomplete]
            · have hdrop : conn.drop n = [] := by
                by_contra hne
                rw [← hbytes] at hc
                exact hi (complete_append hc (by simpa using hne))
              rw [hdrop, List.append_nil] at hsplit
              rw [hdrop, List.map_nil, List.append_nil] at hbytes
              rw [hbytes, hsplit, hdrop] at hr
              right
              unfold resultOf
              rw [hbytes] at hi
              split at hr <;> rename_i he
              · simp [he, isIncomplete] at hi
              all_goals
                simp only [Prod.mk.injEq, Exchange.done.injEq] at hr
                obtain ⟨⟨rfl, rfl⟩, rfl⟩ := hr
                simp_all

theorem exchange_answers {attempt : Attempt} (hc : Complete depth attempt.reply)
    {result : Except Error Reply} {buffer : List ReplyByte} {conn : Option Connection}
    (h : exchange depth i attempt [] = (.done result buffer, conn)) :
    Answers depth i attempt.reply result buffer conn := by
  unfold exchange at h
  split at h
  · simp at h
  · exact readReply_answers hc rfl h

/-! ### Calls -/

/-- The retry of a call has sent its request, or part of it, and ends in an `OSError`. -/
def RetryBreaks (depth i : Nat) (call : Call) (conn : Option Connection) : Prop :=
  ∃ c m m' c' c'', ensureConnection call.first.connectError conn = .ok c ∧
    exchange depth i call.first c = (.osError m, c') ∧
    call.second.connectError = none ∧ exchange depth i call.second [] = (.osError m', c'')

/-- The server answers with one reply each time, and no retry breaks. -/
def Orderly (depth : Nat) : Nat → Option Connection → List Call → Prop
  | _, _, [] => True
  | i, conn, call :: calls => Complete depth call.first.reply ∧ Complete depth call.second.reply ∧
    ¬ RetryBreaks depth i call conn ∧ Orderly depth (i + 1) (execute depth i call conn).2 calls

/-- Nothing is left to read. -/
def Drained (conn : Option Connection) : Prop := conn = none ∨ conn = some []

/-- A value or a conflict is the server's reply to a request of the call itself. -/
def OwnReply (depth i : Nat) (call : Call) (o : Outcome) : Prop :=
  (∃ value, o.result = .ok value) ∨ (∃ message, o.result = .error ⟨.conflictError, message⟩) →
    ∃ reply ∈ [call.first.reply, call.second.reply], o.buffer = tag i reply ∧ o.result = resultOf depth reply

theorem Answers.own {reply : List UInt8} {result : Except Error Reply} {buffer : List ReplyByte}
    {conn : Option Connection} {call : Call} (h : Answers depth i reply result buffer conn)
    (hr : reply ∈ [call.first.reply, call.second.reply]) :
    OwnReply depth i call ⟨result, buffer⟩ ∧ Drained conn := by
  rcases h with ⟨rfl, rfl⟩ | ⟨hb, hres, rfl⟩
  · exact ⟨by simp [OwnReply], .inl rfl⟩
  · exact ⟨fun _ => ⟨reply, hr, hb, hres⟩, .inr rfl⟩

theorem ownReply_error {call : Call} {e : Error} {buffer : List ReplyByte} (he : e.kind ≠ .conflictError) :
    OwnReply depth i call ⟨.error e, buffer⟩ := by
  rintro (⟨value, h⟩ | ⟨message, h⟩)
  · cases h
  · cases h
    exact absurd rfl he

theorem strInt_error {n : Int} {e : Error} (h : strInt n = .error e) : e.kind ≠ .conflictError := by
  unfold strInt at h
  split at h
  · cases h
  · cases h
    decide

theorem encodeToken_error {token : JsonText.Str} {e : Error} (h : encodeToken token = .error e) :
    e.kind ≠ .conflictError := by
  unfold encodeToken encodeText at h
  cases ht : token.toString? with
  | none =>
      rw [ht] at h
      cases h
      decide
  | some s =>
      rw [ht] at h
      cases hn : strInt ((Utf8.encode s).length : Int) with
      | error e' =>
          simp only [hn, bind, Except.bind] at h
          cases h
          exact strInt_error hn
      | ok n => simp only [hn, bind, Except.bind, pure, Except.pure, reduceCtorEq] at h

theorem encodeTokens_error {tokens : List JsonText.Str} {e : Error} (h : tokens.mapM encodeToken = .error e) :
    e.kind ≠ .conflictError := by
  induction tokens with
  | nil => cases h
  | cons token tokens ih =>
      rw [List.mapM_cons] at h
      cases ht : encodeToken token with
      | error e' =>
          rw [ht] at h
          cases h
          exact encodeToken_error ht
      | ok bs =>
          rw [ht] at h
          cases hr : tokens.mapM encodeToken with
          | error e' =>
              rw [hr] at h
              cases h
              exact ih hr
          | ok parts => rw [hr] at h; cases h

theorem encodeCommand_error {tokens : List JsonText.Str} {e : Error} (h : encodeCommand tokens = .error e) :
    e.kind ≠ .conflictError := by
  unfold encodeCommand at h
  cases hn : strInt (tokens.length : Int) with
  | error e' =>
      rw [hn] at h
      cases h
      exact strInt_error hn
  | ok n =>
      cases hm : tokens.mapM encodeToken with
      | error e' =>
          rw [hn, hm] at h
          cases h
          exact encodeTokens_error hm
      | ok parts => rw [hn, hm] at h; cases h

theorem ensureConnection_drained {connectError : Option String} {conn : Option Connection} {c : Connection}
    (hd : Drained conn) (h : ensureConnection connectError conn = .ok c) : c = [] := by
  rcases hd with rfl | rfl
  · cases connectError <;> simp_all [ensureConnection]
  · simpa [ensureConnection] using h.symm

theorem execute_own {call : Call} {conn : Option Connection} (h1 : Complete depth call.first.reply)
    (h2 : Complete depth call.second.reply) (hb : ¬ RetryBreaks depth i call conn) (hd : Drained conn) :
    OwnReply depth i call (execute depth i call conn).1 ∧ Drained (execute depth i call conn).2 := by
  unfold execute
  split
  next e he => exact ⟨ownReply_error (encodeCommand_error he), hd⟩
  next =>
    split
    next message hm => exact ⟨ownReply_error (by simp), .inl rfl⟩
    next c hcn =>
      obtain rfl := ensureConnection_drained hd hcn
      split
      next result buffer c' he => exact (exchange_answers h1 he).own (by simp)
      next m c' he =>
        split
        next message hm => exact ⟨ownReply_error (by simp), .inl rfl⟩
        next c hcn' =>
          obtain rfl := ensureConnection_drained (.inl rfl) hcn'
          split
          next result buffer c'' he' => exact (exchange_answers h2 he').own (by simp)
          next m' c'' he' =>
            refine absurd ⟨[], m, m', c', c'', hcn, he, ?_, he'⟩ hb
            cases hs : call.second.connectError <;> simp_all [ensureConnection]

theorem executeAll_own {calls : List Call} {conn : Option Connection} (h : Orderly depth i conn calls)
    (hd : Drained conn) {j : Nat} {call : Call} {o : Outcome} (hcall : calls[j]? = some call)
    (ho : (executeAll depth i conn calls)[j]? = some o) : OwnReply depth (i + j) call o := by
  induction calls generalizing i conn j with
  | nil => simp at hcall
  | cons c calls ih =>
      obtain ⟨h1, h2, hb, hrest⟩ := h
      obtain ⟨hown, hd'⟩ := execute_own h1 h2 hb hd
      cases j with
      | zero =>
          simp only [executeAll, List.getElem?_cons_zero, Option.some.injEq] at hcall ho
          subst hcall ho
          exact hown
      | succ j =>
          simp only [executeAll, List.getElem?_cons_succ] at hcall ho
          rw [show i + (j + 1) = i + 1 + j by omega]
          exact ih hrest hd' hcall ho

/-- Every value and every conflict answers a request of the call that reports it. -/
def Paired (depth : Nat) (calls : List Call) : Prop :=
  ∀ j call o, calls[j]? = some call → (executeAll depth 0 none calls)[j]? = some o → OwnReply depth j call o

theorem paired_of_orderly (depth : Nat) (calls : List Call) (h : Orderly depth 0 none calls) :
    Paired depth calls := by
  intro j call o hcall ho
  simpa using executeAll_own h (.inl rfl) hcall ho

def Exchange.isDone : Exchange → Bool
  | .done _ _ => true
  | .osError _ => false

theorem not_retryBreaks {call : Call} {conn : Option Connection}
    (h : (exchange depth i call.second []).1.isDone = true) : ¬ RetryBreaks depth i call conn := by
  rintro ⟨_, _, m', _, c'', _, _, _, he⟩
  rw [he] at h
  cases h

def reserveTokens (eventId seatId userId : String) : List JsonText.Str :=
  ["RESERVE_SEAT", eventId, seatId, userId, "30"].map JsonText.Str.ofString

def heldBy (success userId ttl : String) : List UInt8 :=
  Utf8.encode ("*4\r\n:" ++ success ++ "\r\n$4\r\nHELD\r\n$1\r\n" ++ userId ++ "\r\n:" ++ ttl ++ "\r\n")

/-- Both attempts of the first call time out, and its late reply meets the second call. -/
def lateReply : List Call :=
  [⟨reserveTokens "e" "a" "u", ⟨none, none, true, heldBy "1" "u" "30", []⟩, ⟨none, none, true, heldBy "1" "u" "30", []⟩⟩,
    ⟨reserveTokens "e" "b" "v", ⟨none, none, true, heldBy "0" "w" "12", [.chunk 29]⟩,
      ⟨none, none, true, heldBy "0" "w" "12", []⟩⟩]

theorem lateReply_not_paired :
    (∀ call ∈ lateReply, Complete 900 call.first.reply ∧ Complete 900 call.second.reply) ∧ ¬ Paired 900 lateReply := by
  refine ⟨by decide +kernel, fun h => ?_⟩
  have hread : (executeAll 900 0 none lateReply)[1]?.map (fun o => (o.result.isOk, o.buffer)) =
      some (true, tag 0 (heldBy "1" "u" "30")) := by decide +kernel
  obtain ⟨o, ho, hbuf⟩ := Option.map_eq_some_iff.mp hread
  obtain ⟨hok, hbuf⟩ := Prod.mk.inj hbuf
  have hval : ∃ value, o.result = .ok value := by
    cases hres : o.result with
    | error e => rw [hres] at hok; cases hok
    | ok value => exact ⟨value, rfl⟩
  obtain ⟨reply, _, hown, _⟩ := h 1 _ o rfl ho (.inl hval)
  have hfirst : (tag 0 (heldBy "1" "u" "30")).head?.map Prod.snd = some 0 := by decide +kernel
  rw [← hbuf, hown] at hfirst
  cases reply <;> simp [tag] at hfirst

/-- The first attempt times out, and the retry reads its reply in two chunks. -/
def promptRetry : List Call :=
  [⟨reserveTokens "e" "a" "u", ⟨none, none, true, heldBy "1" "u" "30", []⟩,
      ⟨none, none, true, heldBy "1" "u" "30", [.chunk 3, .chunk 100]⟩⟩,
    ⟨reserveTokens "e" "b" "v", ⟨none, none, true, heldBy "0" "w" "12", [.chunk 100]⟩,
      ⟨none, none, true, heldBy "0" "w" "12", [.chunk 100]⟩⟩]

theorem promptRetry_paired : Paired 900 promptRetry :=
  paired_of_orderly 900 promptRetry
    ⟨by decide +kernel, by decide +kernel, not_retryBreaks (by decide +kernel),
      by decide +kernel, by decide +kernel, not_retryBreaks (by decide +kernel), trivial⟩

end Ticketing.AppServer
