import Ticketing.Client.RespSocket
import Ticketing.Server.Streams

namespace Ticketing.Client

open Parsing Framing Python JsonText Commands Protocol Server AppServer

/-! ### Lines -/

theorem takeLine_line {l : List UInt8} (h : lf ∉ l) (rest : List UInt8) :
    takeLine (l ++ [cr, lf] ++ rest) = (l ++ [cr, lf], rest) := by
  induction l with
  | nil => rfl
  | cons b l ih =>
      have hb : b ≠ lf := fun hb => h (hb ▸ List.mem_cons_self)
      rw [List.cons_append, List.cons_append, takeLine, if_neg hb, ih fun hm => h (List.mem_cons_of_mem _ hm)]

theorem readline_reads {l : List UInt8} (h : lf ∉ l) : Reads readline (l ++ [cr, lf]) l := by
  intro rest
  rw [readline, takeLine_line h]
  simp

theorem newline_of_encode {s : String} (h : lf ∈ Utf8.encode s) : '\n' ∈ s.toList := by
  obtain ⟨c, hc, heq⟩ := Utf8.mem_encode_ascii (by decide) h
  have hnewline : c = '\n' := Char.toNat_inj.mp heq.symm
  exact hnewline ▸ hc

/-- A line that passes the check of the encoder has no LF on the wire. -/
theorem encode_line_lf {message : String} {u : Unit} (h : validateSingleLine message = .ok u) :
    lf ∉ Utf8.encode message := by
  intro hlf
  unfold validateSingleLine at h
  split at h
  next => cases h
  next hn => exact hn (.inr (newline_of_encode hlf))

theorem strInt_lf {n : Int} {s : String} (h : strInt n = .ok s) : lf ∉ Utf8.encode s := by
  unfold strInt at h
  split at h
  next =>
    cases h
    intro hlf
    have hnewline := newline_of_encode hlf
    rw [String.toList_ofList] at hnewline
    have hdigit : ¬ ('\n'.isDigit = true ∨ '\n' = '-') := by decide
    exact hdigit (spellInt_char hnewline)
  next => cases h

theorem errorLine_lf (e : Error) : lf ∉ Utf8.encode (errorLine e) := by
  intro hlf
  have hnewline := newline_of_encode hlf
  rw [errorLine, String.toList_append] at hnewline
  rcases List.mem_append.mp hnewline with h | h
  · revert h
    decide
  · exact (formatErrorMessage_line e).2 h

/-! ### Values -/

theorem decodeUtf8_encode (s : String) : decodeUtf8 (Utf8.encode s) = .ok s := by
  rw [decodeUtf8, Utf8.decode_encode]

theorem body_reads {depth : Nat} {b : UInt8} {xs : List UInt8} {reply : Reply}
    (h : Reads (readBody (readRespValue depth) b) xs reply) : Reads (readRespValue (depth + 1)) ([b] ++ xs) reply :=
  Reads.cons (fun _ => rfl) h

theorem simple_read (depth : Nat) {s : String} (h : lf ∉ Utf8.encode s) :
    Reads (readRespValue (depth + 1)) (Utf8.encode ("+" ++ s ++ "\r\n")) (.str s) := by
  rw [encode_header '+' (by decide) (by decide), ← List.append_nil (Utf8.encode s ++ [cr, lf])]
  refine body_reads ?_
  have hbody : readBody (readRespValue depth) (byteOf '+') = readSimple := rfl
  rw [hbody]
  refine (readline_reads h).andThen (Reads.lift ?_)
  rw [decodeUtf8_encode]
  rfl

theorem integer_read (depth : Nat) {n : Int} {s : String} (h : strInt n = .ok s) :
    Reads (readRespValue (depth + 1)) (Utf8.encode (":" ++ s ++ "\r\n")) (.int n) := by
  rw [encode_header ':' (by decide) (by decide), ← List.append_nil (Utf8.encode s ++ [cr, lf])]
  refine body_reads ?_
  have hbody : readBody (readRespValue depth) (byteOf ':') = readInteger := rfl
  rw [hbody]
  refine (readline_reads (strInt_lf h)).andThen ?_
  rw [(encode_strInt h).2.1]
  exact Reads.give (Reply.int n)

theorem null_read (depth : Nat) : Reads (readRespValue (depth + 1)) (Utf8.encode "$-1\r\n") .null := by
  have hint : strInt (-1) = .ok "-1" := by decide +kernel
  rw [show "$-1\r\n" = "$" ++ "-1" ++ "\r\n" by decide, encode_header '$' (by decide) (by decide),
    ← List.append_nil (Utf8.encode "-1" ++ [cr, lf])]
  refine body_reads ?_
  have hbody : readBody (readRespValue depth) (byteOf '$') = readBulk := rfl
  rw [hbody]
  refine (readline_reads (strInt_lf hint)).andThen ?_
  rw [(encode_strInt hint).2.1]
  exact Reads.give Reply.null

theorem readPayload_reads {bytes : List UInt8} (h : bytes.length ≤ maxsize) :
    Reads (readPayload bytes.length) (bytes ++ [cr, lf]) bytes := by
  intro rest
  have hend : ¬ ((bytes ++ [cr, lf] ++ rest).drop bytes.length).take 2 ≠ [cr, lf] := by simp
  rw [readPayload, if_neg (by omega), if_neg hend]
  simp [List.append_assoc]

theorem bulk_read (depth : Nat) {s length : String} (h : strInt (Utf8.encode s).length = .ok length)
    (hs : (Utf8.encode s).length ≤ maxsize) :
    Reads (readRespValue (depth + 1)) (Utf8.encode ("$" ++ length ++ "\r\n" ++ s ++ "\r\n")) (.str s) := by
  have hnonneg := Int.natCast_nonneg (Utf8.encode s).length
  have hcrlf : Utf8.encode "\r\n" = [cr, lf] := by decide +kernel
  rw [Utf8.encode_append, Utf8.encode_append, encode_header '$' (by decide) (by decide), hcrlf, List.append_assoc,
    List.append_assoc]
  refine body_reads ?_
  have hbody : readBody (readRespValue depth) (byteOf '$') = readBulk := rfl
  rw [hbody]
  refine (readline_reads (strInt_lf h)).andThen ?_
  rw [(encode_strInt h).2.1]
  dsimp only
  rw [if_neg (by omega), if_neg (by omega), Int.toNat_natCast, ← List.append_nil (Utf8.encode s ++ [cr, lf])]
  refine (readPayload_reads hs).andThen (Reads.lift ?_)
  rw [decodeUtf8_encode]
  rfl

theorem array_read (depth : Nat) {count : String} {texts : List String} {replies : List Reply}
    (hn : strInt texts.length = .ok count)
    (h : List.Forall₂ (fun text reply => Reads (readRespValue (depth + 1)) (Utf8.encode text) reply) texts replies) :
    Reads (readRespValue (depth + 2)) (Utf8.encode ("*" ++ count ++ "\r\n" ++ String.join texts)) (.list replies) := by
  have hnonneg := Int.natCast_nonneg texts.length
  rw [Utf8.encode_append, encode_header '*' (by decide) (by decide), Utf8.encode_join, List.append_assoc]
  refine body_reads ?_
  have hbody : readBody (readRespValue (depth + 1)) (byteOf '*') = readArray (readRespValue (depth + 1)) := rfl
  rw [hbody]
  refine (readline_reads (strInt_lf hn)).andThen ?_
  rw [(encode_strInt hn).2.1]
  dsimp only
  rw [if_neg (by omega), Int.toNat_natCast, h.length_eq]
  exact (Reads.times (List.forall₂_map_left_iff.mpr h)).mapped

/-! ### Results -/

theorem scalar_read (depth : Nat) {x : RespScalar} {text : String} (hs : SizedScalar x)
    (h : encodeArrayItem x = .ok text) :
    ∃ reply, scalarReply x = .ok reply ∧ Reads (readRespValue (depth + 1)) (Utf8.encode text) reply := by
  cases x with
  | null =>
      cases h
      exact ⟨.null, rfl, null_read depth⟩
  | int n =>
      obtain ⟨s, hn, htext⟩ := bind_ok (show encodeInteger n = .ok text from h)
      cases htext
      refine ⟨.int n, ?_, integer_read depth hn⟩
      rw [scalarReply, hn]
      rfl
  | str s =>
      have h : encodeBulkString (some s) = .ok text := h
      cases hmessage : s.toString? with
      | none =>
          rw [encodeBulkString, hmessage] at h
          cases h
      | some message =>
          rw [encodeBulkString, hmessage] at h
          obtain ⟨length, hn, htext⟩ := bind_ok h
          cases htext
          refine ⟨.str message, ?_, bulk_read depth hn (hs message hmessage)⟩
          rw [scalarReply, hmessage]

theorem items_read {depth : Nat} {items : List RespScalar} {texts : List String} (hs : ∀ x ∈ items, SizedScalar x)
    (h : List.Forall₂ (fun x text => encodeArrayItem x = .ok text) items texts) :
    ∃ replies, List.Forall₂ (fun x reply => scalarReply x = .ok reply) items replies ∧
      List.Forall₂ (fun text reply => Reads (readRespValue (depth + 1)) (Utf8.encode text) reply) texts replies := by
  induction h with
  | nil => exact ⟨[], .nil, .nil⟩
  | cons hx _ ih =>
      rw [List.forall_mem_cons] at hs
      obtain ⟨reply, hreply, hread⟩ := scalar_read depth hs.1 hx
      obtain ⟨replies, hreplies, hreads⟩ := ih hs.2
      exact ⟨reply :: replies, .cons hreply hreplies, .cons hread hreads⟩

theorem value_read (depth : Nat) {result : CommandResult} {response : String} (hs : SizedResult result)
    (h : encodeResultValue result = .ok response) :
    ∃ reply, resultReply result = .ok reply ∧ Reads (readRespValue (depth + 2)) (Utf8.encode response) reply := by
  cases result with
  | scalar x =>
      refine scalar_read (depth + 1) hs ?_
      cases x <;> exact h
  | list items =>
      obtain ⟨texts, htexts, h⟩ := bind_ok (show encodeArray items = .ok response from h)
      obtain ⟨count, hcount, h⟩ := bind_ok h
      cases h
      rw [mapM_ok] at htexts
      obtain ⟨replies, hreplies, hreads⟩ := items_read hs.2 htexts
      rw [htexts.length_eq] at hcount
      refine ⟨.list replies, ?_, array_read depth hcount hreads⟩
      rw [resultReply, mapM_ok.mpr hreplies]
      rfl

/-- A response is a line for `SET`, and the encoded result for every other command. -/
theorem encodeCommandResult_ok {command : List String} {result : CommandResult} {response : String}
    (h : encodeCommandResult command result = .ok response) :
    (∃ s message, result = .scalar (.str s) ∧ s.toString? = some message ∧ validateSingleLine message = .ok () ∧
        response = "+" ++ message ++ "\r\n") ∨ encodeResultValue result = .ok response := by
  unfold encodeCommandResult at h
  cases command with
  | nil => cases h
  | cons name args =>
      dsimp only at h
      split at h
      next => cases h
      next =>
        split at h
        next =>
          split at h
          next s =>
            split at h
            next message hs =>
              obtain ⟨_, hline, h⟩ := bind_ok h
              cases h
              exact .inl ⟨s, message, rfl, hs, hline, rfl⟩
            next => cases h
          next => cases h
        next => exact .inr h

theorem result_read (depth : Nat) {command : List String} {result : CommandResult} {response : String}
    (hsized : SizedResult result) (h : encodeCommandResult command result = .ok response) :
    ∃ reply, resultReply result = .ok reply ∧ Reads (readRespValue (depth + 2)) (Utf8.encode response) reply := by
  rcases encodeCommandResult_ok h with ⟨s, message, rfl, hs, hline, rfl⟩ | h
  · refine ⟨.str message, ?_, simple_read (depth + 1) (encode_line_lf hline)⟩
    rw [resultReply, scalarReply, hs]
  · exact value_read depth hsized h

theorem error_read (depth : Nat) (e : Error) (more : List UInt8) :
    readRespValue (depth + 1) (Utf8.encode (errorReply e) ++ more) = .error (respError (errorLine e)) := by
  have hbody : readRespValue (depth + 1) (Utf8.encode (errorReply e) ++ more) =
      readError (Utf8.encode (errorLine e) ++ [cr, lf] ++ more) := by
    rw [encode_errorReply]
    rfl
  rw [hbody, readError, andThen_ok (readline_reads (errorLine_lf e) more), decodeUtf8_encode]
  rfl

/-! ### The demo over its socket -/

/-- `encode_resp_command`. -/
def encodeRespCommand (tokens : List Str) : Except Error (List UInt8) := encodeCommand tokens

variable {command : List String} {env : Env}

/-- What stands in the bytes of the server, for the demo, is the value or the error of the atomic command. -/
theorem respond_read (depth : Nat) {store : Storage.Store} (hf : env.fault = .none)
    (hs : Sized (handleCommand command env.now store).1) (more : List UInt8) :
    readRespValue (depth + 2) (Utf8.encode (respond command (handleCommand command env.now store).1) ++ more) =
      (execute command env store).1.map fun reply => (reply, more) := by
  rw [respond, execute, hf, withFault]
  cases hr : (handleCommand command env.now store).1 with
  | error e => exact error_read (depth + 1) e more
  | ok result =>
      rw [hr] at hs
      cases he : encodeCommandResult command result with
      | error e =>
          simp only [Except.bind, he, commandResult_error hr hs he]
          exact error_read (depth + 1) e more
      | ok response =>
          obtain ⟨reply, hreply, hread⟩ := result_read depth hs he
          simp only [Except.bind, he, hreply]
          exact hread more

/-- A command that reaches the server and is answered. -/
def heard (engine : Engine) : Env := ⟨engine.clock 0, "", .none⟩

/-- Commands one after another, up to the first that fails. -/
def executeAll : List (List String) → Engine → Except Error (List Reply)
  | [], _ => .ok []
  | tokens :: commands, engine =>
    let r := execute tokens (heard engine) engine.store
    r.1.bind fun reply =>
      (executeAll commands ⟨r.2, fun n => engine.clock (n + 1)⟩).map fun replies => reply :: replies

def SizedAll : List (List String) → Engine → Prop
  | [], _ => True
  | tokens :: commands, engine =>
    Sized (Engine.execute tokens engine).1 ∧ SizedAll commands (Engine.execute tokens engine).2

def sentBytes (events : List Server.Event) : List UInt8 := (events.map fun event => Utf8.encode event.response).flatten

theorem answers_read (depth : Nat) (commands : List (List String)) {engine : Engine} (hs : SizedAll commands engine)
    (more : List UInt8) :
    times (readRespValue (depth + 2)) commands.length
        (sentBytes (Trace.answers (Server.serve Engine.execute) engine commands) ++ more) =
      (executeAll commands engine).map fun replies => (replies, more) := by
  induction commands generalizing engine with
  | nil => rfl
  | cons tokens commands ih =>
      obtain ⟨hsized, hs⟩ := hs
      have hread := @respond_read tokens (heard engine) depth engine.store rfl hsized
        (sentBytes (Trace.answers (Server.serve Engine.execute) (Engine.execute tokens engine).2 commands) ++ more)
      rw [Trace.answers, sentBytes, List.map_cons, List.flatten_cons, List.append_assoc, List.length_cons, times,
        executeAll]
      refine (congrArg (fun x => Except.bind x _) hread).trans ?_
      cases (execute tokens (heard engine) engine.store).1 with
      | error e => rfl
      | ok reply =>
          show Except.map _ (times _ _ _) = _
          rw [ih hs]
          show _ = Except.map _ (Except.map _ (executeAll commands (Engine.execute tokens engine).2))
          cases executeAll commands (Engine.execute tokens engine).2 <;> rfl

/-- The demo sends its commands over a socket that cuts them anywhere, and reads back what the atomic commands give. -/
theorem demo_reads {commands : List (List String)} {frames : List (List UInt8)}
    (h : List.Forall₂ (fun tokens frame => encodeRespCommand (tokens.map Str.ofString) = .ok frame) commands frames)
    {chunks : List (List UInt8)} (hc : [] ∉ chunks) (hs : chunks.flatten = frames.flatten) {engine : Engine}
    (hsized : SizedAll commands engine) (depth : Nat) (more : List UInt8) :
    times (readRespValue (depth + 2)) commands.length
        (sentBytes (handleClient Engine.execute engine [] chunks).1 ++ more) =
      (executeAll commands engine).map fun replies => (replies, more) := by
  have hread : List.Forall₂ (Reads parseRespFrame) frames commands := h.flip.imp fun _ _ => frame_reads
  have hempty : ∃ e, parseRespFrame [] = .error e ∧ e.isShort = true := ⟨_, rfl, rfl⟩
  have hall := parseAll_frames parseRespFrame_consumes hread hempty
  rw [List.append_nil] at hall
  have hclean : Clean (parseAll RespError.isShort parseRespFrame ([] ++ chunks.flatten)).1 := by
    rw [List.nil_append, hs, hall]
    exact clean_oks commands
  have hrec := receiveAll_clean parseRespFrame_stable parseRespFrame_consumes parseAll_nil hclean
  rw [List.nil_append, hs, hall] at hrec
  rw [handleClient_eq Engine.execute hc, hrec, answers_oks]
  exact answers_read depth commands hsized more

def attempt : List (List String) := [["GET", "seat:1"], ["SET", "seat:1", "User_1"], ["GET", "seat:1"]]

def attemptFrames : List (List UInt8) :=
  let get := Utf8.encode "*2\r\n$3\r\nGET\r\n$6\r\nseat:1\r\n"
  [get, Utf8.encode "*3\r\n$3\r\nSET\r\n$6\r\nseat:1\r\n$6\r\nUser_1\r\n", get]

theorem attempt_read :
    times (readRespValue 2) 3 (sentBytes (handleClient Engine.execute emptyEngine []
        [attemptFrames.flatten.take 30, attemptFrames.flatten.drop 30]).1 ++ []) =
      .ok ([.null, .str "OK", .str "User_1"], []) := by
  have hframes : List.Forall₂ (fun tokens frame => encodeRespCommand (tokens.map Str.ofString) = .ok frame) attempt
      attemptFrames := .cons (by decide +kernel) (.cons (by decide +kernel) (.cons (by decide +kernel) .nil))
  have hsized : SizedAll attempt emptyEngine :=
    ⟨by decide +kernel, by decide +kernel, by decide +kernel, trivial⟩
  exact demo_reads hframes (by decide +kernel) (by decide +kernel) hsized 0 []

end Ticketing.Client
