import Ticketing.AppServer.ReplyBytes

namespace Ticketing.AppServer

open Parsing Python JsonText Commands Protocol Server

variable {depth i : Nat}

/-! ### One reply -/

theorem isIncomplete_iff {parsed : Parsed Reply} : isIncomplete parsed ↔ ∃ e, parsed = .error e ∧ e.isShort = true := by
  cases parsed with
  | ok p => simp [isIncomplete]
  | error e => cases e <;> simp [isIncomplete, ReplyError.isShort]

theorem complete_of_reads {bytes : List UInt8} {reply : Reply} (h : Reads (parseRespReply depth) bytes reply) :
    Complete depth bytes := by
  intro n hn
  have hwhole : parseRespReply depth (bytes.take n ++ bytes.drop n) = .ok (reply, []) := by
    rw [List.take_append_drop]
    exact h.whole
  have hrest : bytes.drop n ≠ [] := by simpa using hn
  exact isIncomplete_iff.mpr ((parseRespReply_stable depth).prefix_short hwhole hrest)

theorem tag_append (i : Nat) (xs ys : List UInt8) : tag i (xs ++ ys) = tag i xs ++ tag i ys := List.map_append

/-- One `recv` of `_read_reply`. -/
theorem readReply_chunk {xs : List UInt8} (hx : xs ≠ []) (hsize : xs.length ≤ recvSize) (ys before : List UInt8)
    (recvs : List Recv) :
    readReply depth (.chunk (xs.length - 1) :: recvs) (tag i before) (tag i (xs ++ ys)) =
      if isIncomplete (parseRespReply depth (before ++ xs)) then
        readReply depth recvs (tag i (before ++ xs)) (tag i ys)
      else (.done (resultOf depth (before ++ xs)) (tag i (before ++ xs)), some (tag i ys)) := by
  have hpos := List.length_pos_iff.mpr hx
  have hn : min (xs.length - 1 + 1) recvSize = (tag i xs).length := by
    rw [tag, List.length_map]
    omega
  have hbytes : (tag i (before ++ xs)).map Prod.fst = before ++ xs := by
    rw [tag, List.map_map]
    exact List.map_id _
  have hnil : tag i (xs ++ ys) ≠ [] := by simp [tag, hx]
  rw [readReply, if_neg hnil, hn, tag_append]
  dsimp only
  rw [List.take_left, List.drop_left, ← tag_append, hbytes, resultOf]
  cases parseRespReply depth (before ++ xs) with
  | ok p => rcases p with ⟨reply, _ | ⟨b, rest⟩⟩ <;> rfl
  | error e => cases e <;> rfl

/-- What `_read_reply` is left with when the chunks that come make one reply. -/
theorem readReply_chunks {bytes : List UInt8} (hc : Complete depth bytes)
    (hv : ¬ isIncomplete (parseRespReply depth bytes)) (before : List UInt8) {chunks : List (List UInt8)}
    (hne : ∀ chunk ∈ chunks, chunk ≠ [] ∧ chunk.length ≤ recvSize) (hsplit : before ++ chunks.flatten = bytes)
    (hmore : chunks ≠ []) :
    readReply depth (chunks.map fun chunk => .chunk (chunk.length - 1)) (tag i before) (tag i chunks.flatten) =
      (.done (resultOf depth bytes) (tag i bytes), some []) := by
  induction chunks generalizing before with
  | nil => exact absurd rfl hmore
  | cons chunk chunks ih =>
      obtain ⟨hchunk, hsize⟩ := hne chunk (by simp)
      rw [List.flatten_cons, ← List.append_assoc] at hsplit
      rw [List.flatten_cons, List.map_cons, readReply_chunk hchunk hsize]
      cases chunks with
      | nil =>
          rw [List.flatten_nil, List.append_nil] at hsplit
          rw [hsplit, if_neg hv]
          rfl
      | cons next chunks =>
          have hnext : (next :: chunks).flatten ≠ [] := by
            rw [List.flatten_cons]
            exact List.append_ne_nil_of_left_ne_nil (hne next (by simp)).1 _
          have hinc : isIncomplete (parseRespReply depth (before ++ chunk)) :=
            complete_append (hsplit ▸ hc) hnext
          rw [if_pos hinc]
          exact ih _ (fun c hmem => hne c (List.mem_cons_of_mem _ hmem)) hsplit (List.cons_ne_nil _ _)

/-- The bytes make one reply, whatever the chunks they come in: `_read_reply` ends with the answer,
and no proper prefix has a verdict. -/
structure OneReply (depth : Nat) (bytes : List UInt8) (answer : Except String Reply) : Prop where
  whole : parseRespReply depth bytes = match answer with
    | .ok reply => .ok (reply, [])
    | .error message => .error (.conflict message)
  complete : Complete depth bytes
  chunked : ∀ (i : Nat) (chunks : List (List UInt8)), (∀ chunk ∈ chunks, chunk ≠ [] ∧ chunk.length ≤ recvSize) →
    chunks.flatten = bytes →
      readReply depth (chunks.map fun chunk => .chunk (chunk.length - 1)) [] (tag i bytes) =
        (.done (match answer with
          | .ok reply => .ok reply
          | .error message => .error ⟨.conflictError, message⟩) (tag i bytes), some [])

theorem chunks_ne_nil {bytes : List UInt8} (hv : ¬ isIncomplete (parseRespReply (depth + 1) bytes))
    {chunks : List (List UInt8)} (h : chunks.flatten = bytes) : chunks ≠ [] := by
  rintro rfl
  subst h
  exact hv rfl

theorem oneReply_of_reads {bytes : List UInt8} {reply : Reply} (h : Reads (parseRespReply (depth + 1)) bytes reply) :
    OneReply (depth + 1) bytes (.ok reply) where
  whole := h.whole
  complete := complete_of_reads h
  chunked i chunks hne hflat := by
    have hv : ¬ isIncomplete (parseRespReply (depth + 1) bytes) := by simp [h.whole, isIncomplete]
    have hread := readReply_chunks (i := i) (complete_of_reads h) hv [] hne hflat (chunks_ne_nil hv hflat)
    rw [hflat] at hread
    rw [show resultOf (depth + 1) bytes = .ok reply by rw [resultOf, h.whole]] at hread
    exact hread

/-! ### Error replies -/

def errorLine (e : Error) : String := "ERR " ++ formatErrorMessage e

theorem encode_errorReply (e : Error) :
    Utf8.encode (errorReply e) = byteOf '-' :: (Utf8.encode (errorLine e) ++ [cr, lf]) := by
  have hsplit : errorReply e = "-" ++ errorLine e ++ "\r\n" := by
    rw [errorReply, errorLine, ← String.append_assoc]
    rfl
  rw [hsplit, encode_header '-' (by decide) (by decide)]
  rfl

theorem errorLine_cr (e : Error) : cr ∉ Utf8.encode (errorLine e) := by
  have hcheck : validateSingleLine (errorLine e) = .ok () := by
    obtain ⟨hcr, hlf⟩ := formatErrorMessage_line e
    rw [validateSingleLine, errorLine, String.toList_append, if_neg]
    simp [hcr, hlf]
  exact encode_line hcheck

theorem errorLine_reads (e : Error) :
    readLine (Utf8.encode (errorLine e) ++ [cr, lf]) = .ok (Utf8.encode (errorLine e), []) :=
  (readLine_reads (errorLine_cr e)).whole

theorem error_whole (e : Error) :
    parseRespReply (depth + 1) (Utf8.encode (errorReply e)) = .error (.conflict (errorLine e)) := by
  have hbody : replyBody depth (byteOf '-') = parseErrorReply := rfl
  rw [encode_errorReply, parseRespReply_cons, hbody, parseErrorReply, errorLine_reads]
  dsimp only [Except.bind]
  rw [decodeText_encode]

theorem error_complete (e : Error) : Complete (depth + 1) (Utf8.encode (errorReply e)) := by
  have hbody : replyBody depth (byteOf '-') = parseErrorReply := rfl
  rw [encode_errorReply]
  intro n hn
  cases n with
  | zero => rfl
  | succ n =>
      rw [List.length_cons] at hn
      have hline := errorLine_reads e
      rw [← List.take_append_drop n (Utf8.encode (errorLine e) ++ [cr, lf])] at hline
      obtain ⟨short, herr, hshort⟩ := readLine_stable.prefix_short hline (by
        rw [ne_eq, List.drop_eq_nil_iff]
        omega)
      rw [List.take_succ_cons, parseRespReply_cons, hbody, isIncomplete_iff]
      refine ⟨short, ?_, hshort⟩
      rw [parseErrorReply, herr]
      rfl

theorem oneReply_error (e : Error) : OneReply (depth + 1) (Utf8.encode (errorReply e)) (.error (errorLine e)) where
  whole := error_whole e
  complete := error_complete e
  chunked i chunks hne hflat := by
    have hv : ¬ isIncomplete (parseRespReply (depth + 1) (Utf8.encode (errorReply e))) := by
      simp [error_whole, isIncomplete]
    have hread := readReply_chunks (i := i) (error_complete e) hv [] hne hflat (chunks_ne_nil hv hflat)
    rw [hflat, resultOf, error_whole] at hread
    exact hread

/-! ### Replies of the server -/

/-- Within the limit of the interpreter on integers written as text. -/
def Printable (n : Int) : Prop := (Nat.toDigits 10 n.natAbs).length ≤ maxStrDigits

instance decidablePrintable (n : Int) : Decidable (Printable n) := inferInstanceAs (Decidable (_ ≤ _))

def SendableScalar : RespScalar → Prop
  | .str s => ∃ text, s.toString? = some text ∧ Printable (Utf8.encode text).length
  | .int n => Printable n
  | .null => True

/-- Valid Unicode, and no number or length beyond the limit of the interpreter. -/
def Sendable : CommandResult → Prop
  | .scalar x => SendableScalar x
  | .list items => Printable items.length ∧ ∀ x ∈ items, SendableScalar x

theorem strInt_printable {n : Int} (h : Printable n) : ∃ s, strInt n = .ok s := ⟨_, if_pos h⟩

theorem encodeArrayItem_sendable {x : RespScalar} (h : SendableScalar x) : ∃ text, encodeArrayItem x = .ok text := by
  cases x with
  | null => exact ⟨_, rfl⟩
  | int n =>
      obtain ⟨s, hs⟩ := strInt_printable h
      exact ⟨":" ++ s ++ "\r\n", by rw [encodeArrayItem, encodeInteger, hs]; rfl⟩
  | str s =>
      obtain ⟨text, htext, hlen⟩ := h
      obtain ⟨length, hn⟩ := strInt_printable hlen
      exact ⟨"$" ++ length ++ "\r\n" ++ text ++ "\r\n", by rw [encodeArrayItem, encodeBulkString, htext]; dsimp only; rw [hn]; rfl⟩

theorem encodeResultValue_sendable {result : CommandResult} (h : Sendable result) :
    ∃ response, encodeResultValue result = .ok response := by
  cases result with
  | scalar x =>
      obtain ⟨text, htext⟩ := encodeArrayItem_sendable h
      refine ⟨text, ?_⟩
      cases x <;> exact htext
  | list items =>
      obtain ⟨hlen, hitems⟩ := h
      obtain ⟨count, hcount⟩ := strInt_printable hlen
      have htexts : ∃ texts, items.mapM encodeArrayItem = .ok texts := by
        clear hlen hcount
        induction items with
        | nil => exact ⟨[], rfl⟩
        | cons x items ih =>
            obtain ⟨text, htext⟩ := encodeArrayItem_sendable (hitems x (by simp))
            obtain ⟨texts, htexts⟩ := ih fun y hy => hitems y (List.mem_cons_of_mem _ hy)
            exact ⟨text :: texts, mapM_ok.mpr (.cons htext (mapM_ok.mp htexts))⟩
      obtain ⟨texts, htexts⟩ := htexts
      refine ⟨"*" ++ count ++ "\r\n" ++ String.join texts, ?_⟩
      rw [encodeResultValue, encodeArray, htexts]
      show (strInt items.length >>= _) = _
      rw [hcount]
      rfl

theorem encodeCommandResult_sendable {command : List String} {now : ℚ} {store : Storage.Store} {result : CommandResult}
    (h : (handleCommand command now store).1 = .ok result) (hs : Sendable result) :
    ∃ response, encodeCommandResult command result = .ok response := by
  obtain ⟨token, args, rfl, hne⟩ := handleCommand_named h
  by_cases hset : upper token = "SET"
  · obtain rfl := handleCommand_set hset h
    exact ⟨"+OK\r\n", by rw [encodeCommandResult, if_neg hne, if_pos hset]; rfl⟩
  · obtain ⟨response, hr⟩ := encodeResultValue_sendable hs
    refine ⟨response, ?_⟩
    unfold encodeCommandResult
    dsimp only
    rw [if_neg hne, if_neg hset, hr]

/-- Every reply of the server, to a command that succeeds and to one that fails, is read back as one
reply with the result or the message it was made from. -/
theorem replies_read_back (depth : Nat) :
    (∀ command now store result, (handleCommand command now store).1 = .ok result → Sendable result →
      ∃ response reply, encodeCommandResult command result = .ok response ∧ resultReply result = .ok reply ∧
        OneReply (depth + 2) (Utf8.encode response) (.ok reply)) ∧
    ∀ e, ∃ response, encodeError (formatErrorMessage e) = .ok response ∧
      readLine (Utf8.encode response).tail = .ok (Utf8.encode ("ERR " ++ formatErrorMessage e), []) ∧
      OneReply (depth + 2) (Utf8.encode response) (.error ("ERR " ++ formatErrorMessage e)) := by
  refine ⟨fun command now store result h hs => ?_, fun e => ?_⟩
  · obtain ⟨response, hresponse⟩ := encodeCommandResult_sendable h hs
    obtain ⟨reply, hreply, hread⟩ := result_reads depth hresponse
    exact ⟨response, reply, hresponse, hreply, oneReply_of_reads hread⟩
  · refine ⟨errorReply e, encodeError_formatErrorMessage e, ?_, oneReply_error e⟩
    rw [encode_errorReply, List.tail_cons]
    exact errorLine_reads e

theorem joinReply_read_back : ∃ response reply,
    encodeCommandResult ["join_queue", "e", "\r\n+OK\r\n"] (.list [.int 1, .int 1, .int 1]) = .ok response ∧
      resultReply (.list [.int 1, .int 1, .int 1]) = .ok reply ∧ OneReply 2 (Utf8.encode response) (.ok reply) := by
  refine (replies_read_back 0).1 ["join_queue", "e", "\r\n+OK\r\n"] 0 ∅ _ rfl ⟨by decide, fun x hx => ?_⟩
  obtain rfl : x = .int 1 := by simpa using hx
  exact show Printable 1 by decide

end Ticketing.AppServer
