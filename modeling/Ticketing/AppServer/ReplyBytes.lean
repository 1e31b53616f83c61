import Ticketing.AppServer.Operations
import Ticketing.AppServer.ReplyPairing
import Ticketing.Protocol.RespParser

namespace Ticketing.AppServer

open Parsing Python JsonText Commands Protocol Server

/-! ### Verdicts -/

/-- Needs more bytes. -/
def ReplyError.isShort : ReplyError → Bool
  | .incomplete _ => true
  | _ => false

theorem readLine_eq : AppServer.readLine = line (.incomplete "incomplete RESP reply line") := by
  funext bs
  unfold readLine line
  cases splitLine bs <;> rfl

theorem parseItems_eq (parse : List UInt8 → Parsed Reply) (n : Nat) : parseItems parse n = times parse n := by
  induction n with
  | zero => rfl
  | succ n ih =>
      funext bs
      rw [parseItems, ih]
      rfl

theorem readLine_stable : Stable ReplyError.isShort readLine := readLine_eq ▸ line_stable rfl

theorem parseSimple_eq : parseSimple = andThen readLine (fun l => lift ((decodeText l).map Reply.str)) := by
  funext bs
  unfold parseSimple andThen
  cases readLine bs with
  | error e => rfl
  | ok p =>
      dsimp only [Except.bind]
      cases decodeText p.1 <;> rfl

theorem parseErrorReply_eq : parseErrorReply =
    andThen readLine (fun l => lift ((decodeText l).bind fun s => .error (.conflict s))) := by
  funext bs
  unfold parseErrorReply andThen
  cases readLine bs with
  | error e => rfl
  | ok p =>
      dsimp only [Except.bind]
      cases decodeText p.1 <;> rfl

theorem parseInteger_eq : parseInteger = andThen readLine (fun l => match parseIntBytes l with
    | some n => give (.int n)
    | none => refuse (.malformed "invalid RESP integer reply")) := by
  funext bs
  unfold parseInteger andThen
  cases readLine bs with
  | error e => rfl
  | ok p =>
      dsimp only [Except.bind]
      cases parseIntBytes p.1 <;> rfl

theorem parseBulk_eq : parseBulk = andThen readLine (fun l => match parseIntBytes l with
    | none => refuse (.malformed "invalid RESP bulk string length")
    | some length =>
      if length = -1 then give .null
      else if length < -1 then refuse (.malformed "invalid RESP bulk string length")
      else andThen (payload length.toNat (.incomplete "incomplete RESP bulk string reply")
        (.malformed "RESP bulk string reply must end with CRLF"))
        (fun bytes => lift ((decodeText bytes).map Reply.str))) := by
  funext bs
  unfold parseBulk andThen
  cases readLine bs with
  | error e => rfl
  | ok p =>
      dsimp only [Except.bind]
      cases parseIntBytes p.1 with
      | none => rfl
      | some length =>
          dsimp only
          split
          · rfl
          split
          · rfl
          dsimp only [payload]
          split_ifs
          · rfl
          · rfl
          · dsimp only
            cases decodeText (p.2.take length.toNat) <;> rfl

theorem parseArray_eq (parse : List UInt8 → Parsed Reply) : parseArray parse =
    andThen readLine (fun l => match parseIntBytes l with
      | none => refuse (.malformed "invalid RESP array length")
      | some count =>
        if count < 0 then refuse (.malformed "negative RESP arrays are not supported")
        else mapped Reply.list (times parse count.toNat)) := by
  funext bs
  unfold parseArray andThen
  cases readLine bs with
  | error e => rfl
  | ok p =>
      dsimp only [Except.bind]
      cases parseIntBytes p.1 with
      | none => rfl
      | some count =>
          dsimp only
          split
          · rfl
          · rw [parseItems_eq]
            rfl

theorem parseBulk_stable : Stable ReplyError.isShort parseBulk := by
  rw [parseBulk_eq]
  refine readLine_stable.andThen fun l => ?_
  cases parseIntBytes l with
  | none => exact .refuse _
  | some length =>
      dsimp only
      split
      · exact .give _
      split
      · exact .refuse _
      · exact (payload_stable rfl).andThen fun bytes => .lift _

theorem parseArray_stable {parse : List UInt8 → Parsed Reply} (h : Stable ReplyError.isShort parse) :
    Stable ReplyError.isShort (parseArray parse) := by
  rw [parseArray_eq]
  refine readLine_stable.andThen fun l => ?_
  cases parseIntBytes l with
  | none => exact .refuse _
  | some count =>
      dsimp only
      split
      · exact .refuse _
      · exact (h.times _).mapped

/-- The parser of what follows a type byte. -/
def replyBody (depth : Nat) (b : UInt8) : List UInt8 → Parsed Reply :=
  if b = byteOf '+' then parseSimple
  else if b = byteOf '-' then parseErrorReply
  else if b = byteOf ':' then parseInteger
  else if b = byteOf '$' then parseBulk
  else if b = byteOf '*' then parseArray (parseRespReply depth)
  else refuse (.malformed "unsupported RESP reply type")

theorem parseRespReply_cons (depth : Nat) (b : UInt8) (rest : List UInt8) :
    parseRespReply (depth + 1) (b :: rest) = replyBody depth b rest := by
  rw [parseRespReply, replyBody]
  split_ifs <;> rfl

theorem parseRespReply_stable (depth : Nat) : Stable ReplyError.isShort (parseRespReply depth) := by
  induction depth with
  | zero => exact .refuse ReplyError.recursionLimit
  | succ depth ih =>
      refine Stable.cons ⟨_, rfl, rfl⟩ (parseRespReply_cons depth) fun b => ?_
      unfold replyBody
      split
      · exact parseSimple_eq ▸ readLine_stable.andThen fun l => .lift _
      split
      · exact parseErrorReply_eq ▸ readLine_stable.andThen fun l => .lift _
      split
      · rw [parseInteger_eq]
        refine readLine_stable.andThen fun l => ?_
        cases parseIntBytes l with
        | none => exact .refuse _
        | some n => exact .give _
      split
      · exact parseBulk_stable
      split
      · exact parseArray_stable ih
      · exact .refuse _

/-! ### Values -/

theorem reads_body {depth : Nat} {b : UInt8} {xs : List UInt8} {reply : Reply} (h : Reads (replyBody depth b) xs reply) :
    Reads (parseRespReply (depth + 1)) ([b] ++ xs) reply :=
  Reads.cons (parseRespReply_cons depth b) h

theorem readLine_reads {l : List UInt8} (h : cr ∉ l) : Reads readLine (l ++ [cr, lf]) l := readLine_eq ▸ line_reads _ h

theorem decodeText_encode (s : String) : decodeText (Utf8.encode s) = .ok s := by
  rw [decodeText, Utf8.decode_encode]

theorem simple_reads (depth : Nat) {s : String} (h : cr ∉ Utf8.encode s) :
    Reads (parseRespReply (depth + 1)) (Utf8.encode ("+" ++ s ++ "\r\n")) (.str s) := by
  rw [encode_header '+' (by decide) (by decide), ← List.append_nil (Utf8.encode s ++ [cr, lf])]
  refine reads_body ?_
  have hbody : replyBody depth (byteOf '+') = parseSimple := rfl
  rw [hbody, parseSimple_eq]
  refine (readLine_reads h).andThen (Reads.lift ?_)
  rw [decodeText_encode]
  rfl

theorem integer_reads (depth : Nat) {n : Int} {s : String} (h : strInt n = .ok s) :
    Reads (parseRespReply (depth + 1)) (Utf8.encode (":" ++ s ++ "\r\n")) (.int n) := by
  obtain ⟨-, hint, hcr⟩ := encode_strInt h
  rw [encode_header ':' (by decide) (by decide), ← List.append_nil (Utf8.encode s ++ [cr, lf])]
  refine reads_body ?_
  have hbody : replyBody depth (byteOf ':') = parseInteger := rfl
  rw [hbody, parseInteger_eq]
  refine (readLine_reads hcr).andThen ?_
  rw [hint]
  exact Reads.give (Reply.int n)

theorem null_reads (depth : Nat) : Reads (parseRespReply (depth + 1)) (Utf8.encode "$-1\r\n") .null := by
  have hint : strInt (-1) = .ok "-1" := by decide +kernel
  obtain ⟨-, hint, hcr⟩ := encode_strInt hint
  rw [show "$-1\r\n" = "$" ++ "-1" ++ "\r\n" by decide, encode_header '$' (by decide) (by decide),
    ← List.append_nil (Utf8.encode "-1" ++ [cr, lf])]
  refine reads_body ?_
  have hbody : replyBody depth (byteOf '$') = parseBulk := rfl
  rw [hbody, parseBulk_eq]
  refine (readLine_reads hcr).andThen ?_
  rw [hint]
  exact Reads.give Reply.null

theorem bulk_reads (depth : Nat) {s length : String} (h : strInt (Utf8.encode s).length = .ok length) :
    Reads (parseRespReply (depth + 1)) (Utf8.encode ("$" ++ length ++ "\r\n" ++ s ++ "\r\n")) (.str s) := by
  obtain ⟨-, hint, hcr⟩ := encode_strInt h
  have hnonneg := Int.natCast_nonneg (Utf8.encode s).length
  have hcrlf : Utf8.encode "\r\n" = [cr, lf] := by decide +kernel
  rw [Utf8.encode_append, Utf8.encode_append, encode_header '$' (by decide) (by decide),
    hcrlf, List.append_assoc, List.append_assoc]
  refine reads_body ?_
  have hbody : replyBody depth (byteOf '$') = parseBulk := rfl
  rw [hbody, parseBulk_eq]
  refine (readLine_reads hcr).andThen ?_
  rw [hint]
  dsimp only
  rw [if_neg (by omega), if_neg (by omega), Int.toNat_natCast, ← List.append_nil (Utf8.encode s ++ [cr, lf])]
  refine (payload_reads _ _ _).andThen (Reads.lift ?_)
  rw [decodeText_encode]
  rfl

theorem array_reads (depth : Nat) {count : String} {texts : List String} {replies : List Reply}
    (hn : strInt texts.length = .ok count)
    (h : List.Forall₂ (fun text reply => Reads (parseRespReply (depth + 1)) (Utf8.encode text) reply) texts replies) :
    Reads (parseRespReply (depth + 2)) (Utf8.encode ("*" ++ count ++ "\r\n" ++ String.join texts)) (.list replies) := by
  obtain ⟨-, hint, hcr⟩ := encode_strInt hn
  rw [Utf8.encode_append, encode_header '*' (by decide) (by decide), Utf8.encode_join, List.append_assoc]
  refine reads_body ?_
  have hbody : replyBody (depth + 1) (byteOf '*') = parseArray (parseRespReply (depth + 1)) := rfl
  rw [hbody, parseArray_eq]
  refine (readLine_reads hcr).andThen ?_
  rw [hint]
  dsimp only
  rw [if_neg (Int.not_lt.mpr (Int.natCast_nonneg _)), Int.toNat_natCast, h.length_eq]
  exact (Reads.times (List.forall₂_map_left_iff.mpr h)).mapped

/-! ### Results -/

theorem scalar_reads (depth : Nat) {x : RespScalar} {text : String} (h : encodeArrayItem x = .ok text) :
    ∃ reply, scalarReply x = .ok reply ∧ Reads (parseRespReply (depth + 1)) (Utf8.encode text) reply := by
  cases x with
  | null =>
      cases h
      exact ⟨.null, rfl, null_reads depth⟩
  | int n =>
      obtain ⟨s, hn, htext⟩ := bind_ok (show encodeInteger n = .ok text from h)
      cases htext
      refine ⟨.int n, ?_, integer_reads depth hn⟩
      rw [scalarReply, hn]
      rfl
  | str s =>
      have h : encodeBulkString (some s) = .ok text := h
      cases hs : s.toString? with
      | none =>
          rw [encodeBulkString, hs] at h
          cases h
      | some message =>
          rw [encodeBulkString, hs] at h
          obtain ⟨length, hn, htext⟩ := bind_ok h
          cases htext
          refine ⟨.str message, ?_, bulk_reads depth hn⟩
          rw [scalarReply, hs]

theorem items_read (depth : Nat) {items : List RespScalar} {texts : List String}
    (h : List.Forall₂ (fun x text => encodeArrayItem x = .ok text) items texts) :
    ∃ replies, List.Forall₂ (fun x reply => scalarReply x = .ok reply) items replies ∧
      List.Forall₂ (fun text reply => Reads (parseRespReply (depth + 1)) (Utf8.encode text) reply) texts replies := by
  induction h with
  | nil => exact ⟨[], .nil, .nil⟩
  | cons hx _ ih =>
      obtain ⟨reply, hreply, hread⟩ := scalar_reads depth hx
      obtain ⟨replies, hreplies, hreads⟩ := ih
      exact ⟨reply :: replies, .cons hreply hreplies, .cons hread hreads⟩

/-- A line that passes the check of the encoder has no CR on the wire. -/
theorem encode_line {message : String} {u : Unit} (h : validateSingleLine message = .ok u) :
    cr ∉ Utf8.encode message := by
  intro hcr
  obtain ⟨c, hc, heq⟩ := Utf8.mem_encode_ascii (by decide) hcr
  have hc13 : c = '\r' := Char.toNat_inj.mp heq.symm
  unfold validateSingleLine at h
  split at h
  next => cases h
  next hn => exact hn (.inl (hc13 ▸ hc))

theorem result_reads (depth : Nat) {command : List String} {result : CommandResult} {response : String}
    (h : encodeCommandResult command result = .ok response) :
    ∃ reply, resultReply result = .ok reply ∧ Reads (parseRespReply (depth + 2)) (Utf8.encode response) reply := by
  have hvalue (h : encodeResultValue result = .ok response) :
      ∃ reply, resultReply result = .ok reply ∧ Reads (parseRespReply (depth + 2)) (Utf8.encode response) reply := by
    cases result with
    | scalar x =>
        refine scalar_reads (depth + 1) (x := x) ?_
        cases x <;> exact h
    | list items =>
        obtain ⟨texts, htexts, h⟩ := bind_ok (show encodeArray items = .ok response from h)
        obtain ⟨count, hcount, h⟩ := bind_ok h
        cases h
        rw [mapM_ok] at htexts
        obtain ⟨replies, hreplies, hreads⟩ := items_read depth htexts
        rw [htexts.length_eq] at hcount
        refine ⟨.list replies, ?_, array_reads depth hcount hreads⟩
        rw [resultReply, mapM_ok.mpr hreplies]
        rfl
  unfold encodeCommandResult at h
  cases command with
  | nil => cases h
  | cons name args =>
      dsimp only at h
      split at h
      next => cases h
      next =>
        split at h
        next =>
          split at h
          next s =>
            split at h
            next message hs =>
              obtain ⟨_, hline, h⟩ := bind_ok h
              cases h
              refine ⟨.str message, ?_, simple_reads (depth + 1) (encode_line hline)⟩
              rw [resultReply, scalarReply, hs]
            next => cases h
          next => cases h
        next => exact hvalue h

end Ticketing.AppServer
