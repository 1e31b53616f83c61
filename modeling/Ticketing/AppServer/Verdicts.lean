import Ticketing.AppServer.ReplyBytes
import Ticketing.Protocol.Grammar
import Ticketing.Protocol.StreamParser
import Ticketing.Server.Connection

namespace Ticketing.AppServer

open Parsing Framing Trace Python Commands Protocol Server

/-! ### What a verdict takes -/

theorem IntLiteral.ne_nil {l : List UInt8} {n : Nat} (h : IntLiteral l n) : l ≠ [] := by
  rintro rfl
  have hread := parseIntBytes_iff.mpr h.2
  cases hread

theorem parseRespFrame_takes : Takes 4 parseRespFrame := by
  refine parseRespFrame_parses.takes fun frame tokens h => ?_
  obtain ⟨hcount, _⟩ := h
  have hpos := List.length_pos_iff.mpr (IntLiteral.ne_nil hcount)
  simp only [List.length_cons, List.length_append, List.length_nil]
  omega

theorem readLine_takes : Takes 2 AppServer.readLine := by
  rw [readLine_eq]
  refine (line_parses _).takes fun frame l h => ?_
  rw [h.1, List.length_append]
  exact Nat.le_add_left 2 _

theorem parseBulk_takes : Takes 2 parseBulk := by
  rw [parseBulk_eq]
  refine readLine_takes.andThen (m := 0) fun l => ?_
  cases parseIntBytes l with
  | none => exact Takes.refuse 0 _
  | some length =>
      dsimp only
      split
      · exact Takes.give _
      split
      · exact Takes.refuse 0 _
      · have hpayload := (payload_parses length.toNat (ReplyError.incomplete "incomplete RESP bulk string reply")
          (.malformed "RESP bulk string reply must end with CRLF")).takes fun _ _ _ => Nat.zero_le _
        exact hpayload.andThen fun bytes => Takes.lift _

theorem parseArray_takes {parse : List UInt8 → Parsed Reply} (h : Takes 0 parse) : Takes 2 (parseArray parse) := by
  rw [parseArray_eq]
  refine readLine_takes.andThen (m := 0) fun l => ?_
  cases parseIntBytes l with
  | none => exact Takes.refuse 0 _
  | some count =>
      dsimp only
      split
      · exact Takes.refuse 0 _
      · exact (h.times _).mapped

theorem parseRespReply_takes (depth : Nat) : Takes 3 (parseRespReply depth) := by
  induction depth with
  | zero => exact Takes.refuse 3 ReplyError.recursionLimit
  | succ depth ih =>
      refine Takes.cons ⟨_, rfl⟩ (parseRespReply_cons depth) fun b => ?_
      unfold replyBody
      split
      · exact parseSimple_eq ▸ readLine_takes.andThen fun l => Takes.lift _
      split
      · exact parseErrorReply_eq ▸ readLine_takes.andThen fun l => Takes.lift _
      split
      · rw [parseInteger_eq]
        refine readLine_takes.andThen (m := 0) fun l => ?_
        cases parseIntBytes l with
        | none => exact Takes.refuse 0 _
        | some n => exact Takes.give _
      split
      · exact parseBulk_takes
      split
      · exact parseArray_takes (ih.mono (Nat.zero_le 3))
      · exact Takes.refuse 2 _

/-! ### The loops over a buffer -/

/-- One round of the loops of `handle_client` and `feed_data`, unless it leaves them. -/
def frameRound (buffer : List UInt8) : Option (List UInt8) :=
  match parseRespFrame buffer with
  | .ok (_, rest) => some rest
  | .error _ => none

theorem frameRound_halts (buffer : List UInt8) : Halts frameRound (buffer.length / 4) buffer := by
  refine halts_of_decrease (by decide) (fun bs rest h => ?_) buffer
  unfold frameRound at h
  cases hp : parseRespFrame bs with
  | error e => rw [hp] at h; cases h
  | ok r =>
      rw [hp] at h
      cases h
      obtain ⟨taken, rfl, hn⟩ := parseRespFrame_takes hp
      rw [List.length_append]
      omega

theorem drain_enough {σ : Type} (execute : List String → σ → Except Error CommandResult × σ) (s : σ)
    {n : Nat} {buffer : List UInt8} (hn : buffer.length ≤ n) :
    drain execute n s buffer = drain execute buffer.length s buffer := by
  rw [drain_eq, drain_eq, scan_fuel parseRespFrame_consumes hn (Nat.le_refl _)]

theorem feedLoop_enough (commands : List (List String)) {n : Nat} {buffer : List UInt8} (hn : buffer.length ≤ n) :
    feedLoop n commands buffer = feedLoop buffer.length commands buffer := by
  rw [feedLoop_eq, feedLoop_eq, collect_fuel parseRespFrame_consumes hn (Nat.le_refl _)]

/-- Every `recv` takes a byte or ends the call. -/
theorem readReply_enough (depth : Nat) {recvs : List Recv} (more : List Recv) (buffer : List ReplyByte)
    {conn : Connection} (hn : conn.length < recvs.length) :
    readReply depth (recvs ++ more) buffer conn = readReply depth recvs buffer conn := by
  induction recvs generalizing buffer conn with
  | nil => exact absurd hn (Nat.not_lt_zero _)
  | cons recv recvs ih =>
      cases recv with
      | fails message => rfl
      | closed => rfl
      | chunk size =>
          rw [List.cons_append, readReply, readReply]
          split
          · rfl
          next hne =>
            have hpos := List.length_pos_iff.mpr hne
            have hdrop : (conn.drop (min (size + 1) recvSize)).length < recvs.length := by
              rw [List.length_cons] at hn
              rw [List.length_drop]
              simp only [recvSize]
              omega
            dsimp only
            split
            · exact ih _ hdrop
            · rfl
            · rfl
            · rfl

/-! ### Verdicts that stand -/

/-- A verdict on a buffer stands however the buffer grows: what has been read is read again, over four bytes
at least for a command and three for a reply, and what has been refused is refused again, so that the loops
over a buffer end. -/
theorem verdicts_stand :
    Steady RespError.isShort 4 parseRespFrame ∧ (∀ depth, Steady ReplyError.isShort 3 (parseRespReply depth)) ∧
      (∀ buffer, Halts frameRound (buffer.length / 4) buffer) ∧
      (∀ (σ : Type) (execute : List String → σ → Except Error CommandResult × σ) (s : σ) (n : Nat) (buffer : List UInt8),
        buffer.length ≤ n → drain execute n s buffer = drain execute buffer.length s buffer) ∧
      (∀ (n : Nat) (commands : List (List String)) (buffer : List UInt8),
        buffer.length ≤ n → feedLoop n commands buffer = feedLoop buffer.length commands buffer) ∧
      ∀ (depth : Nat) (recvs more : List Recv) (buffer : List ReplyByte) (conn : Connection),
        conn.length < recvs.length → readReply depth (recvs ++ more) buffer conn = readReply depth recvs buffer conn :=
  ⟨parseRespFrame_stable.steady parseRespFrame_takes,
    fun depth => (parseRespReply_stable depth).steady (parseRespReply_takes depth), frameRound_halts,
    fun _ execute s _ _ hn => drain_enough execute s hn, fun _ commands _ hn => feedLoop_enough commands hn,
    fun depth _ more buffer _ hn => readReply_enough depth more buffer hn⟩

/-- An empty simple string is a reply of three bytes. -/
theorem emptyReply_three : ¬ ∀ depth, Steady ReplyError.isShort 4 (parseRespReply depth) := by
  intro h
  have hreply : parseRespReply 1 (Utf8.encode "+\r\n") = .ok (.str "", []) := rfl
  obtain ⟨n, hleast, hmost, -⟩ := (h 1).value _ _ _ hreply
  have hlen : (Utf8.encode "+\r\n").length = 3 := by decide +kernel
  omega

end Ticketing.AppServer
