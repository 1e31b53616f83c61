import Ticketing.Protocol.RespLines
import Ticketing.AppServer.RedisClient

namespace Ticketing.Protocol

open Parsing Python JsonText AppServer

/-- `IncompleteRESPError` and the other `ProtocolError`s. -/
inductive RespError
  | incomplete (message : String)
  | malformed (message : String)
  deriving DecidableEq

/-- Needs more bytes. -/
def RespError.isShort : RespError → Bool
  | .incomplete _ => true
  | .malformed _ => false

def RespError.message : RespError → String
  | .incomplete message => message
  | .malformed message => message

def readLine : Parser UInt8 RespError (List UInt8) := line (.incomplete "incomplete RESP line")

def parseArrayHeader : Parser UInt8 RespError Nat :=
  andThen (marker (byteOf '*') (.incomplete "missing RESP array header") (.malformed "expected RESP array")) fun _ =>
  andThen readLine fun rawCount => match parseIntBytes rawCount with
    | none => refuse (.malformed "invalid RESP array length")
    | some count =>
      if count < 0 then refuse (.malformed "negative RESP array length is not supported") else give count.toNat

def parseBulkString : Parser UInt8 RespError String :=
  andThen (marker (byteOf '$') (.incomplete "missing RESP bulk string header")
    (.malformed "expected RESP bulk string")) fun _ =>
  andThen readLine fun rawLength => match parseIntBytes rawLength with
    | none => refuse (.malformed "invalid RESP bulk string length")
    | some length =>
      if length < 0 then refuse (.malformed "null bulk strings are not supported in requests")
      else andThen (payload length.toNat (.incomplete "incomplete RESP bulk string payload")
        (.malformed "RESP bulk string payload must end with CRLF")) fun bytes => match Utf8.decode bytes with
        | none => refuse (.malformed "RESP bulk string must be valid UTF-8")
        | some token => give token

def parseRespFrame : Parser UInt8 RespError (List String) :=
  andThen parseArrayHeader fun itemCount => times parseBulkString itemCount

/-! ### Verdicts -/

theorem readLine_stable : Stable RespError.isShort readLine := line_stable rfl

theorem parseArrayHeader_stable : Stable RespError.isShort parseArrayHeader := by
  refine (marker_stable rfl _).andThen fun _ => readLine_stable.andThen fun rawCount => ?_
  cases parseIntBytes rawCount with
  | none => exact .refuse _
  | some count =>
      dsimp only
      split
      · exact .refuse _
      · exact .give _

theorem parseBulkString_stable : Stable RespError.isShort parseBulkString := by
  refine (marker_stable rfl _).andThen fun _ => readLine_stable.andThen fun rawLength => ?_
  cases parseIntBytes rawLength with
  | none => exact .refuse _
  | some length =>
      dsimp only
      split
      · exact .refuse _
      · refine (payload_stable rfl).andThen fun bytes => ?_
        cases Utf8.decode bytes with
        | none => exact .refuse _
        | some token => exact .give _

theorem parseRespFrame_stable : Stable RespError.isShort parseRespFrame :=
  parseArrayHeader_stable.andThen fun itemCount => parseBulkString_stable.times itemCount

theorem parseArrayHeader_consumes : Consumes 1 parseArrayHeader := by
  refine Consumes.andThen (marker_consumes _ _ _) fun _ => Consumes.andThen (line_consumes _) fun rawCount => ?_
  cases parseIntBytes rawCount with
  | none => exact Consumes.refuse 0 _
  | some count =>
      dsimp only
      split
      · exact Consumes.refuse 0 _
      · exact Consumes.give _

theorem parseBulkString_consumes : Consumes 1 parseBulkString := by
  refine Consumes.andThen (marker_consumes _ _ _) fun _ => Consumes.andThen (line_consumes _) fun rawLength => ?_
  cases parseIntBytes rawLength with
  | none => exact Consumes.refuse 0 _
  | some length =>
      dsimp only
      split
      · exact Consumes.refuse 0 _
      · refine Consumes.andThen (payload_consumes _ _ _) fun bytes => ?_
        cases Utf8.decode bytes with
        | none => exact Consumes.refuse 0 _
        | some token => exact Consumes.give _

theorem parseRespFrame_consumes : Consumes 1 parseRespFrame :=
  Consumes.andThen parseArrayHeader_consumes fun itemCount =>
    Consumes.times (parseBulkString_consumes.mono (Nat.zero_le 1)) itemCount

/-! ### Encoded commands -/

/-- The bytes of a command whose tokens are valid text. -/
def Encodes (tokens : List String) (frame : List UInt8) : Prop := encodeCommand (tokens.map Str.ofString) = .ok frame

instance decidableEncodes (tokens : List String) (frame : List UInt8) : Decidable (Encodes tokens frame) :=
  inferInstanceAs (Decidable (_ = _))

theorem encodeText_ofString (s : String) : encodeText (Str.ofString s) = .ok (Utf8.encode s) := by
  rw [encodeText, toString?_ofString]

/-- What an encoded token looks like. -/
theorem encodeToken_ok {token : String} {frame : List UInt8} (h : encodeToken (Str.ofString token) = .ok frame) :
    ∃ length, strInt (Utf8.encode token).length = .ok length ∧
      frame = [byteOf '$'] ++ ((Utf8.encode length ++ [cr, lf]) ++ (Utf8.encode token ++ [cr, lf])) := by
  obtain ⟨encoded, hencoded, h⟩ := bind_ok h
  obtain ⟨length, hn, h⟩ := bind_ok h
  cases (encodeText_ofString token).symm.trans hencoded
  cases h
  refine ⟨length, hn, ?_⟩
  rw [encode_header '$' (by decide) (by decide), List.append_assoc]

theorem bulkString_reads {token : String} {frame : List UInt8} (h : encodeToken (Str.ofString token) = .ok frame) :
    Reads parseBulkString frame token := by
  obtain ⟨length, hn, rfl⟩ := encodeToken_ok h
  obtain ⟨-, hint, hcr⟩ := encode_strInt hn
  rw [← List.append_nil (Utf8.encode token ++ [cr, lf])]
  refine (marker_reads _ _ _).andThen ((line_reads _ hcr).andThen ?_)
  rw [hint]
  dsimp only
  rw [if_neg (Int.not_lt.mpr (Int.natCast_nonneg _))]
  refine (payload_reads _ _ _).andThen ?_
  rw [Utf8.decode_encode]
  exact Reads.give token

/-- What an encoded command looks like. -/
theorem encodes_eq {tokens : List String} {frame : List UInt8} (h : Encodes tokens frame) :
    ∃ count parts, strInt tokens.length = .ok count ∧
      List.Forall₂ (fun part token => encodeToken (Str.ofString token) = .ok part) parts tokens ∧
      frame = ([byteOf '*'] ++ (Utf8.encode count ++ [cr, lf])) ++ parts.flatten := by
  obtain ⟨count, hn, h⟩ := bind_ok h
  obtain ⟨parts, hparts, h⟩ := bind_ok h
  cases h
  rw [List.length_map] at hn
  refine ⟨count, parts, hn, ?_, ?_⟩
  · exact (List.forall₂_map_left_iff.mp (mapM_ok.mp hparts)).flip
  · rw [encode_header '*' (by decide) (by decide)]

theorem arrayHeader_reads {n : Nat} {count : String} (h : strInt n = .ok count) :
    Reads parseArrayHeader ([byteOf '*'] ++ (Utf8.encode count ++ [cr, lf])) n := by
  obtain ⟨-, hint, hcr⟩ := encode_strInt h
  rw [← List.append_nil (Utf8.encode count ++ [cr, lf])]
  refine (marker_reads _ _ _).andThen ((line_reads _ hcr).andThen ?_)
  rw [hint]
  dsimp only
  rw [if_neg (Int.not_lt.mpr (Int.natCast_nonneg _)), Int.toNat_natCast]
  exact Reads.give n

theorem frame_reads {tokens : List String} {frame : List UInt8} (h : Encodes tokens frame) :
    Reads parseRespFrame frame tokens := by
  obtain ⟨count, parts, hn, hparts, rfl⟩ := encodes_eq h
  exact (arrayHeader_reads hn).andThen (Reads.times (hparts.imp fun _ _ => bulkString_reads))

/-- The start of an encoded command waits for the rest of it. -/
theorem prefix_incomplete {tokens : List String} {frame left : List UInt8} (h : Encodes tokens frame)
    (hl : left <+: frame) (hne : left ≠ frame) : ∃ e, parseRespFrame left = .error e ∧ e.isShort = true := by
  obtain ⟨rest, rfl⟩ := hl
  exact parseRespFrame_stable.prefix_short (frame_reads h).whole fun hr => hne (by rw [hr, List.append_nil])

end Ticketing.Protocol
