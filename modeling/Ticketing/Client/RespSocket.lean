import Ticketing.AppServer.Wire
import Ticketing.Client.AutoTicketing
import Ticketing.Lib.Agreement
import Ticketing.Protocol.Grammar

namespace Ticketing.Client

open Parsing Python JsonText Commands Protocol Server AppServer

/-! ### `read_resp_value` -/

/-- `RespError` is the one `RuntimeError` of the demo. -/
def respError (message : String) : Error := ⟨.runtimeError, message⟩

def malformedLine : Error := respError "Malformed RESP line from server"

/-- `reader.readline()`: the bytes up to the first LF and with it, or to the end of the stream. -/
def takeLine : List UInt8 → List UInt8 × List UInt8
  | [] => ([], [])
  | b :: bs => if b = lf then ([b], bs) else (b :: (takeLine bs).1, (takeLine bs).2)

def readline : Parser UInt8 Error (List UInt8) := fun bs =>
  let line := (takeLine bs).1
  if [cr, lf] <:+ line then .ok (line.take (line.length - 2), (takeLine bs).2) else .error malformedLine

def decodeUtf8 (bs : List UInt8) : Except Error String :=
  match Utf8.decode bs with
  | some s => .ok s
  | none => .error ⟨.unicodeDecodeError, "invalid UTF-8"⟩

/-- `int(line)` of a line without a number. -/
def notInt : Error := ⟨.valueError, "invalid literal for int() with base 10"⟩

def readSimple : Parser UInt8 Error Reply := andThen readline fun l => lift ((decodeUtf8 l).map Reply.str)

def readError : Parser UInt8 Error Reply :=
  andThen readline fun l => lift ((decodeUtf8 l).bind fun s => .error (respError s))

def readInteger : Parser UInt8 Error Reply :=
  andThen readline fun l => match parseIntBytes l with
    | some n => give (.int n)
    | none => refuse notInt

def indexOverflow : Error := ⟨.overflowError, "cannot fit 'int' into an index-sized integer"⟩

/-- `reader.read(length)` and `reader.read(2)`, which return less where the stream ends. -/
def readPayload (length : Nat) : Parser UInt8 Error (List UInt8) := fun bs =>
  if maxsize < length then .error indexOverflow
  else if (bs.drop length).take 2 ≠ [cr, lf] then .error (respError "Malformed RESP bulk string from server")
  else .ok (bs.take length, bs.drop (length + 2))

def readBulk : Parser UInt8 Error Reply :=
  andThen readline fun l => match parseIntBytes l with
    | none => refuse notInt
    | some length =>
      if length = -1 then give .null
      else if length < -1 then
        refuse (if IsInt64 length then ⟨.valueError, "read length must be non-negative or -1"⟩ else indexOverflow)
      else andThen (readPayload length.toNat) fun bytes => lift ((decodeUtf8 bytes).map Reply.str)

def readArray (read : Parser UInt8 Error Reply) : Parser UInt8 Error Reply :=
  andThen readline fun l => match parseIntBytes l with
    | none => refuse notInt
    | some itemCount =>
      if itemCount = -1 then give .null
      else mapped Reply.list (times read itemCount.toNat)

/-- `repr` of one byte. -/
def reprByte (b : UInt8) : String :=
  if b = 9 then "b'\\t'" else if b = lf then "b'\\n'" else if b = cr then "b'\\r'"
  else if b = byteOf '\\' then "b'\\\\'" else if b = byteOf '\'' then "b\"'\""
  else if 32 ≤ b ∧ b < 127 then "b'" ++ String.singleton (Char.ofNat b.toNat) ++ "'"
  else "b'\\x" ++ String.ofList [(b.toNat / 16).digitChar, (b.toNat % 16).digitChar] ++ "'"

/-- The reader of what follows a type byte. -/
def readBody (read : Parser UInt8 Error Reply) (b : UInt8) : Parser UInt8 Error Reply :=
  if b = byteOf '+' then readSimple
  else if b = byteOf '-' then readError
  else if b = byteOf ':' then readInteger
  else if b = byteOf '$' then readBulk
  else if b = byteOf '*' then readArray read
  else refuse (respError ("Unsupported RESP prefix: " ++ reprByte b))

/-- `read_resp_value` on what a stream still has to give, with room for `depth` nested calls. -/
def readRespValue : Nat → Parser UInt8 Error Reply
  | 0, _ => .error ⟨.recursionError, "maximum recursion depth exceeded"⟩
  | depth + 1, bs => match bs with
    | [] => .error ⟨.osError, "Server closed the connection unexpectedly"⟩
    | b :: rest => readBody (readRespValue depth) b rest

/-! ### Bare line feeds -/

/-- A line feed that no carriage return stands before. -/
def BareLf (bs : List UInt8) : Prop := ∃ before after, bs = before ++ lf :: after ∧ before.getLast? ≠ some cr

variable {bs l rest taken : List UInt8}

theorem BareLf.append (h : BareLf rest) (ht : taken.getLast? ≠ some cr) : BareLf (taken ++ rest) := by
  obtain ⟨before, after, rfl, hb⟩ := h
  refine ⟨taken ++ before, after, by rw [List.append_assoc], ?_⟩
  cases before using List.reverseRecOn with
  | nil => rwa [List.append_nil]
  | append_singleton before b =>
      rw [← List.append_assoc, List.getLast?_concat]
      rwa [List.getLast?_concat] at hb

theorem BareLf.cons {b : UInt8} (h : BareLf rest) (hb : ¬ (b = cr ∧ rest.head? = some lf)) : BareLf (b :: rest) := by
  by_cases hcr : b = cr
  · obtain ⟨before, after, rfl, hbefore⟩ := h
    cases before with
    | nil => exact absurd ⟨hcr, rfl⟩ hb
    | cons c before => exact ⟨b :: c :: before, after, rfl, hbefore⟩
  · have hlast : [b].getLast? ≠ some cr := fun hlast => hcr (Option.some.inj hlast)
    exact h.append hlast

/-- The line that ends with the first CRLF ends with the first LF, or that LF is a bare one. -/
theorem takeLine_splitLine (h : splitLine bs = some (l, rest)) :
    takeLine bs = (l ++ [cr, lf], rest) ∨ ¬ [cr, lf] <:+ (takeLine bs).1 ∧ BareLf bs := by
  induction bs generalizing l with
  | nil => cases h
  | cons b bs ih =>
      rw [splitLine] at h
      split at h
      next hb =>
        cases bs with
        | nil => cases hb.2
        | cons c bs =>
            obtain ⟨rfl, hc⟩ := hb
            cases hc
            cases h
            exact .inl rfl
      next hb =>
        obtain ⟨p, hp, heq⟩ := Option.map_eq_some_iff.mp h
        cases heq
        rw [takeLine]
        split
        next hlf =>
          have hbare : BareLf (b :: bs) := ⟨[], bs, by rw [hlf]; rfl, by simp⟩
          exact .inr ⟨fun hs => by simpa using hs.length_le, hbare⟩
        next hlf =>
          rcases ih hp with hl | ⟨hl, hbare⟩
          · exact .inl (by rw [hl]; rfl)
          · refine .inr ⟨fun hs => ?_, hbare.cons hb⟩
            rcases List.suffix_cons_iff.mp hs with hs | hs
            · obtain ⟨rfl, hline⟩ := List.cons.inj hs
              refine hb ⟨rfl, ?_⟩
              cases bs with
              | nil => cases hp
              | cons c bs =>
                  rw [takeLine] at hline
                  split at hline
                  next hc => rw [hc]; rfl
                  next hc => exact absurd (List.cons.inj hline).1.symm hc
            · exact hl hs

/-! ### Two readers of one protocol -/

/-- What the demo raises for an error of the app server's parser: an error reply is one for both. -/
def verdict : ReplyError → Option Error
  | .conflict message => some (respError message)
  | _ => none

/-- Where the demo stops although the app server's parser reads on. -/
inductive Stops : Error → List UInt8 → Prop
  | bareLf {bytes : List UInt8} (h : BareLf bytes) : Stops malformedLine bytes
  | tooLong {bytes : List UInt8} (h : maxsize < bytes.length) : Stops indexOverflow bytes

theorem Stops.append {stop : Error} (h : Stops stop rest) (ht : taken.getLast? ≠ some cr) :
    Stops stop (taken ++ rest) := by
  cases h with
  | bareLf h => exact .bareLf (h.append ht)
  | tooLong h => exact .tooLong (by rw [List.length_append]; omega)

theorem splitLine_of_readLine (h : AppServer.readLine bs = .ok (l, rest)) : splitLine bs = some (l, rest) := by
  unfold AppServer.readLine at h
  cases hs : splitLine bs with
  | none => rw [hs] at h; cases h
  | some p =>
      rw [hs] at h
      cases h
      rfl

theorem readline_agrees : Agrees Stops verdict AppServer.readLine readline where
  ok {bs l rest} h := by
    unfold readline
    rcases takeLine_splitLine (splitLine_of_readLine h) with hl | ⟨hl, hbare⟩
    · rw [hl]
      simp
    · exact .inr ⟨_, if_neg hl, .bareLf hbare⟩
  error {bs e e'} h hv := by
    unfold AppServer.readLine at h
    split at h
    next => cases h
    next => cases h; cases hv
  rest {bs l rest stop} h ho := by
    rw [(splitLine_iff.mp (splitLine_of_readLine h)).1]
    exact ho.append (by simp [lf, cr])

theorem payload_agrees (length : Nat) {incomplete unended : ReplyError} (hi : verdict incomplete = none)
    (hu : verdict unended = none) :
    Agrees Stops verdict (payload length incomplete unended) (readPayload length) where
  ok {bs bytes rest} h := by
    unfold payload at h
    split at h
    next => cases h
    next hlen =>
      split at h
      next => cases h
      next hend =>
        cases h
        unfold readPayload
        split
        next hmax => exact .inr ⟨_, rfl, .tooLong (by omega)⟩
        next => exact .inl rfl
  error {bs e e'} h hv := by
    unfold payload at h
    split at h
    next => cases h; cases hi.symm.trans hv
    next =>
      split at h
      next => cases h; cases hu.symm.trans hv
      next => cases h
  rest {bs bytes rest stop} h ho := by
    obtain ⟨frame, rfl, _, rfl⟩ := (payload_parses length incomplete unended _ _ _).mp h
    exact ho.append (by simp [lf, cr])

theorem decode_agrees (bs : List UInt8) :
    Agrees Stops verdict (lift ((decodeText bs).map Reply.str)) (lift ((decodeUtf8 bs).map Reply.str)) := by
  unfold decodeText decodeUtf8
  cases Utf8.decode bs with
  | none => exact .refuse rfl _
  | some s => exact .give (Reply.str s)

theorem simple_agrees : Agrees Stops verdict parseSimple readSimple := by
  rw [parseSimple_eq]
  exact readline_agrees.andThen decode_agrees

theorem error_agrees : Agrees Stops verdict parseErrorReply readError := by
  rw [parseErrorReply_eq]
  refine readline_agrees.andThen fun l => ?_
  unfold decodeText decodeUtf8
  cases Utf8.decode l with
  | none => exact .refuse rfl _
  | some s => exact .raise rfl

theorem integer_agrees : Agrees Stops verdict parseInteger readInteger := by
  rw [parseInteger_eq]
  refine readline_agrees.andThen fun l => ?_
  cases parseIntBytes l with
  | none => exact .refuse rfl _
  | some n => exact .give (Reply.int n)

theorem bulk_agrees : Agrees Stops verdict parseBulk readBulk := by
  rw [parseBulk_eq]
  refine readline_agrees.andThen fun l => ?_
  cases parseIntBytes l with
  | none => exact .refuse rfl _
  | some length =>
      dsimp only
      split
      · exact .give Reply.null
      split
      · exact .refuse rfl _
      · exact (payload_agrees length.toNat rfl rfl).andThen decode_agrees

/-- The demo takes an array of a negative length for null or for an empty one, and the app server refuses it. -/
theorem array_agrees {parse : List UInt8 → Parsed Reply} {read : Parser UInt8 Error Reply}
    (h : Agrees Stops verdict parse read) : Agrees Stops verdict (parseArray parse) (readArray read) := by
  rw [parseArray_eq]
  refine readline_agrees.andThen fun l => ?_
  cases parseIntBytes l with
  | none => exact .refuse rfl _
  | some itemCount =>
      dsimp only
      split
      · exact .refuse rfl _
      next hcount =>
        rw [if_neg (by omega)]
        exact (h.times itemCount.toNat).mapped Reply.list

theorem body_agrees {depth : Nat} (h : Agrees Stops verdict (parseRespReply depth) (readRespValue depth)) (b : UInt8) :
    Agrees Stops verdict (replyBody depth b) (readBody (readRespValue depth) b) := by
  unfold replyBody readBody
  split
  · exact simple_agrees
  split
  · exact error_agrees
  split
  · exact integer_agrees
  split
  · exact bulk_agrees
  split
  · exact array_agrees h
  · exact .refuse rfl _

theorem reply_agrees (depth : Nat) : Agrees Stops verdict (parseRespReply depth) (readRespValue depth) := by
  induction depth with
  | zero => exact .refuse (e := ReplyError.recursionLimit) rfl _
  | succ depth ih =>
      refine Agrees.cons ⟨_, rfl, rfl⟩ (parseRespReply_cons depth) (fun _ _ => rfl) (body_agrees ih) fun b => ?_
      by_cases hb : b = cr
      · subst hb
        exact .inr ⟨.malformed "unsupported RESP reply type", rfl, rfl⟩
      · have hlast : [b].getLast? ≠ some cr := fun hlast => hb (Option.some.inj hlast)
        exact .inl fun stop bs ho => ho.append hlast

/-- On every stream the demo reads what the app server reads and fails where it reads an error reply, unless a line
has a bare line feed or a text is longer than a container can be: there the demo stops. -/
theorem readers_agree (depth : Nat) (bs : List UInt8) :
    (∀ reply rest, parseRespReply depth bs = .ok (reply, rest) →
      readRespValue depth bs = .ok (reply, rest) ∨ readRespValue depth bs = .error malformedLine ∧ BareLf bs ∨
        readRespValue depth bs = .error indexOverflow ∧ maxsize < bs.length) ∧
    ∀ message, parseRespReply depth bs = .error (.conflict message) →
      readRespValue depth bs = .error (respError message) ∨ readRespValue depth bs = .error malformedLine ∧ BareLf bs ∨
        readRespValue depth bs = .error indexOverflow ∧ maxsize < bs.length := by
  have hodd {stop : Error} (ho : Stops stop bs) :
      stop = malformedLine ∧ BareLf bs ∨ stop = indexOverflow ∧ maxsize < bs.length := by
    cases ho with
    | bareLf h => exact .inl ⟨rfl, h⟩
    | tooLong h => exact .inr ⟨rfl, h⟩
  refine ⟨fun reply rest h => ?_, fun message h => ?_⟩
  · refine ((reply_agrees depth).ok h).imp_right fun ⟨stop, hstop, ho⟩ => ?_
    rcases hodd ho with ⟨rfl, hbare⟩ | ⟨rfl, hlong⟩
    · exact .inl ⟨hstop, hbare⟩
    · exact .inr ⟨hstop, hlong⟩
  · refine ((reply_agrees depth).error h rfl).imp_right fun ⟨stop, hstop, ho⟩ => ?_
    rcases hodd ho with ⟨rfl, hbare⟩ | ⟨rfl, hlong⟩
    · exact .inl ⟨hstop, hbare⟩
    · exact .inr ⟨hstop, hlong⟩

end Ticketing.Client
