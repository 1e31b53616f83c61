import Ticketing.Python
import Ticketing.Lib.Utf8

namespace Ticketing.AppServer

inductive Reply
  | str (s : String)
  | int (n : Int)
  | null
  | list (items : List Reply)

/-- How `parse_resp_reply` ends without a value. -/
inductive ReplyError
  | incomplete (message : String)
  | malformed (message : String)
  | conflict (message : String)
  | notUtf8
  | recursionLimit
  deriving DecidableEq

/-- The value at the start of the bytes and the bytes after it. -/
abbrev Parsed (α : Type) := Except ReplyError (α × List UInt8)

def cr : UInt8 := 13

def lf : UInt8 := 10

/-- The bytes before the first CRLF and the bytes after it. -/
def splitLine : List UInt8 → Option (List UInt8 × List UInt8)
  | [] => none
  | b :: bs =>
    if b = cr ∧ bs.head? = some lf then some ([], bs.tail)
    else (splitLine bs).map (fun p => (b :: p.1, p.2))

def readLine (bs : List UInt8) : Parsed (List UInt8) :=
  match splitLine bs with
  | some p => .ok p
  | none => .error (.incomplete "incomplete RESP reply line")

def byteOf (c : Char) : UInt8 := c.toNat.toUInt8

def byteAlphabet : Decimal.Alphabet UInt8 where
  digit b := if 48 ≤ b ∧ b ≤ 57 then some (b.toNat - 48) else none
  isSpace b := b = 32 || (9 ≤ b && b ≤ 13)
  plus := byteOf '+'
  minus := byteOf '-'
  underscore := byteOf '_'

/-- `int(payload)`. -/
def parseIntBytes (bs : List UInt8) : Option Int := Decimal.readInt byteAlphabet Python.maxStrDigits bs

def decodeText (bs : List UInt8) : Except ReplyError String :=
  match Utf8.decode bs with
  | some s => .ok s
  | none => .error .notUtf8

def parseSimple (bs : List UInt8) : Parsed Reply :=
  (readLine bs).bind (fun p => (decodeText p.1).map (fun s => (.str s, p.2)))

def parseErrorReply (bs : List UInt8) : Parsed Reply :=
  (readLine bs).bind (fun p => (decodeText p.1).bind (fun s => .error (.conflict s)))

def parseInteger (bs : List UInt8) : Parsed Reply :=
  (readLine bs).bind (fun p => match parseIntBytes p.1 with
    | some n => .ok (.int n, p.2)
    | none => .error (.malformed "invalid RESP integer reply"))

def parseBulk (bs : List UInt8) : Parsed Reply :=
  (readLine bs).bind (fun p => match parseIntBytes p.1 with
    | none => .error (.malformed "invalid RESP bulk string length")
    | some length =>
      if length = -1 then .ok (.null, p.2)
      else if length < -1 then .error (.malformed "invalid RESP bulk string length")
      else
        let length := length.toNat
        if p.2.length < length + 2 then .error (.incomplete "incomplete RESP bulk string reply")
        else if (p.2.drop length).take 2 ≠ [cr, lf] then
          .error (.malformed "RESP bulk string reply must end with CRLF")
        else (decodeText (p.2.take length)).map (fun s => (.str s, p.2.drop (length + 2))))

def parseItems (parse : List UInt8 → Parsed Reply) : Nat → List UInt8 → Parsed (List Reply)
  | 0, bs => .ok ([], bs)
  | count + 1, bs =>
    (parse bs).bind (fun p => (parseItems parse count p.2).map (fun q => (p.1 :: q.1, q.2)))

def parseArray (parse : List UInt8 → Parsed Reply) (bs : List UInt8) : Parsed Reply :=
  (readLine bs).bind (fun p => match parseIntBytes p.1 with
    | none => .error (.malformed "invalid RESP array length")
    | some count =>
      if count < 0 then .error (.malformed "negative RESP arrays are not supported")
      else (parseItems parse count.toNat p.2).map (fun q => (.list q.1, q.2)))

/-- `parse_resp_reply`, with room for `depth` nested calls on the stack. -/
def parseRespReply : Nat → List UInt8 → Parsed Reply
  | 0, _ => .error .recursionLimit
  | depth + 1, bs => match bs with
    | [] => .error (.incomplete "missing RESP reply type")
    | b :: rest =>
      if b = byteOf '+' then parseSimple rest
      else if b = byteOf '-' then parseErrorReply rest
      else if b = byteOf ':' then parseInteger rest
      else if b = byteOf '$' then parseBulk rest
      else if b = byteOf '*' then parseArray (parseRespReply depth) rest
      else .error (.malformed "unsupported RESP reply type")

end Ticketing.AppServer
