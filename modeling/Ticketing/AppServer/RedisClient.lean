import Ticketing.AppServer.RespReply

namespace Ticketing.AppServer

open Python JsonText

structure SeatStatus where
  state : String
  userId : Option String
  ttl : Int
  deriving DecidableEq

structure SeatCommandResult where
  success : Bool
  state : String
  userId : Option String
  ttl : Int
  deriving DecidableEq

/-! ### Requests -/

def encodeText (s : Str) : Except Error (List UInt8) :=
  match s.toString? with
  | some s => .ok (Utf8.encode s)
  | none => .error ⟨.unicodeEncodeError, "surrogates not allowed"⟩

def encodeToken (token : Str) : Except Error (List UInt8) := do
  let encoded ← encodeText token
  let length ← strInt encoded.length
  return Utf8.encode ("$" ++ length ++ "\r\n") ++ (encoded ++ [cr, lf])

def encodeCommand (tokens : List Str) : Except Error (List UInt8) := do
  let count ← strInt tokens.length
  let parts ← tokens.mapM encodeToken
  return Utf8.encode ("*" ++ count ++ "\r\n") ++ parts.flatten

/-! ### The connection -/

/-- A byte of a reply, with the number of the `execute` call whose request it answers. -/
abbrev ReplyByte := UInt8 × Nat

/-- The bytes that the client has still to read. -/
abbrev Connection := List ReplyByte

/-- What one `recv` meets: at most so many bytes, an `OSError`, or the end of the stream. -/
inductive Recv
  | chunk (size : Nat)
  | fails (message : String)
  | closed

/-- What one attempt meets. Of a request that `sendall` fails to send the
server may still see enough to answer. -/
structure Attempt where
  connectError : Option String
  sendError : Option String
  received : Bool
  reply : List UInt8
  recvs : List Recv

def recvSize : Nat := 4096

inductive Exchange
  | osError (message : String)
  | done (result : Except Error Reply) (buffer : List ReplyByte)

def verdictError : ReplyError → Error
  | .incomplete message => ⟨.upstreamError, "Invalid Redis reply: " ++ message⟩
  | .malformed message => ⟨.upstreamError, "Invalid Redis reply: " ++ message⟩
  | .conflict message => ⟨.conflictError, message⟩
  | .notUtf8 => ⟨.upstreamError, "Redis returned non-UTF8 data"⟩
  | .recursionLimit => ⟨.recursionError, "maximum recursion depth exceeded"⟩

/-- Read until the buffer has a verdict. A `recv` with nothing to come times out. -/
def readReply (depth : Nat) : List Recv → List ReplyByte → Connection → Exchange × Option Connection
  | [], _, conn => (.osError "timed out", some conn)
  | .fails message :: _, _, conn => (.osError message, some conn)
  | .closed :: _, buffer, _ =>
    (.done (.error ⟨.upstreamError, "Redis closed the connection before replying"⟩) buffer, none)
  | .chunk size :: recvs, buffer, conn =>
    if conn = [] then (.osError "timed out", some conn)
    else
      let n := min (size + 1) recvSize
      let buffer := buffer ++ conn.take n
      match parseRespReply depth (buffer.map Prod.fst) with
      | .error (.incomplete _) => readReply depth recvs buffer (conn.drop n)
      | .ok (value, []) => (.done (.ok value) buffer, some (conn.drop n))
      | .ok (_, _ :: _) => (.done
          (.error ⟨.upstreamError, "Redis reply contained unexpected trailing data"⟩) buffer, some (conn.drop n))
      | .error e => (.done (.error (verdictError e)) buffer, some (conn.drop n))

def ensureConnection (connectError : Option String) : Option Connection → Except String Connection
  | some conn => .ok conn
  | none => match connectError with
    | none => .ok []
    | some message => .error message

/-- Send the request of call `i` and read a reply. -/
def exchange (depth i : Nat) (attempt : Attempt) (conn : Connection) : Exchange × Option Connection :=
  let answered := conn ++ attempt.reply.map (fun b => (b, i))
  match attempt.sendError with
  | some message => (.osError message, some (if attempt.received then answered else conn))
  | none => readReply depth attempt.recvs [] answered

structure Outcome where
  result : Except Error Reply
  buffer : List ReplyByte

def connectionFailed (message : String) : Outcome :=
  ⟨.error ⟨.upstreamError, "Redis connection failed: " ++ message⟩, []⟩

structure Call where
  tokens : List Str
  first : Attempt
  second : Attempt

def execute (depth i : Nat) (call : Call) (conn : Option Connection) : Outcome × Option Connection :=
  match encodeCommand call.tokens with
  | .error e => (⟨.error e, []⟩, conn)
  | .ok _ => match ensureConnection call.first.connectError conn with
    | .error message => (connectionFailed message, none)
    | .ok conn => match exchange depth i call.first conn with
      | (.done result buffer, conn) => (⟨result, buffer⟩, conn)
      | (.osError _, _) => match ensureConnection call.second.connectError none with
        | .error message => (connectionFailed message, none)
        | .ok conn => match exchange depth i call.second conn with
          | (.done result buffer, conn) => (⟨result, buffer⟩, conn)
          | (.osError message, conn) => (connectionFailed message, conn)

/-- The calls of a client one after another, numbered from `i`. -/
def executeAll (depth : Nat) : Nat → Option Connection → List Call → List Outcome
  | _, _, [] => []
  | i, conn, call :: calls =>
    (execute depth i call conn).1 :: executeAll depth (i + 1) (execute depth i call conn).2 calls

/-! ### Typed replies -/

def expectArray (value : Reply) (length : Nat) : Except Error (List Reply) :=
  match value with
  | .list items =>
    if items.length = length then .ok items
    else .error ⟨.upstreamError, "Redis array reply must contain " ++ toString length ++ " items"⟩
  | _ => .error ⟨.upstreamError, "Redis reply must be an array"⟩

def expectString (value : Reply) (label : String) : Except Error String :=
  match value with
  | .str s => .ok s
  | _ => .error ⟨.upstreamError, "Redis " ++ label ++ " must be a string"⟩

def expectOptionalString (value : Reply) (label : String) : Except Error (Option String) :=
  match value with
  | .null => .ok none
  | .str s => .ok (some s)
  | _ => .error ⟨.upstreamError, "Redis " ++ label ++ " must be a string or null"⟩

def expectInt (value : Reply) (label : String) : Except Error Int :=
  match value with
  | .int n => .ok n
  | _ => .error ⟨.upstreamError, "Redis " ++ label ++ " must be an integer"⟩

def decodeSeatStatus (value : Reply) : Except Error SeatStatus := do
  match ← expectArray value 3 with
  | [state, userId, ttl] =>
    return ⟨← expectString state "seat state", ← expectOptionalString userId "seat user_id", ← expectInt ttl "seat ttl"⟩
  | _ => throw ⟨.upstreamError, "Redis array reply must contain 3 items"⟩

def decodeSeatCommand (value : Reply) : Except Error SeatCommandResult := do
  match ← expectArray value 4 with
  | [success, state, userId, ttl] =>
    return ⟨(← expectInt success "seat success flag") ≠ 0, ← expectString state "seat state",
      ← expectOptionalString userId "seat user_id", ← expectInt ttl "seat ttl"⟩
  | _ => throw ⟨.upstreamError, "Redis array reply must contain 4 items"⟩

end Ticketing.AppServer
