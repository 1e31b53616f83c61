import Ticketing.Commands.Handler
import Ticketing.Lib.Utf8

namespace Ticketing.Protocol

open Python JsonText Commands

def validateSingleLine (message : String) : Except Error Unit :=
  if '\r' ∈ message.toList ∨ '\n' ∈ message.toList then
    .error ⟨.valueError, "RESP line values must not contain CR or LF characters."⟩
  else .ok ()

def encodeSimpleString (message : String) : Except Error String := do
  validateSingleLine message
  return "+" ++ message ++ "\r\n"

def encodeBulkString : Option Str → Except Error String
  | none => .ok "$-1\r\n"
  | some message => match message.toString? with
    | none => .error ⟨.unicodeEncodeError, "surrogates not allowed"⟩
    | some message => do
      let length ← strInt (Utf8.encode message).length
      return "$" ++ length ++ "\r\n" ++ message ++ "\r\n"

def encodeInteger (value : Int) : Except Error String := do
  let value ← strInt value
  return ":" ++ value ++ "\r\n"

def encodeArrayItem : RespScalar → Except Error String
  | .int n => encodeInteger n
  | .null => encodeBulkString none
  | .str s => encodeBulkString (some s)

def encodeArray (items : List RespScalar) : Except Error String := do
  let body ← items.mapM encodeArrayItem
  let length ← strInt items.length
  return "*" ++ length ++ "\r\n" ++ String.join body

def encodeError (message : String) : Except Error String := do
  validateSingleLine message
  return "-ERR " ++ message ++ "\r\n"

end Ticketing.Protocol
