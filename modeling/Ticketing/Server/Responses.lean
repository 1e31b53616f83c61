import Ticketing.Protocol.RespEncoder

namespace Ticketing.Server

open Python JsonText Commands Protocol

def className : ErrorKind → String
  | .valueError => "ValueError"
  | .typeError => "TypeError"
  | .attributeError => "AttributeError"
  | .overflowError => "OverflowError"
  | .unicodeEncodeError => "UnicodeEncodeError"
  | .unicodeDecodeError => "UnicodeDecodeError"
  | .jsonDecodeError => "JSONDecodeError"
  | .osError => "OSError"
  | .recursionError => "RecursionError"
  | .runtimeError => "RuntimeError"
  | .commandError => "CommandError"
  | .unknownCommandError => "UnknownCommandError"
  | .wrongNumberOfArgumentsError => "WrongNumberOfArgumentsError"
  | .protocolError => "ProtocolError"
  | .integrityError => "IntegrityError"
  | .notFoundError => "NotFoundError"
  | .conflictError => "ConflictError"
  | .upstreamError => "UpstreamError"

def formatErrorMessage (e : Error) : String :=
  let stripped := String.ofList (Decimal.strip textAlphabet e.message.toList)
  let message := if stripped = "" then className e.kind else stripped
  message.map (fun c => if c = '\r' ∨ c = '\n' then ' ' else c)

def encodeResultValue : CommandResult → Except Error String
  | .list items => encodeArray items
  | .scalar (.int n) => encodeInteger n
  | .scalar .null => encodeBulkString none
  | .scalar (.str s) => encodeBulkString (some s)

def encodeCommandResult (command : List String) (result : CommandResult) : Except Error String :=
  match command with
  | [] => .error ⟨.valueError, "empty command"⟩
  | name :: _ =>
    if name = "" then .error ⟨.valueError, "empty command"⟩
    else if upper name = "SET" then match result with
      | .scalar (.str s) => match s.toString? with
        | some message => encodeSimpleString message
        | none => .error ⟨.unicodeEncodeError, "surrogates not allowed"⟩
      | _ => .error ⟨.typeError, "SET must return a string result"⟩
    else encodeResultValue result

/-- `encode_error(_format_error_message(exc))`. -/
def errorReply (e : Error) : String := "-ERR " ++ formatErrorMessage e ++ "\r\n"

/-- What is sent for a command, from what the executor has made of it. -/
def respond (command : List String) (result : Except Error CommandResult) : String :=
  match result.bind (encodeCommandResult command) with
  | .ok response => response
  | .error e => errorReply e

theorem formatErrorMessage_line (e : Error) : '\r' ∉ (formatErrorMessage e).toList ∧ '\n' ∉ (formatErrorMessage e).toList := by
  have hmap (s : String) (c : Char) (hc : c = '\r' ∨ c = '\n') :
      c ∉ (s.map (fun c => if c = '\r' ∨ c = '\n' then ' ' else c)).toList := by
    rw [String.toList_map]
    intro h
    obtain ⟨d, _, hd⟩ := List.mem_map.mp h
    split at hd
    next =>
      subst hd
      revert hc
      decide
    next hn => exact hn (hd ▸ hc)
  exact ⟨hmap _ _ (.inl rfl), hmap _ _ (.inr rfl)⟩

/-- A formatted message passes the check of the encoder. -/
theorem encodeError_formatErrorMessage (e : Error) : encodeError (formatErrorMessage e) = .ok (errorReply e) := by
  obtain ⟨hcr, hlf⟩ := formatErrorMessage_line e
  rw [encodeError, validateSingleLine, if_neg (not_or.mpr ⟨hcr, hlf⟩)]
  rfl

end Ticketing.Server
