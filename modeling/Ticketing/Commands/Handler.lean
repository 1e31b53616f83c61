import Ticketing.Storage.Engine

namespace Ticketing.Commands

open Python JsonText Storage

inductive CommandName
  | set | get | del | expire | ttl
  | reserveSeat | confirmSeat | forceConfirmSeat | releaseSeat | seatStatus
  | joinQueue | queuePosition | popQueue | leaveQueue | peekQueue
  deriving DecidableEq, Repr

def supportedCommand : String → Option CommandName
  | "SET" => some .set
  | "GET" => some .get
  | "DEL" => some .del
  | "EXPIRE" => some .expire
  | "TTL" => some .ttl
  | "RESERVE_SEAT" => some .reserveSeat
  | "CONFIRM_SEAT" => some .confirmSeat
  | "FORCE_CONFIRM_SEAT" => some .forceConfirmSeat
  | "RELEASE_SEAT" => some .releaseSeat
  | "SEAT_STATUS" => some .seatStatus
  | "JOIN_QUEUE" => some .joinQueue
  | "QUEUE_POSITION" => some .queuePosition
  | "POP_QUEUE" => some .popQueue
  | "LEAVE_QUEUE" => some .leaveQueue
  | "PEEK_QUEUE" => some .peekQueue
  | _ => none

/-- The least and the greatest number of tokens, the name included. -/
def commandArity : CommandName → Nat × Nat
  | .set => (3, 3)
  | .get | .del | .ttl | .popQueue | .peekQueue => (2, 2)
  | .expire => (3, 4)
  | .reserveSeat => (5, 5)
  | .confirmSeat | .forceConfirmSeat | .releaseSeat => (4, 4)
  | .seatStatus | .joinQueue | .queuePosition | .leaveQueue => (3, 3)

def validateCommand : List String → Except Error (CommandName × List String)
  | [] => .error ⟨.commandError, "empty command"⟩
  | token :: args =>
    if token = "" then .error ⟨.commandError, "empty command"⟩
    else
      let name := upper token
      match supportedCommand name with
      | none => .error ⟨.unknownCommandError, "unknown command '" ++ name ++ "'"⟩
      | some c =>
        if (commandArity c).1 ≤ args.length + 1 ∧ args.length + 1 ≤ (commandArity c).2 then .ok (c, args)
        else .error ⟨.wrongNumberOfArgumentsError, "wrong number of arguments for '" ++ name ++ "' command"⟩

/-- A command whose arguments have been parsed. -/
inductive Request
  | set (key value : String)
  | get (key : String)
  | del (key : String)
  | expire (key : String) (seconds : Int) (option : Option String)
  | ttl (key : String)
  | reserveSeat (eventId seatId userId : String) (holdSeconds : Int)
  | confirmSeat (eventId seatId userId : String)
  | forceConfirmSeat (eventId seatId userId : String)
  | releaseSeat (eventId seatId userId : String)
  | seatStatus (eventId seatId : String)
  | joinQueue (eventId userId : String)
  | queuePosition (eventId userId : String)
  | popQueue (eventId : String)
  | leaveQueue (eventId userId : String)
  | peekQueue (eventId : String)
  deriving DecidableEq

def parseExpireArguments (key rawSeconds : String) (rest : List String) : Except Error Request :=
  match parseInt rawSeconds with
  | none => .error ⟨.commandError, "EXPIRE seconds must be an integer"⟩
  | some seconds => match rest with
    | [] => .ok (.expire key seconds none)
    | option :: _ =>
      if (validExpireOption (upper option)).isSome then .ok (.expire key seconds (some (upper option)))
      else .error ⟨.commandError, "unsupported EXPIRE option '" ++ option ++ "'"⟩

def parseReserveArguments (eventId seatId userId rawHoldSeconds : String) : Except Error Request :=
  match parseInt rawHoldSeconds with
  | none => .error ⟨.commandError, "RESERVE_SEAT ttl_seconds must be an integer"⟩
  | some holdSeconds =>
    if holdSeconds ≤ 0 then
      .error ⟨.commandError, "RESERVE_SEAT ttl_seconds must be a positive integer"⟩
    else .ok (.reserveSeat eventId seatId userId holdSeconds)

/-- Name and arguments of a command, checked in the order of the source. -/
def parseCommand (command : List String) : Except Error Request :=
  match validateCommand command with
  | .error e => .error e
  | .ok (.set, [key, value]) => .ok (.set key value)
  | .ok (.get, [key]) => .ok (.get key)
  | .ok (.del, [key]) => .ok (.del key)
  | .ok (.expire, key :: rawSeconds :: rest) => parseExpireArguments key rawSeconds rest
  | .ok (.ttl, [key]) => .ok (.ttl key)
  | .ok (.reserveSeat, [eventId, seatId, userId, rawHoldSeconds]) =>
    parseReserveArguments eventId seatId userId rawHoldSeconds
  | .ok (.confirmSeat, [eventId, seatId, userId]) => .ok (.confirmSeat eventId seatId userId)
  | .ok (.forceConfirmSeat, [eventId, seatId, userId]) => .ok (.forceConfirmSeat eventId seatId userId)
  | .ok (.releaseSeat, [eventId, seatId, userId]) => .ok (.releaseSeat eventId seatId userId)
  | .ok (.seatStatus, [eventId, seatId]) => .ok (.seatStatus eventId seatId)
  | .ok (.joinQueue, [eventId, userId]) => .ok (.joinQueue eventId userId)
  | .ok (.queuePosition, [eventId, userId]) => .ok (.queuePosition eventId userId)
  | .ok (.popQueue, [eventId]) => .ok (.popQueue eventId)
  | .ok (.leaveQueue, [eventId, userId]) => .ok (.leaveQueue eventId userId)
  | .ok (.peekQueue, [eventId]) => .ok (.peekQueue eventId)
  | .ok _ => .error ⟨.valueError, "not enough values to unpack"⟩

inductive RespScalar
  | str (s : Str)
  | int (n : Int)
  | null
  deriving DecidableEq

inductive CommandResult
  | scalar (x : RespScalar)
  | list (xs : List RespScalar)
  deriving DecidableEq

def flag (b : Bool) : RespScalar := .int (if b then 1 else 0)

def optional : Option Str → RespScalar
  | none => .null
  | some s => .str s

def seatOperationResult (r : Bool × SeatStatus) : CommandResult :=
  .list [flag r.1, .str r.2.state, optional r.2.userId, .int r.2.ttl]

def seatStatusResult (status : SeatStatus) : CommandResult :=
  .list [.str status.state, optional status.userId, .int status.ttl]

def queueJoinResult (r : Bool × Int × Int) : CommandResult := .list [flag r.1, .int r.2.1, .int r.2.2]

def queuePositionResult (r : Int × Int) : CommandResult := .list [.int r.1, .int r.2]

def queuePopResult (r : Option Str × Int) : CommandResult := .list [optional r.1, .int r.2]

def onResult {α : Type} (f : α → CommandResult) (r : Except Error α × Store) :
    Except Error CommandResult × Store :=
  (r.1.map f, r.2)

/-- The branches of the dispatch, on parsed arguments. -/
def perform (request : Request) (now : ℚ) (store : Store) : Except Error CommandResult × Store :=
  match request with
  | .set key value => (.ok (.scalar (.str (Str.ofString "OK"))), set store key value)
  | .get key => (.ok (.scalar (optional ((get store key now).1.map Str.ofString))), (get store key now).2)
  | .del key => (.ok (.scalar (flag (delete store key now).1)), (delete store key now).2)
  | .expire key seconds option => onResult (fun b => .scalar (flag b)) (expire store key seconds option now)
  | .ttl key => (.ok (.scalar (.int (ttl store key now).1)), (ttl store key now).2)
  | .reserveSeat eventId seatId userId holdSeconds =>
    onResult seatOperationResult (reserveSeat store eventId seatId userId holdSeconds now)
  | .confirmSeat eventId seatId userId =>
    onResult seatOperationResult (confirmSeat store eventId seatId userId now)
  | .forceConfirmSeat eventId seatId userId =>
    (.ok (seatOperationResult (forceConfirmSeat store eventId seatId userId).1),
      (forceConfirmSeat store eventId seatId userId).2)
  | .releaseSeat eventId seatId userId =>
    onResult seatOperationResult (releaseSeat store eventId seatId userId now)
  | .seatStatus eventId seatId => onResult seatStatusResult (seatStatus store eventId seatId now)
  | .joinQueue eventId userId => onResult queueJoinResult (joinQueue store eventId userId)
  | .queuePosition eventId userId => ((queuePosition store eventId userId).map queuePositionResult, store)
  | .popQueue eventId => onResult queuePopResult (popQueue store eventId)
  | .leaveQueue eventId userId => onResult queueJoinResult (leaveQueue store eventId userId)
  | .peekQueue eventId => ((peekQueue store eventId).map queuePopResult, store)

def handleCommand (command : List String) (now : ℚ) (store : Store) :
    Except Error CommandResult × Store :=
  match parseCommand command with
  | .error e => (.error e, store)
  | .ok request => perform request now store

theorem validateCommand_ok {command args : List String} {c : CommandName} (h : validateCommand command = .ok (c, args)) :
    ∃ token, command = token :: args ∧ token ≠ "" ∧ supportedCommand (upper token) = some c := by
  cases command with
  | nil => cases h
  | cons token rest =>
      rw [validateCommand] at h
      split at h
      next => cases h
      next hne =>
        dsimp only at h
        split at h
        next => cases h
        next c' hc =>
          split at h
          next => cases h; exact ⟨token, rfl, hne, hc⟩
          next => cases h

/-- SET has one result. -/
theorem handleCommand_set {token : String} {args : List String} {now : ℚ} {store : Store} {result : CommandResult}
    (hset : upper token = "SET") (h : (handleCommand (token :: args) now store).1 = .ok result) :
    result = .scalar (.str (Str.ofString "OK")) := by
  rw [handleCommand, parseCommand] at h
  cases hv : validateCommand (token :: args) with
  | error e => rw [hv] at h; cases h
  | ok p =>
      obtain ⟨c, rest⟩ := p
      obtain ⟨_, htoken, _, hc⟩ := validateCommand_ok hv
      cases htoken
      rw [hset] at hc
      cases hc
      rw [hv] at h
      rcases args with _ | ⟨key, _ | ⟨value, _ | ⟨more, rest⟩⟩⟩ <;> cases h
      rfl

theorem handleCommand_named {command : List String} {now : ℚ} {store : Store} {result : CommandResult}
    (h : (handleCommand command now store).1 = .ok result) : ∃ token args, command = token :: args ∧ token ≠ "" := by
  rw [handleCommand, parseCommand] at h
  cases hv : validateCommand command with
  | error e => rw [hv] at h; cases h
  | ok p =>
      obtain ⟨token, htoken, hne, _⟩ := validateCommand_ok hv
      exact ⟨token, p.2, htoken, hne⟩

end Ticketing.Commands
