import Ticketing.Storage.Ttl
import Mathlib.Data.List.AList

namespace Ticketing.Storage

open Python JsonText

structure Entry where
  value : String
  expiresAt : Option ℚ
  deriving DecidableEq

abbrev Store := AList (fun _ : String => Entry)

structure SeatStatus where
  state : Str
  userId : Option Str
  ttl : Int
  deriving DecidableEq

def seatAvailable : Str := Str.ofString "AVAILABLE"

def seatHeld : Str := Str.ofString "HELD"

def seatConfirmed : Str := Str.ofString "CONFIRMED"

/-! ### Expiry -/

def deleteKey (store : Store) (key : String) : Store := store.erase key

def purgeIfExpired (store : Store) (key : String) (now : ℚ) : Bool × Store :=
  match store.lookup key with
  | none => (false, store)
  | some entry => match entry.expiresAt with
    | none => (false, store)
    | some deadline => if IsExpired deadline now then (true, deleteKey store key) else (false, store)

/-! ### Plain keys -/

def set (store : Store) (key value : String) : Store := store.insert key ⟨value, none⟩

def get (store : Store) (key : String) (now : ℚ) : Option String × Store :=
  let store := (purgeIfExpired store key now).2
  ((store.lookup key).map Entry.value, store)

def delete (store : Store) (key : String) (now : ℚ) : Bool × Store :=
  let store := (purgeIfExpired store key now).2
  if (store.lookup key).isNone then (false, store) else (true, deleteKey store key)

def expire (store : Store) (key : String) (seconds : Int) (option : Option String) (now : ℚ) :
    Except Error Bool × Store :=
  match normalizeExpireOption option with
  | .error e => (.error e, store)
  | .ok option =>
    match purgeIfExpired store key now with
    | (true, store) => (.ok false, store)
    | (false, store) => match store.lookup key with
      | none => (.ok false, store)
      | some entry => match computeDeadline now seconds with
        | .error e => (.error e, store)
        | .ok deadline =>
          if ¬ ShouldApplyExpiry option entry.expiresAt deadline then (.ok false, store)
          else if seconds ≤ 0 then (.ok true, deleteKey store key)
          else (.ok true, store.insert key ⟨entry.value, some deadline⟩)

def ttl (store : Store) (key : String) (now : ℚ) : Int × Store :=
  match purgeIfExpired store key now with
  | (true, store) => (-2, store)
  | (false, store) => match store.lookup key with
    | none => (-2, store)
    | some entry => match entry.expiresAt with
      | none => (-1, store)
      | some deadline => (max 0 ⌈deadline - now⌉, store)

/-! ### Seats -/

def seatKey (eventId seatId : String) : String := "seat:" ++ eventId ++ ":" ++ seatId

def serializeSeatRecord (state : Str) (userId : Option Str) : String :=
  dumps (.object [(Str.ofString "state", .str state),
    (Str.ofString "user_id", match userId with | none => .null | some u => .str u)])

def typeName : Value → String
  | .null => "NoneType"
  | .bool _ => "bool"
  | .number literal => if literal.all (fun c => c = '-' || ('0' ≤ c && c ≤ '9')) then "int" else "float"
  | .str _ => "str"
  | .array _ => "list"
  | .object _ => "dict"

def loadJson (raw : String) : Except Error Value :=
  match loads raw with
  | some v => .ok v
  | none => .error ⟨.jsonDecodeError, "invalid JSON document"⟩

def deserializeSeatRecord (raw : String) : Except Error (Str × Option Str) :=
  match loadJson raw with
  | .error e => .error e
  | .ok (.object members) =>
    match member? (Str.ofString "state") members, member? (Str.ofString "user_id") members with
    | some (.str state), none => .ok (state, none)
    | some (.str state), some .null => .ok (state, none)
    | some (.str state), some (.str userId) => .ok (state, some userId)
    | some (.str _), some _ => .error ⟨.valueError, "seat record user_id must be a string or null"⟩
    | _, _ => .error ⟨.valueError, "seat record state must be a string"⟩
  | .ok v => .error ⟨.attributeError, "'" ++ typeName v ++ "' object has no attribute 'get'"⟩

def seatStatusByKey (store : Store) (key : String) (now : ℚ) : Except Error SeatStatus × Store :=
  match purgeIfExpired store key now with
  | (true, store) => (.ok ⟨seatAvailable, none, -1⟩, store)
  | (false, store) => match store.lookup key with
    | none => (.ok ⟨seatAvailable, none, -1⟩, store)
    | some entry => match deserializeSeatRecord entry.value with
      | .error e => (.error e, store)
      | .ok (state, userId) =>
        (.ok ⟨state, userId, match entry.expiresAt with
          | none => -1
          | some deadline => max 0 ⌈deadline - now⌉⟩, store)

def reserveSeat (store : Store) (eventId seatId userId : String) (holdSeconds : Int) (now : ℚ) :
    Except Error (Bool × SeatStatus) × Store :=
  if holdSeconds ≤ 0 then
    (.error ⟨.valueError, "RESERVE_SEAT ttl_seconds must be a positive integer"⟩, store)
  else
    let user := Str.ofString userId
    match seatStatusByKey store (seatKey eventId seatId) now with
    | (.error e, store) => (.error e, store)
    | (.ok status, store) =>
      if status.state = seatAvailable ∨ (status.state = seatHeld ∧ status.userId = some user) then
        match computeDeadline now holdSeconds with
        | .error e => (.error e, store)
        | .ok deadline =>
          (.ok (true, ⟨seatHeld, some user, holdSeconds⟩),
            store.insert (seatKey eventId seatId) ⟨serializeSeatRecord seatHeld (some user), some deadline⟩)
      else (.ok (false, status), store)

def confirmSeat (store : Store) (eventId seatId userId : String) (now : ℚ) :
    Except Error (Bool × SeatStatus) × Store :=
  let user := Str.ofString userId
  match seatStatusByKey store (seatKey eventId seatId) now with
  | (.error e, store) => (.error e, store)
  | (.ok status, store) =>
    if status.state = seatConfirmed ∧ status.userId = some user then (.ok (true, status), store)
    else if status.state ≠ seatHeld ∨ status.userId ≠ some user then (.ok (false, status), store)
    else
      (.ok (true, ⟨seatConfirmed, some user, -1⟩),
        store.insert (seatKey eventId seatId) ⟨serializeSeatRecord seatConfirmed (some user), none⟩)

def forceConfirmSeat (store : Store) (eventId seatId userId : String) : (Bool × SeatStatus) × Store :=
  let user := Str.ofString userId
  ((true, ⟨seatConfirmed, some user, -1⟩),
    store.insert (seatKey eventId seatId) ⟨serializeSeatRecord seatConfirmed (some user), none⟩)

def releaseSeat (store : Store) (eventId seatId userId : String) (now : ℚ) :
    Except Error (Bool × SeatStatus) × Store :=
  match seatStatusByKey store (seatKey eventId seatId) now with
  | (.error e, store) => (.error e, store)
  | (.ok status, store) =>
    if status.state ≠ seatHeld ∨ status.userId ≠ some (Str.ofString userId) then (.ok (false, status), store)
    else (.ok (true, ⟨seatAvailable, none, -1⟩), deleteKey store (seatKey eventId seatId))

def seatStatus (store : Store) (eventId seatId : String) (now : ℚ) : Except Error SeatStatus × Store :=
  seatStatusByKey store (seatKey eventId seatId) now

/-! ### Queues -/

def queueKey (eventId : String) : String := "queue:" ++ eventId

def serializeQueue (queue : List Str) : String := dumps (.array (queue.map .str))

def queueItem : Value → Option Str
  | .str s => some s
  | _ => none

def deserializeQueue (raw : String) : Except Error (List Str) :=
  match loadJson raw with
  | .error e => .error e
  | .ok (.array items) => match items.mapM queueItem with
    | some queue => .ok queue
    | none => .error ⟨.valueError, "queue entries must be strings"⟩
  | .ok _ => .error ⟨.valueError, "queue record must be a list"⟩

/-- The queue commands read the entry of their key whatever its deadline. -/
def loadQueue (store : Store) (key : String) : Except Error (List Str) :=
  match store.lookup key with
  | none => .ok []
  | some entry => deserializeQueue entry.value

def storeQueue (store : Store) (key : String) (queue : List Str) : Store :=
  if queue = [] then deleteKey store key else store.insert key ⟨serializeQueue queue, none⟩

def joinQueue (store : Store) (eventId userId : String) : Except Error (Bool × Int × Int) × Store :=
  let user := Str.ofString userId
  match loadQueue store (queueKey eventId) with
  | .error e => (.error e, store)
  | .ok queue =>
    if user ∈ queue then (.ok (false, queue.idxOf user + 1, queue.length), store)
    else
      let queue := queue ++ [user]
      (.ok (true, queue.length, queue.length), storeQueue store (queueKey eventId) queue)

def queuePosition (store : Store) (eventId userId : String) : Except Error (Int × Int) :=
  let user := Str.ofString userId
  match loadQueue store (queueKey eventId) with
  | .error e => .error e
  | .ok queue =>
    if user ∉ queue then .ok (-1, queue.length) else .ok (queue.idxOf user + 1, queue.length)

def popQueue (store : Store) (eventId : String) : Except Error (Option Str × Int) × Store :=
  match loadQueue store (queueKey eventId) with
  | .error e => (.error e, store)
  | .ok [] => (.ok (none, 0), store)
  | .ok (user :: queue) => (.ok (some user, queue.length), storeQueue store (queueKey eventId) queue)

def leaveQueue (store : Store) (eventId userId : String) : Except Error (Bool × Int × Int) × Store :=
  let user := Str.ofString userId
  match loadQueue store (queueKey eventId) with
  | .error e => (.error e, store)
  | .ok queue =>
    if user ∉ queue then (.ok (false, -1, queue.length), store)
    else
      let rest := queue.erase user
      (.ok (true, queue.idxOf user + 1, rest.length), storeQueue store (queueKey eventId) rest)

def peekQueue (store : Store) (eventId : String) : Except Error (Option Str × Int) :=
  match loadQueue store (queueKey eventId) with
  | .error e => .error e
  | .ok [] => .ok (none, 0)
  | .ok (user :: queue) => .ok (some user, queue.length + 1)

end Ticketing.Storage
