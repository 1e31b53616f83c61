import Ticketing.TicketingApi.Outcomes
import Ticketing.Lib.Expanded

namespace Ticketing.TicketingApi

open Python Interaction

variable {T α : Type}

/-- What one connection to the database is for: all of a repository method, or the part of it that commits. -/
inductive Connection (T : Type)
  | whole (op : RepoOp T)
  | write (op : RepoOp T)

abbrev Connection.Res : Connection T → Type
  | .whole op => op.Res
  | .write _ => Unit

def Connection.op : Connection T → RepoOp T
  | .whole op => op
  | .write op => op

namespace Repository

/-- A method that commits over one connection and reads its answer over another. -/
def writeThenRead (op read : RepoOp T) : Program (Connection T) Connection.Res Error read.Res := do
  let _ ← Program.invoke (Connection.write op)
  Program.invoke (Connection.whole read)

/-- The connections that a method opens, in their order. -/
def connections : (op : RepoOp T) → Program (Connection T) Connection.Res Error op.Res
  | .createUser userId displayName email createdAt =>
    writeThenRead (.createUser userId displayName email createdAt) (.getUser userId)
  | .createHeldReservation reservationId eventId seatId userId holdToken expiresAt now =>
    writeThenRead (.createHeldReservation reservationId eventId seatId userId holdToken expiresAt now)
      (.getReservation reservationId)
  | .confirmReservation reservationId payment now =>
    writeThenRead (.confirmReservation reservationId payment now) (.getReservation reservationId)
  | .cancelReservation reservationId now payment =>
    writeThenRead (.cancelReservation reservationId now payment) (.getReservation reservationId)
  | .expireReservation reservationId now =>
    writeThenRead (.expireReservation reservationId now) (.getReservation reservationId)
  | op => Program.invoke (Connection.whole op)

variable [LinearOrder T]

def connect (clock : T) (db : Database T) : (c : Connection T) → Except Error c.Res × Database T
  | .whole op => exec clock db op
  | .write op => ((exec clock db op).1.map fun _ => (), (exec clock db op).2)

/-- A connection that may also fail before anything is committed over it. -/
def attemptConnect (e : T × Option Error) (db : Database T) (c : Connection T) : Except Error c.Res × Database T :=
  match e.2 with
  | none => connect e.1 db c
  | some error => (.error error, db)

theorem connect_op (clock : T) (db : Database T) (c : Connection T) :
    (connect clock db c).2 = (exec clock db c.op).2 := by
  cases c <;> rfl

/-! ### A method alone -/

theorem atomically_invoke_connect (clock : T) (c : Connection T) (db : Database T) :
    Program.atomically connect clock (Program.invoke c) db = connect clock db c := by
  change Program.atomically connect clock (Program.ofExcept (connect clock db c).1) (connect clock db c).2 = _
  rcases connect clock db c with ⟨e | a, db'⟩ <;> rfl

theorem atomically_writeThenRead {clock : T} {op read : RepoOp T} {db : Database T}
    {result : Except Error read.Res × Database T}
    (herr : ∀ e db', exec clock db op = (.error e, db') → result = (.error e, db'))
    (hok : ∀ a db', exec clock db op = (.ok a, db') → result = exec clock db' read) :
    Program.atomically connect clock (writeThenRead op read) db = result := by
  rw [writeThenRead, Program.atomically_bind, atomically_invoke_connect]
  simp only [connect]
  rcases hx : exec clock db op with ⟨e | a, db'⟩
  · exact (herr e db' hx).symm
  · exact (atomically_invoke_connect clock (Connection.whole read) db').trans (hok a db' hx).symm

omit [LinearOrder T] in
theorem commit_ok {db db' : Database T} (f : Tables T → Tables T) (read : Tables T → α) {a : α}
    (h : commit db f read = (.ok a, db')) : db'.tables = f db.tables ∧ a = read db'.tables := by
  obtain ⟨hx, rfl⟩ := Prod.mk.inj h
  rcases transaction_cases db f with ⟨hok, htables⟩ | ⟨herr, -⟩
  · rw [hok] at hx
    exact ⟨htables, (Except.ok.inj hx).symm⟩
  · rw [herr] at hx
    cases hx

omit [LinearOrder T] in
theorem bindAmount_ok {amount : Int} {db db' : Database T} {result : Except Error α × Database T} {a : α}
    (h : bindAmount amount db result = (.ok a, db')) : result = (.ok a, db') := by
  unfold bindAmount at h
  split at h
  · exact h
  · cases congrArg Prod.fst h

/-- With nothing in between, the connections of a method are the method. -/
theorem atomically_connections (clock : T) (op : RepoOp T) (db : Database T) :
    Program.atomically connect clock (connections op) db = exec clock db op := by
  cases op with
  | createUser userId =>
      refine atomically_writeThenRead (fun _ _ h => h) fun a db' h => h.trans ?_
      rw [(commit_ok _ (fun t => getUser t userId) h).2]
      rfl
  | createHeldReservation id =>
      refine atomically_writeThenRead (fun _ _ h => h) fun a db' h => h.trans ?_
      rw [(commit_ok _ (fun t => getReservation t id) h).2]
      rfl
  | confirmReservation id =>
      refine atomically_writeThenRead (fun _ _ h => h) fun a db' h => h.trans ?_
      rw [(commit_ok _ (fun t => getReservation t id) (bindAmount_ok h)).2]
      rfl
  | cancelReservation id =>
      refine atomically_writeThenRead (fun _ _ h => h) fun a db' h => h.trans ?_
      rw [(commit_ok _ (fun t => getReservation t id) (bindAmount_ok h)).2]
      rfl
  | expireReservation id =>
      refine atomically_writeThenRead (fun _ _ h => h) fun a db' h => h.trans ?_
      rw [(commit_ok _ (fun t => getReservation t id) h).2]
      rfl
  | _ => exact atomically_invoke_connect clock _ db

/-- A method on its own answers the same and leaves the same rows, however many connections it takes. -/
theorem atomically_expand_connections (clock : T) (p : Service.Method T α) (db : Database T) :
    Program.atomically connect clock (p.expand connections) db = Program.atomically exec clock p db :=
  Program.atomically_expand (fun clock op db => atomically_connections clock op db) clock p db

end Repository

end Ticketing.TicketingApi
