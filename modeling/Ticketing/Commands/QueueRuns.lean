import Ticketing.Commands.Reference
import Ticketing.Lib.Line

namespace Ticketing.Commands

open Python JsonText Storage
open Trace (answers)

/-! ### Queues as lines -/

/-- What a request asks of the line of an event. -/
def Request.queueMove : Request → Option (String × Line.Move String)
  | .joinQueue eventId userId => some (eventId, .join userId)
  | .queuePosition eventId userId => some (eventId, .position userId)
  | .popQueue eventId => some (eventId, .pop)
  | .leaveQueue eventId userId => some (eventId, .leave userId)
  | .peekQueue eventId => some (eventId, .peek)
  | _ => none

def queueMove (eventId : String) (command : List String) : Option (Line.Move String) :=
  match parseCommand command with
  | .ok r => (r.queueMove.filter (fun x => x.1 = eventId)).map Prod.snd
  | .error _ => none

def moves (eventId : String) (run : Run) : List (Line.Move String) := run.filterMap (fun x => queueMove eventId x.2)

/-- The replies of a run to the commands on the queue of an event. -/
def queueReplies (eventId : String) : Store → Run → List (Except Error CommandResult)
  | _, [] => []
  | store, x :: run =>
    if (queueMove eventId x.2).isSome then (handleCommand x.2 x.1 store).1 :: queueReplies eventId (step store x) run
    else queueReplies eventId (step store x) run

def rankScalar (rank : Option Nat) : RespScalar := .int (rank.elim (-1) Nat.cast)

def lineResult : Line.Answer String → CommandResult
  | .joined entered rank length => .list [flag entered, .int rank, .int length]
  | .position rank length => .list [rankScalar rank, .int length]
  | .first u length => .list [optional (u.map Str.ofString), .int length]
  | .left rank length => .list [flag rank.isSome, rankScalar rank, .int length]

/-- `SET`, `DEL` and `EXPIRE` leave the keys of queues alone. -/
def SparesQueues (command : List String) : Prop :=
  ∀ x ∈ target command, x.name ∈ [.set, .del, .expire] → ¬ "queue:".toList <+: x.key.toList

instance (command : List String) : Decidable (SparesQueues command) :=
  inferInstanceAs (Decidable (∀ x ∈ target command, _))

/-- The key of the queue holds the members of the line. -/
def Holds (store : Store) (eventId : String) (l : Line String) : Prop :=
  store.lookup (queueKey eventId) = queueEntry (l.members.map Str.ofString)

theorem queueKey_injective : Function.Injective queueKey := by
  intro e e' h
  have h : "queue:".toList ++ e.toList = "queue:".toList ++ e'.toList := by
    simpa only [queueKey, String.toList_append] using congrArg String.toList h
  exact String.toList_inj.mp (List.append_cancel_left h)

theorem queueKey_opens (e : String) : "queue:".toList <+: (queueKey e).toList := by
  rw [queueKey, String.toList_append]
  exact List.prefix_append _ _

/-! ### One command -/

section Act

variable {l : Line String} {now : ℚ}

theorem readQueue_members (l : Line String) :
    readQueue (queueEntry (l.members.map Str.ofString)) = .ok (l.members.map Str.ofString) := by
  apply readQueue_queueEntry
  rintro s hs
  obtain ⟨u, _, rfl⟩ := List.mem_map.mp hs
  exact ofString_joined u

theorem mem_members {u : String} : Str.ofString u ∈ l.members.map Str.ofString ↔ u ∈ l.members :=
  List.mem_map_of_injective ofString_injective

theorem idxOf_members (u : String) : (l.members.map Str.ofString).idxOf (Str.ofString u) = l.members.idxOf u := by
  induction l.members with
  | nil => rfl
  | cons v vs ih =>
      by_cases hv : v = u
      · rw [hv, List.map_cons, List.idxOf_cons_self, List.idxOf_cons_self]
      · have hne : Str.ofString v ≠ Str.ofString u := fun h => hv (ofString_injective h)
        rw [List.map_cons, List.idxOf_cons_ne _ hne, List.idxOf_cons_ne _ hv, ih]

/-- On the entry of a line, a command does what its move does to the line. -/
theorem act_line {r : Request} {e : String} {m : Line.Move String} (hr : r.queueMove = some (e, m)) :
    r.act now (queueEntry (l.members.map Str.ofString)) =
      (.ok (lineResult (l.act m).1), queueEntry ((l.act m).2.members.map Str.ofString)) := by
  have hread := readQueue_members l
  cases r <;> cases hr
  case joinQueue u =>
    simp only [Request.act, answering, joinEntry, hread, mem_members, idxOf_members, Line.act]
    by_cases hu : u ∈ l.members
    · rw [if_pos hu, dif_pos hu]
      simp [Except.map, queueJoinResult, lineResult]
    · rw [if_neg hu, dif_neg hu]
      simp [Except.map, queueJoinResult, lineResult, Line.enter]
  case queuePosition u =>
    simp only [Request.act, answering, positionEntry, hread, Except.map, mem_members, idxOf_members, Line.act, Line.rank]
    by_cases hu : u ∈ l.members <;> simp [hu, queuePositionResult, lineResult, rankScalar]
  case popQueue =>
    simp only [Request.act, answering, popEntry, hread, Line.act]
    cases hl : l.members with
    | nil => simp [Except.map, queuePopResult, lineResult, Commands.optional, hl]
    | cons u us => simp [Except.map, queuePopResult, lineResult, Commands.optional, Line.remove, hl]
  case leaveQueue u =>
    simp only [Request.act, answering, leaveEntry, hread, mem_members, idxOf_members, Line.act, Line.rank]
    by_cases hu : u ∈ l.members
    · simp [hu, Except.map, queueJoinResult, lineResult, rankScalar, Line.remove,
        ← List.map_erase ofString_injective, List.length_erase_of_mem]
    · simp [hu, Except.map, queueJoinResult, lineResult, rankScalar]
  case peekQueue =>
    simp only [Request.act, answering, peekEntry, hread, Line.act]
    cases hl : l.members <;> simp [Except.map, queuePopResult, lineResult, Commands.optional]

end Act

/-! ### Runs of commands -/

theorem queueMove_target {r : Request} {e : String} {m : Line.Move String} (hr : r.queueMove = some (e, m)) :
    r.OnQueue ∧ r.target.key = queueKey e := by
  cases r <;> cases hr <;> exact ⟨by simp [Request.OnQueue, Request.target], rfl⟩

theorem queueMove_eq {command : List String} {e : String} {m : Line.Move String} :
    queueMove e command = some m ↔ ∃ r, parseCommand command = .ok r ∧ r.queueMove = some (e, m) := by
  rw [queueMove]
  cases parseCommand command with
  | error x => simp
  | ok r => cases hr : r.queueMove with
    | none => simp [hr]
    | some x =>
        obtain ⟨e', m'⟩ := x
        simp [hr, Option.filter]

/-- A command on a queue is answered by its line. -/
theorem Holds.move {store : Store} {e : String} {l : Line String} (h : Holds store e l) (now : ℚ)
    {command : List String} {m : Line.Move String} (hm : queueMove e command = some m) :
    (handleCommand command now store).1 = .ok (lineResult (l.act m).1) ∧
      Holds (step store (now, command)) e (l.act m).2 := by
  obtain ⟨r, hp, hr⟩ := queueMove_eq.mp hm
  obtain ⟨hq, hk⟩ := queueMove_target hr
  obtain ⟨hreply, hentry⟩ := perform_seen (parseCommand_checked hp) now store
  have hseen : r.seen store now = queueEntry (l.members.map Str.ofString) := by
    rw [Request.seen, if_pos hq, hk]
    exact h
  rw [hseen, act_line hr] at hreply hentry
  rw [hk] at hentry
  simp only [step, handleCommand, hp]
  exact ⟨hreply, hentry⟩

/-- Every other command leaves the queue as it is. -/
theorem Holds.other {store : Store} {e : String} {l : Line String} (h : Holds store e l) {now : ℚ}
    {command : List String} (hm : queueMove e command = none) (hs : SparesQueues command) :
    Holds (step store (now, command)) e l := by
  cases hp : parseCommand command with
  | error x => simpa only [step, handleCommand, hp] using h
  | ok r =>
      have ht := parseCommand_target hp
      by_cases hk : r.target.key = queueKey e
      · have hs := hs _ ht
        rw [hk] at hs
        have hpurge : Holds (purge store (queueKey e) now) e l := by
          rw [Holds, lookup_purge, live, h, queueEntry]
          split
          · rfl
          · simp [Option.filter, Entry.Live]
        have hnone (m : Line.Move String) : r.queueMove ≠ some (e, m) := fun hr => by
          rw [queueMove_eq.mpr ⟨r, hp, hr⟩] at hm
          cases hm
        simp only [step, handleCommand, hp]
        cases r
        case set | del | expire => exact absurd (queueKey_opens e) (hs (by simp [Request.target]))
        case get key =>
          obtain rfl := hk
          rw [perform, get_eq]
          exact hpurge
        case ttl key =>
          obtain rfl := hk
          rw [perform, ttl_snd]
          exact hpurge
        case reserveSeat | confirmSeat | forceConfirmSeat | releaseSeat | seatStatus =>
          exact absurd hk.symm (queueKey_ne_seatKey _ _ _)
        case joinQueue | queuePosition | popQueue | leaveQueue | peekQueue =>
          cases queueKey_injective hk
          exact absurd rfl (hnone _)
      · exact (step_lookup_ne ht (Ne.symm hk)).trans h

/-- Along a run, the replies on a queue are those of its line, and the queue ends as the line does. -/
theorem Holds.run {run : Run} {store : Store} {e : String} {l : Line String} (h : Holds store e l)
    (hs : ∀ x ∈ run, SparesQueues x.2) :
    queueReplies e store run = (answers Line.act l (moves e run)).map (fun a => .ok (lineResult a)) ∧
      Holds (execute store run) e (l.after (moves e run)) := by
  induction run generalizing store l with
  | nil => exact ⟨rfl, h⟩
  | cons x run ih =>
      have hrest : ∀ y ∈ run, SparesQueues y.2 := fun y hy => hs y (List.mem_cons_of_mem _ hy)
      cases hm : queueMove e x.2 with
      | none =>
          obtain ⟨hreplies, hend⟩ := ih (h.other hm (hs x List.mem_cons_self)) hrest
          rw [queueReplies, hm, if_neg (by simp), moves, @List.filterMap_cons_none _ _ (fun x => queueMove e x.2) x run hm]
          exact ⟨hreplies, hend⟩
      | some m =>
          obtain ⟨hreply, hnext⟩ := h.move x.1 hm
          obtain ⟨hreplies, hend⟩ := ih hnext hrest
          rw [queueReplies, hm, if_pos Option.isSome_some, moves, @List.filterMap_cons_some _ _ (fun x => queueMove e x.2) x run m hm,
            hreply, answers, List.map_cons]
          exact ⟨congrArg _ hreplies, hend⟩

/-- While no other command touches their keys, the queues answer as lines that start empty, each on its
own commands alone, and each line serves its members in the order in which they have joined. -/
theorem queues_first_in_first_out (run : Run) (hs : ∀ x ∈ run, SparesQueues x.2) (e : String) :
    queueReplies e ∅ run = (answers Line.act Line.empty (moves e run)).map (fun a => .ok (lineResult a)) ∧
      loadQueue (execute ∅ run) (queueKey e) =
        .ok ((Line.empty.after (moves e run)).members.map Str.ofString) ∧
      Line.InOrder (Line.history Line.empty (moves e run)) (Line.empty.after (moves e run)) := by
  have h : Holds ∅ e Line.empty := rfl
  obtain ⟨hreplies, hend⟩ := h.run hs
  refine ⟨hreplies, ?_, Line.inOrder _⟩
  rw [loadQueue_eq, hend]
  exact readQueue_members _

/-- Two lines, a seat, and a key that only looks like a queue. -/
def twoLines : Run :=
  [(0, ["JOIN_QUEUE", "e", "u"]), (1, ["JOIN_QUEUE", "e", "v"]), (1, ["RESERVE_SEAT", "e", "s", "u", "5"]),
    (2, ["LEAVE_QUEUE", "e", "u"]), (2, ["JOIN_QUEUE", "f", "v"]), (3, ["SET", "queues", "x"]),
    (3, ["JOIN_QUEUE", "e", "u"]), (4, ["POP_QUEUE", "e"]), (5, ["QUEUE_POSITION", "e", "u"])]

theorem twoLines_in_order : queueReplies "e" ∅ twoLines =
    [.ok (.list [.int 1, .int 1, .int 1]), .ok (.list [.int 1, .int 2, .int 2]), .ok (.list [.int 1, .int 1, .int 1]),
      .ok (.list [.int 1, .int 2, .int 2]), .ok (.list [.str (Str.ofString "v"), .int 1]),
      .ok (.list [.int 1, .int 1])] := by
  have hs : ∀ x ∈ twoLines, SparesQueues x.2 := by decide +kernel
  rw [(queues_first_in_first_out twoLines hs "e").1]
  decide +kernel

end Ticketing.Commands
