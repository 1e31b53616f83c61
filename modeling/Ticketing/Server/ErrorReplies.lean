import Ticketing.AppServer.ReplyChunks
import Ticketing.Commands.Reference
import Mathlib.Data.Nat.Digits.Defs

namespace Ticketing.Server

open Python JsonText Commands Storage
open AppServer (Printable SendableScalar Sendable encodeCommandResult_sendable)

/-! ### Errors -/

/-- What is sent for the command is an error. -/
def RepliesError (command : List String) (now : ℚ) (store : Store) : Prop :=
  ∃ e, (handleCommand command now store).1.bind (encodeCommandResult command) = .error e

/-- `sys.maxsize`. -/
def maxsize : Nat := 2 ^ 63 - 1

/-- No token and no queue is longer than a container can be, with one place left in the queues. -/
structure InMemory (command : List String) (store : Store) : Prop where
  tokens : ∀ token ∈ command, (Utf8.encode token).length ≤ maxsize
  queues : ∀ key queue, loadQueue store key = .ok queue → queue.length < maxsize ∧
    ∀ s ∈ queue, ∀ text, s.toString? = some text → (Utf8.encode text).length ≤ maxsize

/-- A `POP_QUEUE` takes a member off its queue that no reply can carry. -/
def PopsUnsendable (command : List String) (now : ℚ) (store : Store) : Prop :=
  ∃ eventId user queue, parseCommand command = .ok (.popQueue eventId) ∧
    loadQueue store (queueKey eventId) = .ok (user :: queue) ∧ user.toString? = none ∧
    (queue = [] → (live store (queueKey eventId) now).isSome)

theorem printable_of_lt {n : Int} {k : Nat} (hk : 0 < k) (hmax : k ≤ maxStrDigits) (h : n.natAbs < 10 ^ k) :
    Printable n :=
  (Nat.toDigits_length 10 n.natAbs k hk h).trans hmax

theorem printable_size {n : Nat} (h : n ≤ maxsize) : Printable n := by
  have hlt : (n : Int).natAbs < 10 ^ 19 := lt_of_le_of_lt h (by decide)
  exact printable_of_lt (by decide) (by decide) hlt

theorem pow_sub_pow_le (a b : Nat) : 2 ^ a - 2 ^ b ≤ 10 ^ a :=
  (Nat.sub_le _ _).trans (Nat.pow_le_pow_left (by decide) a)

theorem printable_float {n : Int} (h : n.natAbs < floatOverflow) : Printable n := by
  have hle : floatOverflow ≤ 10 ^ 1024 := by
    unfold floatOverflow
    exact pow_sub_pow_le 1024 970
  exact printable_of_lt (by decide) (by decide) (h.trans_le hle)

/-! ### One entry -/

/-- An action that raises leaves the entry as it is. -/
def Careful {α : Type} (action : EntryAction α) : Prop := ∀ x e, (action x).1 = .error e → (action x).2 = x

theorem careful_answering {α : Type} {f : α → CommandResult} {action : EntryAction α} (h : Careful action) :
    Careful (answering f action) := by
  intro x e he
  cases ha : (action x).1 with
  | error e' => exact h x e' ha
  | ok a => rw [answering, ha] at he; cases he

theorem careful_expire (seconds : Int) (option : Option String) (now : ℚ) : Careful (expireEntry seconds option now) := by
  intro x e he
  unfold expireEntry at he ⊢
  split
  · rfl
  · rfl
  next o entry ho =>
    rw [ho] at he
    dsimp only at he
    cases hd : computeDeadline now seconds with
    | error e' => rfl
    | ok d =>
        rw [hd] at he
        dsimp only at he
        split at he
        · cases he
        · split at he <;> cases he

theorem careful_reserve (u : String) (n : Int) (now : ℚ) : Careful (reserveEntry u n now) := by
  intro x e he
  unfold reserveEntry at he ⊢
  split
  · rfl
  next status hs =>
    rw [hs] at he
    dsimp only at he
    split
    next hg =>
      rw [if_pos hg] at he
      cases hd : computeDeadline now n with
      | error e' => rfl
      | ok d => rw [hd] at he; cases he
    next => rfl

theorem careful_confirm (u : String) (now : ℚ) : Careful (confirmEntry u now) := by
  intro x e he
  unfold confirmEntry at he ⊢
  split
  · rfl
  next status hs =>
    rw [hs] at he
    dsimp only at he
    split at he
    · cases he
    · split at he <;> cases he

theorem careful_release (u : String) (now : ℚ) : Careful (releaseEntry u now) := by
  intro x e he
  unfold releaseEntry at he ⊢
  split
  · rfl
  next status hs =>
    rw [hs] at he
    dsimp only at he
    split at he <;> cases he

theorem careful_join (u : Str) : Careful (joinEntry u) := by
  intro x e he
  unfold joinEntry at he ⊢
  split
  · rfl
  next queue hq =>
    rw [hq] at he
    dsimp only at he
    split at he <;> cases he

theorem careful_pop : Careful popEntry := by
  intro x e he
  unfold popEntry at he ⊢
  split
  · rfl
  · rfl
  next user queue hq => rw [hq] at he; cases he

theorem careful_leave (u : Str) : Careful (leaveEntry u) := by
  intro x e he
  unfold leaveEntry at he ⊢
  split
  · rfl
  next queue hq =>
    rw [hq] at he
    dsimp only at he
    split at he <;> cases he

theorem act_careful (r : Request) (now : ℚ) : Careful (r.act now) := by
  cases r with
  | set key value => intro x e he; cases he
  | get key => intro x e he; cases he
  | del key => intro x e he; cases he
  | ttl key => intro x e he; cases he
  | forceConfirmSeat e s u => intro x e he; cases he
  | expire key seconds option => exact careful_answering (careful_expire seconds option now)
  | reserveSeat e s u n => exact careful_answering (careful_reserve u n now)
  | confirmSeat e s u => exact careful_answering (careful_confirm u now)
  | releaseSeat e s u => exact careful_answering (careful_release u now)
  | seatStatus e s => intro x e he; rfl
  | joinQueue e u => exact careful_answering (careful_join _)
  | queuePosition e u => exact careful_answering (fun x e he => rfl)
  | popQueue e => exact careful_answering careful_pop
  | leaveQueue e u => exact careful_answering (careful_leave _)
  | peekQueue e => exact careful_answering (fun x e he => rfl)

/-! ### Results of a write -/

theorem sendable_flag (b : Bool) : SendableScalar (flag b) := by
  cases b <;> exact show Printable _ by decide

theorem sendable_text {u : String} (h : (Utf8.encode u).length ≤ maxsize) : SendableScalar (.str (Str.ofString u)) :=
  ⟨u, toString?_ofString u, printable_size h⟩

theorem sendable_seat (b : Bool) (state : String) (hs : (Utf8.encode state).length ≤ maxsize) (user : Option String)
    (hu : ∀ u ∈ user, (Utf8.encode u).length ≤ maxsize) {n : Int} (hn : Printable n) :
    Sendable (seatOperationResult (b, ⟨Str.ofString state, user.map Str.ofString, n⟩)) := by
  refine ⟨show Printable 4 by decide, ?_⟩
  simp only [List.mem_cons, List.not_mem_nil, or_false, forall_eq_or_imp, forall_eq]
  refine ⟨sendable_flag b, sendable_text hs, ?_, hn⟩
  cases user with
  | none => trivial
  | some u => exact sendable_text (hu u rfl)

theorem sendable_queue (b : Bool) {rank length : Nat} (hr : rank ≤ maxsize) (hl : length ≤ maxsize) :
    Sendable (queueJoinResult (b, rank, length)) := by
  refine ⟨show Printable 3 by decide, ?_⟩
  simp only [List.mem_cons, List.not_mem_nil, or_false, forall_eq_or_imp, forall_eq]
  exact ⟨sendable_flag b, printable_size hr, printable_size hl⟩

/-- The sizes of what a request is about. -/
structure Fits (r : Request) (x : Option Entry) : Prop where
  user : ∀ u ∈ r.target.userId, (Utf8.encode u).length ≤ maxsize
  queue : r.OnQueue → ∀ queue, readQueue x = .ok queue → queue.length < maxsize ∧
    ∀ s ∈ queue, ∀ text, s.toString? = some text → (Utf8.encode text).length ≤ maxsize

theorem reserve_sendable {u : String} {n : Int} {now : ℚ} {x : Option Entry} {result : Bool × SeatStatus}
    (hu : (Utf8.encode u).length ≤ maxsize) (h : (reserveEntry u n now x).1 = .ok result)
    (hne : (reserveEntry u n now x).2 ≠ x) : Sendable (seatOperationResult result) := by
  unfold reserveEntry at h hne
  cases hs : readSeat x now with
  | error e => rw [hs] at h; cases h
  | ok status =>
      rw [hs] at h hne
      dsimp only at h hne
      split at h
      next hg =>
        rw [if_pos hg] at hne
        cases hd : computeDeadline now n with
        | error e => rw [hd] at h; cases h
        | ok d =>
            rw [hd] at h
            cases h
            have hn : n.natAbs < floatOverflow := by
              by_contra hn
              rw [computeDeadline, toFloat, if_neg hn] at hd
              cases hd
            exact sendable_seat true "HELD" (by decide) (some u) (fun v hv => by cases hv; exact hu)
              (printable_float hn)
      next hg => rw [if_neg hg] at hne; exact absurd rfl hne

theorem confirm_sendable {u : String} {now : ℚ} {x : Option Entry} {result : Bool × SeatStatus}
    (hu : (Utf8.encode u).length ≤ maxsize) (h : (confirmEntry u now x).1 = .ok result)
    (hne : (confirmEntry u now x).2 ≠ x) : Sendable (seatOperationResult result) := by
  unfold confirmEntry at h hne
  cases hs : readSeat x now with
  | error e => rw [hs] at h; cases h
  | ok status =>
      rw [hs] at h hne
      dsimp only at h hne
      split at h
      next hc => rw [if_pos hc] at hne; exact absurd rfl hne
      next hc =>
        rw [if_neg hc] at hne
        split at h
        next hg => rw [if_pos hg] at hne; exact absurd rfl hne
        next hg =>
          cases h
          exact sendable_seat true "CONFIRMED" (by decide) (some u) (fun v hv => by cases hv; exact hu)
            (by decide)

theorem release_sendable {u : String} {now : ℚ} {x : Option Entry} {result : Bool × SeatStatus}
    (h : (releaseEntry u now x).1 = .ok result) (hne : (releaseEntry u now x).2 ≠ x) :
    Sendable (seatOperationResult result) := by
  unfold releaseEntry at h hne
  cases hs : readSeat x now with
  | error e => rw [hs] at h; cases h
  | ok status =>
      rw [hs] at h hne
      dsimp only at h hne
      split at h
      next hg => rw [if_pos hg] at hne; exact absurd rfl hne
      next hg =>
        cases h
        exact sendable_seat true "AVAILABLE" (by decide) none (fun v hv => by cases hv) (by decide)

theorem join_sendable {u : Str} {x : Option Entry} {result : Bool × Int × Int}
    (hx : ∀ queue, readQueue x = .ok queue → queue.length < maxsize) (h : (joinEntry u x).1 = .ok result)
    (hne : (joinEntry u x).2 ≠ x) : Sendable (queueJoinResult result) := by
  unfold joinEntry at h hne
  cases hq : readQueue x with
  | error e => rw [hq] at h; cases h
  | ok queue =>
      rw [hq] at h hne
      dsimp only at h hne
      split at h
      next hu => rw [if_pos hu] at hne; exact absurd rfl hne
      next hu =>
        cases h
        have hlen : (queue ++ [u]).length ≤ maxsize := by
          rw [List.length_append]
          exact hx queue hq
        exact sendable_queue true hlen hlen

theorem leave_sendable {u : Str} {x : Option Entry} {result : Bool × Int × Int}
    (hx : ∀ queue, readQueue x = .ok queue → queue.length < maxsize) (h : (leaveEntry u x).1 = .ok result)
    (hne : (leaveEntry u x).2 ≠ x) : Sendable (queueJoinResult result) := by
  unfold leaveEntry at h hne
  cases hq : readQueue x with
  | error e => rw [hq] at h; cases h
  | ok queue =>
      rw [hq] at h hne
      dsimp only at h hne
      split at h
      next hu => rw [if_pos hu] at hne; exact absurd rfl hne
      next hu =>
        cases h
        have hmem : queue.idxOf u < queue.length := List.idxOf_lt_length_of_mem (not_not.mp hu)
        have hlen := hx queue hq
        have hrank : queue.idxOf u + 1 ≤ maxsize := hmem.trans_le hlen.le
        exact sendable_queue true hrank (List.length_erase_le.trans hlen.le)

theorem pop_sendable {x : Option Entry} {result : Option Str × Int} (hx : ∀ queue, readQueue x = .ok queue →
      queue.length < maxsize ∧ ∀ s ∈ queue, ∀ text, s.toString? = some text → (Utf8.encode text).length ≤ maxsize)
    (h : (popEntry x).1 = .ok result) (hne : (popEntry x).2 ≠ x) :
    Sendable (queuePopResult result) ∨
      ∃ user queue, readQueue x = .ok (user :: queue) ∧ user.toString? = none := by
  unfold popEntry at h hne
  rcases hq : readQueue x with e | _ | ⟨user, queue⟩
  · rw [hq] at h; cases h
  · rw [hq] at hne; exact absurd rfl hne
  · rw [hq] at h
    cases h
    obtain ⟨hlen, htext⟩ := hx _ hq
    cases ht : user.toString? with
    | none => exact .inr ⟨user, queue, rfl, ht⟩
    | some text =>
        refine .inl ⟨show Printable 2 by decide, ?_⟩
        simp only [List.mem_cons, List.not_mem_nil, or_false, forall_eq_or_imp, forall_eq]
        refine ⟨⟨text, ht, printable_size (htext user List.mem_cons_self text ht)⟩, printable_size ?_⟩
        rw [List.length_cons] at hlen
        omega

/-- A request that changes its entry answers what can be sent, unless it pops what has no encoding. -/
theorem act_sendable {r : Request} {now : ℚ} {x : Option Entry} {result : CommandResult} (hf : Fits r x)
    (h : (r.act now x).1 = .ok result) (hne : (r.act now x).2 ≠ x) : Sendable result ∨
      ∃ e user queue, r = .popQueue e ∧ readQueue x = .ok (user :: queue) ∧ user.toString? = none := by
  have unwrap {α : Type} {f : α → CommandResult} {action : EntryAction α}
      (h : (answering f action x).1 = .ok result) : ∃ a, (action x).1 = .ok a ∧ f a = result := by
    cases ha : (action x).1 with
    | error e => rw [answering, ha] at h; cases h
    | ok a => rw [answering, ha] at h; cases h; exact ⟨a, rfl, rfl⟩
  cases r with
  | set key value =>
      cases h
      exact .inl ⟨"OK", toString?_ofString "OK", by decide⟩
  | del key => cases h; exact .inl (sendable_flag _)
  | expire key seconds option =>
      obtain ⟨b, _, rfl⟩ := unwrap h
      exact .inl (sendable_flag b)
  | reserveSeat e s u n =>
      obtain ⟨a, ha, rfl⟩ := unwrap h
      exact .inl (reserve_sendable (hf.user u rfl) ha hne)
  | confirmSeat e s u =>
      obtain ⟨a, ha, rfl⟩ := unwrap h
      exact .inl (confirm_sendable (hf.user u rfl) ha hne)
  | forceConfirmSeat e s u =>
      cases h
      exact .inl (sendable_seat true "CONFIRMED" (by decide) (some u) (fun v hv => by cases hv; exact hf.user u rfl)
        (by decide))
  | releaseSeat e s u =>
      obtain ⟨a, ha, rfl⟩ := unwrap h
      exact .inl (release_sendable ha hne)
  | joinQueue e u =>
      have hr : (Request.joinQueue e u).OnQueue := by simp [Request.OnQueue, Request.target]
      obtain ⟨a, ha, rfl⟩ := unwrap h
      exact .inl (join_sendable (fun q hq => (hf.queue hr q hq).1) ha hne)
  | leaveQueue e u =>
      have hr : (Request.leaveQueue e u).OnQueue := by simp [Request.OnQueue, Request.target]
      obtain ⟨a, ha, rfl⟩ := unwrap h
      exact .inl (leave_sendable (fun q hq => (hf.queue hr q hq).1) ha hne)
  | popQueue e =>
      have hr : (Request.popQueue e).OnQueue := by simp [Request.OnQueue, Request.target]
      obtain ⟨a, ha, rfl⟩ := unwrap h
      rcases pop_sendable (hf.queue hr) ha hne with hs | ⟨user, queue, hq⟩
      · exact .inl hs
      · exact .inr ⟨e, user, queue, rfl, hq⟩
  | get key | ttl key | seatStatus e s | queuePosition e u | peekQueue e => exact absurd rfl hne

/-! ### One command -/

variable {command : List String} {store : Store} {now : ℚ}

theorem parseCommand_user {r : Request} (hp : parseCommand command = .ok r) {u : String}
    (hu : u ∈ r.target.userId) : u ∈ command := by
  have ht := parseCommand_target hp
  unfold target at ht
  split at ht
  next name args hv =>
    obtain ⟨token, rfl, _⟩ := validateCommand_ok hv
    apply List.mem_cons_of_mem
    generalize r.target = x at ht hu
    unfold targetOf at ht
    split at ht <;> cases ht <;> cases hu <;> simp
  next => cases ht

theorem InMemory.fits (h : InMemory command store) {r : Request} (hp : parseCommand command = .ok r) :
    Fits r (r.seen store now) := by
  refine ⟨fun u hu => h.tokens u (parseCommand_user hp hu), fun hr queue hq => ?_⟩
  rw [Request.seen, if_pos hr, ← loadQueue_eq] at hq
  exact h.queues _ queue hq

theorem seen_live (r : Request) (store : Store) (now : ℚ) :
    (r.seen store now).filter (fun e => e.Live now) = live store r.target.key now := by
  rw [Request.seen]
  split
  · rfl
  · exact live_filter le_rfl store _

theorem error_keeps (h : InMemory command store) (hpop : ¬ PopsUnsendable command now store)
    (he : RepliesError command now store) (k : String) :
    live (handleCommand command now store).2 k now = live store k now := by
  obtain ⟨err, he⟩ := he
  cases hp : parseCommand command with
  | error e => simp only [handleCommand, hp]
  | ok r =>
      obtain ⟨hreply, hentry⟩ := perform_seen (parseCommand_checked hp) now store
      have hhandle : handleCommand command now store = perform r now store := by simp only [handleCommand, hp]
      by_cases hk : k = r.target.key
      · rw [hhandle, hk, live, hentry]
        by_cases hsame : (r.act now (r.seen store now)).2 = r.seen store now
        · rw [hsame, seen_live]
        · cases hr : (r.act now (r.seen store now)).1 with
          | error e => exact absurd (act_careful r now _ e hr) hsame
          | ok result =>
              rcases act_sendable (h.fits hp) hr hsame with hs | ⟨e, user, queue, rfl, hq, huser⟩
              · have hresult : (handleCommand command now store).1 = .ok result := by rw [hhandle, hreply, hr]
                obtain ⟨response, hresponse⟩ := encodeCommandResult_sendable hresult hs
                rw [hresult, Except.bind, hresponse] at he
                cases he
              · have hread : readQueue (store.lookup (queueKey e)) = .ok (user :: queue) := by
                  rwa [Request.seen, if_pos (by simp [Request.OnQueue, Request.target])] at hq
                have hload : loadQueue store (queueKey e) = .ok (user :: queue) := by rw [loadQueue_eq, hread]
                by_cases hlive : queue = [] → (live store (queueKey e) now).isSome
                · exact absurd ⟨e, user, queue, hp, hload, huser, hlive⟩ hpop
                · obtain ⟨rfl, hdead⟩ := Classical.not_imp.mp hlive
                  have hnone : live store (queueKey e) now = none := by simpa using hdead
                  simp only [Request.act, answering, popEntry, hq, Request.target, hnone]
                  rfl
      · rw [hhandle]
        exact congrArg (Option.filter _) (perform_lookup_ne r now store hk)

/-- A member that cannot be sent is taken off the queue all the same. -/
theorem pop_changes (hpop : PopsUnsendable command now store) : RepliesError command now store ∧
    ∃ k, live (handleCommand command now store).2 k now ≠ live store k now := by
  obtain ⟨e, user, queue, hp, hload, huser, hlive⟩ := hpop
  have hhandle : handleCommand command now store =
      (.ok (queuePopResult (some user, queue.length)), storeQueue store (queueKey e) queue) := by
    simp only [handleCommand, hp, perform, onResult, popQueue, hload, Except.map]
  rw [hhandle, RepliesError, hhandle]
  constructor
  · obtain ⟨token, args, rfl, hne⟩ := handleCommand_named (congrArg Prod.fst hhandle)
    have hset : upper token ≠ "SET" := by
      intro hset
      have := handleCommand_set hset (congrArg Prod.fst hhandle)
      cases this
    refine ⟨⟨.unicodeEncodeError, "surrogates not allowed"⟩, ?_⟩
    simp only [Except.bind, encodeCommandResult, if_neg hne, if_neg hset, encodeResultValue, queuePopResult,
      Protocol.encodeArray, List.mapM_cons, Commands.optional, Protocol.encodeArrayItem, Protocol.encodeBulkString, huser]
    rfl
  · refine ⟨queueKey e, fun hsame => ?_⟩
    have hjoined := readQueue_joined (show readQueue (store.lookup (queueKey e)) = .ok (user :: queue) by
      rw [← loadQueue_eq, hload])
    have hafter : live (storeQueue store (queueKey e) queue) (queueKey e) now = queueEntry queue := by
      rw [live, lookup_storeQueue, queueEntry]
      split
      · rfl
      · simp [Option.filter, Entry.Live]
    rw [hafter, queueEntry] at hsame
    split at hsame
    next hq =>
      have := hlive hq
      rw [← hsame] at this
      cases this
    next hq =>
      have hlookup := (live_eq_some.mp hsame.symm).1
      have hread := deserialize_serializeQueue fun s hs => hjoined s (List.mem_cons_of_mem _ hs)
      rw [loadQueue_eq, hlookup] at hload
      have hlen := congrArg List.length (Except.ok.inj (hread.symm.trans hload))
      simp at hlen

/-- An error reply leaves every live entry as it was, unless a member that cannot be sent is popped. -/
theorem error_keeps_iff (command : List String) (now : ℚ) (store : Store) (h : InMemory command store) :
    (RepliesError command now store → ∀ k, live (handleCommand command now store).2 k now = live store k now) ↔
      ¬ PopsUnsendable command now store := by
  constructor
  · rintro hkeep hpop
    obtain ⟨he, k, hk⟩ := pop_changes hpop
    exact hk (hkeep he k)
  · intro hpop he k
    exact error_keeps h hpop he k

/-- A queue of one member, which is a lone surrogate. -/
def surrogateQueue : Store := execute ∅ [(0, ["SET", "queue:e", "[\"\\ud800\"]"])]

theorem surrogateQueue_lookup : surrogateQueue.lookup "queue:e" = some ⟨"[\"\\ud800\"]", none⟩ :=
  AList.lookup_insert _

theorem surrogateQueue_popped : ¬ ∀ (command : List String) (now : ℚ) (store : Store),
    RepliesError command now store → ∀ k, live (handleCommand command now store).2 k now = live store k now := by
  intro h
  have hload : loadQueue surrogateQueue (queueKey "e") = .ok [[0xd800]] := by
    rw [loadQueue_eq, show queueKey "e" = "queue:e" by decide, surrogateQueue_lookup]
    decide +kernel
  have hpop : PopsUnsendable ["POP_QUEUE", "e"] 1 surrogateQueue :=
    ⟨"e", [0xd800], [], rfl, hload, by decide +kernel, fun _ => by decide +kernel⟩
  obtain ⟨he, k, hk⟩ := pop_changes hpop
  exact hk (h _ 1 _ he k)

/-- To look at the member fails as well, and changes nothing. -/
theorem surrogateQueue_peeked :
    live (handleCommand ["PEEK_QUEUE", "e"] 1 surrogateQueue).2 "queue:e" 1 = live surrogateQueue "queue:e" 1 := by
  have hmemory : InMemory ["PEEK_QUEUE", "e"] surrogateQueue := by
    refine ⟨by decide, fun key queue hq => ?_⟩
    by_cases hk : key = "queue:e"
    · subst hk
      have hread : loadQueue surrogateQueue "queue:e" = .ok [[0xd800]] := by
        rw [loadQueue_eq, surrogateQueue_lookup]
        decide +kernel
      cases hq.symm.trans hread
      refine ⟨by decide, fun s hs text ht => ?_⟩
      have hnone : Str.toString? [0xd800] = none := by decide +kernel
      rw [List.mem_singleton.mp hs, hnone] at ht
      cases ht
    · have hnone : surrogateQueue.lookup key = none := AList.lookup_insert_ne hk
      rw [loadQueue_eq, hnone] at hq
      cases hq
      exact ⟨by decide, fun s hs => absurd hs List.not_mem_nil⟩
  refine (error_keeps_iff ["PEEK_QUEUE", "e"] 1 surrogateQueue hmemory).mpr ?_
    ⟨⟨.unicodeEncodeError, "surrogates not allowed"⟩, by decide +kernel⟩ "queue:e"
  rintro ⟨e, user, queue, hp, _⟩
  cases hp

end Ticketing.Server
