import Ticketing.Commands.Reference

namespace Ticketing.Commands

open Python JsonText Storage

/-! ### A command executed twice -/

variable {r : Request} {x : Option Entry} {e : Entry} {t t' now : ℚ} {result : CommandResult}

def alive (now : ℚ) (x : Option Entry) : Option Entry := x.filter (fun e => e.Live now)

/-- What a command sees of the entry of its key. -/
def Request.see (r : Request) (now : ℚ) (x : Option Entry) : Option Entry := if r.OnQueue then x else alive now x

def Request.once (r : Request) (now : ℚ) (x : Option Entry) : Except Error CommandResult × Option Entry :=
  r.act now (r.see now x)

def Request.twice (r : Request) (t t' : ℚ) (x : Option Entry) : Except Error CommandResult × Option Entry :=
  r.once t' (r.once t x).2

/-- The two executions come to one at some time between them. -/
def Request.Once (r : Request) (t t' : ℚ) (x : Option Entry) : Prop :=
  ∃ now, t ≤ now ∧ now ≤ t' ∧ r.once now x = r.twice t t' x

/-- The seat is held by the user. -/
def HeldBy (u : String) (now : ℚ) (x : Option Entry) : Prop :=
  ∃ status, readSeat (alive now x) now = .ok status ∧ status.state = seatHeld ∧ status.userId = some (Str.ofString u)

/-- An `EXPIRE` that has been applied at `t` and is executed again at `t'`. -/
def ExpireRepeatable (seconds : Int) (option : Option String) (t t' : ℚ) (x : Option Entry) : Prop :=
  ∀ o e d, normalizeExpireOption option = .ok o → alive t x = some e → computeDeadline t seconds = .ok d →
    ShouldApplyExpiry o e.expiresAt d →
      if seconds ≤ 0 ∨ d ≤ t' then alive t' x = none
      else e.Live t' ∧ o ≠ some .nx ∧ o ≠ some .lt ∧ (o = some .gt → t < t')

/-- Executing the request at `t` and again at `t'` is no more than executing it once. -/
def Request.Repeatable (t t' : ℚ) (x : Option Entry) : Request → Prop
  | .del _ => alive t' x = none
  | .expire _ seconds option => ExpireRepeatable seconds option t t' x
  | .releaseSeat _ _ u => ¬ HeldBy u t' x
  | .joinQueue _ u => ∀ queue, readQueue x = .ok queue → Str.ofString u ∈ queue
  | .popQueue _ => ∀ queue, readQueue x = .ok queue → queue = []
  | .leaveQueue _ u => ∀ queue, readQueue x = .ok queue → Str.ofString u ∉ queue
  | _ => True

theorem alive_eq_some : alive now x = some e ↔ x = some e ∧ e.Live now := by
  simp [alive, Option.filter_eq_some_iff]

theorem alive_alive (hle : t ≤ t') : alive t' (alive t x) = alive t' x := filter_live_live hle x

/-- An entry that is alive later is alive now. -/
theorem alive_sooner (hx : alive t' x = some e) (hle : now ≤ t') : alive now x = some e := by
  obtain ⟨hx, he⟩ := alive_eq_some.mp hx
  exact alive_eq_some.mpr ⟨hx, fun d hd => hle.trans_lt (he d hd)⟩

theorem see_queue (hr : r.OnQueue) (now : ℚ) : r.see now x = x := if_pos hr

theorem see_alive (hr : ¬ r.OnQueue) (now : ℚ) : r.see now x = alive now x := if_neg hr

theorem see_see (hle : t ≤ t') : r.see t' (r.see t x) = r.see t' x := by
  unfold Request.see
  split
  · rfl
  · exact alive_alive hle

/-- A first execution that changes nothing does not count. -/
theorem once_of_idle (hle : t ≤ t') (h : (r.once t x).2 = r.see t x) : r.Once t t' x := by
  refine ⟨t', hle, le_rfl, ?_⟩
  rw [Request.twice, h, Request.once, Request.once, see_see hle]

theorem del_once_iff (key : String) (hle : t ≤ t') : (Request.del key).Once t t' x ↔ alive t' x = none := by
  have hr : ¬ (Request.del key).OnQueue := by simp [Request.OnQueue, Request.target]
  have honce (now : ℚ) : (Request.del key).once now x = (.ok (.scalar (flag (alive now x).isSome)), none) := by
    rw [Request.once, see_alive hr]
    rfl
  have htwice : (Request.del key).twice t t' x = (.ok (.scalar (flag false)), none) := rfl
  constructor
  · rintro ⟨now, _, hnow, h⟩
    cases hx : alive t' x with
    | none => rfl
    | some e =>
        rw [htwice, honce, alive_sooner hx hnow] at h
        cases h
  · intro h
    refine ⟨t', hle, le_rfl, ?_⟩
    rw [htwice, honce, h]
    rfl

/-! ### Seats -/

/-- The status of a seat at two times differs in the rest of its time only. -/
theorem readSeat_status (x : Option Entry) {status : SeatStatus} (h : readSeat x t = .ok status) (now : ℚ) :
    ∃ status', readSeat x now = .ok status' ∧ status'.state = status.state ∧ status'.userId = status.userId := by
  cases x with
  | none => cases h; exact ⟨_, rfl, rfl, rfl⟩
  | some e =>
      cases hr : deserializeSeatRecord e.value with
      | error y => rw [readSeat, hr] at h; cases h
      | ok p =>
          rw [readSeat, hr] at h
          cases h
          exact ⟨⟨p.1, p.2, remaining e now⟩, by rw [readSeat, hr]; rfl, rfl, rfl⟩

theorem heldBy_sooner {u : String} (h : HeldBy u t' x) (hle : now ≤ t') : HeldBy u now x := by
  obtain ⟨status, hs, hstate, huser⟩ := h
  cases hx : alive t' x with
  | none =>
      rw [hx] at hs
      cases hs
      exact absurd hstate.symm seatStates_ne.1
  | some e =>
      rw [hx] at hs
      obtain ⟨status', hs', h1, h2⟩ := readSeat_status _ hs now
      exact ⟨status', by rw [alive_sooner hx hle, hs'], by rw [h1, hstate], by rw [h2, huser]⟩

theorem release_once_iff (e s u : String) (hle : t ≤ t') :
    (Request.releaseSeat e s u).Once t t' x ↔ ¬ HeldBy u t' x := by
  have hr : ¬ (Request.releaseSeat e s u).OnQueue := by simp [Request.OnQueue, Request.target]
  have hheld (now : ℚ) (h : HeldBy u now x) : (Request.releaseSeat e s u).once now x =
      (.ok (seatOperationResult (true, ⟨seatAvailable, none, -1⟩)), none) := by
    obtain ⟨status, hs, hstate, huser⟩ := h
    rw [Request.once, see_alive hr]
    simp only [Request.act, answering, releaseEntry, hs, hstate, huser, ne_eq, not_true_eq_false, or_self, if_false,
      Except.map]
  have hfree (h : HeldBy u t x) : (Request.releaseSeat e s u).twice t t' x =
      (.ok (seatOperationResult (false, ⟨seatAvailable, none, -1⟩)), none) := by
    rw [Request.twice, hheld t h]
    rfl
  have hidle (now : ℚ) (h : ¬ HeldBy u now x) : ((Request.releaseSeat e s u).once now x).2 = alive now x := by
    rw [Request.once, see_alive hr]
    simp only [Request.act, answering, releaseEntry]
    cases hs : readSeat (alive now x) now with
    | error y => rfl
    | ok status =>
        dsimp only
        rw [if_pos]
        by_contra hn
        obtain ⟨hstate, huser⟩ := not_or.mp hn
        exact h ⟨status, hs, not_not.mp hstate, not_not.mp huser⟩
  constructor
  · rintro ⟨now, hnow, hnow', h⟩ hlater
    rw [hheld now (heldBy_sooner hlater hnow'), hfree (heldBy_sooner hlater hle)] at h
    cases h
  · intro h
    by_cases hfirst : HeldBy u t x
    · refine ⟨t', hle, le_rfl, ?_⟩
      have hnone : alive t' x = none := by
        cases hx : alive t' x with
        | none => rfl
        | some e' =>
            obtain ⟨status, hs, hstate, huser⟩ := hfirst
            rw [alive_sooner hx hle] at hs
            obtain ⟨status', hs', h1, h2⟩ := readSeat_status _ hs t'
            exact absurd ⟨status', by rw [hx, hs'], by rw [h1, hstate], by rw [h2, huser]⟩ h
      rw [hfree hfirst, Request.once, see_alive hr, hnone]
      rfl
    · exact once_of_idle hle ((hidle t hfirst).trans (see_alive hr t).symm)

theorem reserve_once (e s u : String) {n : Int} (hf : n.natAbs < floatOverflow) (h : Grants (alive now x) u now) :
    (Request.reserveSeat e s u n).once now x =
      (.ok (seatOperationResult (true, ⟨seatHeld, some (Str.ofString u), n⟩)),
        some ⟨serializeSeatRecord seatHeld (some (Str.ofString u)), some (now + n)⟩) := by
  obtain ⟨status, hs, hg⟩ := h
  have hr : ¬ (Request.reserveSeat e s u n).OnQueue := by simp [Request.OnQueue, Request.target]
  rw [Request.once, see_alive hr]
  simp only [Request.act, answering, reserveEntry, hs, if_pos hg, computeDeadline, toFloat, if_pos hf, Except.map]

theorem grants_held (u : String) (now d : ℚ) :
    Grants (alive now (some ⟨serializeSeatRecord seatHeld (some (Str.ofString u)), some d⟩)) u now := by
  by_cases hd : now < d
  · have hx : alive now (some ⟨serializeSeatRecord seatHeld (some (Str.ofString u)), some d⟩) =
        some ⟨serializeSeatRecord seatHeld (some (Str.ofString u)), some d⟩ :=
      alive_eq_some.mpr ⟨rfl, fun d' hd' => by cases hd'; exact hd⟩
    have hread := readSeat_leaseEntry (.held u d) now
    rw [hx]
    exact ⟨_, hread, .inr ⟨rfl, rfl⟩⟩
  · have hx : alive now (some ⟨serializeSeatRecord seatHeld (some (Str.ofString u)), some d⟩) = none := by
      simp [alive, Option.filter, Entry.Live, hd]
    rw [hx]
    exact ⟨_, rfl, .inl rfl⟩

theorem grants_later {u : String} (h : Grants (alive t x) u t) (hle : t ≤ t') : Grants (alive t' x) u t' := by
  cases hx : alive t' x with
  | none =>
      exact ⟨_, rfl, .inl rfl⟩
  | some e =>
      obtain ⟨status, hs, hg⟩ := h
      rw [alive_sooner hx hle] at hs
      obtain ⟨status', hs', h1, h2⟩ := readSeat_status _ hs t'
      exact ⟨status', hs', by rw [h1, h2]; exact hg⟩

theorem reserve_repeats (e s u : String) (n : Int) (hle : t ≤ t') : (Request.reserveSeat e s u n).Once t t' x := by
  have hr : ¬ (Request.reserveSeat e s u n).OnQueue := by simp [Request.OnQueue, Request.target]
  by_cases h : n.natAbs < floatOverflow ∧ Grants (alive t x) u t
  · obtain ⟨hf, hg⟩ := h
    refine ⟨t', hle, le_rfl, ?_⟩
    rw [Request.twice, reserve_once e s u hf hg, reserve_once e s u hf (grants_later hg hle),
      reserve_once e s u hf (grants_held u t' _)]
  · apply once_of_idle hle
    rw [Request.once, see_alive hr]
    simp only [Request.act, answering, reserveEntry]
    cases hs : readSeat (alive t x) t with
    | error y => rfl
    | ok status =>
        dsimp only
        split
        next hg =>
          have hf : ¬ n.natAbs < floatOverflow := fun hf => h ⟨hf, status, hs, hg⟩
          rw [computeDeadline, toFloat, if_neg hf]
          rfl
        next => rfl

theorem confirm_repeats (e s u : String) (hle : t ≤ t') : (Request.confirmSeat e s u).Once t t' x := by
  have hr : ¬ (Request.confirmSeat e s u).OnQueue := by simp [Request.OnQueue, Request.target]
  by_cases h : HeldBy u t x
  · obtain ⟨status, hs, hstate, huser⟩ := h
    have honce : (Request.confirmSeat e s u).once t x =
        (.ok (seatOperationResult (true, ⟨seatConfirmed, some (Str.ofString u), -1⟩)),
          some ⟨serializeSeatRecord seatConfirmed (some (Str.ofString u)), none⟩) := by
      have hne : seatHeld ≠ seatConfirmed := seatStates_ne.2.2.symm
      rw [Request.once, see_alive hr]
      simp [Request.act, answering, confirmEntry, hs, hstate, huser, hne, Except.map]
    refine ⟨t, le_rfl, hle, ?_⟩
    have hx : alive t' (some ⟨serializeSeatRecord seatConfirmed (some (Str.ofString u)), none⟩) =
        some ⟨serializeSeatRecord seatConfirmed (some (Str.ofString u)), none⟩ :=
      alive_eq_some.mpr ⟨rfl, fun d hd => by cases hd⟩
    have hread : readSeat (some ⟨serializeSeatRecord seatConfirmed (some (Str.ofString u)), none⟩) t' =
        .ok ⟨seatConfirmed, some (Str.ofString u), -1⟩ := readSeat_leaseEntry (.owned u) t'
    rw [Request.twice, honce, Request.once, see_alive hr, hx]
    simp only [Request.act, answering, confirmEntry, hread, and_self, if_true, Except.map]
  · apply once_of_idle hle
    rw [Request.once, see_alive hr]
    simp only [Request.act, answering, confirmEntry]
    cases hs : readSeat (alive t x) t with
    | error y => rfl
    | ok status =>
        dsimp only
        split
        · rfl
        · rw [if_pos]
          by_contra hn
          obtain ⟨hstate, huser⟩ := not_or.mp hn
          exact h ⟨status, hs, not_not.mp hstate, not_not.mp huser⟩

/-! ### Queues -/

theorem once_queue (hr : r.OnQueue) (now : ℚ) (x : Option Entry) : r.once now x = r.act now x := by
  rw [Request.once, see_queue hr]

/-- What is left of a queue is read back. -/
theorem readQueue_part {queue part : List Str} (hq : readQueue x = .ok queue) (h : part ⊆ queue) :
    readQueue (queueEntry part) = .ok part :=
  readQueue_queueEntry fun s hs => readQueue_joined hq s (h hs)

theorem readQueue_enter {queue : List Str} (hq : readQueue x = .ok queue) (u : String) :
    readQueue (queueEntry (queue ++ [Str.ofString u])) = .ok (queue ++ [Str.ofString u]) := by
  refine readQueue_queueEntry fun s hs => ?_
  rcases List.mem_append.mp hs with hs | hs
  · exact readQueue_joined hq s hs
  · rw [List.mem_singleton.mp hs]
    exact ofString_joined u

theorem join_once_iff (e u : String) (hle : t ≤ t') (hok : ((Request.joinQueue e u).twice t t' x).1 = .ok result) :
    (Request.joinQueue e u).Once t t' x ↔ ∀ queue, readQueue x = .ok queue → Str.ofString u ∈ queue := by
  have hr : (Request.joinQueue e u).OnQueue := by simp [Request.OnQueue, Request.target]
  have honce (now : ℚ) (y : Option Entry) :
      (Request.joinQueue e u).once now y = answering queueJoinResult (joinEntry (Str.ofString u)) y :=
    once_queue hr now y
  rw [Request.twice, honce, honce] at hok
  cases hq : readQueue x with
  | error y =>
      simp only [answering, joinEntry, hq] at hok
      cases hok
  | ok queue =>
      simp only [Except.ok.injEq, forall_eq']
      by_cases hu : Str.ofString u ∈ queue
      · refine iff_of_true (once_of_idle hle ?_) hu
        rw [honce, see_queue hr]
        simp only [answering, joinEntry, hq, if_pos hu]
      · refine iff_of_false ?_ hu
        rintro ⟨now, _, _, h⟩
        have hread := readQueue_enter hq u
        have hmem : Str.ofString u ∈ queue ++ [Str.ofString u] := by simp
        rw [Request.twice, honce, honce, honce] at h
        simp only [answering, joinEntry, hq, if_neg hu, hread, if_pos hmem, Except.map] at h
        cases (Prod.mk.inj h).1

theorem pop_once_iff (e : String) (hle : t ≤ t') (hok : ((Request.popQueue e).twice t t' x).1 = .ok result) :
    (Request.popQueue e).Once t t' x ↔ ∀ queue, readQueue x = .ok queue → queue = [] := by
  have hr : (Request.popQueue e).OnQueue := by simp [Request.OnQueue, Request.target]
  have honce (now : ℚ) (y : Option Entry) : (Request.popQueue e).once now y = answering queuePopResult popEntry y :=
    once_queue hr now y
  rw [Request.twice, honce, honce] at hok
  rcases hq : readQueue x with y | _ | ⟨v, queue⟩
  · simp only [answering, popEntry, hq] at hok
    cases hok
  · refine iff_of_true (once_of_idle hle ?_) fun queue h => (Except.ok.inj h).symm
    rw [honce, see_queue hr]
    simp only [answering, popEntry, hq]
  · refine iff_of_false ?_ fun h => List.cons_ne_nil _ _ (h _ rfl)
    rintro ⟨now, _, _, h⟩
    have hread := readQueue_part hq (List.subset_cons_self v queue)
    rw [Request.twice, honce, honce, honce] at h
    cases queue with
    | nil =>
        simp only [answering, popEntry, hq, hread, Except.map] at h
        cases (Prod.mk.inj h).1
    | cons w queue =>
        simp only [answering, popEntry, hq, hread, Except.map, queuePopResult] at h
        have hlen := (Prod.mk.inj h).1
        simp at hlen

theorem leave_once_iff (e u : String) (hle : t ≤ t') (hok : ((Request.leaveQueue e u).twice t t' x).1 = .ok result) :
    (Request.leaveQueue e u).Once t t' x ↔ ∀ queue, readQueue x = .ok queue → Str.ofString u ∉ queue := by
  have hr : (Request.leaveQueue e u).OnQueue := by simp [Request.OnQueue, Request.target]
  have honce (now : ℚ) (y : Option Entry) :
      (Request.leaveQueue e u).once now y = answering queueJoinResult (leaveEntry (Str.ofString u)) y :=
    once_queue hr now y
  rw [Request.twice, honce, honce] at hok
  cases hq : readQueue x with
  | error y =>
      simp only [answering, leaveEntry, hq] at hok
      cases hok
  | ok queue =>
      simp only [Except.ok.injEq, forall_eq']
      by_cases hu : Str.ofString u ∈ queue
      · refine iff_of_false ?_ (not_not.mpr hu)
        rintro ⟨now, _, _, h⟩
        have hrest : queue.erase (Str.ofString u) ⊆ queue := List.erase_subset
        have hread := readQueue_part hq hrest
        have hnot : ¬ Str.ofString u ∉ queue := not_not.mpr hu
        have hlen := List.length_erase_of_mem hu
        have hpos := List.length_pos_of_mem hu
        rw [Request.twice, honce, honce, honce] at h
        simp only [answering, leaveEntry, hq, if_neg hnot, hread, Except.map] at h
        by_cases hagain : Str.ofString u ∈ queue.erase (Str.ofString u)
        · have hlen' := List.length_erase_of_mem hagain
          have hpos' := List.length_pos_of_mem hagain
          rw [if_neg (not_not.mpr hagain)] at h
          have h := (Prod.mk.inj h).1
          simp only [queueJoinResult, Except.ok.injEq, CommandResult.list.injEq, List.cons.injEq, RespScalar.int.injEq] at h
          omega
        · rw [if_pos hagain] at h
          cases (Prod.mk.inj h).1
      · refine iff_of_true (once_of_idle hle ?_) hu
        rw [honce, see_queue hr]
        simp only [answering, leaveEntry, hq, if_pos hu]

/-! ### Deadlines -/

section Expire

variable (key : String) {seconds : Int} {option : Option String} {o : Option ExpireOption}

theorem computeDeadline_ok {d : ℚ} (h : computeDeadline now seconds = .ok d) (now' : ℚ) :
    d = now + seconds ∧ computeDeadline now' seconds = .ok (now' + seconds) := by
  unfold computeDeadline toFloat at h ⊢
  split at h
  next hs =>
    cases h
    rw [if_pos hs]
    exact ⟨rfl, rfl⟩
  next => cases h

theorem expire_once (now : ℚ) (x : Option Entry) : (Request.expire key seconds option).once now x =
    answering (fun b => .scalar (flag b)) (expireEntry seconds option now) (alive now x) := by
  rw [Request.once, see_alive (by simp [Request.OnQueue, Request.target])]
  rfl

theorem expire_none (ho : normalizeExpireOption option = .ok o) (hx : alive now x = none) :
    (Request.expire key seconds option).once now x = (.ok (.scalar (flag false)), none) := by
  rw [expire_once, hx]
  simp only [answering, expireEntry, ho, Except.map]

theorem expire_some (ho : normalizeExpireOption option = .ok o) (hx : alive now x = some e) {d : ℚ}
    (hd : computeDeadline now seconds = .ok d) : (Request.expire key seconds option).once now x =
      if ShouldApplyExpiry o e.expiresAt d then
        (.ok (.scalar (flag true)), if seconds ≤ 0 then none else some ⟨e.value, some d⟩)
      else (.ok (.scalar (flag false)), some e) := by
  rw [expire_once, hx]
  simp only [answering, expireEntry, ho, hd]
  by_cases ha : ShouldApplyExpiry o e.expiresAt d
  · by_cases hs : seconds ≤ 0 <;> simp [ha, hs, Except.map]
  · simp [ha, Except.map]

/-- The first execution has removed the key, at once or by a deadline that has passed. -/
theorem expire_gone (ho : normalizeExpireOption option = .ok o) (hle : t ≤ t') {d : ℚ}
    (hd : computeDeadline t seconds = .ok d)
    (htwice : (Request.expire key seconds option).twice t t' x = (.ok (.scalar (flag false)), none)) :
    (Request.expire key seconds option).Once t t' x ↔ alive t' x = none := by
  constructor
  · rintro ⟨now, _, hnow, h⟩
    cases hx' : alive t' x with
    | none => rfl
    | some e' =>
        rw [htwice, expire_some key ho (alive_sooner hx' hnow) (computeDeadline_ok hd now).2] at h
        split at h
        · cases (Prod.mk.inj h).1
        · cases (Prod.mk.inj h).2
  · intro hx'
    exact ⟨t', hle, le_rfl, (expire_none key ho hx').trans htwice.symm⟩

/-- The first execution has left the key a deadline that is still to come. -/
theorem expire_kept (ho : normalizeExpireOption option = .ok o) (hle : t ≤ t') (hx : alive t x = some e) {d : ℚ}
    (hd : computeDeadline t seconds = .ok d) (ha : ShouldApplyExpiry o e.expiresAt d) (hs : 0 < seconds) (hlt : t' < d) :
    (Request.expire key seconds option).Once t t' x ↔
      e.Live t' ∧ o ≠ some .nx ∧ o ≠ some .lt ∧ (o = some .gt → t < t') := by
  obtain ⟨hdt, hd'⟩ := computeDeadline_ok hd t'
  have hs' : ¬ seconds ≤ 0 := not_le.mpr hs
  have hdd : d ≤ t' + seconds := by rw [hdt]; linarith
  have hfirst := expire_some key ho hx hd
  rw [if_pos ha, if_neg hs'] at hfirst
  have hkept : alive t' (some ⟨e.value, some d⟩) = some ⟨e.value, some d⟩ :=
    alive_eq_some.mpr ⟨rfl, fun d' hd' => by cases hd'; exact hlt⟩
  have htwice := expire_some key ho hkept hd'
  rw [if_neg hs'] at htwice
  have htw : (Request.expire key seconds option).twice t t' x =
      (Request.expire key seconds option).once t' (some ⟨e.value, some d⟩) := by rw [Request.twice, hfirst]
  rw [Request.Once, htw, htwice]
  constructor
  · rintro ⟨now, hnow, hnow', h⟩
    have hd'' := (computeDeadline_ok hd now).2
    have hxe (e' : Entry) (hx' : alive now x = some e') : e' = e :=
      Option.some.inj ((alive_sooner hx' hnow).symm.trans hx)
    cases hx' : alive now x with
    | none =>
        rw [expire_none key ho hx'] at h
        split at h
        · cases (Prod.mk.inj h).1
        · cases (Prod.mk.inj h).2
    | some e' =>
        obtain rfl := hxe e' hx'
        rw [expire_some key ho hx' hd'', if_neg hs'] at h
        by_cases happly : ShouldApplyExpiry o (some d) (t' + seconds)
        · rw [if_pos happly] at h
          split at h
          next hnow'' =>
            have hentry := Option.some.inj (Prod.mk.inj h).2
            have heq : now + seconds = t' + seconds := by simpa using hentry
            obtain rfl : now = t' := by linarith
            refine ⟨(alive_eq_some.mp hx').2, ?_, ?_, ?_⟩
            · rintro rfl
              cases happly
            · rintro rfl
              exact absurd happly (not_lt.mpr hdd)
            · rintro rfl
              have hlt' : d < now + seconds := happly
              rw [hdt] at hlt'
              linarith
          next => cases (Prod.mk.inj h).1
        · rw [if_neg happly] at h
          split at h
          next => cases (Prod.mk.inj h).1
          next =>
            have hentry : e' = ⟨e'.value, some d⟩ := Option.some.inj (Prod.mk.inj h).2
            rw [hentry] at ha
            rcases o with _ | _ | _ | _ | _
            · exact absurd trivial happly
            · cases ha
            · exact absurd (Option.some_ne_none d) happly
            · exact absurd ha (lt_irrefl d)
            · exact absurd ha (lt_irrefl d)
  · rintro ⟨hlive, hnx, hlt', hgt⟩
    refine ⟨t', hle, le_rfl, ?_⟩
    have hx' : alive t' x = some e := alive_eq_some.mpr ⟨(alive_eq_some.mp hx).1, hlive⟩
    rw [expire_some key ho hx' hd', if_neg hs']
    rcases o with _ | _ | _ | _ | _
    · rfl
    · exact absurd rfl hnx
    · rw [if_pos (show ShouldApplyExpiry (some .xx) (some d) _ from Option.some_ne_none d),
        if_pos (show ShouldApplyExpiry (some .xx) e.expiresAt (t' + seconds) from ha)]
    · have hsooner : t < t' := hgt rfl
      have hdd' : d < t' + seconds := by rw [hdt]; linarith
      have happly : ShouldApplyExpiry (some .gt) e.expiresAt (t' + seconds) := by
        cases hexp : e.expiresAt with
        | none => rw [hexp] at ha; cases ha
        | some d₀ =>
            rw [hexp] at ha
            exact lt_trans (show d₀ < d from ha) hdd'
      rw [if_pos happly, if_pos (show ShouldApplyExpiry (some .gt) (some d) _ from hdd')]
    · exact absurd rfl hlt'

theorem expire_once_iff (ho : normalizeExpireOption option = .ok o) (hle : t ≤ t') :
    (Request.expire key seconds option).Once t t' x ↔ ExpireRepeatable seconds option t t' x := by
  have hr : ¬ (Request.expire key seconds option).OnQueue := by simp [Request.OnQueue, Request.target]
  have idle (h : ((Request.expire key seconds option).once t x).2 = alive t x)
      (hno : ∀ e d, alive t x = some e → computeDeadline t seconds = .ok d → ¬ ShouldApplyExpiry o e.expiresAt d) :
      (Request.expire key seconds option).Once t t' x ↔ ExpireRepeatable seconds option t t' x := by
    refine iff_of_true (once_of_idle hle (h.trans (see_alive hr t).symm)) fun o' e d ho' hx hd ha => ?_
    cases ho.symm.trans ho'
    exact absurd ha (hno e d hx hd)
  cases hx : alive t x with
  | none => exact idle (by rw [expire_none key ho hx, hx]) fun e d h => by rw [hx] at h; cases h
  | some e =>
      cases hd : computeDeadline t seconds with
      | error y =>
          refine idle ?_ fun e d _ h => by rw [hd] at h; cases h
          rw [expire_once, hx]
          simp only [answering, expireEntry, ho, hd]
      | ok d =>
          by_cases ha : ShouldApplyExpiry o e.expiresAt d
          · have hrep : ExpireRepeatable seconds option t t' x ↔ if seconds ≤ 0 ∨ d ≤ t' then alive t' x = none
                else e.Live t' ∧ o ≠ some .nx ∧ o ≠ some .lt ∧ (o = some .gt → t < t') := by
              constructor
              · intro h
                exact h o e d ho hx hd ha
              · intro h o' e' d' ho' hx' hd' _
                cases ho.symm.trans ho'
                cases hx.symm.trans hx'
                cases hd.symm.trans hd'
                exact h
            rw [hrep]
            have hfirst := expire_some key ho hx hd
            rw [if_pos ha] at hfirst
            by_cases hs : seconds ≤ 0
            · rw [if_pos (.inl hs)]
              refine expire_gone key ho hle hd ?_
              rw [Request.twice, hfirst, if_pos hs]
              exact expire_none key ho rfl
            · rw [if_neg hs] at hfirst
              by_cases hlt : d ≤ t'
              · rw [if_pos (.inr hlt)]
                refine expire_gone key ho hle hd ?_
                rw [Request.twice, hfirst]
                apply expire_none key ho
                simp [alive, Option.filter, Entry.Live, hlt]
              · rw [if_neg (not_or.mpr ⟨hs, hlt⟩)]
                exact expire_kept key ho hle hx hd ha (not_le.mp hs) (not_le.mp hlt)
          · refine idle ?_ fun e' d' hx' hd' => ?_
            · rw [expire_some key ho hx hd, if_neg ha, hx]
            · cases hx.symm.trans hx'
              cases hd.symm.trans hd'
              exact ha

end Expire

/-- Exactly when an executed request may be executed again. -/
theorem once_iff (hr : r.Checked) (hle : t ≤ t') (hok : (r.twice t t' x).1 = .ok result) :
    r.Once t t' x ↔ r.Repeatable t t' x := by
  cases r with
  | del key => exact del_once_iff key hle
  | expire key seconds option =>
      obtain ⟨o, ho⟩ := hr
      exact expire_once_iff key ho hle
  | releaseSeat e s u => exact release_once_iff e s u hle
  | joinQueue e u => exact join_once_iff e u hle hok
  | popQueue e => exact pop_once_iff e hle hok
  | leaveQueue e u => exact leave_once_iff e u hle hok
  | reserveSeat e s u n => exact iff_of_true (reserve_repeats e s u n hle) trivial
  | confirmSeat e s u => exact iff_of_true (confirm_repeats e s u hle) trivial
  | set key value => exact iff_of_true ⟨t', hle, le_rfl, rfl⟩ trivial
  | forceConfirmSeat e s u => exact iff_of_true ⟨t', hle, le_rfl, rfl⟩ trivial
  | get key | ttl key | seatStatus e s | queuePosition e u | peekQueue e =>
      exact iff_of_true (once_of_idle hle rfl) trivial

end Ticketing.Commands
