import Ticketing.Commands.Repeats

namespace Ticketing.Commands

open Python JsonText Storage

/-! ### A command executed once more after its answer

The command is answered at `t`, and executed again at `t'` where nobody reads the reply. -/

variable {r : Request} {x : Option Entry} {e : Entry} {t t' now : ℚ} {result : CommandResult}

/-- The answer and what both executions leave come to one execution at some time between them. -/
def Request.AnsweredOnce (r : Request) (t t' : ℚ) (x : Option Entry) : Prop :=
  ∃ now, t ≤ now ∧ now ≤ t' ∧ r.once now x = ((r.once t x).1, (r.twice t t' x).2)

/-- An `EXPIRE` that has been answered at `t` and is executed again at `t'`. -/
def ExpireUnnoticed (seconds : Int) (option : Option String) (t t' : ℚ) (x : Option Entry) : Prop :=
  ∀ o e d, normalizeExpireOption option = .ok o → alive t x = some e → computeDeadline t seconds = .ok d →
    if ShouldApplyExpiry o e.expiresAt d then seconds ≤ 0 ∨ t' < d ∧ (o = some .nx ∨ o = some .lt ∨ e.Live t')
    else e.Live t' → ¬ ShouldApplyExpiry o e.expiresAt (t' + seconds)

/-- Executing the request at `t'`, when it has been answered at `t`, goes unnoticed. -/
def Request.Unnoticed (t t' : ℚ) (x : Option Entry) : Request → Prop
  | .get _ => alive t x = alive t' x
  | .ttl _ => alive t x = alive t' x
  | .seatStatus _ _ => alive t x = alive t' x
  | .expire _ seconds option => ExpireUnnoticed seconds option t t' x
  | .reserveSeat _ _ u _ => Grants (alive t' x) u t' → Grants (alive t x) u t
  | .confirmSeat _ _ u => HeldBy u t x ∨ alive t x = alive t' x
  | .releaseSeat _ _ u => HeldBy u t x ∨ alive t x = alive t' x
  | .popQueue _ => ∀ queue, readQueue x = .ok queue → queue.length ≤ 1
  | .leaveQueue _ u => ∀ queue, readQueue x = .ok queue → Str.ofString u ∉ queue.erase (Str.ofString u)
  | _ => True

/-- A second execution that changes nothing does not count. -/
theorem answeredOnce_of_idle (hle : t ≤ t') (h : (r.twice t t' x).2 = (r.once t x).2) : r.AnsweredOnce t t' x :=
  ⟨t, le_rfl, hle, by rw [h]⟩

/-- An entry that is not seen as it was has lapsed. -/
theorem alive_lapses (hle : t ≤ now) (x : Option Entry) : alive now x = alive t x ∨ alive now x = none := by
  cases hx : alive now x with
  | none => exact .inr rfl
  | some e => exact .inl (alive_sooner hx hle).symm

theorem twice_of_looking (hr : ¬ r.OnQueue) (hle : t ≤ t') (h : (r.once t x).2 = alive t x) :
    r.twice t t' x = r.once t' x := by
  rw [Request.twice, h, Request.once, Request.once, see_alive hr, see_alive hr, alive_alive hle]

/-- A command that only looks at its entry goes unnoticed unless the entry lapses in between, which it would answer. -/
theorem answeredOnce_of_looking (hr : ¬ r.OnQueue) (hle : t ≤ t')
    (hlook : ∀ now, t ≤ now → (r.once now x).2 = alive now x)
    (hlapse : ∀ now e, t ≤ now → alive t x = some e → alive now x = none → (r.once now x).1 ≠ (r.once t x).1) :
    r.AnsweredOnce t t' x ↔ alive t x = alive t' x := by
  have htwice : (r.twice t t' x).2 = alive t' x := by rw [twice_of_looking hr hle (hlook t le_rfl), hlook t' hle]
  constructor
  · rintro ⟨now, hnow, hnow', h⟩
    have hentry : alive now x = alive t' x := by rw [← hlook now hnow, h, htwice]
    rcases alive_lapses hnow x with hsame | hnone
    · exact hsame.symm.trans hentry
    · cases hx : alive t x with
      | none => exact hnone.symm.trans hentry
      | some e => exact absurd (congrArg Prod.fst h) (hlapse now e hnow hx hnone)
  · intro h
    exact answeredOnce_of_idle hle (by rw [htwice, ← h, hlook t le_rfl])

/-- An entry that is there at first and not there later has a deadline. -/
theorem remaining_of_lapse (hx : alive t x = some e) (hgone : alive now x = none) : 0 ≤ remaining e t := by
  obtain ⟨rfl, _⟩ := alive_eq_some.mp hx
  unfold remaining
  cases hd : e.expiresAt with
  | none =>
      rw [alive_eq_some.mpr ⟨rfl, fun d h => by rw [hd] at h; cases h⟩] at hgone
      cases hgone
  | some d => exact le_max_left _ _

theorem get_answered_iff (key : String) (hle : t ≤ t') :
    (Request.get key).AnsweredOnce t t' x ↔ alive t x = alive t' x := by
  have hr : ¬ (Request.get key).OnQueue := by simp [Request.OnQueue, Request.target]
  have honce (now : ℚ) : (Request.get key).once now x =
      (.ok (.scalar (optional (((alive now x).map Entry.value).map Str.ofString))), alive now x) := by
    rw [Request.once, see_alive hr]
    rfl
  refine answeredOnce_of_looking hr hle (fun now _ => by rw [honce]) fun now e _ hx hnone => ?_
  rw [honce, honce, hx, hnone]
  simp [optional]

theorem ttl_answered_iff (key : String) (hle : t ≤ t') :
    (Request.ttl key).AnsweredOnce t t' x ↔ alive t x = alive t' x := by
  have hr : ¬ (Request.ttl key).OnQueue := by simp [Request.OnQueue, Request.target]
  have honce (now : ℚ) : (Request.ttl key).once now x =
      (.ok (.scalar (.int ((alive now x).elim (-2) (remaining · now)))), alive now x) := by
    rw [Request.once, see_alive hr]
    rfl
  refine answeredOnce_of_looking hr hle (fun now _ => by rw [honce]) fun now e _ hx hnone => ?_
  have hrest := remaining_of_lapse hx hnone
  rw [honce, honce, hx, hnone]
  simp only [Option.elim, ne_eq, Except.ok.injEq, CommandResult.scalar.injEq, RespScalar.int.injEq]
  omega

/-! ### Seats -/

/-- A reply that tells the status of the seat, which is left as it is. -/
theorem status_answered_iff {f : SeatStatus → CommandResult} (hf : ∀ s, f ⟨seatAvailable, none, -1⟩ = f s → s.ttl = -1)
    (hr : ¬ r.OnQueue) (hle : t ≤ t')
    (hlook : ∀ now, t ≤ now → r.once now x = ((readSeat (alive now x) now).map f, alive now x))
    (hok : (r.once t x).1 = .ok result) : r.AnsweredOnce t t' x ↔ alive t x = alive t' x := by
  refine answeredOnce_of_looking hr hle (fun now hnow => by rw [hlook now hnow]) fun now e hnow hx hnone h => ?_
  have hrest := remaining_of_lapse hx hnone
  rw [hlook t le_rfl, hx, readSeat] at hok
  rw [hlook t le_rfl, hlook now hnow, hx, hnone, readSeat, readSeat] at h
  cases hp : deserializeSeatRecord e.value with
  | error y => rw [hp] at hok; cases hok
  | ok p =>
      rw [hp] at h
      have httl := hf ⟨p.1, p.2, remaining e t⟩ (Except.ok.inj h)
      simp only at httl
      omega

theorem seatStatus_answered_iff (e s : String) (hle : t ≤ t')
    (hok : ((Request.seatStatus e s).once t x).1 = .ok result) :
    (Request.seatStatus e s).AnsweredOnce t t' x ↔ alive t x = alive t' x := by
  have hr : ¬ (Request.seatStatus e s).OnQueue := by simp [Request.OnQueue, Request.target]
  refine status_answered_iff (f := seatStatusResult) (fun s h => ?_) hr hle (fun now _ => ?_) hok
  · simp only [seatStatusResult, CommandResult.list.injEq, List.cons.injEq, RespScalar.int.injEq] at h
    exact h.2.2.1.symm
  · rw [Request.once, see_alive hr]
    rfl

theorem seatOperation_ttl (b b' : Bool) (s : SeatStatus)
    (h : seatOperationResult (b, ⟨seatAvailable, none, -1⟩) = seatOperationResult (b', s)) : s.ttl = -1 := by
  simp only [seatOperationResult, CommandResult.list.injEq, List.cons.injEq, RespScalar.int.injEq] at h
  exact h.2.2.2.1.symm

theorem heldBy_earlier {u : String} (h : ¬ HeldBy u t x) (hle : t ≤ now) : ¬ HeldBy u now x :=
  fun hnow => h (heldBy_sooner hnow hle)

theorem release_answered_iff (e s u : String) (hle : t ≤ t')
    (hok : ((Request.releaseSeat e s u).once t x).1 = .ok result) :
    (Request.releaseSeat e s u).AnsweredOnce t t' x ↔ HeldBy u t x ∨ alive t x = alive t' x := by
  have hr : ¬ (Request.releaseSeat e s u).OnQueue := by simp [Request.OnQueue, Request.target]
  have honce (now : ℚ) (y : Option Entry) : (Request.releaseSeat e s u).once now y =
      answering seatOperationResult (releaseEntry u now) (alive now y) := by
    rw [Request.once, see_alive hr]
    rfl
  by_cases hheld : HeldBy u t x
  · refine iff_of_true (answeredOnce_of_idle hle ?_) (.inl hheld)
    obtain ⟨status, hs, hstate, huser⟩ := hheld
    have hfirst : ((Request.releaseSeat e s u).once t x).2 = none := by
      rw [honce]
      simp only [answering, releaseEntry, hs, hstate, huser, ne_eq, not_true_eq_false, or_self, if_false]
    rw [Request.twice, hfirst]
    rfl
  · rw [or_iff_right hheld]
    refine status_answered_iff (f := fun s => seatOperationResult (false, s)) (seatOperation_ttl _ _) hr hle
      (fun now hnow => ?_) hok
    have hnot := heldBy_earlier hheld hnow
    rw [honce]
    simp only [answering, releaseEntry]
    cases hs : readSeat (alive now x) now with
    | error y => rfl
    | ok status =>
        dsimp only
        rw [if_pos]
        · rfl
        · by_contra hn
          obtain ⟨hstate, huser⟩ := not_or.mp hn
          exact hnot ⟨status, hs, not_not.mp hstate, not_not.mp huser⟩

theorem confirm_answered_iff (e s u : String) (hle : t ≤ t')
    (hok : ((Request.confirmSeat e s u).once t x).1 = .ok result) :
    (Request.confirmSeat e s u).AnsweredOnce t t' x ↔ HeldBy u t x ∨ alive t x = alive t' x := by
  have hr : ¬ (Request.confirmSeat e s u).OnQueue := by simp [Request.OnQueue, Request.target]
  have honce (now : ℚ) (y : Option Entry) : (Request.confirmSeat e s u).once now y =
      answering seatOperationResult (confirmEntry u now) (alive now y) := by
    rw [Request.once, see_alive hr]
    rfl
  by_cases hheld : HeldBy u t x
  · refine iff_of_true (answeredOnce_of_idle hle ?_) (.inl hheld)
    obtain ⟨status, hs, hstate, huser⟩ := hheld
    have hne : seatHeld ≠ seatConfirmed := seatStates_ne.2.2.symm
    have hfirst : ((Request.confirmSeat e s u).once t x).2 =
        some ⟨serializeSeatRecord seatConfirmed (some (Str.ofString u)), none⟩ := by
      rw [honce]
      simp [answering, confirmEntry, hs, hstate, huser, hne]
    have hx : alive t' (some ⟨serializeSeatRecord seatConfirmed (some (Str.ofString u)), none⟩) =
        some ⟨serializeSeatRecord seatConfirmed (some (Str.ofString u)), none⟩ :=
      alive_eq_some.mpr ⟨rfl, fun d hd => by cases hd⟩
    have hread : readSeat (some ⟨serializeSeatRecord seatConfirmed (some (Str.ofString u)), none⟩) t' =
        .ok ⟨seatConfirmed, some (Str.ofString u), -1⟩ := readSeat_leaseEntry (.owned u) t'
    rw [Request.twice, hfirst, honce, hx]
    simp only [answering, confirmEntry, hread, and_self, if_true]
  · rw [or_iff_right hheld]
    let owned (status : SeatStatus) : Bool :=
      decide (status.state = seatConfirmed ∧ status.userId = some (Str.ofString u))
    refine status_answered_iff (f := fun s => seatOperationResult (owned s, s)) (fun s => seatOperation_ttl _ _ s) hr hle
      (fun now hnow => ?_) hok
    have hnot := heldBy_earlier hheld hnow
    rw [honce]
    simp only [answering, confirmEntry]
    cases hs : readSeat (alive now x) now with
    | error y => rfl
    | ok status =>
        dsimp only
        by_cases hown : status.state = seatConfirmed ∧ status.userId = some (Str.ofString u)
        · rw [if_pos hown, ← show owned status = true from decide_eq_true hown]
          rfl
        · rw [if_neg hown, if_pos]
          · rw [← show owned status = false from decide_eq_false hown]
            rfl
          · by_contra hn
            obtain ⟨hstate, huser⟩ := not_or.mp hn
            exact hnot ⟨status, hs, not_not.mp hstate, not_not.mp huser⟩

/-- A reservation that is not granted leaves the seat as it is. -/
theorem reserve_refused (e s u : String) (n : Int) (h : ¬ Grants (alive now x) u now) :
    (Request.reserveSeat e s u n).once now x =
      ((readSeat (alive now x) now).map (fun s => seatOperationResult (false, s)), alive now x) := by
  have hr : ¬ (Request.reserveSeat e s u n).OnQueue := by simp [Request.OnQueue, Request.target]
  rw [Request.once, see_alive hr]
  simp only [Request.act, answering, reserveEntry]
  cases hs : readSeat (alive now x) now with
  | error y => rfl
  | ok status =>
      dsimp only
      rw [if_neg fun hg => h ⟨status, hs, hg⟩]
      rfl

theorem reserve_overflow (e s u : String) {n : Int} (hf : ¬ n.natAbs < floatOverflow) (h : Grants (alive now x) u now) :
    ∃ y, (Request.reserveSeat e s u n).once now x = (.error y, alive now x) := by
  obtain ⟨status, hs, hg⟩ := h
  have hr : ¬ (Request.reserveSeat e s u n).OnQueue := by simp [Request.OnQueue, Request.target]
  rw [Request.once, see_alive hr]
  simp only [Request.act, answering, reserveEntry, hs, if_pos hg, computeDeadline, toFloat, if_neg hf]
  exact ⟨_, rfl⟩

theorem grants_none (u : String) (now : ℚ) : Grants none u now := ⟨_, rfl, .inl rfl⟩

/-- What a granted reservation leaves can be reserved by the user at any time. -/
theorem reserve_leaves (e s u : String) (n : Int) (h : Grants (alive t' x) u t') (hgone : alive t' x = none) (now : ℚ) :
    Grants ((Request.reserveSeat e s u n).once t' x).2 u now := by
  by_cases hf : n.natAbs < floatOverflow
  · rw [reserve_once e s u hf h]
    exact ⟨_, readSeat_leaseEntry (.held u _) now, .inr ⟨rfl, rfl⟩⟩
  · obtain ⟨y, hy⟩ := reserve_overflow e s u hf h
    rw [hy, hgone]
    exact grants_none u now

theorem reserve_answered_iff (e s u : String) (n : Int) (hle : t ≤ t')
    (hok : ((Request.reserveSeat e s u n).once t x).1 = .ok result) :
    (Request.reserveSeat e s u n).AnsweredOnce t t' x ↔ (Grants (alive t' x) u t' → Grants (alive t x) u t) := by
  have hr : ¬ (Request.reserveSeat e s u n).OnQueue := by simp [Request.OnQueue, Request.target]
  by_cases hg : Grants (alive t x) u t
  · refine iff_of_true ⟨t', hle, le_rfl, ?_⟩ fun _ => hg
    have hf : n.natAbs < floatOverflow := by
      by_contra hf
      obtain ⟨y, hy⟩ := reserve_overflow e s u hf hg
      rw [hy] at hok
      cases hok
    rw [Request.twice, reserve_once e s u hf hg, reserve_once e s u hf (grants_later hg hle),
      reserve_once e s u hf (grants_held u t' _)]
  have hfirst := reserve_refused e s u n hg
  have htwice := twice_of_looking hr hle (by rw [hfirst])
  rw [imp_iff_not hg]
  constructor
  · rintro ⟨now, hnow, hnow', h⟩ hg'
    have hgone : alive t' x = none := (alive_lapses hle x).resolve_left fun hsame => hg (by
      obtain ⟨status, hs, hgrant⟩ := hg'
      obtain ⟨status', hs', h1, h2⟩ := readSeat_status _ hs t
      exact ⟨status', hsame ▸ hs', by rw [h1, h2]; exact hgrant⟩)
    by_cases hgnow : Grants (alive now x) u now
    · -- the reply of a granted reservation is not that of a refused one
      have hreply := (congrArg Prod.fst h).trans hok
      rw [hfirst] at hok
      by_cases hf : n.natAbs < floatOverflow
      · rw [reserve_once e s u hf hgnow] at hreply
        cases hs : readSeat (alive t x) t with
        | error y => rw [hs] at hok; cases hok
        | ok status =>
            rw [hs] at hok
            have hsame := Except.ok.inj (hreply.trans hok.symm)
            simp [seatOperationResult, flag] at hsame
      · obtain ⟨y, hy⟩ := reserve_overflow e s u hf hgnow
        rw [hy] at hreply
        cases hreply
    · have hentry : alive now x = ((Request.reserveSeat e s u n).once t' x).2 := by
        rw [← htwice, ← congrArg Prod.snd h, reserve_refused e s u n hgnow]
      exact hgnow (hentry ▸ reserve_leaves e s u n hg' hgone now)
  · intro hg'
    refine answeredOnce_of_idle hle ?_
    rw [htwice, hfirst, reserve_refused e s u n hg']
    exact (alive_lapses hle x).resolve_right fun hnone => hg' (hnone ▸ grants_none u t')

/-! ### Queues -/

theorem join_answered (e u : String) (hle : t ≤ t') : (Request.joinQueue e u).AnsweredOnce t t' x := by
  have hr : (Request.joinQueue e u).OnQueue := by simp [Request.OnQueue, Request.target]
  refine answeredOnce_of_idle hle ?_
  rw [Request.twice, once_queue hr, once_queue hr]
  simp only [Request.act, answering, joinEntry]
  cases hq : readQueue x with
  | error y => simp only [hq]
  | ok queue =>
      by_cases hu : Str.ofString u ∈ queue
      · simp only [if_pos hu, hq]
      · have hread := readQueue_enter hq u
        have hmem : Str.ofString u ∈ queue ++ [Str.ofString u] := by simp
        simp only [if_neg hu, hread, if_pos hmem]

/-- Two parts of a queue that are stored alike are the same. -/
theorem queueEntry_parts {queue part part' : List Str} (hq : readQueue x = .ok queue) (hpart : part ⊆ queue)
    (hpart' : part' ⊆ queue) (h : queueEntry part = queueEntry part') : part = part' := by
  have hread := readQueue_part hq hpart
  rw [h, readQueue_part hq hpart'] at hread
  exact (Except.ok.inj hread).symm

theorem pop_answered_iff (e : String) (hle : t ≤ t') (hok : ((Request.popQueue e).once t x).1 = .ok result) :
    (Request.popQueue e).AnsweredOnce t t' x ↔ ∀ queue, readQueue x = .ok queue → queue.length ≤ 1 := by
  have hr : (Request.popQueue e).OnQueue := by simp [Request.OnQueue, Request.target]
  have honce (now : ℚ) (y : Option Entry) : (Request.popQueue e).once now y = answering queuePopResult popEntry y :=
    once_queue hr now y
  rcases hq : readQueue x with y | _ | ⟨v, _ | ⟨w, queue⟩⟩
  · rw [honce] at hok
    simp only [answering, popEntry, hq] at hok
    cases hok
  · refine iff_of_true (answeredOnce_of_idle hle ?_) fun queue h => by simp [← Except.ok.inj h]
    rw [Request.twice, honce, honce]
    simp only [answering, popEntry, hq]
  · refine iff_of_true (answeredOnce_of_idle hle ?_) fun queue h => by simp [← Except.ok.inj h]
    rw [Request.twice, honce, honce]
    simp only [answering, popEntry, hq]
    rfl
  · refine iff_of_false ?_ fun h => absurd (h _ rfl) (by simp)
    rintro ⟨now, _, _, h⟩
    have hrest := List.subset_cons_self v (w :: queue)
    have hread := readQueue_part hq hrest
    rw [Request.twice, honce, honce, honce] at h
    simp only [answering, popEntry, hq, hread, Prod.mk.injEq, true_and] at h
    have hsame := queueEntry_parts hq hrest (List.subset_cons_of_subset v (List.subset_cons_self w queue)) h
    simp at hsame

theorem leave_answered_iff (e u : String) (hle : t ≤ t') (hok : ((Request.leaveQueue e u).once t x).1 = .ok result) :
    (Request.leaveQueue e u).AnsweredOnce t t' x ↔
      ∀ queue, readQueue x = .ok queue → Str.ofString u ∉ queue.erase (Str.ofString u) := by
  have hr : (Request.leaveQueue e u).OnQueue := by simp [Request.OnQueue, Request.target]
  have honce (now : ℚ) (y : Option Entry) :
      (Request.leaveQueue e u).once now y = answering queueJoinResult (leaveEntry (Str.ofString u)) y :=
    once_queue hr now y
  cases hq : readQueue x with
  | error y =>
      rw [honce] at hok
      simp only [answering, leaveEntry, hq] at hok
      cases hok
  | ok queue =>
      simp only [Except.ok.injEq, forall_eq']
      have hrest : queue.erase (Str.ofString u) ⊆ queue := List.erase_subset
      by_cases hu : Str.ofString u ∈ queue
      · have hread := readQueue_part hq hrest
        by_cases hagain : Str.ofString u ∈ queue.erase (Str.ofString u)
        · refine iff_of_false ?_ (not_not.mpr hagain)
          rintro ⟨now, _, _, h⟩
          rw [Request.twice, honce, honce, honce] at h
          simp only [answering, leaveEntry, hq, if_neg (not_not.mpr hu), hread, if_neg (not_not.mpr hagain),
            Prod.mk.injEq, true_and] at h
          have hsame := queueEntry_parts hq hrest (fun s hs => hrest (List.mem_of_mem_erase hs)) h
          have hlen := congrArg List.length hsame
          rw [List.length_erase_of_mem hagain] at hlen
          have hpos := List.length_pos_of_mem hagain
          omega
        · refine iff_of_true (answeredOnce_of_idle hle ?_) hagain
          rw [Request.twice, honce, honce]
          simp only [answering, leaveEntry, hq, if_neg (not_not.mpr hu), hread, if_pos hagain]
      · refine iff_of_true (answeredOnce_of_idle hle ?_) fun hagain => hu (List.mem_of_mem_erase hagain)
        rw [Request.twice, honce, honce]
        simp only [answering, leaveEntry, hq, if_pos hu]

/-! ### Deadlines -/

section Expire

variable (key : String) {seconds : Int} {option : Option String} {o : Option ExpireOption} {d : ℚ}

/-- A deadline that is applied once is applied again later, unless the option asks for none or for an earlier one. -/
theorem shouldApply_again (ha : ShouldApplyExpiry o e.expiresAt d) {d' : ℚ} (hle : d ≤ d')
    (hagain : ShouldApplyExpiry o (some d) d') : ShouldApplyExpiry o e.expiresAt d' ∧ o ≠ some .nx ∧ o ≠ some .lt := by
  rcases o with _ | _ | _ | _ | _
  · exact ⟨trivial, nofun, nofun⟩
  · cases hagain
  · exact ⟨ha, nofun, nofun⟩
  · refine ⟨?_, nofun, nofun⟩
    cases hexp : e.expiresAt with
    | none => rw [hexp] at ha; cases ha
    | some d₀ =>
        rw [hexp] at ha
        exact (show d₀ < d from ha).trans_le hle
  · exact absurd hagain (not_lt.mpr hle)

/-- The new deadline is not applied to itself. -/
theorem shouldApply_self (hno : ¬ ShouldApplyExpiry o (some d) now) : ¬ ShouldApplyExpiry o (some d) d := by
  rcases o with _ | _ | _ | _ | _
  · exact absurd trivial hno
  · exact Option.some_ne_none d
  · exact absurd (Option.some_ne_none d) hno
  · exact lt_irrefl d
  · exact lt_irrefl d

/-- The first execution has given the key a deadline. -/
theorem expire_applied_iff (ho : normalizeExpireOption option = .ok o) (hle : t ≤ t') (hx : alive t x = some e)
    (hd : computeDeadline t seconds = .ok d) (ha : ShouldApplyExpiry o e.expiresAt d) (hs : ¬ seconds ≤ 0) :
    (Request.expire key seconds option).AnsweredOnce t t' x ↔
      t' < d ∧ (o = some .nx ∨ o = some .lt ∨ e.Live t') := by
  obtain ⟨hdt, hd'⟩ := computeDeadline_ok hd t'
  have hdd : d ≤ t' + seconds := by rw [hdt]; linarith
  have hfirst := expire_some key ho hx hd
  rw [if_pos ha, if_neg hs] at hfirst
  have htwice : (Request.expire key seconds option).twice t t' x =
      (Request.expire key seconds option).once t' (some ⟨e.value, some d⟩) := by rw [Request.twice, hfirst]
  -- one execution that is answered with 1 leaves the deadline that it has set
  have answered {now : ℚ} {y : Option Entry} (hnow : t ≤ now)
      (h : (Request.expire key seconds option).once now x = (.ok (.scalar (flag true)), y)) :
      alive now x = some e ∧ y = some ⟨e.value, some (now + seconds)⟩ := by
    cases hx' : alive now x with
    | none =>
        rw [expire_none key ho hx'] at h
        cases (Prod.mk.inj h).1
    | some e' =>
        obtain rfl : e' = e := Option.some.inj ((alive_sooner hx' hnow).symm.trans hx)
        rw [expire_some key ho hx' (computeDeadline_ok hd now).2, if_neg hs] at h
        split at h
        next => exact ⟨rfl, (Prod.mk.inj h).2.symm⟩
        next => cases (Prod.mk.inj h).1
  rw [Request.AnsweredOnce, htwice, hfirst]
  by_cases hlt : t' < d
  · have hkept : alive t' (some ⟨e.value, some d⟩) = some ⟨e.value, some d⟩ :=
      alive_eq_some.mpr ⟨rfl, fun d' hd' => by cases hd'; exact hlt⟩
    rw [expire_some key ho hkept hd', if_neg hs, and_iff_right hlt]
    by_cases hagain : ShouldApplyExpiry o (some d) (t' + seconds)
    · obtain ⟨happly, hnx, hlt'⟩ := shouldApply_again ha hdd hagain
      rw [if_pos hagain, or_iff_right hnx, or_iff_right hlt']
      constructor
      · rintro ⟨now, hnow, hnow', h⟩
        obtain ⟨hx', hentry⟩ := answered hnow h
        have heq : t' + seconds = now + seconds := by simpa using hentry
        obtain rfl : now = t' := by linarith
        exact (alive_eq_some.mp hx').2
      · intro hlive
        refine ⟨t', hle, le_rfl, ?_⟩
        rw [expire_some key ho (alive_eq_some.mpr ⟨(alive_eq_some.mp hx).1, hlive⟩) hd', if_pos happly, if_neg hs]
    · rw [if_neg hagain]
      refine iff_of_true ⟨t, le_rfl, hle, hfirst⟩ ?_
      rcases o with _ | _ | _ | _ | _
      · exact absurd trivial hagain
      · exact .inl rfl
      · exact absurd (Option.some_ne_none d) hagain
      · have hsame : d = t' + seconds := le_antisymm hdd (not_lt.mp hagain)
        obtain rfl : t = t' := by rw [hdt] at hsame; linarith
        exact .inr (.inr (alive_eq_some.mp hx).2)
      · exact .inr (.inl rfl)
  · have hgone : alive t' (some (⟨e.value, some d⟩ : Entry)) = none := by simp [alive, Option.filter, Entry.Live, hlt]
    rw [expire_none key ho hgone]
    refine iff_of_false ?_ fun h => hlt h.1
    rintro ⟨now, hnow, _, h⟩
    cases (answered hnow h).2

/-- The first execution has left the entry as it is. -/
theorem expire_refused_iff (ho : normalizeExpireOption option = .ok o) (hle : t ≤ t') (hx : alive t x = some e)
    (hd : computeDeadline t seconds = .ok d) (ha : ¬ ShouldApplyExpiry o e.expiresAt d) :
    (Request.expire key seconds option).AnsweredOnce t t' x ↔
      (e.Live t' → ¬ ShouldApplyExpiry o e.expiresAt (t' + seconds)) := by
  have hr : ¬ (Request.expire key seconds option).OnQueue := by simp [Request.OnQueue, Request.target]
  have hd' := (computeDeadline_ok hd t').2
  have hfirst := expire_some key ho hx hd
  rw [if_neg ha] at hfirst
  have htwice := twice_of_looking hr hle (by rw [hfirst, hx])
  by_cases hlive : e.Live t'
  · have hx' : alive t' x = some e := alive_eq_some.mpr ⟨(alive_eq_some.mp hx).1, hlive⟩
    rw [imp_iff_right hlive]
    by_cases happly : ShouldApplyExpiry o e.expiresAt (t' + seconds)
    · refine iff_of_false ?_ (not_not.mpr happly)
      rintro ⟨now, hnow, hnow', h⟩
      rw [hfirst, htwice, expire_some key ho hx' hd', if_pos happly,
        expire_some key ho (alive_sooner hx' hnow') (computeDeadline_ok hd now).2] at h
      split at h
      next => cases (Prod.mk.inj h).1
      next =>
        have hentry := (Prod.mk.inj h).2
        split at hentry
        next => cases hentry
        next =>
          obtain ⟨v, expiresAt⟩ := e
          cases hentry
          exact shouldApply_self ha happly
    · refine iff_of_true (answeredOnce_of_idle hle ?_) happly
      rw [htwice, hfirst, expire_some key ho hx' hd', if_neg happly]
  · have hgone : alive t' x = none := (alive_lapses hle x).resolve_left fun hsame =>
      hlive (alive_eq_some.mp (hsame.trans hx)).2
    refine iff_of_true ⟨t', hle, le_rfl, ?_⟩ fun h => absurd h hlive
    rw [htwice, hfirst, expire_none key ho hgone]

theorem expire_answered_iff (ho : normalizeExpireOption option = .ok o) (hle : t ≤ t')
    (hok : ((Request.expire key seconds option).once t x).1 = .ok result) :
    (Request.expire key seconds option).AnsweredOnce t t' x ↔ ExpireUnnoticed seconds option t t' x := by
  cases hx : alive t x with
  | none =>
      have hfirst : (Request.expire key seconds option).once t x = _ := expire_none key ho hx
      refine iff_of_true (answeredOnce_of_idle hle ?_) fun o e d _ hx' => by rw [hx] at hx'; cases hx'
      rw [Request.twice, hfirst, expire_none key ho rfl]
  | some e =>
      cases hd : computeDeadline t seconds with
      | error y =>
          rw [expire_once, hx] at hok
          simp only [answering, expireEntry, ho, hd] at hok
          cases hok
      | ok d =>
          have hunnoticed : ExpireUnnoticed seconds option t t' x ↔ if ShouldApplyExpiry o e.expiresAt d then
              seconds ≤ 0 ∨ t' < d ∧ (o = some .nx ∨ o = some .lt ∨ e.Live t')
              else e.Live t' → ¬ ShouldApplyExpiry o e.expiresAt (t' + seconds) := by
            constructor
            · intro h
              exact h o e d ho hx hd
            · intro h o' e' d' ho' hx' hd'
              cases ho.symm.trans ho'
              cases hx.symm.trans hx'
              cases hd.symm.trans hd'
              exact h
          rw [hunnoticed]
          by_cases ha : ShouldApplyExpiry o e.expiresAt d
          · rw [if_pos ha]
            by_cases hs : seconds ≤ 0
            · refine iff_of_true (answeredOnce_of_idle hle ?_) (.inl hs)
              have hfirst := expire_some key ho hx hd
              rw [if_pos ha, if_pos hs] at hfirst
              rw [Request.twice, hfirst, expire_none key ho rfl]
            · rw [or_iff_right hs]
              exact expire_applied_iff key ho hle hx hd ha hs
          · rw [if_neg ha]
            exact expire_refused_iff key ho hle hx hd ha

end Expire

/-- Exactly when an answered request may be executed once more. -/
theorem answeredOnce_iff (hr : r.Checked) (hle : t ≤ t') (hok : (r.once t x).1 = .ok result) :
    r.AnsweredOnce t t' x ↔ r.Unnoticed t t' x := by
  cases r with
  | get key => exact get_answered_iff key hle
  | ttl key => exact ttl_answered_iff key hle
  | seatStatus e s => exact seatStatus_answered_iff e s hle hok
  | expire key seconds option =>
      obtain ⟨o, ho⟩ := hr
      exact expire_answered_iff key ho hle hok
  | reserveSeat e s u n => exact reserve_answered_iff e s u n hle hok
  | confirmSeat e s u => exact confirm_answered_iff e s u hle hok
  | releaseSeat e s u => exact release_answered_iff e s u hle hok
  | popQueue e => exact pop_answered_iff e hle hok
  | leaveQueue e u => exact leave_answered_iff e u hle hok
  | joinQueue e u => exact iff_of_true (join_answered e u hle) trivial
  | set key value | del key | forceConfirmSeat e s u | queuePosition e u | peekQueue e =>
      exact iff_of_true (answeredOnce_of_idle hle rfl) trivial

end Ticketing.Commands
