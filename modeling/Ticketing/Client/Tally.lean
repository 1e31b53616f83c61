import Ticketing.Client.SeatLocks
import Mathlib.Data.Fintype.Card
import Mathlib.Order.Interval.Finset.Nat

namespace Ticketing.Client

open Python JsonText Storage Commands Server AppServer

variable {users : Nat}

section Turns

variable {seatNo : Fin users → Nat} {d d' : Demo users} {user : Fin users}

/-! ### The tally of a run -/

def Outcome.isSold : Outcome → Bool
  | .sold _ => true
  | _ => false

def Outcome.isFailed : Outcome → Bool
  | .failed _ => true
  | _ => false

def Outcome.isDisconnected : Outcome → Bool
  | .failed .disconnected => true
  | _ => false

/-- The users who have been told an outcome of a kind. -/
def ended (kind : Outcome → Bool) (phase : Fin users → Phase) : Finset (Fin users) :=
  Finset.univ.filter fun i => (phase i).outcome.any kind

variable {kind : Outcome → Bool} {phase : Fin users → Phase} {p : Phase}

theorem mem_ended {i : Fin users} : i ∈ ended kind phase ↔ (phase i).outcome.any kind = true := by
  simp [ended]

theorem ended_same (h : p.outcome = (phase user).outcome) :
    ended kind (Function.update phase user p) = ended kind phase := by
  ext i
  rw [mem_ended, mem_ended]
  by_cases hi : i = user
  · rw [hi, Function.update_self, h]
  · rw [Function.update_of_ne hi]

theorem ended_more (h : p.outcome.any kind = true) :
    ended kind (Function.update phase user p) = insert user (ended kind phase) := by
  ext i
  rw [Finset.mem_insert, mem_ended, mem_ended]
  by_cases hi : i = user
  · simp [hi, h]
  · rw [Function.update_of_ne hi, or_iff_right hi]

theorem ended_other (hq : (phase user).outcome = none) (h : p.outcome.any kind = false) :
    ended kind (Function.update phase user p) = ended kind phase := by
  ext i
  rw [mem_ended, mem_ended]
  by_cases hi : i = user
  · rw [hi, Function.update_self, h, hq]
    rfl
  · rw [Function.update_of_ne hi]

theorem card_ended_more (hq : (phase user).outcome = none) (h : p.outcome.any kind = true) :
    (ended kind (Function.update phase user p)).card = (ended kind phase).card + 1 := by
  rw [ended_more h, Finset.card_insert_of_notMem]
  rw [mem_ended, hq]
  exact Bool.false_ne_true

theorem Breaks.outcome {q : Phase} (h : Breaks p) (hq : q.outcome = none) :
    p.outcome = q.outcome ∨ q.outcome = none ∧ p.outcome = some .crashed := by
  rcases h with rfl | rfl
  · exact .inl hq.symm
  · exact .inr ⟨hq, rfl⟩

theorem Goes.outcome {entry : Option Entry} {q : Phase} (h : Goes entry user q p) :
    p.outcome = q.outcome ∨ q.outcome = none ∧ p.outcome = some .crashed := by
  cases h with
  | connected | free | taken | verified | changed => exact .inl rfl
  | broken hq hp =>
      refine hp.outcome ?_
      simp only [List.mem_cons, List.not_mem_nil, or_false] at hq
      rcases hq with rfl | rfl | rfl | rfl <;> rfl

/-- The tally is what the users have been told, and no two winners have been told the same. -/
structure Tally (totalSeats : Nat) (seatNo : Fin users → Nat) (d : Demo users) : Prop where
  total : d.stats.totalSeats = totalSeats
  sold : d.stats.soldSeats = (ended Outcome.isSold d.phase).image seatNo
  success : d.stats.successCount = (ended Outcome.isSold d.phase).card
  fail : d.stats.failCount = (ended Outcome.isFailed d.phase).card
  connection : d.stats.connectionFailures = (ended Outcome.isDisconnected d.phase).card
  remaining : ∀ i r, (d.phase i).outcome = some (.sold r) → (totalSeats : Int) - d.stats.successCount ≤ r ∧ r < totalSeats
  distinct : ∀ i j r, (d.phase i).outcome = some (.sold r) → (d.phase j).outcome = some (.sold r) → i = j

theorem Discipline.told (h : Discipline seatNo d) {i : Fin users} {outcome : Outcome}
    (hi : (d.phase i).outcome = some outcome) : Told seatNo d i outcome := by
  have hstands := h.stands i
  cases hp : d.phase i with
  | leaving o =>
      rw [hp] at hi hstands
      cases hi
      exact hstands.2
  | finished o =>
      rw [hp] at hi hstands
      cases hi
      exact hstands
  | waiting | connecting | reading | writing | verifying | selling | failing why =>
      rw [hp] at hi
      cases hi

/-- Turns that record nothing: the user has been told what they had been told, or crashes. -/
theorem Tally.same {totalSeats : Nat} (h : Tally totalSeats seatNo d) (hphase : d'.phase = Function.update d.phase user p)
    (hp : p.outcome = (d.phase user).outcome ∨ (d.phase user).outcome = none ∧ p.outcome = some .crashed)
    (hstats : d'.stats = d.stats) : Tally totalSeats seatNo d' := by
  have hended {kind : Outcome → Bool} (hkind : kind .crashed = false) : ended kind d'.phase = ended kind d.phase := by
    rw [hphase]
    rcases hp with hp | ⟨hq, hp⟩
    · exact ended_same hp
    · exact ended_other hq (by rw [hp]; exact hkind)
  have hold {i : Fin users} {r : Int} (hi : (d'.phase i).outcome = some (.sold r)) :
      (d.phase i).outcome = some (.sold r) := by
    rw [hphase] at hi
    by_cases hiu : i = user
    · rw [hiu, Function.update_self] at hi
      rcases hp with hp | ⟨-, hp⟩
      · rwa [hiu, ← hp]
      · cases hp.symm.trans hi
    · rwa [Function.update_of_ne hiu] at hi
  refine ⟨?_, ?_, ?_, ?_, ?_, fun i r hi => ?_, fun i j r hi hj => h.distinct i j r (hold hi) (hold hj)⟩
  · rw [hstats, h.total]
  · rw [hstats, hended rfl, h.sold]
  · rw [hstats, hended rfl, h.success]
  · rw [hstats, hended rfl, h.fail]
  · rw [hstats, hended rfl, h.connection]
  · rw [hstats]
    exact h.remaining i r (hold hi)

/-- A failure that is recorded. -/
theorem Tally.failed {totalSeats : Nat} (h : Tally totalSeats seatNo d) {why : Failure}
    (hq : d.phase user = .failing why) (hphase : d'.phase = Function.update d.phase user (.leaving (.failed why)))
    (hstats : d'.stats = if why = .disconnected then d.stats.recordConnectionFailure else d.stats.recordFailure) :
    Tally totalSeats seatNo d' := by
  have hnone : (d.phase user).outcome = none := by rw [hq]; rfl
  have hold (i : Fin users) (r : Int) (hi : (d'.phase i).outcome = some (.sold r)) :
      (d.phase i).outcome = some (.sold r) := by
    rw [hphase] at hi
    by_cases hiu : i = user
    · rw [hiu, Function.update_self] at hi
      cases hi
    · rwa [Function.update_of_ne hiu] at hi
  have hsold : ended Outcome.isSold d'.phase = ended Outcome.isSold d.phase := by rw [hphase, ended_other hnone rfl]
  have hfailed : (ended Outcome.isFailed d'.phase).card = (ended Outcome.isFailed d.phase).card + 1 := by
    rw [hphase, card_ended_more hnone rfl]
  have hcommon (hs : d'.stats = d.stats.recordConnectionFailure ∨ d'.stats = d.stats.recordFailure) :
      d'.stats.totalSeats = d.stats.totalSeats ∧ d'.stats.soldSeats = d.stats.soldSeats ∧
        d'.stats.successCount = d.stats.successCount ∧ d'.stats.failCount = d.stats.failCount + 1 := by
    rcases hs with hs | hs <;> rw [hs] <;> exact ⟨rfl, rfl, rfl, rfl⟩
  obtain ⟨htotal, hseats, hsuccess, hfail⟩ := hcommon (by rw [hstats]; split <;> simp)
  refine ⟨?_, ?_, ?_, ?_, ?_, fun i r hi => ?_, fun i j r hi hj => h.distinct i j r (hold i r hi) (hold j r hj)⟩
  · rw [htotal, h.total]
  · rw [hseats, hsold, h.sold]
  · rw [hsuccess, hsold, h.success]
  · rw [hfail, hfailed, h.fail]
  · rw [hstats, hphase]
    split
    next hwhy =>
      rw [card_ended_more hnone (by rw [hwhy]; rfl), ← h.connection]
      rfl
    next hwhy =>
      rw [ended_other hnone (by cases why <;> first | rfl | exact absurd rfl hwhy), ← h.connection]
      rfl
  · rw [hsuccess]
    exact h.remaining i r (hold i r hi)

/-- Two winners of one seat are one. -/
theorem Discipline.winner (h : Discipline seatNo d) {i j : Fin users} {r r' : Int}
    (hi : (d.phase i).outcome = some (.sold r)) (hj : (d.phase j).outcome = some (.sold r'))
    (hseat : seatNo i = seatNo j) : i = j := by
  have hmark : d.entry seatNo i = some (mark i) := h.told hi
  have hmark' : d.entry seatNo j = some (mark j) := h.told hj
  rw [Demo.entry, hseat] at hmark
  exact mark_injective (Option.some.inj (hmark.symm.trans hmark'))

theorem sold_of_mem {i : Fin users} (h : i ∈ ended Outcome.isSold phase) : ∃ r, (phase i).outcome = some (.sold r) := by
  obtain ⟨outcome, ho, hkind⟩ := (Option.any_eq_true _ _).mp (mem_ended.mp h)
  cases outcome with
  | sold r => exact ⟨r, ho⟩
  | failed why => cases hkind
  | crashed => cases hkind

theorem Tally.soldSeats_card {totalSeats : Nat} (h : Tally totalSeats seatNo d) (hd : Discipline seatNo d) :
    d.stats.soldSeats.card = d.stats.successCount := by
  rw [h.sold, h.success]
  refine Finset.card_image_of_injOn fun i hi j hj hseat => ?_
  obtain ⟨r, hr⟩ := sold_of_mem hi
  obtain ⟨r', hr'⟩ := sold_of_mem hj
  exact hd.winner hr hr' hseat

theorem Tally.unsold {totalSeats : Nat} (h : Tally totalSeats seatNo d) (hd : Discipline seatNo d)
    (hq : d.phase user = .selling) : seatNo user ∉ d.stats.soldSeats := by
  rw [h.sold, Finset.mem_image]
  rintro ⟨j, hj, hseat⟩
  obtain ⟨r, hr⟩ := sold_of_mem hj
  have hstands := hd.stands user
  rw [hq] at hstands
  have hmark : d.entry seatNo j = some (mark j) := hd.told hr
  rw [Demo.entry, hseat] at hmark
  obtain rfl := mark_injective (Option.some.inj (hmark.symm.trans hstands.2))
  rw [hq] at hr
  cases hr

theorem Tally.sells {totalSeats : Nat} (h : Tally totalSeats seatNo d) (hd : Discipline seatNo d)
    (hq : d.phase user = .selling) :
    Tally totalSeats seatNo ({ d with stats := (d.stats.recordSuccess (seatNo user)).2 }.goto user
      (.leaving (.sold (d.stats.recordSuccess (seatNo user)).1))) := by
  have hnone : (d.phase user).outcome = none := by rw [hq]; rfl
  have hlast : (d.stats.recordSuccess (seatNo user)).1 = (totalSeats : Int) - d.stats.successCount - 1 := by
    show ((d.stats.totalSeats : Int) - (insert (seatNo user) d.stats.soldSeats).card) = _
    rw [Finset.card_insert_of_notMem (h.unsold hd hq), h.soldSeats_card hd, h.total]
    push_cast
    omega
  have hold {i : Fin users} {r : Int} (hi : i ≠ user)
      (hr : (Function.update d.phase user (.leaving (.sold (d.stats.recordSuccess (seatNo user)).1)) i).outcome =
        some (.sold r)) : (d.phase i).outcome = some (.sold r) := by
    rwa [Function.update_of_ne hi] at hr
  have hnew {r : Int}
      (hr : (Function.update d.phase user (.leaving (.sold (d.stats.recordSuccess (seatNo user)).1)) user).outcome =
        some (.sold r)) : r = (totalSeats : Int) - d.stats.successCount - 1 := by
    rw [Function.update_self] at hr
    cases hr
    exact hlast
  refine ⟨h.total, ?_, ?_, ?_, ?_, fun i r hr => ?_, fun i j r hi hj => ?_⟩
  · show insert (seatNo user) d.stats.soldSeats = _
    rw [Demo.goto, ended_more rfl, Finset.image_insert, h.sold]
  · show d.stats.successCount + 1 = _
    rw [Demo.goto, card_ended_more hnone rfl, h.success]
  · show d.stats.failCount = _
    rw [Demo.goto, ended_other hnone rfl, h.fail]
  · show d.stats.connectionFailures = _
    rw [Demo.goto, ended_other hnone rfl, h.connection]
  · show (totalSeats : Int) - ((d.stats.successCount + 1 : Nat) : Int) ≤ r ∧ r < totalSeats
    by_cases hi : i = user
    · subst hi
      have := hnew hr
      omega
    · have := h.remaining i r (hold hi hr)
      omega
  · by_cases hiu : i = user
    · by_cases hju : j = user
      · rw [hiu, hju]
      · subst hiu
        have := hnew hi
        have := h.remaining j r (hold hju hj)
        omega
    · by_cases hju : j = user
      · subst hju
        have := hnew hj
        have := h.remaining i r (hold hiu hi)
        omega
      · exact h.distinct i j r (hold hiu hi) (hold hju hj)

theorem Tally.turned {totalSeats : Nat} (h : Tally totalSeats seatNo d) (hd : Discipline seatNo d)
    (ht : Turned seatNo d user d') : Tally totalSeats seatNo d' := by
  cases ht with
  | idle => exact h
  | locks hq => exact h.same rfl (.inl (by rw [hq]; rfl)) rfl
  | goes hp => exact h.same rfl hp.outcome rfl
  | writes hq hp =>
      refine h.same rfl ?_ rfl
      rw [hq]
      rcases hp with rfl | hp
      · exact .inl rfl
      · exact hp.outcome rfl
  | sells hq => exact h.sells hd hq
  | cut hq => exact h.failed hq rfl rfl
  | fails hq hwhy => exact h.failed hq rfl (if_neg hwhy).symm
  | unlocks hq => exact h.same rfl (.inl (by rw [hq]; rfl)) rfl

end Turns

/-! ### Runs -/

/-- Another client's command, about no seat of the demo. -/
def SparesSeats (tokens : List String) : Prop := ∀ x ∈ target tokens, ∀ n, x.key ≠ seatKey n

def Event.Spares : Event users → Prop
  | .user .. => True
  | .client _ tokens => SparesSeats tokens

section Runs

variable {seatNo : Fin users → Nat} {d : Demo users} {totalSeats : Nat} {event : Event users}

theorem step_spares {tokens : List String} (h : SparesSeats tokens) (now : ℚ) (redis : Store) (n : Nat) :
    (step redis (now, tokens)).lookup (seatKey n) = redis.lookup (seatKey n) := by
  cases hp : parseCommand tokens with
  | error e => simp [step, handleCommand, hp]
  | ok r =>
      have ht := parseCommand_target hp
      exact step_lookup_ne ht (h r.target ht n).symm

theorem Discipline.next (h : Discipline seatNo d) (he : event.Spares) : Discipline seatNo (d.next seatNo event) := by
  cases event with
  | user user env => exact h.turned (turn_cases (h.undated user) env)
  | client now tokens =>
      have hentry (i : Fin users) : (d.next seatNo (.client now tokens)).entry seatNo i = d.entry seatNo i :=
        step_spares he now d.redis _
      refine ⟨fun i => (h.stands i).later (fun hl => ⟨hl, hentry i⟩) fun entry hi => (hentry i).trans hi, ?_⟩
      intro i entry hi
      exact h.marks i entry ((hentry i).symm.trans hi)

theorem Tally.next (h : Tally totalSeats seatNo d) (hd : Discipline seatNo d) (event : Event users) :
    Tally totalSeats seatNo (d.next seatNo event) := by
  cases event with
  | user user env => exact h.turned hd (turn_cases (hd.undated user) env)
  | client now tokens => exact ⟨h.total, h.sold, h.success, h.fail, h.connection, h.remaining, h.distinct⟩

theorem run_tally {events : List (Event users)} (hevents : ∀ event ∈ events, event.Spares) (hd : Discipline seatNo d)
    (h : Tally totalSeats seatNo d) :
    Discipline seatNo (d.run seatNo events) ∧ Tally totalSeats seatNo (d.run seatNo events) := by
  induction events generalizing d with
  | nil => exact ⟨hd, h⟩
  | cons event events ih =>
      have hmem := List.forall_mem_cons.mp hevents
      exact ih hmem.2 (hd.next hmem.1) (h.next hd event)

theorem discipline_start (hseat : ∀ i, 1 ≤ seatNo i ∧ seatNo i ≤ totalSeats) {env : Nat → Env} {redis redis' : Store}
    (h : resetSeats env (List.range' 1 totalSeats) redis = .ok redis') :
    Discipline seatNo (Demo.start totalSeats redis') := by
  refine ⟨fun i => trivial, fun i entry hentry => ?_⟩
  have hmem : seatNo i ∈ List.range' 1 totalSeats := List.mem_range'_1.mpr ⟨(hseat i).1, by have := (hseat i).2; omega⟩
  cases ((resetSeats_clears h).1 _ hmem).symm.trans hentry

theorem tally_start (redis : Store) : Tally totalSeats seatNo (Demo.start totalSeats redis) := by
  have hnone (kind : Outcome → Bool) : ended kind (Demo.start totalSeats redis : Demo users).phase = ∅ := by
    refine Finset.eq_empty_of_forall_notMem fun i hi => ?_
    exact Bool.false_ne_true (mem_ended.mp hi)
  refine ⟨rfl, ?_, ?_, ?_, ?_, nofun, nofun⟩
  · rw [hnone]
    rfl
  · rw [hnone]
    rfl
  · rw [hnone]
    rfl
  · rw [hnone]
    rfl

/-- What has been told stays. -/
theorem Turned.outcome {user : Fin users} {d' : Demo users} (ht : Turned seatNo d user d') {i : Fin users}
    {outcome : Outcome} (h : (d.phase i).outcome = some outcome) : (d'.phase i).outcome = some outcome := by
  have onward {p : Phase} (hp : (d.phase user).outcome = some outcome → p.outcome = some outcome) :
      (Function.update d.phase user p i).outcome = some outcome := by
    by_cases hi : i = user
    · rw [hi, Function.update_self]
      exact hp (hi ▸ h)
    · rwa [Function.update_of_ne hi]
  have fresh {q p : Phase} (hq : d.phase user = q) (hnone : q.outcome = none) :
      (Function.update d.phase user p i).outcome = some outcome :=
    onward fun ho => by rw [hq, hnone] at ho; cases ho
  cases ht with
  | idle => exact h
  | locks hq => exact fresh hq rfl
  | goes hp =>
      refine onward fun ho => ?_
      rcases hp.outcome with hp | ⟨hnone, -⟩
      · exact hp.trans ho
      · cases hnone.symm.trans ho
  | writes hq => exact fresh hq rfl
  | sells hq => exact fresh hq rfl
  | cut hq => exact fresh hq rfl
  | fails hq => exact fresh hq rfl
  | unlocks hq => exact onward fun ho => by rwa [hq] at ho

theorem run_outcome {events : List (Event users)} (hevents : ∀ event ∈ events, event.Spares) (hd : Discipline seatNo d)
    {i : Fin users} {outcome : Outcome} (h : (d.phase i).outcome = some outcome) :
    ((d.run seatNo events).phase i).outcome = some outcome := by
  induction events generalizing d with
  | nil => exact h
  | cons event events ih =>
      have hmem := List.forall_mem_cons.mp hevents
      refine ih hmem.2 (hd.next hmem.1) ?_
      cases event with
      | user user env => exact (turn_cases (hd.undated user) env).outcome h
      | client now tokens => exact h

/-- What the demo shows on the screen is so. -/
structure Fair (totalSeats : Nat) (seatNo : Fin users → Nat) (d : Demo users) : Prop where
  success : d.stats.successCount = d.stats.soldSeats.card
  remaining : d.stats.remainingSeats = (totalSeats : Int) - d.stats.successCount
  enough : d.stats.successCount ≤ totalSeats
  winners : ∀ n, n ∈ d.stats.soldSeats ↔ ∃ i r, seatNo i = n ∧ (d.phase i).outcome = some (.sold r)
  once : ∀ i j r r', (d.phase i).outcome = some (.sold r) → (d.phase j).outcome = some (.sold r') → seatNo i = seatNo j →
    i = j
  stored : ∀ i r, (d.phase i).outcome = some (.sold r) → d.redis.lookup (seatKey (seatNo i)) = some ⟨userId i, none⟩
  shown : ∀ i r, (d.phase i).outcome = some (.sold r) →
    0 ≤ r ∧ r < totalSeats ∧ ∀ j, (d.phase j).outcome = some (.sold r) → j = i
  refused : ∀ i, (d.phase i).outcome = some (.failed .taken) →
    ∃ j, j ≠ i ∧ seatNo j = seatNo i ∧ d.redis.lookup (seatKey (seatNo i)) = some ⟨userId j, none⟩
  unchanged : ∀ i, (d.phase i).outcome ≠ some (.failed .changed)
  connection : d.stats.connectionFailures =
    (Finset.univ.filter fun i => (d.phase i).outcome = some (.failed .disconnected)).card
  everyone : (∀ i, (d.phase i).outcome ≠ none ∧ (d.phase i).outcome ≠ some .crashed) →
    d.stats.successCount + d.stats.failCount = users
  complete : (∀ i, (d.phase i).outcome ≠ none) → ∀ i, seatNo i ∈ d.stats.soldSeats ∨
    ∃ j, seatNo j = seatNo i ∧ ((d.phase j).outcome = some (.failed .disconnected) ∨ (d.phase j).outcome = some .crashed)

theorem sold_mem_ended {i : Fin users} {r : Int} (h : (d.phase i).outcome = some (.sold r)) :
    i ∈ ended Outcome.isSold d.phase := by
  rw [mem_ended, h]
  rfl

theorem Tally.mem_soldSeats (h : Tally totalSeats seatNo d) (n : Nat) :
    n ∈ d.stats.soldSeats ↔ ∃ i r, seatNo i = n ∧ (d.phase i).outcome = some (.sold r) := by
  rw [h.sold, Finset.mem_image]
  constructor
  · rintro ⟨i, hi, hn⟩
    obtain ⟨r, hr⟩ := sold_of_mem hi
    exact ⟨i, r, hn, hr⟩
  · rintro ⟨i, r, hn, hr⟩
    exact ⟨i, sold_mem_ended hr, hn⟩

theorem Tally.everyone (h : Tally totalSeats seatNo d)
    (hall : ∀ i, (d.phase i).outcome ≠ none ∧ (d.phase i).outcome ≠ some .crashed) :
    d.stats.successCount + d.stats.failCount = users := by
  have hsplit : ended Outcome.isFailed d.phase = (ended Outcome.isSold d.phase)ᶜ := by
    ext i
    obtain ⟨hnone, hcrash⟩ := hall i
    rw [Finset.mem_compl, mem_ended, mem_ended]
    cases ho : (d.phase i).outcome with
    | none => exact absurd ho hnone
    | some outcome =>
        cases outcome with
        | sold r => simp [Outcome.isFailed, Outcome.isSold]
        | failed why => simp [Outcome.isFailed, Outcome.isSold]
        | crashed => exact absurd ho hcrash
  rw [h.success, h.fail, hsplit, Finset.card_add_card_compl, Fintype.card_fin]

theorem Phase.Marked.outcome {p : Phase} {outcome : Outcome} (h : p.Marked) (ho : p.outcome = some outcome) :
    outcome ≠ .failed .taken ∧ outcome ≠ .failed .changed := by
  cases p with
  | leaving o | finished o =>
      cases ho
      exact h
  | waiting | connecting | reading | writing | verifying | selling | failing why => cases ho

/-- Who finds a mark, finds the mark of one who has bought the seat or has lost the connection. -/
theorem Discipline.complete (hd : Discipline seatNo d) (h : Tally totalSeats seatNo d)
    (hall : ∀ i, (d.phase i).outcome ≠ none) (i : Fin users) : seatNo i ∈ d.stats.soldSeats ∨
      ∃ j, seatNo j = seatNo i ∧
        ((d.phase j).outcome = some (.failed .disconnected) ∨ (d.phase j).outcome = some .crashed) := by
  obtain ⟨outcome, ho⟩ := Option.ne_none_iff_exists'.mp (hall i)
  cases outcome with
  | sold r => exact .inl ((h.mem_soldSeats _).mpr ⟨i, r, rfl, ho⟩)
  | crashed => exact .inr ⟨i, rfl, .inr ho⟩
  | failed why =>
      cases why with
      | changed => exact (hd.told ho).elim
      | disconnected => exact .inr ⟨i, rfl, .inl ho⟩
      | taken =>
          obtain ⟨other, -, -, hentry⟩ := hd.told ho
          obtain ⟨j, hseat, hj, -⟩ := hd.marks i _ hentry
          obtain ⟨o, hoj⟩ := Option.ne_none_iff_exists'.mp (hall j)
          obtain ⟨htaken, hchanged⟩ := hj.outcome hoj
          cases o with
          | sold r => exact .inl ((h.mem_soldSeats _).mpr ⟨j, r, hseat, hoj⟩)
          | crashed => exact .inr ⟨j, hseat, .inr hoj⟩
          | failed why =>
              cases why with
              | taken => exact absurd rfl htaken
              | changed => exact absurd rfl hchanged
              | disconnected => exact .inr ⟨j, hseat, .inl hoj⟩

theorem Tally.fair (h : Tally totalSeats seatNo d) (hd : Discipline seatNo d)
    (hseat : ∀ i, 1 ≤ seatNo i ∧ seatNo i ≤ totalSeats) : Fair totalSeats seatNo d := by
  have hcard := h.soldSeats_card hd
  have henough : d.stats.successCount ≤ totalSeats := by
    have hsub : d.stats.soldSeats ⊆ Finset.Icc 1 totalSeats := by
      intro n hn
      obtain ⟨i, -, rfl, -⟩ := (h.mem_soldSeats n).mp hn
      exact Finset.mem_Icc.mpr (hseat i)
    have := Finset.card_le_card hsub
    rwa [hcard, Nat.card_Icc, Nat.add_sub_cancel] at this
  refine ⟨hcard.symm, ?_, henough, h.mem_soldSeats, fun i j r r' hi hj => hd.winner hi hj, fun i r hi => hd.told hi,
    fun i r hi => ?_, fun i hi => hd.told hi, fun i hi => hd.told hi, ?_, h.everyone, hd.complete h⟩
  · rw [DemoStats.remainingSeats, h.total, hcard]
  · obtain ⟨hlow, hhigh⟩ := h.remaining i r hi
    exact ⟨by omega, hhigh, fun j hj => h.distinct j i r hj hi⟩
  · rw [h.connection, ended]
    refine congrArg Finset.card (Finset.filter_congr fun i _ => ?_)
    cases (d.phase i).outcome with
    | none => simp
    | some outcome =>
        cases outcome with
        | sold r => simp [Outcome.isDisconnected]
        | crashed => simp [Outcome.isDisconnected]
        | failed why => cases why <;> simp [Outcome.isDisconnected]

/-- In every run of the demo, with any other clients of the server and whatever connections break: no seat is sold
twice, the counts are those of what the users have been told, and everything told stays so. -/
theorem demo_fair (hseat : ∀ i, 1 ≤ seatNo i ∧ seatNo i ≤ totalSeats) {env : Nat → Env} {redis redis' : Store}
    (hreset : resetSeats env (List.range' 1 totalSeats) redis = .ok redis') (events more : List (Event users))
    (hevents : ∀ event ∈ events ++ more, event.Spares) :
    let d := (Demo.start totalSeats redis').run seatNo events
    Fair totalSeats seatNo d ∧
      ∀ i outcome, (d.phase i).outcome = some outcome → ((d.run seatNo more).phase i).outcome = some outcome := by
  obtain ⟨hbefore, hafter⟩ := List.forall_mem_append.mp hevents
  obtain ⟨hd, ht⟩ := run_tally hbefore (discipline_start hseat hreset) (tally_start redis')
  exact ⟨ht.fair hd hseat, fun i outcome ho => run_outcome hafter hd ho⟩

end Runs

def picks : Fin 3 → Nat
  | 0 => 1
  | 1 => 1
  | 2 => 2

def quiet : Env := ⟨0, "", .none⟩

/-- What an earlier demo has left. -/
def leftover : Store := Storage.set (Storage.set ∅ "seat:1" "User_9") "note" "kept"

def freshSeats : Store := Storage.set ∅ "note" "kept"

/-- Two users race for one seat while the third loses the reply to its write. -/
def race : List (Event 3) :=
  [.user 0 quiet, .user 1 quiet] ++ List.replicate 3 (.user 2 quiet) ++
    [.user 2 ⟨1, "", .fail true ⟨.osError, "timed out"⟩⟩, .client 2 ["SET", "note", "changed"]] ++
    List.replicate 7 (.user 0 quiet) ++ List.replicate 5 (.user 1 quiet) ++ List.replicate 2 (.user 2 quiet)

theorem race_fair : Fair 2 picks ((Demo.start 2 freshSeats).run picks race) ∧
    ((Demo.start 2 freshSeats).run picks race).phase 1 = .finished (.failed .taken) := by
  have hreset : resetSeats (fun _ => quiet) (List.range' 1 2) leftover = .ok freshSeats := rfl
  have hspares : SparesSeats ["SET", "note", "changed"] := by
    intro x hx n hn
    cases hx
    have := congrArg String.toList hn
    simp [seatKey] at this
  refine ⟨(demo_fair (by decide) hreset race [] fun event hevent => ?_).1, by decide +kernel⟩
  cases event with
  | user user env => trivial
  | client now tokens =>
      have hclient : now = 2 ∧ tokens = ["SET", "note", "changed"] := by simpa [race] using hevent
      rw [hclient.2]
      exact hspares

end Ticketing.Client
