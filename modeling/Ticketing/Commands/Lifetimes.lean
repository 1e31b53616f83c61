import Ticketing.Commands.Reference
import Mathlib.Order.WithBot

namespace Ticketing.Commands

open Python JsonText Storage

/-! ### Lifetimes -/

/-- How long a key lives: a dead key for the least time, a persistent one for the greatest. -/
abbrev Lifetime := WithBot (WithTop ℚ)

namespace Lifetime

variable {l l' : Lifetime} {t t' now new : ℚ} {option : Option ExpireOption}

def dead : Lifetime := ⊥

def persistent : Lifetime := ⊤

def upTo (deadline : ℚ) : Lifetime := ((deadline : WithTop ℚ) : WithBot (WithTop ℚ))

/-- What is left of a lifetime at an instant. -/
def elapse (t : ℚ) (l : Lifetime) : Lifetime := if l ≤ upTo t then dead else l

/-- What an option asks of the lifetime that a new deadline would replace. -/
def Condition (option : Option ExpireOption) (l : Lifetime) (new : ℚ) : Prop :=
  match option with
  | none => True
  | some .nx => l = persistent
  | some .xx => l < persistent
  | some .gt => l < upTo new
  | some .lt => upTo new < l

/-- A new deadline replaces the lifetime of a key that is alive. -/
def Renews (option : Option ExpireOption) (l : Lifetime) (new : ℚ) : Prop := l ≠ dead ∧ Condition option l new

instance : Decidable (Condition option l new) :=
  match option with
  | none => .isTrue trivial
  | some .nx => inferInstanceAs (Decidable (l = persistent))
  | some .xx => inferInstanceAs (Decidable (l < persistent))
  | some .gt => inferInstanceAs (Decidable (l < upTo new))
  | some .lt => inferInstanceAs (Decidable (upTo new < l))

instance : Decidable (Renews option l new) := inferInstanceAs (Decidable (_ ∧ _))

theorem upTo_le : upTo t ≤ upTo t' ↔ t ≤ t' := by simp [upTo]

theorem upTo_lt : upTo t < upTo t' ↔ t < t' := by simp [upTo]

theorem dead_le : dead ≤ l := bot_le

theorem le_persistent : l ≤ persistent := le_top

theorem dead_lt (t : ℚ) : dead < upTo t := WithBot.bot_lt_coe _

theorem upTo_lt_persistent (t : ℚ) : upTo t < persistent := WithBot.coe_lt_coe.mpr (WithTop.coe_lt_top t)

theorem elapse_le : elapse t l ≤ l := by
  unfold elapse
  split
  · exact dead_le
  · exact le_rfl

theorem elapse_mono (h : l ≤ l') : elapse t l ≤ elapse t l' := by
  unfold elapse
  split
  · exact dead_le
  next hl => rw [if_neg fun hl' => hl (h.trans hl')]; exact h

theorem elapse_elapse (h : t ≤ t') : elapse t' (elapse t l) = elapse t' l := by
  by_cases hl : l ≤ upTo t
  · rw [elapse, elapse, if_pos hl, if_pos dead_le, elapse, if_pos (hl.trans (upTo_le.mpr h))]
  · rw [elapse.eq_def t, if_neg hl]

theorem elapse_alive (h : elapse t l ≠ dead) : elapse t l = l ∧ upTo t < l := by
  unfold elapse at h ⊢
  split at h
  · exact absurd rfl h
  next hl => exact ⟨if_neg hl, not_le.mp hl⟩

theorem elapse_persistent : elapse t persistent = persistent := if_neg (not_le.mpr (upTo_lt_persistent t))

theorem elapse_eq_persistent : elapse t l = persistent ↔ l = persistent := by
  constructor
  · intro h
    exact le_antisymm le_persistent (h ▸ elapse_le)
  · rintro rfl
    exact elapse_persistent

/-- A duration that is not positive ends the key at once. -/
theorem elapse_upTo {seconds : Int} : elapse now (upTo (now + seconds)) =
    if seconds ≤ 0 then dead else upTo (now + seconds) := by
  have h : now + seconds ≤ now ↔ seconds ≤ 0 := by
    rw [add_le_iff_nonpos_right]
    exact Int.cast_nonpos
  simp only [elapse, upTo_le, h]

def ofEntry : Option Entry → Lifetime
  | none => dead
  | some entry => match entry.expiresAt with
    | none => persistent
    | some deadline => upTo deadline

theorem ofEntry_live (x : Option Entry) (now : ℚ) : ofEntry (x.filter (fun e => e.Live now)) = elapse now (ofEntry x) := by
  rcases x with _ | ⟨value, _ | d⟩
  · exact (if_pos dead_le).symm
  · rw [Option.filter_some_pos (by simp [Entry.Live])]
    exact elapse_persistent.symm
  · by_cases hd : d ≤ now
    · rw [Option.filter_some_neg (by simp [Entry.Live, hd])]
      exact (if_pos (upTo_le.mpr hd)).symm
    · rw [Option.filter_some_pos (by simp [Entry.Live, not_le.mp hd])]
      exact (if_neg fun h => hd (upTo_le.mp h)).symm

theorem ofEntry_ne_dead (e : Entry) : ofEntry (some e) ≠ dead := by
  rcases e with ⟨value, _ | d⟩
  · exact (lt_trans (dead_lt 0) (upTo_lt_persistent 0)).ne'
  · exact (dead_lt d).ne'

/-- The test of the source is the condition on the lifetime. -/
theorem shouldApply_iff (e : Entry) : ShouldApplyExpiry option e.expiresAt new ↔ Renews option (ofEntry (some e)) new := by
  rw [Renews, and_iff_right (ofEntry_ne_dead e)]
  rcases e with ⟨value, _ | d⟩
  · rcases option with _ | _ | _ | _ | _
    · exact Iff.rfl
    · exact iff_of_true rfl rfl
    · exact iff_of_false (fun h => h rfl) (lt_irrefl persistent)
    · exact iff_of_false id (upTo_lt_persistent new).not_gt
    · exact iff_of_true trivial (upTo_lt_persistent new)
  · rcases option with _ | _ | _ | _ | _
    · exact Iff.rfl
    · exact iff_of_false (Option.some_ne_none d) (upTo_lt_persistent d).ne
    · exact iff_of_true (Option.some_ne_none d) (upTo_lt_persistent d)
    · exact upTo_lt.symm
    · exact upTo_lt.symm

end Lifetime

open Lifetime

/-- The lifetime of a key, whatever the time. -/
def span (store : Store) (key : String) : Lifetime := ofEntry (store.lookup key)

def lifetime (store : Store) (key : String) (now : ℚ) : Lifetime := ofEntry (live store key now)

/-- What an `EXPIRE` answers and leaves behind. -/
structure ExpireSpec (store : Store) (now : ℚ) (key : String) (seconds : Int) (option : Option ExpireOption)
    (outcome : Except Error CommandResult × Store) : Prop where
  reply : outcome.1 =
    .ok (.scalar (.int (if Renews option (lifetime store key now) (now + seconds) then 1 else 0)))
  renewed : Renews option (lifetime store key now) (now + seconds) →
    lifetime outcome.2 key now = if seconds ≤ 0 then dead else upTo (now + seconds)
  refused : ¬ Renews option (lifetime store key now) (now + seconds) → ∀ k, live outcome.2 k now = live store k now
  others : ∀ k, k ≠ key → outcome.2.lookup k = store.lookup k

/-- A command that leaves the key alone, reads it, or is an `EXPIRE` on it with one of the options. -/
def Request.Watches (key : String) (options : List (Option ExpireOption)) : Request → Prop
  | .expire k _ option => k = key → ∀ o ∈ (normalizeExpireOption option).toOption, o ∈ options
  | r => r.target.key = key → r.target.name ∈ [.get, .ttl, .seatStatus, .queuePosition, .peekQueue]

instance (key : String) (options : List (Option ExpireOption)) : ∀ r : Request, Decidable (r.Watches key options)
  | .expire k _ option => inferInstanceAs (Decidable (k = key → ∀ o ∈ (normalizeExpireOption option).toOption, o ∈ options))
  | .set _ _ | .get _ | .del _ | .ttl _ | .reserveSeat _ _ _ _ | .confirmSeat _ _ _ | .forceConfirmSeat _ _ _
  | .releaseSeat _ _ _ | .seatStatus _ _ | .joinQueue _ _ | .queuePosition _ _ | .popQueue _ | .leaveQueue _ _
  | .peekQueue _ => inferInstanceAs (Decidable (_ = _ → _ ∈ _))

def Watches (key : String) (options : List (Option ExpireOption)) (command : List String) : Prop :=
  ∀ r ∈ (parseCommand command).toOption, r.Watches key options

instance (key : String) (options : List (Option ExpireOption)) (command : List String) :
    Decidable (Watches key options command) := inferInstanceAs (Decidable (∀ r ∈ _, _))

def anyOption : List (Option ExpireOption) := [none, some .nx, some .xx, some .gt, some .lt]

/-- An `EXPIRE` of the key with `NX` that is answered with 1. -/
def nxSucceeds (key : String) (store : Store) (x : ℚ × List String) : Bool :=
  match parseCommand x.2 with
  | .ok (.expire k _ option) => decide (k = key ∧ normalizeExpireOption option = .ok (some .nx) ∧
      (handleCommand x.2 x.1 store).1 = .ok (.scalar (.int 1)))
  | _ => false

def nxSuccesses (key : String) : Store → Run → Nat
  | _, [] => 0
  | store, x :: run => (nxSucceeds key store x).toNat + nxSuccesses key (step store x) run

variable {store : Store} {key : String} {now t : ℚ} {seconds : Int} {option : Option String} {o : Option ExpireOption}
  {options : List (Option ExpireOption)}

theorem lifetime_eq (store : Store) (key : String) (now : ℚ) : lifetime store key now = elapse now (span store key) :=
  ofEntry_live (store.lookup key) now

/-! ### One command -/

theorem expireEntry_renew (now : ℚ) (ho : normalizeExpireOption option = .ok o) (hs : seconds.natAbs < floatOverflow)
    (x : Option Entry) : (expireEntry seconds option now x).1 = .ok (decide (Renews o (ofEntry x) (now + seconds))) ∧
      if Renews o (ofEntry x) (now + seconds) then
        ofEntry (expireEntry seconds option now x).2 = elapse now (upTo (now + seconds))
      else (expireEntry seconds option now x).2 = x := by
  have hd : computeDeadline now seconds = .ok (now + seconds) := by simp [computeDeadline, toFloat, hs, Except.map]
  cases x with
  | none =>
      have hno : ¬ Renews o (ofEntry none) (now + seconds) := fun h => h.1 rfl
      rw [if_neg hno, decide_eq_false hno]
      simp only [expireEntry, ho, and_self]
  | some e =>
      simp only [expireEntry, ho, hd, shouldApply_iff]
      by_cases h : Renews o (ofEntry (some e)) (now + seconds)
      · rw [if_pos h, if_neg (not_not.mpr h), decide_eq_true h, elapse_upTo]
        split
        · exact ⟨rfl, rfl⟩
        · exact ⟨rfl, rfl⟩
      · rw [if_neg h, if_pos h, decide_eq_false h]
        exact ⟨rfl, rfl⟩

/-- An `EXPIRE` on the lifetime of its key. -/
theorem perform_expire (store : Store) (key : String) (now : ℚ) (ho : normalizeExpireOption option = .ok o)
    (hs : seconds.natAbs < floatOverflow) :
    (perform (.expire key seconds option) now store).1 =
        .ok (.scalar (flag (decide (Renews o (lifetime store key now) (now + seconds))))) ∧
      if Renews o (lifetime store key now) (now + seconds) then
        span (perform (.expire key seconds option) now store).2 key = elapse now (upTo (now + seconds))
      else (perform (.expire key seconds option) now store).2.lookup key = live store key now := by
  have hr : ¬ (Request.expire key seconds option).OnQueue := by simp [Request.OnQueue, Request.target]
  obtain ⟨hreply, hentry⟩ := perform_seen (r := .expire key seconds option) ⟨o, ho⟩ now store
  obtain ⟨hb, hx⟩ := expireEntry_renew now ho hs (live store key now)
  rw [Request.seen, if_neg hr] at hreply hentry
  simp only [Request.act, answering, Request.target] at hreply hentry
  rw [hb] at hreply
  refine ⟨hreply, ?_⟩
  rw [span, hentry]
  exact hx

theorem normalize_upper (ho : normalizeExpireOption option = .ok o) : normalizeExpireOption (option.map upper) = .ok o := by
  cases option with
  | none => exact ho
  | some s =>
      cases hv : validExpireOption (upper s) with
      | none => simp only [normalizeExpireOption, hv] at ho; cases ho
      | some o' =>
          have hfix : upper (upper s) = upper s := upper_validExpireOption (Option.isSome_iff_exists.mpr ⟨o', hv⟩)
          simp only [normalizeExpireOption, hv] at ho
          simp only [Option.map_some, normalizeExpireOption, hfix, hv]
          exact ho

/-- The tokens of an `EXPIRE`, with or without an option. -/
theorem parseCommand_expire {name raw : String} (key : String) (hname : upper name = "EXPIRE")
    (hraw : parseInt raw = some seconds) (ho : normalizeExpireOption option = .ok o) :
    parseCommand (name :: key :: raw :: option.toList) = .ok (.expire key seconds (option.map upper)) := by
  have hne : name ≠ "" := by
    rintro rfl
    exact absurd hname (by decide)
  cases option with
  | none =>
      have hv : validateCommand [name, key, raw] = .ok (.expire, [key, raw]) := by
        simp [validateCommand, hne, hname, supportedCommand, commandArity]
      simp only [Option.toList_none, parseCommand, hv, parseExpireArguments, hraw, Option.map_none]
  | some s =>
      have hv : validateCommand [name, key, raw, s] = .ok (.expire, [key, raw, s]) := by
        simp [validateCommand, hne, hname, supportedCommand, commandArity]
      have hs : (validExpireOption (upper s)).isSome := by
        cases hs : validExpireOption (upper s) with
        | none => simp only [normalizeExpireOption, hs] at ho; cases ho
        | some o' => rfl
      simp only [Option.toList_some, parseCommand, hv, parseExpireArguments, hraw, if_pos hs, Option.map_some]

theorem expire_spec {name raw : String} (store : Store) (key : String) (now : ℚ) (hname : upper name = "EXPIRE")
    (hraw : parseInt raw = some seconds) (hs : seconds.natAbs < floatOverflow) (ho : normalizeExpireOption option = .ok o) :
    ExpireSpec store now key seconds o (handleCommand (name :: key :: raw :: option.toList) now store) := by
  rw [handleCommand, parseCommand_expire key hname hraw ho]
  have hne (k : String) (hk : k ≠ key) :
      (perform (.expire key seconds (option.map upper)) now store).2.lookup k = store.lookup k :=
    perform_lookup_ne _ now store hk
  obtain ⟨hreply, hentry⟩ := perform_expire store key now (normalize_upper ho) hs
  refine ⟨?_, fun h => ?_, fun h k => ?_, hne⟩
  · by_cases h : Renews o (lifetime store key now) (now + seconds)
    · rw [if_pos h]
      rwa [decide_eq_true h] at hreply
    · rw [if_neg h]
      rwa [decide_eq_false h] at hreply
  · rw [if_pos h] at hentry
    rw [lifetime_eq, hentry, elapse_elapse le_rfl, elapse_upTo]
  · by_cases hk : k = key
    · rw [if_neg h] at hentry
      rw [hk, live, hentry]
      exact filter_live_live le_rfl _
    · rw [live, hne k hk, live]

/-! ### Runs -/

theorem expireEntry_cases (now : ℚ) (seconds : Int) (ho : normalizeExpireOption option = .ok o) (x : Option Entry) :
    (expireEntry seconds option now x).2 = x ∧ (expireEntry seconds option now x).1 ≠ .ok true ∨
      Renews o (ofEntry x) (now + seconds) ∧
        ofEntry (expireEntry seconds option now x).2 = elapse now (upTo (now + seconds)) := by
  by_cases hs : seconds.natAbs < floatOverflow
  · obtain ⟨hreply, hentry⟩ := expireEntry_renew now ho hs x
    by_cases h : Renews o (ofEntry x) (now + seconds)
    · rw [if_pos h] at hentry
      exact .inr ⟨h, hentry⟩
    · rw [if_neg h] at hentry
      refine .inl ⟨hentry, ?_⟩
      simp [hreply, h]
  · left
    cases x with
    | none => simp [expireEntry, ho]
    | some e => simp [expireEntry, ho, computeDeadline, toFloat, hs, Except.map]

/-- A command leaves the lifetime of a watched key to time, or replaces it. -/
theorem perform_watched {r : Request} (hr : r.Checked) (hw : r.Watches key options) (now : ℚ) (store : Store) :
    (span (perform r now store).2 key = span store key ∨ span (perform r now store).2 key = lifetime store key now) ∧
        (∀ seconds option, r = .expire key seconds option → (perform r now store).1 ≠ .ok (.scalar (.int 1))) ∨
      ∃ o ∈ options, ∃ new, Renews o (lifetime store key now) new ∧
        span (perform r now store).2 key = elapse now (upTo new) ∧
        ∀ seconds option, r = .expire key seconds option → normalizeExpireOption option = .ok o := by
  by_cases hk : r.target.key = key
  · obtain ⟨hreply, hentry⟩ := perform_seen hr now store
    rw [hk] at hentry
    cases r <;> obtain rfl := hk
    case expire key seconds option =>
      obtain ⟨o, ho⟩ := hr
      have hq : ¬ (Request.expire key seconds option).OnQueue := by simp [Request.OnQueue, Request.target]
      rw [Request.seen, if_neg hq] at hreply hentry
      simp only [Request.act, answering, Request.target] at hreply hentry
      rcases expireEntry_cases now seconds ho (live store key now) with ⟨hsame, hfalse⟩ | ⟨hrenew, hnew⟩
      · refine .inl ⟨.inr ?_, fun _ _ _ h => hfalse ?_⟩
        · rw [span, Request.target, hentry, hsame, lifetime]
        · rw [hreply] at h
          cases hb : (expireEntry seconds option now (live store key now)).1 with
          | error x => rw [hb] at h; cases h
          | ok b =>
              rw [hb] at h
              cases b with
              | false => cases h
              | true => rfl
      · refine .inr ⟨o, hw rfl o (by rw [ho]; rfl), now + seconds, hrenew, ?_, fun _ _ h => by cases h; exact ho⟩
        rw [span, Request.target, hentry, hnew]
    case get | ttl | seatStatus =>
      refine .inl ⟨.inr ?_, fun _ _ h => by cases h⟩
      rw [Request.seen, if_neg (by simp [Request.OnQueue, Request.target])] at hentry
      exact congrArg ofEntry hentry
    case queuePosition | peekQueue =>
      refine .inl ⟨.inl ?_, fun _ _ h => by cases h⟩
      rw [Request.seen, if_pos (by simp [Request.OnQueue, Request.target])] at hentry
      exact congrArg ofEntry hentry
    all_goals exact absurd (hw rfl) (by simp [Request.target])
  · refine .inl ⟨.inl (congrArg ofEntry (perform_lookup_ne r now store (Ne.symm hk))), ?_⟩
    rintro _ _ rfl
    exact absurd rfl hk

theorem step_watched {command : List String} (hw : Watches key options command) (now : ℚ) (store : Store) :
    (span (step store (now, command)) key = span store key ∨
        span (step store (now, command)) key = lifetime store key now) ∧ nxSucceeds key store (now, command) = false ∨
      ∃ o ∈ options, ∃ new, Renews o (lifetime store key now) new ∧
        span (step store (now, command)) key = elapse now (upTo new) ∧
        (nxSucceeds key store (now, command) = true → o = some .nx) := by
  cases hp : parseCommand command with
  | error x => exact .inl ⟨.inl (by simp only [step, handleCommand, hp]), by simp only [nxSucceeds, hp]⟩
  | ok r =>
      have hw : r.Watches key options := hw r (by rw [hp]; rfl)
      have hstep : step store (now, command) = (perform r now store).2 := by simp only [step, handleCommand, hp]
      have hnx (h : nxSucceeds key store (now, command) = true) : ∃ seconds option, r = .expire key seconds option ∧
          normalizeExpireOption option = .ok (some .nx) ∧ (perform r now store).1 = .ok (.scalar (.int 1)) := by
        simp only [nxSucceeds, hp, handleCommand] at h
        split at h
        next k seconds option heq =>
          cases heq
          obtain ⟨rfl, ho, hreply⟩ := of_decide_eq_true h
          exact ⟨seconds, option, rfl, ho, hreply⟩
        next => cases h
      rw [hstep]
      rcases perform_watched (parseCommand_checked hp) hw now store with ⟨hspan, hno⟩ | ⟨o, ho, new, hrenew, hspan, hopt⟩
      · refine .inl ⟨hspan, ?_⟩
        by_contra h
        obtain ⟨seconds, option, hr, _, hreply⟩ := hnx (Bool.eq_true_of_not_eq_false h)
        exact hno seconds option hr hreply
      · refine .inr ⟨o, ho, new, hrenew, hspan, fun h => ?_⟩
        obtain ⟨seconds, option, hr, hnorm, _⟩ := hnx h
        exact Except.ok.inj ((hopt seconds option hr).symm.trans hnorm)

theorem gt_step {command : List String} (hw : Watches key [some .gt] command) (hle : now ≤ t) :
    lifetime store key t ≤ lifetime (step store (now, command)) key t := by
  rw [lifetime_eq, lifetime_eq]
  rcases step_watched hw now store with ⟨hspan | hspan, _⟩ | ⟨o, ho, new, ⟨halive, hcond⟩, hspan, _⟩
  · rw [hspan]
  · rw [hspan, lifetime_eq, elapse_elapse hle]
  · obtain rfl := List.mem_singleton.mp ho
    have hcond : lifetime store key now < upTo new := hcond
    rw [lifetime_eq] at halive hcond
    obtain ⟨hsame, hlater⟩ := elapse_alive halive
    rw [hsame] at hcond
    rw [hspan, elapse_elapse hle]
    exact elapse_mono hcond.le

theorem lt_step {command : List String} (hw : Watches key [some .lt] command) (now t : ℚ) :
    lifetime (step store (now, command)) key t ≤ lifetime store key t := by
  rw [lifetime_eq, lifetime_eq]
  apply elapse_mono
  have hnow : lifetime store key now ≤ span store key := by
    rw [lifetime_eq]
    exact elapse_le
  rcases step_watched hw now store with ⟨hspan | hspan, _⟩ | ⟨o, ho, new, ⟨_, hcond⟩, hspan, _⟩
  · rw [hspan]
  · rwa [hspan]
  · obtain rfl := List.mem_singleton.mp ho
    have hcond : upTo new < lifetime store key now := hcond
    rw [hspan]
    exact elapse_le.trans (hcond.le.trans hnow)

theorem xx_step {command : List String} (hw : Watches key [some .xx] command) (now : ℚ)
    (h : span store key = persistent) : span (step store (now, command)) key = persistent := by
  have hnow : lifetime store key now = persistent := by rw [lifetime_eq, h, elapse_persistent]
  rcases step_watched hw now store with ⟨hspan | hspan, _⟩ | ⟨o, ho, new, ⟨_, hcond⟩, hspan, _⟩
  · rw [hspan, h]
  · rw [hspan, hnow]
  · obtain rfl := List.mem_singleton.mp ho
    have hcond : lifetime store key now < persistent := hcond
    exact absurd hnow hcond.ne

/-- A key with a deadline keeps one, and an `NX` fails on it. -/
theorem volatile_step {command : List String} (hw : Watches key anyOption command) (now : ℚ)
    (h : span store key ≠ persistent) :
    span (step store (now, command)) key ≠ persistent ∧ nxSucceeds key store (now, command) = false := by
  have hnow : lifetime store key now ≠ persistent := by rwa [lifetime_eq, Ne, elapse_eq_persistent]
  rcases step_watched hw now store with ⟨hspan | hspan, hno⟩ | ⟨o, ho, new, ⟨_, hcond⟩, hspan, hnx⟩
  · exact ⟨by rwa [hspan], hno⟩
  · exact ⟨by rwa [hspan], hno⟩
  · refine ⟨?_, ?_⟩
    · rw [hspan, Ne, elapse_eq_persistent]
      exact (upTo_lt_persistent new).ne
    · by_contra hsucc
      obtain rfl := hnx (Bool.eq_true_of_not_eq_false hsucc)
      exact hnow hcond

theorem nx_step {command : List String} (hw : Watches key anyOption command) (now : ℚ) (store : Store) :
    nxSucceeds key store (now, command) = false ∨ span (step store (now, command)) key ≠ persistent := by
  rcases step_watched hw now store with ⟨_, hno⟩ | ⟨o, ho, new, _, hspan, _⟩
  · exact .inl hno
  · right
    rw [hspan, Ne, elapse_eq_persistent]
    exact (upTo_lt_persistent new).ne

theorem gt_run {run : Run} (hw : ∀ x ∈ run, x.1 ≤ t ∧ Watches key [some .gt] x.2) :
    lifetime store key t ≤ lifetime (execute store run) key t := by
  induction run generalizing store with
  | nil => exact le_rfl
  | cons x run ih =>
      obtain ⟨hle, hx⟩ := hw x List.mem_cons_self
      exact (gt_step hx hle).trans (ih fun y hy => hw y (List.mem_cons_of_mem _ hy))

theorem lt_run {run : Run} (hw : ∀ x ∈ run, Watches key [some .lt] x.2) (t : ℚ) :
    lifetime (execute store run) key t ≤ lifetime store key t := by
  induction run generalizing store with
  | nil => exact le_rfl
  | cons x run ih =>
      have hrest : lifetime (execute (step store x) run) key t ≤ lifetime (step store x) key t :=
        ih fun y hy => hw y (List.mem_cons_of_mem _ hy)
      exact hrest.trans (lt_step (hw x List.mem_cons_self) x.1 t)

theorem xx_run {run : Run} (hw : ∀ x ∈ run, Watches key [some .xx] x.2) (h : span store key = persistent) :
    span (execute store run) key = persistent := by
  induction run generalizing store with
  | nil => exact h
  | cons x run ih =>
      apply ih fun y hy => hw y (List.mem_cons_of_mem _ hy)
      exact xx_step (hw x List.mem_cons_self) x.1 h

theorem volatile_run {run : Run} (hw : ∀ x ∈ run, Watches key anyOption x.2) (h : span store key ≠ persistent) :
    nxSuccesses key store run = 0 := by
  induction run generalizing store with
  | nil => rfl
  | cons x run ih =>
      obtain ⟨hnext, hno⟩ := volatile_step (hw x List.mem_cons_self) x.1 h
      rw [nxSuccesses, hno, ih (fun y hy => hw y (List.mem_cons_of_mem _ hy)) hnext]
      rfl

theorem nx_run {run : Run} (hw : ∀ x ∈ run, Watches key anyOption x.2) : nxSuccesses key store run ≤ 1 := by
  induction run generalizing store with
  | nil => exact Nat.zero_le 1
  | cons x run ih =>
      have hrest : ∀ y ∈ run, Watches key anyOption y.2 := fun y hy => hw y (List.mem_cons_of_mem _ hy)
      rw [nxSuccesses]
      rcases nx_step (hw x List.mem_cons_self) x.1 store with hno | hvolatile
      · rw [hno, Bool.toNat_false, Nat.zero_add]
        exact ih hrest
      · rw [volatile_run hrest hvolatile]
        exact Bool.toNat_le _

/-- `EXPIRE` replaces a lifetime under the condition of its option, so that while a key meets nothing but
`EXPIRE` and reads, `GT` never shortens its life, `LT` never lengthens it, `NX` is applied once at most and
`XX` leaves a persistent key persistent. -/
theorem expire_by_lifetime (store : Store) (key : String) :
    (∀ (now : ℚ) (seconds : Int) (name raw : String) (option : Option String) (o : Option ExpireOption),
      upper name = "EXPIRE" → parseInt raw = some seconds → seconds.natAbs < floatOverflow →
        normalizeExpireOption option = .ok o →
          ExpireSpec store now key seconds o (handleCommand (name :: key :: raw :: option.toList) now store)) ∧
      ∀ (run : Run) (t : ℚ),
        ((∀ x ∈ run, x.1 ≤ t ∧ Watches key [some .gt] x.2) →
          lifetime store key t ≤ lifetime (execute store run) key t) ∧
        ((∀ x ∈ run, Watches key [some .lt] x.2) → lifetime (execute store run) key t ≤ lifetime store key t) ∧
        ((∀ x ∈ run, Watches key anyOption x.2) → nxSuccesses key store run ≤ 1) ∧
        ((∀ x ∈ run, Watches key [some .xx] x.2) → lifetime store key t = persistent →
          lifetime (execute store run) key t = persistent) := by
  refine ⟨fun now seconds name raw option o hname hraw hs ho => expire_spec store key now hname hraw hs ho, fun run t =>
    ⟨gt_run, fun hw => lt_run hw t, nx_run, fun hw h => ?_⟩⟩
  rw [lifetime_eq, elapse_eq_persistent] at h ⊢
  exact xx_run hw h

/-- A key with a deadline at 10, which two `EXPIRE` move. -/
def movedDeadline : Run :=
  [(1, ["EXPIRE", "k", "5", "gt"]), (2, ["expire", "k", "20", "Gt"]), (3, ["TTL", "k"]), (4, ["EXPIRE", "k", "1", "GT"])]

theorem movedDeadline_kept : upTo 10 ≤ lifetime (execute (AList.insert "k" ⟨"v", some 10⟩ ∅) movedDeadline) "k" 5 ∧
    (handleCommand ["Expire", "k", "0", "lT"] 3 (AList.insert "k" ⟨"v", some 10⟩ ∅)).1 = .ok (.scalar (.int 1)) := by
  have h := expire_by_lifetime (AList.insert "k" ⟨"v", some 10⟩ ∅) "k"
  have hlife (t : ℚ) (ht : t < 10) : lifetime (AList.insert "k" ⟨"v", some 10⟩ ∅) "k" t = upTo 10 := by
    rw [lifetime_eq, span, AList.lookup_insert]
    exact if_neg (not_le.mpr (upTo_lt.mpr ht))
  constructor
  · rw [← hlife 5 (by norm_num)]
    exact (h.2 movedDeadline 5).1 (by decide +kernel)
  · have hspec := h.1 3 0 "Expire" "0" (some "lT") (some .lt) (by decide +kernel) (by decide +kernel)
      (by unfold floatOverflow; decide +kernel) (by decide +kernel)
    have hreply := hspec.reply
    rw [hlife 3 (by norm_num), if_pos ⟨(dead_lt 10).ne', upTo_lt.mpr (by norm_num)⟩] at hreply
    exact hreply

end Ticketing.Commands
