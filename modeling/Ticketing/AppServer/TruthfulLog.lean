import Ticketing.AppServer.OrchestrationLog

namespace Ticketing.AppServer

open Python Interaction TicketingApi Repository
open Interaction.Program (Sat Refines onOk lift both alongside lift_retried refines_lift refines_retried)

/-! ### What an entry says of the stores -/

/-- Two stores on which the row of a reservation has a status for good. -/
def Closed (db : Database ℚ) (id : String) (S : ReservationStatus) : Prop := TicketingApi.status db id = some S

theorem Transition.closed {db db' : Database ℚ} {id : String} {S : ReservationStatus} {write : Tables ℚ → Tables ℚ}
    {f : Reservation ℚ → Reservation ℚ} {x : Except Error (ReservationRecord ℚ)} {r : ReservationRecord ℚ}
    (h : Transition db id S write x db')
    (hwrite : findReservation (write db.tables) id = (findReservation db.tables id).map f) (hf : ∀ r, (f r).status = S)
    (hx : x = .ok r) : Closed db' id S := by
  cases h with
  | failed e hx' hdb => cases hx'.symm.trans hx
  | already row hrow hS hx' hdb => simp [Closed, TicketingApi.status, hdb, hrow, hS]
  | written row hrow hheld r' hx' hget hdb => simp [Closed, TicketingApi.status, hdb, hwrite, hrow, hf]

theorem dbStep_cancelled {now : ℚ} {db : Database ℚ} {id : String} {r : ReservationRecord ℚ}
    (h : (dbStep now db (.cancelReservation id)).1 = .ok r) :
    Closed (dbStep now db (.cancelReservation id)).2 id .cancelled ∧ ∃ row, findReservation db.tables id = some row := by
  have ht := dbStep_cancel now db id
  refine ⟨ht.closed (findReservation_updateReservation (by intro r; rfl) _ id) (fun _ => rfl) h, ?_⟩
  have before {row : Reservation ℚ} (hrow : findReservation (db.expire now).tables id = some row) :
      ∃ row, findReservation db.tables id = some row := by
    rw [findReservation_expire] at hrow
    obtain ⟨row₀, hrow₀, _⟩ := Option.map_eq_some_iff.mp hrow
    exact ⟨row₀, hrow₀⟩
  cases ht with
  | failed e hx hdb => cases hx.symm.trans h
  | already row hrow hS hx hdb => exact before hrow
  | written row hrow hheld r' hx hget hdb => exact before hrow

theorem dbStep_expired {now : ℚ} {db : Database ℚ} {id : String} {r : ReservationRecord ℚ}
    (h : (dbStep now db (.expireReservation id)).1 = .ok r) :
    Closed (dbStep now db (.expireReservation id)).2 id .expired :=
  (dbStep_expire now db id).closed (findReservation_updateReservation (by intro r; rfl) _ id) (fun _ => rfl) h

theorem Closed.evolves {db db' : Database ℚ} {id : String} {S : ReservationStatus} (h : Closed db id S) (hS : S ≠ .held)
    (hev : Evolves db db') : Closed db' id S := by
  obtain ⟨r, hr, rfl⟩ := Option.map_eq_some_iff.mp h
  obtain ⟨r', hr', _, hst⟩ := hev id r hr
  rcases hst with hst | hst
  · simp [Closed, TicketingApi.status, hr', hst]
  · exact absurd hst hS

/-- The entry is about the seat and the user. -/
def OrchestrationLogEntry.About (entry : OrchestrationLogEntry) (e s u : String) : Prop :=
  entry.eventId = some e ∧ entry.seatId = some s ∧ entry.userId = some u

/-- The DB reservation is cancelled, and of the seat and the user. -/
def CancelledRow (db : Database ℚ) (id e s u : String) : Prop := Closed db id .cancelled ∧ RowHas db id e s u

/-- What the entries that report a success of the database, or a seat finalised, say is so. -/
structure Truth (entry : OrchestrationLogEntry) (w : World) : Prop where
  created : entry.action = "CREATE_HELD" → entry.status = "SUCCESS" →
    ∃ id e s u, entry.detail = some id ∧ entry.About e s u ∧ RowHas w.db id e s u
  confirmed : entry.action = "CONFIRM_RESERVATION" → entry.status = "SUCCESS" →
    ∃ id e s u, entry.detail = some id ∧ entry.About e s u ∧ SoldRow w.db id e s u
  finalized : entry.action = "FORCE_CONFIRM_SEAT" → entry.status = "SUCCESS" →
    ∃ e s u, entry.About e s u ∧ SoldSeat e s u w
  cancelled : entry.action = "CANCEL_RESERVATION" → entry.status = "SUCCESS" →
    ∃ id e s u, entry.detail = some id ∧ entry.About e s u ∧ CancelledRow w.db id e s u
  expired : entry.action = "EXPIRE_RESERVATION" → entry.status = "SUCCESS" →
    ∃ id, entry.detail = some id ∧ Closed w.db id .expired

section Entries

variable {entry : OrchestrationLogEntry} {w : World} {id e s u : String}

theorem truth_created (ha : entry.action = "CREATE_HELD") (hid : entry.detail = some id) (habout : entry.About e s u)
    (h : RowHas w.db id e s u) : Truth entry w where
  created _ _ := ⟨id, e, s, u, hid, habout, h⟩
  confirmed hne := absurd (ha.symm.trans hne) (by decide)
  finalized hne := absurd (ha.symm.trans hne) (by decide)
  cancelled hne := absurd (ha.symm.trans hne) (by decide)
  expired hne := absurd (ha.symm.trans hne) (by decide)

theorem truth_confirmed (ha : entry.action = "CONFIRM_RESERVATION") (hid : entry.detail = some id)
    (habout : entry.About e s u) (h : SoldRow w.db id e s u) : Truth entry w where
  created hne := absurd (ha.symm.trans hne) (by decide)
  confirmed _ _ := ⟨id, e, s, u, hid, habout, h⟩
  finalized hne := absurd (ha.symm.trans hne) (by decide)
  cancelled hne := absurd (ha.symm.trans hne) (by decide)
  expired hne := absurd (ha.symm.trans hne) (by decide)

theorem truth_finalized (ha : entry.action = "FORCE_CONFIRM_SEAT") (habout : entry.About e s u) (h : SoldSeat e s u w) :
    Truth entry w where
  created hne := absurd (ha.symm.trans hne) (by decide)
  confirmed hne := absurd (ha.symm.trans hne) (by decide)
  finalized _ _ := ⟨e, s, u, habout, h⟩
  cancelled hne := absurd (ha.symm.trans hne) (by decide)
  expired hne := absurd (ha.symm.trans hne) (by decide)

theorem truth_cancelled (ha : entry.action = "CANCEL_RESERVATION") (hid : entry.detail = some id)
    (habout : entry.About e s u) (h : CancelledRow w.db id e s u) : Truth entry w where
  created hne := absurd (ha.symm.trans hne) (by decide)
  confirmed hne := absurd (ha.symm.trans hne) (by decide)
  finalized hne := absurd (ha.symm.trans hne) (by decide)
  cancelled _ _ := ⟨id, e, s, u, hid, habout, h⟩
  expired hne := absurd (ha.symm.trans hne) (by decide)

theorem truth_expired (ha : entry.action = "EXPIRE_RESERVATION") (hid : entry.detail = some id)
    (h : Closed w.db id .expired) : Truth entry w where
  created hne := absurd (ha.symm.trans hne) (by decide)
  confirmed hne := absurd (ha.symm.trans hne) (by decide)
  finalized hne := absurd (ha.symm.trans hne) (by decide)
  cancelled hne := absurd (ha.symm.trans hne) (by decide)
  expired _ _ := ⟨id, hid, h⟩

end Entries

theorem cancelledRow_stable (id e s u : String) : Stable fun w => CancelledRow w.db id e s u :=
  fun a b hm h => ⟨h.1.evolves nofun hm.evolves, rowHas_stable id e s u a b hm h.2⟩

theorem truth_stable (entry : OrchestrationLogEntry) : Stable (Truth entry) := by
  intro a b hm h
  refine ⟨fun ha hs => ?_, fun ha hs => ?_, fun ha hs => ?_, fun ha hs => ?_, fun ha hs => ?_⟩
  · obtain ⟨id, e, s, u, hid, habout, hrow⟩ := h.created ha hs
    exact ⟨id, e, s, u, hid, habout, rowHas_stable id e s u a b hm hrow⟩
  · obtain ⟨id, e, s, u, hid, habout, hrow⟩ := h.confirmed ha hs
    exact ⟨id, e, s, u, hid, habout, hrow.evolves hm.evolves⟩
  · obtain ⟨e, s, u, habout, hseat⟩ := h.finalized ha hs
    exact ⟨e, s, u, habout, soldSeat_stable e s u a b hm hseat⟩
  · obtain ⟨id, e, s, u, hid, habout, hrow⟩ := h.cancelled ha hs
    exact ⟨id, e, s, u, hid, habout, cancelledRow_stable id e s u a b hm hrow⟩
  · obtain ⟨id, hid, hrow⟩ := h.expired ha hs
    exact ⟨id, hid, hrow.evolves nofun hm.evolves⟩

/-- An entry that reports no success says nothing of the stores. -/
theorem truth_of_status {entry : OrchestrationLogEntry} (h : entry.status ≠ "SUCCESS") (w : World) : Truth entry w :=
  ⟨fun _ hs => absurd hs h, fun _ hs => absurd hs h, fun _ hs => absurd hs h, fun _ hs => absurd hs h,
    fun _ hs => absurd hs h⟩

/-! ### Traced flows among other calls -/

abbrev LoggedWorld := World × OrchestrationLogStore

/-- All that has ever been recorded. -/
def OrchestrationLogStore.all (log : OrchestrationLogStore) : List OrchestrationLogEntry := log.recorded ++ log.cleared

/-- Nothing in the log is false. -/
def Honest (w : LoggedWorld) : Prop := ∀ entry ∈ w.2.recorded, Truth entry w.1

/-- What may happen between two steps of a traced flow. -/
structure LogMoves (w w' : LoggedWorld) : Prop where
  moves : Moves w.1 w'.1
  honest : Honest w → Honest w'
  keeps : ∀ entry ∈ w.2.all, entry ∈ w'.2.all

theorem LogMoves.refl (w : LoggedWorld) : LogMoves w w := ⟨Moves.refl w.1, id, fun _ h => h⟩

theorem LogMoves.trans (a b c : LoggedWorld) (h : LogMoves a b) (h' : LogMoves b c) : LogMoves a c :=
  ⟨h.moves.trans a.1 b.1 c.1 h'.moves, h'.honest ∘ h.honest, fun entry hm => h'.keeps entry (h.keeps entry hm)⟩

/-- An entry can be recorded where it is true. -/
def LogAllowed (w : LoggedWorld) : AppOp ⊕ LogOp → Prop
  | .inl op => Allowed w.1 op
  | .inr (.record entry) => Truth entry w.1
  | .inr .now => True
  | .inr .clear => True

def LogSteps (C : World → AppOp → Prop) (w : LoggedWorld) (op : AppOp ⊕ LogOp)
    (x : Except Error (Both AppOp.Res LogOp.Res op)) (w' : LoggedWorld) : Prop :=
  (∀ app, op = .inl app → C w.1 app) ∧ ∃ env, tracedStep env w op = (x, w')

/-- A traced flow among other calls: its steps are allowed, and its results satisfy `Q`. -/
abbrev Tells {α : Type} (C : World → AppOp → Prop) (Q : α → LoggedWorld → Prop) (p : Traced α) (w : LoggedWorld) : Prop :=
  p.Sat LogMoves (LogSteps C) (fun w op _ => LogAllowed w op) (onOk Q) w

def LogStable (J : LoggedWorld → Prop) : Prop := ∀ a b, LogMoves a b → J a → J b

theorem record_keeps {log : OrchestrationLogStore} {entry : OrchestrationLogEntry} (new : OrchestrationLogEntry)
    (h : entry ∈ log.all) : entry ∈ (log.record new).all :=
  List.mem_cons_of_mem _ h

section Interference

variable {α β : Type} {C : World → AppOp → Prop} {Q : α → LoggedWorld → Prop} {J : LoggedWorld → Prop}
  {w w' : LoggedWorld}

theorem logSteps_moves {op : AppOp ⊕ LogOp} {x : Except Error (Both AppOp.Res LogOp.Res op)} (h : LogSteps C w op x w')
    (ha : LogAllowed w op) : LogMoves w w' := by
  obtain ⟨_, env, he⟩ := h
  have hw : w' = (tracedStep env w op).2 := by rw [he]
  subst hw
  rcases op with op | op
  · have hm : Moves w.1 (appStep env w.1 op).2 := appStep_moves ha
    exact ⟨hm, fun hw entry hmem => truth_stable entry _ _ hm (hw entry hmem), fun _ h => h⟩
  cases op with
  | now => exact LogMoves.refl w
  | record entry =>
      refine ⟨Moves.refl _, fun hw new hmem => ?_, fun old hmem => record_keeps entry hmem⟩
      rcases List.mem_cons.mp hmem with rfl | hmem
      · exact ha
      · exact hw new hmem
  | clear => exact ⟨Moves.refl _, fun _ entry hmem => absurd hmem List.not_mem_nil, fun _ hmem => hmem⟩

theorem logSteps_fail {tokens : List String} {e : Error} (h : LogSteps C w (.inl (.redis tokens)) (.error e) w')
    (e' : Error) : LogSteps C w (.inl (.redis tokens)) (.error e') w' := by
  obtain ⟨hC, env, henv⟩ := h
  have hfst : (tracedStep env w (.inl (.redis tokens))).1 = .error e := congrArg Prod.fst henv
  obtain ⟨env', happ⟩ := appStep_fails (Prod.ext hfst (congrArg (fun r => r.2.1) henv)) e'
  have hlog : w.2 = w'.2 := congrArg (fun r => r.2.2) henv
  refine ⟨hC, env', ?_⟩
  show ((appStep env' w.1 (.redis tokens)).1, (appStep env' w.1 (.redis tokens)).2, w.2) = _
  rw [happ, hlog]

theorem tells_lift {p : Flow α} {Q : α → World → Prop} (h : Meets C Q p w.1) :
    Tells C (fun a w' => Q a w'.1) (lift p) w := by
  have hsat : Sat LogMoves (LogSteps C) (fun w op _ => LogAllowed w op) (fun x (w' : LoggedWorld) => onOk Q x w'.1)
      (lift p : Traced α) w :=
    Sat.lift (fun _ _ hm => hm.moves) (fun w op x w' ht => ?_) (fun _ _ _ hg => hg) h
  · refine hsat.mono fun x w' hx => ?_
    cases x with
    | ok a => exact hx
    | error e => trivial
  · obtain ⟨hC, env, he⟩ := ht
    have hx : (tracedStep env w (.inl op)).1 = x := congrArg Prod.fst he
    exact ⟨hC op rfl, env, Prod.ext hx (congrArg (fun r => r.2.1) he)⟩

theorem tells_frame (hJ : LogStable J) {p : Traced α} {post : Except Error α → LoggedWorld → Prop}
    (h : p.Sat LogMoves (LogSteps C) (fun w op _ => LogAllowed w op) post w) (hs : J w) :
    p.Sat LogMoves (LogSteps C) (fun w op _ => LogAllowed w op) (fun x w' => post x w' ∧ J w') w := by
  have hk : ∀ w (op : AppOp ⊕ LogOp) x w', LogSteps C w op x w' → LogAllowed w op → J w → J w' :=
    fun w op x w' ht hg => hJ _ _ (logSteps_moves ht hg)
  exact Sat.frame hJ hk h hs

theorem Tells.frame (hJ : LogStable J) {p : Traced α} (h : Tells C Q p w) (hs : J w) :
    Tells C (fun a w' => Q a w' ∧ J w') p w := by
  refine (tells_frame hJ h hs).mono fun x w' hx => ?_
  cases x with
  | ok a => exact hx
  | error e => trivial

theorem Tells.tryCatch (hJ : LogStable J) {p : Traced α} {f : Error → Traced α} (h : Tells C Q p w) (hs : J w)
    (hf : ∀ e w', J w' → Tells C Q (f e) w') : Tells C Q (tryCatch p f) w :=
  Sat.tryCatch LogMoves.refl (tells_frame hJ h hs) (fun _ _ hx => hx.1) fun e w' hx => hf e w' hx.2

theorem Tells.mono {Q' : α → LoggedWorld → Prop} {p : Traced α} (h : Tells C Q p w) (hQ : ∀ a w', Q a w' → Q' a w') :
    Tells C Q' p w := by
  refine Sat.mono h fun x w' hx => ?_
  cases x with
  | ok a => exact hQ a w' hx
  | error e => trivial

theorem tells_ret {a : α} (h : ∀ w', LogMoves w w' → Q a w') : Tells C Q (pure a) w := h

theorem tells_throw (e : Error) : Tells C Q (throw e) w := fun _ _ => trivial

/-- The calls that change no store for good. -/
theorem tells_gentle (hJ : LogStable J) {p : Flow α} (hp : p.Calls GentleOp) (hs : J w) :
    Tells C (fun _ w' => J w') (lift p) w :=
  (Tells.frame hJ (tells_lift (meets_gentle hp w.1)) hs).mono fun _ _ h => h.2

/-! ### Entries -/

/-- Such an entry has been recorded. -/
def Logged (action status : String) (e s u detail : Option String) (w : LoggedWorld) : Prop :=
  ∃ entry ∈ w.2.all, entry.action = action ∧ entry.status = status ∧ entry.eventId = e ∧ entry.seatId = s ∧
    entry.userId = u ∧ entry.detail = detail

theorem logged_stable (action status : String) (e s u detail : Option String) :
    LogStable (Logged action status e s u detail) := by
  rintro a b hm ⟨entry, hmem, hentry⟩
  exact ⟨entry, hm.keeps entry hmem, hentry⟩

variable {target action status : String} {eventId seatId userId detail : Option String}

/-- A line of the log that is true whenever it may be written. -/
theorem tells_trace (hJ : LogStable J) (hs : J w)
    (ht : ∀ w', J w' → ∀ now, Truth ⟨now, "APP", target, action, status, eventId, seatId, userId, detail⟩ w'.1) :
    Tells C (fun _ w' => J w' ∧ Logged action status eventId seatId userId detail w')
      (TracedOrchestrator.trace target action status eventId seatId userId detail) w := by
  unfold TracedOrchestrator.trace log
  refine Sat.seq (Q := fun _ w' => J w') LogMoves.refl ?_ fun now w₁ hs₁ => ?_
  · intro w₁ hm x w₂ hstep
    have hs₂ := hJ _ _ (logSteps_moves hstep trivial) (hJ _ _ hm hs)
    refine ⟨trivial, ?_⟩
    cases x with
    | error e => exact fun _ _ => trivial
    | ok now => exact fun w' hm' => hJ _ _ hm' hs₂
  · intro w₂ hm x w₃ hstep
    have htrue := ht w₂ (hJ _ _ hm hs₁) now
    have hs₃ := hJ _ _ (logSteps_moves hstep htrue) (hJ _ _ hm hs₁)
    refine ⟨htrue, ?_⟩
    obtain ⟨_, env, he⟩ := hstep
    have hw : w₃ = (w₂.1, w₂.2.record ⟨now, "APP", target, action, status, eventId, seatId, userId, detail⟩) :=
      (congrArg Prod.snd he).symm
    cases x with
    | error e => exact fun _ _ => trivial
    | ok u =>
        refine fun w' hm' => ⟨hJ _ _ hm' hs₃, logged_stable _ _ _ _ _ _ _ _ hm' ?_⟩
        rw [hw]
        exact ⟨_, List.mem_cons_self, rfl, rfl, rfl, rfl, rfl, rfl⟩

/-- A line that says nothing of the stores. -/
theorem tells_aside (hJ : LogStable J) (hs : J w)
    (h : status ≠ "SUCCESS" ∨ action ∉ ["CREATE_HELD", "CONFIRM_RESERVATION", "FORCE_CONFIRM_SEAT", "CANCEL_RESERVATION",
      "EXPIRE_RESERVATION"] := by decide) :
    Tells C (fun _ w' => J w') (TracedOrchestrator.trace target action status eventId seatId userId detail) w := by
  refine (tells_trace hJ hs fun w' _ now => ?_).mono fun _ _ h => h.1
  rcases h with h | h
  · exact truth_of_status h w'.1
  · simp only [List.mem_cons, List.not_mem_nil, or_false, not_or] at h
    exact ⟨fun ha => absurd ha h.1, fun ha => absurd ha h.2.1, fun ha => absurd ha h.2.2.1, fun ha => absurd ha h.2.2.2.1,
      fun ha => absurd ha h.2.2.2.2⟩

/-! ### The flows -/

section Flows

open TracedOrchestrator

theorem stable_log {I : World → Prop} (hI : Stable I) : LogStable fun w => I w.1 := fun _ _ hm => hI _ _ hm.moves

theorem LogStable.and {J' : LoggedWorld → Prop} (hJ : LogStable J) (hJ' : LogStable J') : LogStable fun w => J w ∧ J' w :=
  fun _ _ hm h => ⟨hJ _ _ hm h.1, hJ' _ _ hm h.2⟩

theorem closed_stable (id : String) {S : ReservationStatus} (hS : S ≠ .held) : Stable fun w => Closed w.db id S :=
  fun _ _ hm h => h.evolves hS hm.evolves

variable {id e s u : String}

theorem tells_safeRelease (hJ : LogStable J) (hs : J w) : Tells C (fun _ w' => J w') (safeRelease e s u) w := by
  refine Tells.tryCatch hJ ?_ hs fun _ w hs => tells_aside hJ hs
  refine (tells_aside hJ hs).seq LogMoves.refl fun _ w hs => ?_
  refine (tells_gentle hJ (calls_seatStatus gentleOp_basic.seatStatus e s) hs).seq LogMoves.refl fun status w hs => ?_
  split
  · exact (tells_gentle hJ (calls_releaseSeat (gentle_releaseSeat e s u)) hs).seq LogMoves.refl
      fun _ w hs => tells_aside hJ hs
  · exact tells_aside hJ hs

theorem tells_safeExpire (hJ : LogStable J) (hs : J w) : Tells C (fun _ w' => J w') (safeExpire id) w := by
  have hclosed := stable_log (closed_stable id (S := .expired) nofun)
  refine Tells.tryCatch hJ ?_ hs fun _ w hs => tells_aside hJ hs
  refine (tells_aside hJ hs).seq LogMoves.refl fun _ w hs => ?_
  refine Sat.seq (Q := fun _ w' => Closed w'.1.db id .expired ∧ J w') LogMoves.refl ?_ fun _ w h => ?_
  · refine Tells.frame hJ (tells_lift (Q := fun _ w' => Closed w'.db id .expired)
      (meets_db fun w₁ _ _ now r w' hok hm' => ?_)) hs
    exact (dbStep_expired hok).evolves nofun hm'.evolves
  · refine (tells_trace (hclosed.and hJ) h fun w' h now => ?_).mono fun _ _ h => h.1.2
    exact truth_expired rfl rfl h.1

theorem tells_safeCancel (hJ : LogStable J) (hs : J w) : Tells C (fun _ w' => J w') (safeCancel id e s u) w := by
  refine Sat.seq (Q := fun _ w' => J w') LogMoves.refl (Tells.tryCatch hJ ?_ hs fun _ w hs => ?_)
    fun _ w hs => tells_safeRelease hJ hs
  · exact (tells_gentle hJ (calls_db gentleOp_basic.usual (by trivial)) hs).seq LogMoves.refl
      fun _ w hs => tells_ret fun w' hm => hJ _ _ hm hs
  · exact tells_ret fun w' hm => hJ _ _ hm hs

theorem tells_finalizeAttempts (attempts : Nat) (lastError : Option Error) (hJ : LogStable J)
    (hs : J w ∧ ConfirmedSeat w.1.db e s u) :
    Tells C (fun _ w' => SoldSeat e s u w'.1 ∧ J w' ∧
        Logged "FORCE_CONFIRM_SEAT" "SUCCESS" (some e) (some s) (some u) none w')
      (finalizeAttempts e s u attempts lastError) w := by
  induction attempts generalizing w lastError with
  | zero => exact tells_throw _
  | succ attempts ih =>
      have hI := hJ.and (stable_log (confirmedSeat_stable e s u))
      have hsold := stable_log (soldSeat_stable e s u)
      refine Sat.seq (Q := fun result w' => (J w' ∧ ConfirmedSeat w'.1.db e s u) ∧
          ∀ r, result = Except.ok r → SoldSeat e s u w'.1) LogMoves.refl (Tells.tryCatch hI ?_ hs fun e' w hs => ?_)
        fun result w h => ?_
      · refine (tells_aside hI hs).seq LogMoves.refl fun _ w hs => ?_
        refine (Tells.frame hI (tells_lift (meets_force hs.2)) hs).seq LogMoves.refl fun r w h => ?_
        exact tells_ret fun w' hm => ⟨hI _ _ hm h.2, fun _ _ => hsold _ _ hm h.1⟩
      · split
        · exact (tells_aside hI hs).seq LogMoves.refl fun _ w hs => tells_ret fun w' hm => ⟨hI _ _ hm hs, nofun⟩
        · exact tells_throw _
      · cases result with
        | error e' => exact ih _ h.1
        | ok r =>
            dsimp only
            split
            · refine (tells_trace (hsold.and hJ) ⟨h.2 r rfl, h.1.1⟩ fun w' h now => ?_).seq LogMoves.refl
                fun _ w h => tells_ret fun w' hm =>
                  ⟨hsold _ _ hm h.1.1, hJ _ _ hm h.1.2, logged_stable _ _ _ _ _ _ _ _ hm h.2⟩
              exact truth_finalized rfl ⟨rfl, rfl, rfl⟩ h.1
            · exact (tells_aside hI h.1).seq LogMoves.refl fun _ w hs => ih _ hs

theorem tells_holdReservation (e s u : String) (n : Int) (w : LoggedWorld) :
    Tells C (fun r w' => RowHas w'.1.db r.reservation.reservation.reservationId e s u ∧
        Logged "CREATE_HELD" "SUCCESS" (some e) (some s) (some u) (some r.reservation.reservation.reservationId) w')
      (holdReservation e s u n) w := by
  have hT : LogStable fun _ => True := fun _ _ _ _ => trivial
  have gentle {α : Type} {p : Flow α} (hp : p.Calls GentleOp) (w : LoggedWorld) :
      Tells C (fun _ _ => True) (lift p) w := tells_gentle hT hp trivial
  refine (gentle (calls_findEventSeat gentleOp_basic.usual e s) w).seq LogMoves.refl fun _ w _ => ?_
  refine (tells_aside hT trivial).seq LogMoves.refl fun _ w _ => ?_
  refine (gentle (calls_reserveSeat (gentle_reserveSeat e s u) n) w).seq LogMoves.refl fun reserved w _ => ?_
  split
  · exact (tells_aside hT trivial).seq LogMoves.refl fun _ _ _ => tells_throw _
  refine (tells_aside hT trivial).seq LogMoves.refl fun _ w _ => ?_
  refine (gentle (calls_uuid4 gentleOp_basic.usual) w).seq LogMoves.refl fun id w _ => ?_
  refine (gentle (calls_uuid4 gentleOp_basic.usual) w).seq LogMoves.refl fun token w _ => ?_
  refine (gentle (calls_currentTime gentleOp_basic.usual) w).seq LogMoves.refl fun now w _ => ?_
  refine (gentle (Program.Calls.ofExcept GentleOp _) w).seq LogMoves.refl fun expiresAt w _ => ?_
  refine Sat.seq (Q := fun created w' => RowHas w'.1.db created.1.reservation.reservationId e s u) LogMoves.refl
    (Tells.tryCatch hT ?_ trivial fun e' w _ => ?_) fun created w hrow => ?_
  · refine (tells_aside hT trivial).seq LogMoves.refl fun _ w _ =>
      tells_lift (Q := fun (created : ReservationRecord ℚ × Bool) w' =>
        RowHas w'.db created.1.reservation.reservationId e s u)
        (meets_db fun w₁ _ _ now created w' hok hm' => ?_)
    obtain ⟨hfind, hrow⟩ := dbStep_created hok
    refine rowHas_stable _ e s u _ _ hm' ⟨created.1.reservation, ?_, hrow⟩
    rw [(findReservation_mem hfind).2]
    exact hfind
  · exact (tells_aside hT trivial).seq LogMoves.refl fun _ w _ =>
      (tells_safeRelease hT trivial).seq LogMoves.refl fun _ _ _ => tells_throw _
  · have hI := stable_log (rowHas_stable created.1.reservation.reservationId e s u)
    refine (tells_trace hI hrow fun w' hrow now => ?_).seq LogMoves.refl fun _ w h => ?_
    · exact truth_created rfl rfl ⟨rfl, rfl, rfl⟩ hrow
    · have hJ := hI.and (logged_stable "CREATE_HELD" "SUCCESS" (some e) (some s) (some u)
        (some created.1.reservation.reservationId))
      exact (tells_gentle hJ (calls_getEventSeat gentleOp_basic.usual e s) h).seq LogMoves.refl
        fun _ w h => tells_ret fun w' hm => hJ _ _ hm h

/-- What a confirmation that returns leaves behind, in the stores and in the log. -/
def Confirmation (id e s u : String) (w : LoggedWorld) : Prop :=
  SoldRow w.1.db id e s u ∧ SoldSeat e s u w.1 ∧
    Logged "CONFIRM_RESERVATION" "SUCCESS" (some e) (some s) (some u) (some id) w ∧
    Logged "FORCE_CONFIRM_SEAT" "SUCCESS" (some e) (some s) (some u) none w

theorem confirmation_stable (id e s u : String) : LogStable (Confirmation id e s u) :=
  (stable_log (soldRow_stable id e s u)).and ((stable_log (soldSeat_stable e s u)).and
    ((logged_stable _ _ _ _ _ _).and (logged_stable _ _ _ _ _ _)))

theorem tells_confirmReservation {I : World → Prop} (hI : Stable I)
    (hrow : ∀ w payload, I w → C w (.db (.confirmReservation id payload)) → RowIs w.db id e s u) (hs : I w.1) :
    Tells C (fun r w' => r.reservation.reservation.reservationId = id ∧ Confirmation id e s u w')
      (confirmReservation id e s u) w := by
  have hL := stable_log hI
  refine (tells_gentle hL (calls_findEventSeat gentleOp_basic.usual e s) hs).seq LogMoves.refl fun seat w hs => ?_
  refine (tells_aside hL hs).seq LogMoves.refl fun _ w hs => ?_
  refine (tells_gentle hL (calls_seatStatus gentleOp_basic.seatStatus e s) hs).seq LogMoves.refl fun status w hs => ?_
  refine (tells_aside hL hs).seq LogMoves.refl fun _ w hs => ?_
  split
  · exact (tells_safeExpire hL hs).seq LogMoves.refl fun _ _ _ => tells_throw _
  split
  · exact tells_throw _
  split
  · exact tells_throw _
  refine (tells_gentle hL (calls_buildMockPayment gentleOp_basic.usual _) hs).seq LogMoves.refl fun payment w hs => ?_
  refine (tells_aside hL hs).seq LogMoves.refl fun _ w hs => ?_
  refine (tells_aside hL hs).seq LogMoves.refl fun _ w hs => ?_
  refine Sat.seq (Q := fun record w' => record.reservation.reservationId = id ∧ SoldRow w'.1.db id e s u) LogMoves.refl
    (tells_lift (Q := fun (record : ReservationRecord ℚ) w' =>
      record.reservation.reservationId = id ∧ SoldRow w'.db id e s u)
      (meets_db fun w₁ hm hC now record w' hok hm' => ?_)) fun record w h => ?_
  · obtain ⟨hfind, hc, row, hbefore, hsame⟩ := dbStep_confirmed hok
    obtain ⟨he, hs', hu⟩ := hrow w₁ _ (hI _ _ hm hs) hC row hbefore
    refine ⟨(findReservation_mem hfind).2, SoldRow.evolves ⟨record.reservation, hfind, hc, ?_⟩ hm'.evolves⟩
    exact ⟨hsame.eventId.trans he, hsame.seatId.trans hs', hsame.userId.trans hu⟩
  obtain ⟨hid, hsold⟩ := h
  have hrowJ := stable_log (soldRow_stable id e s u)
  refine (tells_trace hrowJ hsold fun w' hsold now => ?_).seq LogMoves.refl fun _ w h => ?_
  · exact truth_confirmed rfl rfl ⟨rfl, rfl, rfl⟩ hsold
  have hJ := hrowJ.and (logged_stable "CONFIRM_RESERVATION" "SUCCESS" (some e) (some s) (some u) (some id))
  refine (tells_finalizeAttempts _ _ hJ ⟨h, h.1.confirmedSeat⟩).seq LogMoves.refl fun result w h => ?_
  split
  · exact tells_throw _
  have hend : Confirmation id e s u w := ⟨h.2.1.1, h.1, h.2.1.2, h.2.2⟩
  have hstable := confirmation_stable id e s u
  exact (tells_gentle hstable (calls_getEventSeat gentleOp_basic.usual e s) hend).seq LogMoves.refl
    fun view w h => tells_ret fun w' hm => ⟨hid, hstable _ _ hm h⟩

theorem tells_cancelReservation (id e s u : String) (w : LoggedWorld)
    (hrow : ∀ w, C w (.db (.cancelReservation id)) → RowIs w.db id e s u) :
    Tells C (fun _ w' => CancelledRow w'.1.db id e s u ∧
        Logged "CANCEL_RESERVATION" "SUCCESS" (some e) (some s) (some u) (some id) w')
      (cancelReservation id e s u) w := by
  have hT : LogStable fun _ => True := fun _ _ _ _ => trivial
  have hcancelled := stable_log (cancelledRow_stable id e s u)
  refine (tells_aside hT trivial).seq LogMoves.refl fun _ w _ => ?_
  refine Sat.seq (Q := fun _ w' => CancelledRow w'.1.db id e s u) LogMoves.refl
    (tells_lift (Q := fun _ w' => CancelledRow w'.db id e s u)
      (meets_db fun w₁ _ hC now r w' hok hm' => ?_)) fun reservation w h => ?_
  · obtain ⟨hclosed, row, hbefore⟩ := dbStep_cancelled hok
    obtain ⟨row', hrow', hsame, _⟩ := dbStep_evolves now w₁.db (.cancelReservation id) id row hbefore
    obtain ⟨he, hs, hu⟩ := hrow w₁ hC row hbefore
    refine cancelledRow_stable id e s u _ _ hm' ⟨hclosed, row', hrow', ?_⟩
    exact ⟨hsame.eventId.trans he, hsame.seatId.trans hs, hsame.userId.trans hu⟩
  refine (tells_trace hcancelled h fun w' h now => ?_).seq LogMoves.refl fun _ w h => ?_
  · exact truth_cancelled rfl rfl ⟨rfl, rfl, rfl⟩ h
  have hJ := hcancelled.and (logged_stable "CANCEL_RESERVATION" "SUCCESS" (some e) (some s) (some u) (some id))
  refine (tells_safeRelease hJ h).seq LogMoves.refl fun _ w h => ?_
  exact (tells_gentle hJ (calls_getEventSeat gentleOp_basic.usual e s) h).seq LogMoves.refl
    fun _ w h => tells_ret fun w' hm => hJ _ _ hm h

theorem tells_purchaseSeat (e s u : String) (n : Int) (w : LoggedWorld) :
    Tells C (fun r w' => Confirmation r.1.reservation.reservation.reservationId e s u w' ∧
        Logged "CREATE_HELD" "SUCCESS" (some e) (some s) (some u) (some r.1.reservation.reservation.reservationId) w')
      (purchaseSeat e s u n) w := by
  refine (tells_holdReservation e s u n w).seq LogMoves.refl fun hold w h => ?_
  generalize hold.reservation.reservation.reservationId = id at h
  have hL := logged_stable "CREATE_HELD" "SUCCESS" (some e) (some s) (some u) (some id)
  refine Sat.seq (Q := fun r w' => (r.reservation.reservation.reservationId = id ∧ Confirmation id e s u w') ∧
      Logged "CREATE_HELD" "SUCCESS" (some e) (some s) (some u) (some id) w') LogMoves.refl
    (Tells.tryCatch (hL.and (stable_log (rowHas_stable id e s u))) ?_ h.symm fun e' w h => ?_) fun r w h => ?_
  · exact (tells_confirmReservation (rowHas_stable id e s u) (fun _ _ h _ => h.rowIs) h.1).frame hL h.2
  · exact (tells_safeCancel (hL.and (stable_log (rowHas_stable id e s u))) h).seq LogMoves.refl fun _ _ _ => tells_throw _
  · obtain ⟨⟨hid, hconf⟩, hlog⟩ := h
    refine tells_ret fun w' hm => ?_
    dsimp only
    rw [hid]
    exact ⟨confirmation_stable id e s u _ _ hm hconf, hL _ _ hm hlog⟩

end Flows

end Interference

/-! ### Requests -/

/-- A cancellation finds in the row, if there is one, what the call passes. -/
def CancelMatches (call : AppCall) (w : World) (op : AppOp) : Prop :=
  match call, op with
  | .cancelReservation _ e s u, .db (.cancelReservation id) => RowIs w.db id e s u
  | _, _ => True

instance (call : AppCall) (w : World) (op : AppOp) : Decidable (CancelMatches call w op) := by
  unfold CancelMatches
  split <;> infer_instance

/-- A confirmation or a cancellation finds in the row, if there is one, what the request passes. -/
def TracedRequest.Matches (request : TracedRequest) (w : World) (op : AppOp) : Prop :=
  match request with
  | .call c => RowMatches c w op ∧ CancelMatches c w op
  | .clearOrchestrationLogs => True

instance (request : TracedRequest) (w : World) (op : AppOp) : Decidable (request.Matches w op) :=
  match request with
  | .call c => inferInstanceAs (Decidable (RowMatches c w op ∧ CancelMatches c w op))
  | .clearOrchestrationLogs => .isTrue trivial

/-- What a request that has returned leaves behind. -/
def TracedRequest.Tells (request : TracedRequest) (result : Option AppResult) : LoggedWorld → Prop :=
  match request, result with
  | .call (.holdReservation e s u _), some (.held r) => fun w =>
    RowHas w.1.db r.reservation.reservation.reservationId e s u ∧
      Logged "CREATE_HELD" "SUCCESS" (some e) (some s) (some u) (some r.reservation.reservation.reservationId) w
  | .call (.confirmReservation id e s u), some (.confirmed _) => Confirmation id e s u
  | .call (.cancelReservation id e s u), some (.cancelled _) => fun w => CancelledRow w.1.db id e s u ∧
    Logged "CANCEL_RESERVATION" "SUCCESS" (some e) (some s) (some u) (some id) w
  | .call (.purchaseSeat e s u _), some (.purchased r _) => fun w =>
    Confirmation r.reservation.reservation.reservationId e s u w ∧
      Logged "CREATE_HELD" "SUCCESS" (some e) (some s) (some u) (some r.reservation.reservation.reservationId) w
  | _, _ => fun _ => True

theorem tells_stable (request : TracedRequest) (result : Option AppResult) : LogStable (request.Tells result) := by
  unfold TracedRequest.Tells
  split
  · exact (stable_log (rowHas_stable _ _ _ _)).and (logged_stable _ _ _ _ _ _)
  · exact confirmation_stable _ _ _ _
  · exact (stable_log (cancelledRow_stable _ _ _ _)).and (logged_stable _ _ _ _ _ _)
  · exact (confirmation_stable _ _ _ _).and (logged_stable _ _ _ _ _ _)
  · exact fun _ _ _ _ => trivial

theorem tells_return {α β : Type} {C : World → AppOp → Prop} {Q : α → LoggedWorld → Prop} {Q' : β → LoggedWorld → Prop}
    {p : Traced α} {f : α → β} {w : LoggedWorld} (h : Tells C Q p w) (hf : ∀ a w', Q a w' → Q' (f a) w')
    (hQ : ∀ b, LogStable (Q' b)) : Tells C Q' (p >>= fun a => pure (f a)) w :=
  h.seq LogMoves.refl fun a w' ha => tells_ret fun w'' hm => hQ (f a) w' w'' hm (hf a w' ha)

theorem request_tells (request : TracedRequest) (w : LoggedWorld) :
    Tells request.Matches request.Tells request.flow w := by
  cases request with
  | clearOrchestrationLogs =>
      intro w₁ hm x w₂ hstep
      refine ⟨trivial, ?_⟩
      cases x <;> exact fun _ _ => trivial
  | call c =>
      have hstable := fun result => tells_stable (.call c) (some result)
      have hcall : Tells (TracedRequest.call c).Matches (fun result => (TracedRequest.call c).Tells (some result))
          (tracedCall c) w := by
        cases c with
        | holdReservation e s u n => exact tells_return (tells_holdReservation e s u n w) (fun _ _ h => h) hstable
        | confirmReservation id e s u =>
            refine tells_return (tells_confirmReservation (I := fun _ => True) (fun _ _ _ _ => trivial) ?_ trivial)
              (fun _ _ h => h.2) hstable
            exact fun w payload _ hC => hC.1
        | cancelReservation id e s u =>
            exact tells_return (tells_cancelReservation id e s u w fun w hC => hC.2) (fun _ _ h => h) hstable
        | purchaseSeat e s u n => exact tells_return (tells_purchaseSeat e s u n w) (fun _ _ h => h) hstable
        | runOnce limit => exact tells_return (tells_lift (meets_runOnce limit w.1)) (fun _ _ _ => trivial) hstable
      exact tells_return hcall (fun _ _ h => h) (tells_stable (.call c))

variable {ι : Type} [DecidableEq ι]

def TracedRequest.MatchesOp (request : TracedRequest) (w : World) : AppOp ⊕ LogOp → Prop
  | .inl op => op.Verbatim ∧ request.Matches w op
  | .inr _ => True

instance (request : TracedRequest) (w : World) : ∀ op, Decidable (request.MatchesOp w op)
  | .inl op => inferInstanceAs (Decidable (op.Verbatim ∧ request.Matches w op))
  | .inr _ => .isTrue trivial

/-- The ids of the turn's DB call come through verbatim, and a confirmation or a cancellation meets the row that its
request passes. -/
def TracedRowsMatch (requests : ι → TracedRequest) (c : TracedFlows ι) (t : ι × Env) : Prop :=
  ∀ op ∈ c.nextOp t.1, (requests t.1).MatchesOp c.state.1 op

instance (requests : ι → TracedRequest) (c : TracedFlows ι) (t : ι × Env) : Decidable (TracedRowsMatch requests c t) :=
  inferInstanceAs (Decidable (∀ op ∈ c.nextOp t.1, _))

/-- The attempts meet what one attempt meets. -/
theorem alongside_resend (op : AppOp ⊕ LogOp) :
    Refines LogMoves (LogSteps C) (fun w op _ => LogAllowed w op) op (alongside resend op) := by
  have hguar (w : LoggedWorld) (op : AppOp ⊕ LogOp) (x : Except Error (Both AppOp.Res LogOp.Res op))
      (w' : LoggedWorld) (h : LogSteps C w op x w') (ha : LogAllowed w op) : LogMoves w w' := logSteps_moves h ha
  cases op with
  | inr l => exact fun _ _ h => h
  | inl op =>
      cases op with
      | redis tokens =>
          rw [alongside, resend, lift_retried]
          exact refines_retried LogMoves.trans hguar (fun _ _ e' _ h => logSteps_fail h e') _ _
      | uuid4 => exact refines_lift AppOp.uuid4
      | now => exact refines_lift AppOp.now
      | db call => exact refines_lift (AppOp.db call)

def tracedHoldAndConfirm (i : Fin 3) : TracedRequest := .call (holdAndConfirm i)

end Ticketing.AppServer
