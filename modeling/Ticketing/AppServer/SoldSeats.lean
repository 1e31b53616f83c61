import Ticketing.AppServer.Calls
import Ticketing.AppServer.SeatCalls

namespace Ticketing.AppServer

open Python Interaction TicketingApi Repository Commands
open Interaction.Program (Calls Sat onOk)
open Storage (seatKey queueKey_ne_seatKey seatKey_plain Records)

/-! ### What the steps of a call do to the two stores -/

/-- The ids have no colon, so the key of the seat is its own. -/
def ColonFree (eventId seatId : String) : Prop := ':' ∉ eventId.toList ∧ ':' ∉ seatId.toList

/-- Redis calls a seat `CONFIRMED` only where the database does. -/
def Truthful (w : World) : Prop :=
  ∀ e s, ColonFree e s → ∃ l, Records w.redis (seatKey e s) l ∧ ∀ u, l = .owned u → ConfirmedSeat w.db e s u

/-- What may happen to the world between two steps of a call. -/
structure Moves (w w' : World) : Prop where
  evolves : Evolves w.db w'.db
  sold : ∀ e s u, ColonFree e s → ConfirmedSeat w.db e s u → Records w.redis (seatKey e s) (.owned u) →
    Records w'.redis (seatKey e s) (.owned u)
  truthful : Truthful w → Truthful w'

theorem Moves.refl (w : World) : Moves w w := ⟨Evolves.refl w.db, fun _ _ _ _ _ h => h, id⟩

theorem Moves.trans (a b c : World) (h : Moves a b) (h' : Moves b c) : Moves a c where
  evolves := h.evolves.trans h'.evolves
  sold e s u hp hc hr := h'.sold e s u hp (hc.evolves h.evolves) (h.sold e s u hp hc hr)
  truthful := h'.truthful ∘ h.truthful

/-- Only a seat that the database has confirmed is confirmed in Redis. -/
def Allowed (w : World) : AppOp → Prop
  | .redis tokens => Gentle tokens ∨
      ∃ e s u, tokens = ["FORCE_CONFIRM_SEAT", e, s, u] ∧ ConfirmedSeat w.db e s u
  | _ => True

theorem redis_moves {w : World} {tokens : List String} (h : Allowed w (.redis tokens)) (now : ℚ) :
    Moves w { w with redis := step w.redis (now, tokens) } := by
  rcases h with hg | ⟨e', s', v, rfl, hv⟩
  · refine ⟨Evolves.refl w.db, fun e s u _ _ hr => ?_, fun ht e s hp => ?_⟩
    · obtain ⟨l', hl', ho⟩ := gentle_step (fun x => queueKey_ne_seatKey x e s) hr hg now
      rwa [(ho u).mpr rfl] at hl'
    · obtain ⟨l, hl, hc⟩ := ht e s hp
      obtain ⟨l', hl', ho⟩ := gentle_step (fun x => queueKey_ne_seatKey x e s) hl hg now
      exact ⟨l', hl', fun u hu => hc u ((ho u).mp hu)⟩
  · have forced {e s : String} (hp : ColonFree e s) (hk : seatKey e s = seatKey e' s') : e' = e ∧ s' = s := by
      obtain ⟨he, hs⟩ := seatKey_plain hp.1 hp.2 hk
      exact ⟨he.symm, hs.symm⟩
    refine ⟨Evolves.refl w.db, fun e s u hp hc hr => ?_, fun ht e s hp => ?_⟩
    · by_cases hk : seatKey e s = seatKey e' s'
      · obtain ⟨rfl, rfl⟩ := forced hp hk
        rw [hc.unique hv]
        exact force_step _ _ _ _ now
      · exact (force_step_ne w.redis v now hk).trans hr
    · by_cases hk : seatKey e s = seatKey e' s'
      · obtain ⟨rfl, rfl⟩ := forced hp hk
        refine ⟨_, force_step _ _ _ _ now, fun u hu => ?_⟩
        cases hu
        exact hv
      · obtain ⟨l, hl, hc⟩ := ht e s hp
        exact ⟨l, (force_step_ne w.redis v now hk).trans hl, hc⟩

theorem appStep_moves {env : Env} {w : World} {op : AppOp} (h : Allowed w op) : Moves w (appStep env w op).2 := by
  cases op with
  | uuid4 => exact Moves.refl w
  | now => exact Moves.refl w
  | redis tokens =>
      rcases appStep_redis env w tokens with hw | hw <;> rw [hw]
      · exact redis_moves h env.now
      · exact Moves.refl w
  | db call =>
      have hev := appStep_evolves env w (.db call)
      rcases appStep_db env w call with hw | hw <;> rw [hw] at hev ⊢
      · refine ⟨hev, fun _ _ _ _ _ hr => hr, fun ht e s hp => ?_⟩
        obtain ⟨l, hl, hc⟩ := ht e s hp
        exact ⟨l, hl, fun u hu => (hc u hu).evolves hev⟩
      · exact Moves.refl w

/-! ### Calls under interference -/

def GentleOp : AppOp → Prop
  | .redis tokens => Gentle tokens
  | _ => True

theorem gentleOp_basic : Basic GentleOp := ⟨trivial, trivial, fun _ => trivial, gentle_seatStatus⟩

/-- A step in some environment, taken where a condition holds. -/
def Steps (C : World → AppOp → Prop) (w : World) (op : AppOp) (x : Except Error op.Res) (w' : World) : Prop :=
  C w op ∧ ∃ env, appStep env w op = (x, w')

/-- A flow among other calls: its steps are allowed, and its results satisfy `Q`. -/
abbrev Meets {α : Type} (C : World → AppOp → Prop) (Q : α → World → Prop) (p : Flow α) (w : World) : Prop :=
  p.Sat Moves (Steps C) (fun w op _ => Allowed w op) (onOk Q) w

def Stable (I : World → Prop) : Prop := ∀ a b, Moves a b → I a → I b

section Interference

variable {α : Type} {C : World → AppOp → Prop} {Q : α → World → Prop} {I : World → Prop} {w w' : World}

theorem steps_moves {op : AppOp} {x : Except Error op.Res} (h : Steps C w op x w') (ha : Allowed w op) : Moves w w' := by
  obtain ⟨_, env, he⟩ := h
  have hw : w' = (appStep env w op).2 := by rw [he]
  rw [hw]
  exact appStep_moves ha

theorem allowed_gentle {op : AppOp} (h : GentleOp op) (w : World) : Allowed w op := by
  cases op with
  | redis tokens => exact .inl h
  | uuid4 | now | db call => trivial

theorem gentle_meets (hI : Stable I) {p : Flow α} (hp : p.Calls GentleOp) (hs : I w) :
    Meets C (fun _ w' => I w') p w := by
  have hsat : p.Sat Moves (Steps C) (fun w op _ => Allowed w op) (fun _ w' => I w') w :=
    hp.sat hI (fun s op x s' hop ht hs =>
      ⟨allowed_gentle hop s, hI _ _ (steps_moves ht (allowed_gentle hop s)) hs⟩) hs
  refine hsat.mono fun x s' h => ?_
  cases x with
  | ok a => exact h
  | error e => trivial

theorem sat_frame (hI : Stable I) {p : Flow α} {post : Except Error α → World → Prop}
    (h : p.Sat Moves (Steps C) (fun w op _ => Allowed w op) post w) (hs : I w) :
    p.Sat Moves (Steps C) (fun w op _ => Allowed w op) (fun x w' => post x w' ∧ I w') w := by
  have hk : ∀ s (op : AppOp) x s', Steps C s op x s' → Allowed s op → I s → I s' :=
    fun s op x s' ht hg => hI _ _ (steps_moves ht hg)
  exact Sat.frame hI hk h hs

theorem Meets.frame (hI : Stable I) {p : Flow α} (h : Meets C Q p w) (hs : I w) :
    Meets C (fun a w' => Q a w' ∧ I w') p w := by
  refine (sat_frame hI h hs).mono fun x s' hx => ?_
  cases x with
  | ok a => exact hx
  | error e => trivial

theorem Meets.tryCatch (hI : Stable I) {p : Flow α} {f : Error → Flow α} (h : Meets C Q p w) (hs : I w)
    (hf : ∀ e w', I w' → Meets C Q (f e) w') : Meets C Q (tryCatch p f) w :=
  Sat.tryCatch Moves.refl (sat_frame hI h hs) (fun _ _ hx => hx.1) fun e w' hx => hf e w' hx.2

theorem meets_ret {a : α} (h : ∀ w', Moves w w' → Q a w') : Meets C Q (pure a) w := h

theorem meets_ofExcept {x : Except Error α} (h : ∀ a, x = .ok a → ∀ w', Moves w w' → Q a w') :
    Meets C Q (Program.ofExcept x) w := by
  cases x with
  | ok a => exact h a rfl
  | error e => exact fun _ _ => trivial

theorem meets_throw (e : Error) : Meets C Q (throw e) w := fun _ _ => trivial

theorem meets_execute {tokens : List String} {Q : Reply → World → Prop}
    (h : ∀ w₁, Moves w w₁ → Allowed w₁ (.redis tokens) ∧
      ∀ now reply w', Moves { w₁ with redis := step w₁.redis (now, tokens) } w' → Q reply w') :
    Meets C Q (Orchestrator.execute tokens) w := by
  intro w₁ hm x w₂ ht
  obtain ⟨_, env, he⟩ := ht
  refine ⟨(h w₁ hm).1, ?_⟩
  cases x with
  | error e => exact fun _ _ => trivial
  | ok reply =>
      intro w' hm'
      rw [(appStep_redis_ok he).2] at hm'
      exact (h w₁ hm).2 env.now reply w' hm'

theorem meets_db {call : DbCall} {Q : call.Res → World → Prop}
    (h : ∀ w₁, Moves w w₁ → C w₁ (.db call) → ∀ now a w', (dbStep now w₁.db call).1 = .ok a →
      Moves { w₁ with db := (dbStep now w₁.db call).2 } w' → Q a w') :
    Meets C Q (Orchestrator.db call) w := by
  intro w₁ hm x w₂ ht
  obtain ⟨hC, env, he⟩ := ht
  refine ⟨trivial, ?_⟩
  cases x with
  | error e => exact fun _ _ => trivial
  | ok a =>
      intro w' hm'
      obtain ⟨hok, hw⟩ := appStep_db_ok he
      rw [hw] at hm'
      exact h w₁ hm hC env.now a w' hok hm'

/-! ### A confirmation -/

def RowIs (db : Database ℚ) (id e s u : String) : Prop :=
  ∀ r, findReservation db.tables id = some r → r.eventId = e ∧ r.seatId = s ∧ r.userId = u

instance (db : Database ℚ) (id e s u : String) : Decidable (RowIs db id e s u) :=
  inferInstanceAs (Decidable (∀ r ∈ findReservation db.tables id, r.eventId = e ∧ r.seatId = s ∧ r.userId = u))

/-- The DB reservation is confirmed for the seat and the user. -/
def SoldRow (db : Database ℚ) (id e s u : String) : Prop :=
  ∃ r, findReservation db.tables id = some r ∧ r.status = .confirmed ∧ r.eventId = e ∧ r.seatId = s ∧ r.userId = u

theorem SoldRow.confirmedSeat {db : Database ℚ} {id e s u : String} (h : SoldRow db id e s u) :
    ConfirmedSeat db e s u := by
  obtain ⟨r, hr, hc⟩ := h
  exact ⟨r, (findReservation_mem hr).1, hc⟩

theorem SoldRow.evolves {db db' : Database ℚ} {id e s u : String} (h : SoldRow db id e s u) (hev : Evolves db db') :
    SoldRow db' id e s u := by
  obtain ⟨r, hr, hc, rfl, rfl, rfl⟩ := h
  obtain ⟨r', hr', hsame, hst⟩ := hev id r hr
  refine ⟨r', hr', ?_, hsame.eventId, hsame.seatId, hsame.userId⟩
  rcases hst with hst | hst
  · rw [hst, hc]
  · rw [hc] at hst; cases hst

/-- Both stores agree that the seat is sold to the user. -/
def SoldSeat (e s u : String) (w : World) : Prop :=
  ConfirmedSeat w.db e s u ∧ (ColonFree e s → Records w.redis (seatKey e s) (.owned u))

theorem confirmedSeat_stable (e s u : String) : Stable fun w => ConfirmedSeat w.db e s u :=
  fun _ _ hm h => h.evolves hm.evolves

theorem soldSeat_stable (e s u : String) : Stable (SoldSeat e s u) :=
  fun _ _ hm h => ⟨h.1.evolves hm.evolves, fun hp => hm.sold e s u hp h.1 (h.2 hp)⟩

theorem soldRow_stable (id e s u : String) : Stable fun w => SoldRow w.db id e s u :=
  fun _ _ hm h => h.evolves hm.evolves

theorem meets_force {e s u : String} (hc : ConfirmedSeat w.db e s u) :
    Meets C (fun _ => SoldSeat e s u) (Orchestrator.forceConfirmSeat e s u) w := by
  refine Sat.seq (Q := fun _ => SoldSeat e s u) Moves.refl (meets_execute fun w₁ hm => ?_)
    fun reply w' h => meets_ofExcept fun _ _ w'' hm => soldSeat_stable e s u _ _ hm h
  have hc₁ := hc.evolves hm.evolves
  refine ⟨.inr ⟨e, s, u, rfl, hc₁⟩, fun now _ w' hm' => soldSeat_stable e s u _ _ hm' ⟨hc₁, fun _ => ?_⟩⟩
  exact force_step _ _ _ _ now

theorem meets_finalize {e s u : String} (attempts : Nat) (lastError : Option Error) (hc : ConfirmedSeat w.db e s u) :
    Meets C (fun _ => SoldSeat e s u) (Orchestrator.finalizeAttempts e s u attempts lastError) w := by
  induction attempts generalizing w lastError with
  | zero => exact meets_throw _
  | succ attempts ih =>
      have hI := confirmedSeat_stable e s u
      refine Sat.seq (Q := fun result w' => ConfirmedSeat w'.db e s u ∧ ∀ r, result = Except.ok r → SoldSeat e s u w')
        Moves.refl (Meets.tryCatch hI ?_ hc fun e' w' hc' => ?_) fun result w' hr => ?_
      · exact (meets_force hc).seq Moves.refl fun r w' h => meets_ret fun w'' hm =>
          ⟨h.1.evolves hm.evolves, fun _ _ => soldSeat_stable e s u _ _ hm h⟩
      · split
        · exact meets_ret fun w'' hm => ⟨hI _ _ hm hc', by simp⟩
        · exact meets_throw _
      · cases result with
        | error e' => exact ih _ hr.1
        | ok r =>
            dsimp only
            split
            · exact meets_ret fun w'' hm => soldSeat_stable e s u _ _ hm (hr.2 r rfl)
            · exact ih _ hr.1

/-- A confirmation that returns has sold the seat, in both stores. -/
theorem meets_confirmReservation {id e s u : String} (hI : Stable I)
    (hrow : ∀ w payload, I w → C w (.db (.confirmReservation id payload)) → RowIs w.db id e s u) (hs : I w) :
    Meets C (fun r w' => SoldRow w'.db r.reservation.reservation.reservationId e s u ∧ SoldSeat e s u w')
      (Orchestrator.confirmReservation id e s u) w := by
  have gentle {α : Type} {p : Flow α} (hp : p.Calls GentleOp) {w : World} (hs : I w) : Meets C (fun _ => I) p w :=
    gentle_meets hI hp hs
  refine (gentle (calls_findEventSeat gentleOp_basic.usual e s) hs).seq Moves.refl fun seat w hs => ?_
  refine (gentle (calls_seatStatus gentleOp_basic.seatStatus e s) hs).seq Moves.refl fun status w hs => ?_
  split
  · exact (gentle (calls_safeExpire (gentleOp_basic.db _)) hs).seq Moves.refl fun _ _ _ => meets_throw _
  split
  · exact meets_throw _
  split
  · exact meets_throw _
  refine (gentle (calls_buildMockPayment gentleOp_basic.usual _) hs).seq Moves.refl fun payment w hs => ?_
  refine Sat.seq (Q := fun record w' => SoldRow w'.db record.reservation.reservationId e s u) Moves.refl
    (meets_db fun w₁ hm hC now record w' hok hm' => ?_) fun record w hsold => ?_
  · obtain ⟨hfind, hc, row, hbefore, hsame⟩ := dbStep_confirmed hok
    obtain ⟨he, hs', hu⟩ := hrow w₁ _ (hI _ _ hm hs) hC row hbefore
    refine SoldRow.evolves ⟨record.reservation, ?_, hc, ?_⟩ hm'.evolves
    · rw [(findReservation_mem hfind).2]
      exact hfind
    · exact ⟨hsame.eventId.trans he, hsame.seatId.trans hs', hsame.userId.trans hu⟩
  · refine Sat.seq (Q := fun _ w' => SoldSeat e s u w' ∧ SoldRow w'.db record.reservation.reservationId e s u) Moves.refl
      ((meets_finalize _ _ hsold.confirmedSeat).frame (soldRow_stable _ e s u) hsold) fun result w h => ?_
    split
    · exact meets_throw _
    have hJ : Stable fun w => SoldRow w.db record.reservation.reservationId e s u ∧ SoldSeat e s u w :=
      fun _ _ hm h => ⟨h.1.evolves hm.evolves, soldSeat_stable e s u _ _ hm h.2⟩
    exact (gentle_meets hJ (calls_getEventSeat gentleOp_basic.usual e s) ⟨h.2, h.1⟩).seq Moves.refl
      fun view w h => meets_ret fun w' hm => hJ _ _ hm h

/-! ### The other calls -/

/-- The reservation is of the seat and the user, whatever its status. -/
def RowHas (db : Database ℚ) (id e s u : String) : Prop :=
  ∃ r, findReservation db.tables id = some r ∧ r.eventId = e ∧ r.seatId = s ∧ r.userId = u

theorem rowHas_stable (id e s u : String) : Stable fun w => RowHas w.db id e s u := by
  rintro a b hm ⟨r, hr, rfl, rfl, rfl⟩
  obtain ⟨r', hr', hsame, _⟩ := hm.evolves id r hr
  exact ⟨r', hr', hsame.eventId, hsame.seatId, hsame.userId⟩

theorem RowHas.rowIs {db : Database ℚ} {id e s u : String} (h : RowHas db id e s u) : RowIs db id e s u := by
  obtain ⟨r, hr, hrow⟩ := h
  intro r' hr'
  rw [hr] at hr'
  cases hr'
  exact hrow

theorem meets_gentle {p : Flow α} (hp : p.Calls GentleOp) (w : World) : Meets C (fun _ _ => True) p w :=
  gentle_meets (fun _ _ _ _ => trivial) hp trivial

theorem meets_holdReservation (e s u : String) (n : Int) (w : World) :
    Meets C (fun r w' => RowHas w'.db r.reservation.reservation.reservationId e s u)
      (Orchestrator.holdReservation e s u n) w := by
  refine (meets_gentle (calls_findEventSeat gentleOp_basic.usual e s) w).seq Moves.refl fun _ w _ => ?_
  refine (meets_gentle (calls_reserveSeat (gentle_reserveSeat e s u) n) w).seq Moves.refl fun reserved w _ => ?_
  split
  · exact meets_throw _
  refine (meets_gentle (calls_uuid4 gentleOp_basic.usual) w).seq Moves.refl fun id w _ => ?_
  refine (meets_gentle (calls_uuid4 gentleOp_basic.usual) w).seq Moves.refl fun token w _ => ?_
  refine (meets_gentle (calls_currentTime gentleOp_basic.usual) w).seq Moves.refl fun now w _ => ?_
  refine (meets_gentle (Calls.ofExcept GentleOp _) w).seq Moves.refl fun expiresAt w _ => ?_
  refine Sat.seq (Q := fun created w' => RowHas w'.db created.1.reservation.reservationId e s u) Moves.refl
    (Meets.tryCatch (I := fun _ => True) (fun _ _ _ _ => trivial) ?_ trivial fun e' w _ => ?_) fun created w hrow => ?_
  · refine meets_db fun w₁ _ _ now created w' hok hm' => ?_
    obtain ⟨hfind, hrow⟩ := dbStep_created hok
    refine rowHas_stable _ e s u _ _ hm' ⟨created.1.reservation, ?_, hrow⟩
    rw [(findReservation_mem hfind).2]
    exact hfind
  · exact (meets_gentle (calls_safeRelease gentleOp_basic.usual (gentle_releaseSeat e s u)) w).seq Moves.refl
      fun _ _ _ => meets_throw _
  · exact (gentle_meets (rowHas_stable _ e s u) (calls_getEventSeat gentleOp_basic.usual e s) hrow).seq Moves.refl
      fun _ w hrow => meets_ret fun w' hm => rowHas_stable _ e s u _ _ hm hrow

theorem meets_purchaseSeat (e s u : String) (n : Int) (w : World) :
    Meets C (fun r w' => SoldRow w'.db r.1.reservation.reservation.reservationId e s u ∧ SoldSeat e s u w')
      (Orchestrator.purchaseSeat e s u n) w := by
  refine (meets_holdReservation e s u n w).seq Moves.refl fun hold w hrow => ?_
  refine Sat.seq (Q := fun r w' => SoldRow w'.db r.reservation.reservation.reservationId e s u ∧ SoldSeat e s u w')
    Moves.refl (Meets.tryCatch (I := fun _ => True) (fun _ _ _ _ => trivial) ?_ trivial fun e' w _ => ?_)
    fun r w hr => meets_ret fun w' hm => ⟨hr.1.evolves hm.evolves, soldSeat_stable e s u _ _ hm hr.2⟩
  · exact meets_confirmReservation (rowHas_stable _ e s u) (fun _ _ h _ => h.rowIs) hrow
  · exact (meets_gentle (calls_safeCancel gentleOp_basic.usual _ (gentle_releaseSeat e s u)) w).seq Moves.refl
      fun _ _ _ => meets_throw _

def ConfirmedRows (rows : List (Reservation ℚ)) (w : World) : Prop :=
  ∀ r ∈ rows, ConfirmedSeat w.db r.eventId r.seatId r.userId

theorem confirmedRows_stable (rows : List (Reservation ℚ)) : Stable (ConfirmedRows rows) :=
  fun _ _ hm h r hr => (h r hr).evolves hm.evolves

theorem meets_repairConfirmed {r : Reservation ℚ} (report : Reconciler.ReconciliationReport)
    (hc : ConfirmedSeat w.db r.eventId r.seatId r.userId) :
    Meets C (fun _ _ => True) (Reconciler.repairConfirmed r report) w := by
  refine Meets.tryCatch (I := fun _ => True) (fun _ _ _ _ => trivial) ?_ trivial fun e w _ => meets_ret fun _ _ => trivial
  refine (gentle_meets (confirmedSeat_stable _ _ _) (calls_seatStatus gentleOp_basic.seatStatus _ _) hc).seq Moves.refl
    fun status w hc => ?_
  split
  · exact meets_ret fun _ _ => trivial
  refine (meets_force hc).seq Moves.refl fun result w _ => ?_
  split
  · exact meets_ret fun _ _ => trivial
  · exact meets_ret fun _ _ => trivial

theorem meets_repairAll (rows : List (Reservation ℚ)) (report : Reconciler.ReconciliationReport)
    (h : ConfirmedRows rows w) : Meets C (fun _ _ => True) (Reconciler.repairAll rows report) w := by
  induction rows generalizing w report with
  | nil => exact meets_ret fun _ _ => trivial
  | cons r rows ih =>
      refine ((meets_repairConfirmed report (h r (by simp))).frame (confirmedRows_stable (r :: rows)) h).seq Moves.refl
        fun report w h => ih report fun r' hr' => h.2 r' (by simp [hr'])

theorem meets_runOnce (limit : Int) (w : World) : Meets C (fun _ _ => True) (Reconciler.runOnce limit) w := by
  refine (meets_gentle (calls_expireStaleHolds gentleOp_basic.usual gentle_releaseSeat limit _) w).seq Moves.refl
    fun report w _ => ?_
  refine Sat.seq (Q := ConfirmedRows) Moves.refl (meets_db fun w₁ _ _ now rows w' hok hm' => ?_)
    fun rows w h => meets_repairAll rows report h
  obtain ⟨hdb, hrows⟩ := dbStep_listed hok
  refine confirmedRows_stable rows _ _ hm' fun r hr => ?_
  obtain ⟨hmem, hc⟩ := mem_confirmedRows.mp ((withLimit_sublist hrows).mem hr)
  rw [hdb]
  exact ⟨r, hmem, hc, rfl, rfl, rfl⟩

end Interference

end Ticketing.AppServer
