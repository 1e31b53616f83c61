import Ticketing.TicketingApi.Connections
import Ticketing.TicketingApi.Payments

namespace Ticketing.TicketingApi

open Python Interaction Repository Service
open Interaction.Program (Sat onOk)

variable {T D α β ι : Type}

/-! ### What no race breaks -/

/-- What a reservation and its payments agree on in whatever order the transactions of the calls commit. -/
structure Booked (r : Reservation T) (payments : List (Payment T)) : Prop where
  held : r.status = .held → payments = [] ∧ r.confirmedAt = none ∧ r.cancelledAt = none
  confirmed : r.status = .confirmed → r.confirmedAt ≠ none ∧ ∃ p, payments = [p] ∧ p.status = .succeeded
  cancelled : r.status = .cancelled → r.cancelledAt ≠ none
  charged : (∃ p ∈ payments, p.status = .succeeded) → r.confirmedAt ≠ none
  paid : r.confirmedAt ≠ none → ∃ p, payments = [p]

def AllBooked (t : Tables T) : Prop := ∀ r ∈ t.reservations, Booked r (paymentsOf t r.reservationId)

/-- What may become of a row: the times of its changes stay, and it is `HELD` only while it is untouched. -/
structure Later (r r' : Reservation T) : Prop where
  same : SameRow r r'
  confirmedAt : r.confirmedAt ≠ none → r'.confirmedAt ≠ none
  cancelledAt : r.cancelledAt ≠ none → r'.cancelledAt ≠ none
  held : r'.status = .held → r' = r

theorem Later.refl (r : Reservation T) : Later r r := ⟨SameRow.refl r, id, id, fun _ => rfl⟩

theorem Later.trans {a b c : Reservation T} (h : Later a b) (h' : Later b c) : Later a c where
  same := h.same.trans h'.same
  confirmedAt := h'.confirmedAt ∘ h.confirmedAt
  cancelledAt := h'.cancelledAt ∘ h.cancelledAt
  held := fun hc => by
    obtain rfl := h'.held hc
    exact h.held hc

/-- What may happen to the tables between two steps of a call. -/
structure Onward (db db' : Database T) : Prop where
  booked : AllBooked db.tables → AllBooked db'.tables
  rows : ∀ id r, findReservation db.tables id = some r → ∃ r', findReservation db'.tables id = some r' ∧ Later r r'
  payments : ∀ p ∈ db.tables.payments, ∃ p' ∈ db'.tables.payments, p'.reservationId = p.reservationId

theorem Onward.refl (db : Database T) : Onward db db :=
  ⟨id, fun _ r h => ⟨r, h, Later.refl r⟩, fun p h => ⟨p, h, rfl⟩⟩

theorem Onward.trans (a b c : Database T) (h : Onward a b) (h' : Onward b c) : Onward a c where
  booked := h'.booked ∘ h.booked
  rows := fun id r hr => by
    obtain ⟨r', hr', hl⟩ := h.rows id r hr
    obtain ⟨r'', hr'', hl'⟩ := h'.rows id r' hr'
    exact ⟨r'', hr'', hl.trans hl'⟩
  payments := fun p hp => by
    obtain ⟨p', hp', he⟩ := h.payments p hp
    obtain ⟨p'', hp'', he'⟩ := h'.payments p' hp'
    exact ⟨p'', hp'', he'.trans he⟩

/-! ### Payments of one reservation -/

theorem paymentsOf_single {t : Tables T} (hv : Valid t) {q : Payment T} (hq : q ∈ t.payments) :
    paymentsOf t q.reservationId = [q] := by
  have hmem : q ∈ paymentsOf t q.reservationId := List.mem_filter.mpr ⟨hq, by simp⟩
  have hnodup : (paymentsOf t q.reservationId).Nodup :=
    (List.Nodup.of_map _ hv.paymentReservationIds).filter _
  refine List.perm_singleton.mp ((List.perm_ext_iff_of_nodup hnodup (List.nodup_singleton q)).mpr fun x => ?_)
  rw [List.mem_singleton]
  constructor
  · intro hx
    obtain ⟨hx, hid⟩ := List.mem_filter.mp hx
    exact List.inj_on_of_nodup_map hv.paymentReservationIds hx hq (of_decide_eq_true hid)
  · rintro rfl
    exact hmem

theorem paymentsOf_record {t : Tables T} (hv : Valid t) (r : Reservation T) :
    paymentsOf t r.reservationId = (record t r).payment.toList := by
  have hfind : (record t r).payment = (paymentsOf t r.reservationId).head? := List.head?_filter.symm
  rw [hfind]
  cases hp : paymentsOf t r.reservationId with
  | nil => rfl
  | cons q qs =>
      obtain ⟨hq, hid⟩ := List.mem_filter.mp (hp ▸ List.mem_cons_self : q ∈ paymentsOf t r.reservationId)
      rw [← of_decide_eq_true hid, paymentsOf_single hv hq] at hp
      rw [← hp]
      rfl

/-- A payment row after an upsert that finds one. -/
def recharged (id : String) (p : PaymentPayload) (now : T) (q : Payment T) : Payment T :=
  if q.reservationId = id then
    ⟨p.paymentId, q.reservationId, p.paymentStatus, p.amount, p.provider, p.providerRef, q.createdAt, now⟩
  else q

@[simp] theorem recharged_reservationId (id : String) (p : PaymentPayload) (now : T) (q : Payment T) :
    (recharged id p now q).reservationId = q.reservationId := by
  unfold recharged
  split <;> rfl

theorem upsertPayment_known {t : Tables T} {id : String} (h : id ∈ t.payments.map Payment.reservationId)
    (p : PaymentPayload) (now : T) :
    upsertPayment id p now t = { t with payments := t.payments.map (recharged id p now) } :=
  if_pos h

theorem paymentsOf_recharged (t : Tables T) (id id' : String) (p : PaymentPayload) (now : T) :
    paymentsOf { t with payments := t.payments.map (recharged id p now) } id' =
      (paymentsOf t id').map (recharged id p now) := by
  rw [paymentsOf, List.filter_map]
  congr 1
  exact List.filter_congr fun q _ => by simp

theorem paymentsOf_unknown {t : Tables T} {id : String} (h : id ∉ t.payments.map Payment.reservationId) :
    paymentsOf t id = [] :=
  List.filter_eq_nil_iff.mpr fun q hq he => h (List.mem_map.mpr ⟨q, hq, of_decide_eq_true he⟩)

/-- The one payment that an upsert leaves to a reservation is the new one. -/
theorem paymentsOf_upsert {t : Tables T} (hv : Valid t) (id : String) (p : PaymentPayload) (now : T) :
    ∃ q, paymentsOf (upsertPayment id p now t) id = [q] ∧ q.status = p.paymentStatus ∧ q.paymentId = p.paymentId ∧
      q.amount = p.amount ∧ q.provider = p.provider ∧ q.providerRef = p.providerRef := by
  by_cases hid : id ∈ t.payments.map Payment.reservationId
  · obtain ⟨q, hq, rfl⟩ := List.mem_map.mp hid
    rw [upsertPayment_known hid, paymentsOf_recharged, paymentsOf_single hv hq, List.map_singleton, recharged,
      if_pos rfl]
    exact ⟨_, rfl, rfl, rfl, rfl, rfl, rfl⟩
  · have hnone := paymentsOf_unknown hid
    rw [upsertPayment_fresh hnone, paymentsOf_append, hnone, if_pos rfl]
    exact ⟨_, rfl, rfl, rfl, rfl, rfl, rfl⟩

theorem paymentsOf_upsert_ne (t : Tables T) {id id' : String} (h : id' ≠ id) (p : PaymentPayload) (now : T) :
    paymentsOf (upsertPayment id p now t) id' = paymentsOf t id' := by
  by_cases hid : id ∈ t.payments.map Payment.reservationId
  · rw [upsertPayment_known hid, paymentsOf_recharged]
    refine (List.map_congr_left fun q hq => ?_).trans (List.map_id _)
    have hq := of_decide_eq_true (List.mem_filter.mp hq).2
    rw [recharged, if_neg (hq ▸ h)]
    rfl
  · rw [upsertPayment_fresh (paymentsOf_unknown hid), paymentsOf_append, if_neg h.symm, List.append_nil]

theorem upsertPayment_kept (id : String) (p : PaymentPayload) (now : T) (t : Tables T) {q : Payment T}
    (hq : q ∈ t.payments) : ∃ q' ∈ (upsertPayment id p now t).payments, q'.reservationId = q.reservationId := by
  by_cases hid : id ∈ t.payments.map Payment.reservationId
  · rw [upsertPayment_known hid]
    exact ⟨_, List.mem_map_of_mem hq, recharged_reservationId id p now q⟩
  · rw [upsertPayment_fresh (paymentsOf_unknown hid)]
    exact ⟨q, List.mem_append_left _ hq, rfl⟩

/-! ### Rows that are read -/

/-- The row of the id is there, and `P` is true of it. -/
def Found (id : String) (P : Reservation T → Prop) (db : Database T) : Prop :=
  ∃ row, findReservation db.tables id = some row ∧ P row

/-- The row that was read is there, whatever has become of it. -/
def Listed (r : Reservation T) (db : Database T) : Prop := Found r.reservationId (Later r) db

/-- What is true of a row and of all that may become of it. -/
def Lasting (P : Reservation T → Prop) : Prop := ∀ r r', Later r r' → P r → P r'

/-- A record that was read with its payment in one transaction. -/
structure Seen (x : ReservationRecord T) (db : Database T) : Prop where
  booked : Booked x.reservation x.payment.toList
  listed : Listed x.reservation db

def Stays (I : Database T → Prop) : Prop := ∀ a b, Onward a b → I a → I b

theorem Stays.and {I J : Database T → Prop} (hI : Stays I) (hJ : Stays J) : Stays fun db => I db ∧ J db :=
  fun a b ho h => ⟨hI a b ho h.1, hJ a b ho h.2⟩

theorem stays_all {P : α → Database T → Prop} (h : ∀ a, Stays (P a)) (xs : List α) : Stays fun db => ∀ a ∈ xs, P a db :=
  fun a b ho hx x hmem => h x a b ho (hx x hmem)

theorem stays_const (p : Prop) : Stays fun _ : Database T => p := fun _ _ _ h => h

section Rows

variable {db db' : Database T} {r : Reservation T} {id : String}

theorem stays_booked : Stays fun db : Database T => AllBooked db.tables := fun _ _ h => h.booked

theorem Found.later {P : Reservation T → Prop} (hP : Lasting P) (h : Found id P db) (ho : Onward db db') :
    Found id P db' := by
  obtain ⟨row, hrow, hr⟩ := h
  obtain ⟨row', hrow', hl⟩ := ho.rows _ row hrow
  exact ⟨row', hrow', hP row row' hl hr⟩

theorem Listed.later (h : Listed r db) (ho : Onward db db') : Listed r db' :=
  Found.later (fun _ _ hl h => Later.trans h hl) h ho

theorem Seen.later {x : ReservationRecord T} (h : Seen x db) (ho : Onward db db') : Seen x db' :=
  ⟨h.booked, h.listed.later ho⟩

theorem stays_listed (r : Reservation T) : Stays (Listed r) := fun _ _ ho h => h.later ho

theorem stays_seen (x : ReservationRecord T) : Stays (Seen x) := fun _ _ ho h => h.later ho

theorem listed_mem (h : r ∈ db.tables.reservations) : Listed r db :=
  ⟨r, findReservation_of_mem db.valid h, Later.refl r⟩

theorem seen_mem (hb : AllBooked db.tables) (h : r ∈ db.tables.reservations) : Seen (record db.tables r) db := by
  refine ⟨?_, listed_mem h⟩
  rw [← paymentsOf_record db.valid]
  exact hb r h

/-- What a query reads of a row that is there. -/
theorem seen_get {P : Reservation T → Prop} (hb : AllBooked db.tables) (h : Found id P db) :
    ∃ x, getReservation db.tables id = some x ∧ x.reservation.reservationId = id ∧ P x.reservation ∧ Seen x db := by
  obtain ⟨row, hrow, hP⟩ := h
  obtain ⟨hmem, hid⟩ := findReservation_mem hrow
  exact ⟨record db.tables row, by rw [getReservation, hrow]; rfl, hid, hP, seen_mem hb hmem⟩

end Rows

/-- A method's answer: the row of the id, of which `P` was true. -/
def Answers (id : String) (P : Reservation T → Prop) (x : Option (ReservationRecord T)) (db : Database T) : Prop :=
  ∃ r, x = some r ∧ r.reservation.reservationId = id ∧ P r.reservation ∧ Seen r db

theorem stays_answers (id : String) (P : Reservation T → Prop) (x : Option (ReservationRecord T)) :
    Stays (Answers id P x) := by
  rintro a b ho ⟨r, hx, hid, hP, hseen⟩
  exact ⟨r, hx, hid, hP, hseen.later ho⟩

/-- A row that is there is still there when a transaction updates it. -/
theorem found_update {id : String} {db₁ db₂ : Database T} {r : Reservation T} {P : Reservation T → Prop}
    {g : Reservation T → Reservation T} {t : Tables T} (htables : db₂.tables = updateReservation id g t)
    (hid : r.reservationId = id) (hlisted : Listed r db₁) (ht : t.reservations = db₁.tables.reservations)
    (hg : ∀ r, (g r).reservationId = r.reservationId ∧ P (g r)) : Found id P db₂ := by
  obtain ⟨row, hrow, -⟩ := hlisted
  rw [hid] at hrow
  refine ⟨g row, ?_, (hg row).2⟩
  rw [htables, findReservation_updateReservation fun r => (hg r).1, findReservation, ht, ← findReservation, hrow]
  rfl

/-! ### One operation -/

/-- A write to the row of one id that leaves the payments of the other rows alone. -/
theorem onward_write {db db' : Database T} {t : Tables T} {id : String} {g : Reservation T → Reservation T}
    (htables : db'.tables = updateReservation id g t) (hrows : t.reservations = db.tables.reservations)
    (hother : ∀ id', id' ≠ id → paymentsOf t id' = paymentsOf db.tables id')
    (hkept : ∀ q ∈ db.tables.payments, ∃ q' ∈ t.payments, q'.reservationId = q.reservationId)
    (hg : ∀ r, Later r (g r))
    (hbooked : ∀ r, Booked r (paymentsOf db.tables id) → Booked (g r) (paymentsOf t id)) : Onward db db' where
  booked := fun h r' hr' => by
    rw [htables] at hr' ⊢
    obtain ⟨r, hr, rfl⟩ := List.mem_map.mp hr'
    rw [hrows] at hr
    show Booked (if r.reservationId = id then g r else r) (paymentsOf t _)
    by_cases he : r.reservationId = id
    · have hr := h r hr
      rw [he] at hr
      rw [if_pos he, (hg r).same.reservationId, he]
      exact hbooked r hr
    · rw [if_neg he, hother _ he]
      exact h r hr
  rows := fun id' r hr => by
    refine ⟨if r.reservationId = id then g r else r, ?_, ?_⟩
    · rw [htables, updateReservation, findReservation_update, findReservation, hrows, ← findReservation, hr]
      · rfl
      · intro r
        split
        · exact (hg r).same.reservationId
        · rfl
    · split
      · exact hg r
      · exact Later.refl r
  payments := fun q hq => by
    rw [htables]
    exact hkept q hq

/-- A write that charges the row of one id anew. -/
theorem onward_charge {db db' : Database T} {id : String} {g : Reservation T → Reservation T} (p : PaymentPayload)
    (now : T) (htables : db'.tables = updateReservation id g (upsertPayment id p now db.tables)) (hg : ∀ r, Later r (g r))
    (hbooked : ∀ r, ∀ q : Payment T, q.status = p.paymentStatus → Booked (g r) [q]) : Onward db db' := by
  obtain ⟨q, hpayments, hstatus, -⟩ := paymentsOf_upsert db.valid id p now
  refine onward_write htables (upsertPayment_reservations id p now db.tables)
    (fun id' hne => paymentsOf_upsert_ne db.tables hne p now) (fun q hq => upsertPayment_kept id p now db.tables hq) hg
    fun r _ => ?_
  rw [hpayments]
  exact hbooked r q hstatus

theorem onward_insert {db db' : Database T} {id eventId seatId userId holdToken : String} {expiresAt now : T}
    (htables : db'.tables =
      Repository.createHeldReservation id eventId seatId userId holdToken expiresAt now db.tables) : Onward db db' where
  booked := fun h r hr => by
    have hids := db'.valid.reservationIds
    rw [htables] at hr hids ⊢
    rcases List.mem_append.mp hr with hr | hr
    · exact h r hr
    · obtain rfl := List.mem_singleton.mp hr
      have hnone : paymentsOf db.tables id = [] := paymentsOf_unknown fun hmem => by
        obtain ⟨q, hq, he⟩ := List.mem_map.mp hmem
        rw [Repository.createHeldReservation, List.map_append] at hids
        exact List.disjoint_of_nodup_append hids (he ▸ db.valid.paymentReservations q hq) (by simp)
      refine ⟨fun _ => ⟨hnone, rfl, rfl⟩, by simp, by simp, ?_, fun hc => absurd rfl hc⟩
      rintro ⟨q, hq, -⟩
      exact absurd hq (hnone ▸ List.not_mem_nil)
  rows := fun id' r hr => by
    refine ⟨r, ?_, Later.refl r⟩
    rw [findReservation] at hr
    simp [htables, findReservation, Repository.createHeldReservation, List.find?_append, hr]
  payments := fun q hq => ⟨q, by rwa [htables], rfl⟩

variable [LinearOrder T]

theorem onward_sweep {db db' : Database T} {now : T}
    (htables : db'.tables = Repository.expireStaleReservations now db.tables) : Onward db db' where
  booked := fun h r' hr' => by
    rw [htables] at hr' ⊢
    obtain ⟨r, hr, rfl⟩ := List.mem_map.mp hr'
    have hr := h r hr
    split
    next => exact ⟨by simp, by simp, by simp, hr.charged, hr.paid⟩
    next => exact hr
  rows := fun id r hr => by
    refine ⟨if Stale r now then { r with status := .expired, updatedAt := now } else r, ?_, ?_⟩
    · rw [htables, Repository.expireStaleReservations, findReservation_update, hr]
      · rfl
      · intro r
        split <;> rfl
    · split
      · exact ⟨⟨rfl, rfl, rfl, rfl, rfl, rfl⟩, fun hc => hc, fun hc => hc, by simp⟩
      · exact Later.refl r
  payments := fun q hq => ⟨q, by rwa [htables], rfl⟩

theorem exec_onward (clock : T) (db : Database T) {op : RepoOp T} (hop : Books op) :
    Onward db (exec clock db op).2 := by
  have commits (f : Tables T → Tables T) (hf : ∀ db' : Database T, db'.tables = f db.tables → Onward db db') :
      Onward db (transaction db f).2 := by
    rcases transaction_cases db f with ⟨-, hc⟩ | ⟨-, hc⟩
    · exact hf _ hc
    · rw [hc]
      exact Onward.refl db
  cases op with
  | expireStaleReservations now => exact commits _ fun _ => onward_sweep
  | createUser userId displayName email createdAt =>
      refine commits _ fun db' htables => ?_
      have hrows : db'.tables.reservations = db.tables.reservations ∧ db'.tables.payments = db.tables.payments := by
        rw [htables, createUser]
        split <;> exact ⟨rfl, rfl⟩
      refine ⟨fun h r hr => ?_, fun id r hr => ⟨r, ?_, Later.refl r⟩, fun q hq => ⟨q, by rwa [hrows.2], rfl⟩⟩
      · rw [paymentsOf, hrows.2]
        exact h r (hrows.1 ▸ hr)
      · rwa [findReservation, hrows.1]
  | createHeldReservation id eventId seatId userId holdToken expiresAt now => exact commits _ fun _ => onward_insert
  | confirmReservation id payment now =>
      simp only [exec, bindAmount]
      split
      · refine commits _ fun db' htables => onward_charge _ now htables
          (fun r => ⟨⟨rfl, rfl, rfl, rfl, rfl, rfl⟩, fun _ => Option.some_ne_none now, fun hc => hc, by simp⟩)
          fun r q hq => ?_
        exact ⟨by simp, fun _ => ⟨Option.some_ne_none now, q, rfl, hq⟩, by simp, fun _ => Option.some_ne_none now,
          fun _ => ⟨q, rfl⟩⟩
      · exact Onward.refl db
  | cancelReservation id now payment =>
      simp only [exec, bindAmount]
      split
      · refine commits _ fun db' htables => ?_
        have hg (r : Reservation T) :
            Later r { r with status := .cancelled, updatedAt := now, cancelledAt := some now } :=
          ⟨⟨rfl, rfl, rfl, rfl, rfl, rfl⟩, fun hc => hc, fun _ => Option.some_ne_none now, by simp⟩
        cases payment with
        | none =>
            refine onward_write htables rfl (fun _ _ => rfl) (fun q hq => ⟨q, hq, rfl⟩) hg fun r hr => ?_
            exact ⟨by simp, by simp, fun _ => Option.some_ne_none now, hr.charged, hr.paid⟩
        | some payment =>
            refine onward_charge payment now htables hg fun r q hq => ?_
            have hfailed : q.status ≠ .succeeded := by
              have hop : payment.paymentStatus = .failed ∨ payment.paymentStatus = .cancelled := hop
              rw [hq]
              rcases hop with hop | hop <;> rw [hop] <;> decide
            refine ⟨by simp, by simp, fun _ => Option.some_ne_none now, ?_, fun _ => ⟨q, rfl⟩⟩
            rintro ⟨q', hq', hs⟩
            rw [List.mem_singleton.mp hq'] at hs
            exact absurd hs hfailed
      · exact Onward.refl db
  | expireReservation id now =>
      refine commits _ fun db' htables => onward_write htables rfl (fun _ _ => rfl) (fun q hq => ⟨q, hq, rfl⟩)
        (fun r => ⟨⟨rfl, rfl, rfl, rfl, rfl, rfl⟩, fun hc => hc, fun hc => hc, by simp⟩) fun r hr => ?_
      exact ⟨by simp, by simp, by simp, hr.charged, hr.paid⟩
  | _ => exact Onward.refl db

/-! ### A call among others -/

def Ran (db : Database T) (c : Connection T) (x : Except Error c.Res) (db' : Database T) : Prop :=
  ∃ e, attemptConnect e db c = (x, db')

/-- Among other connections, the program returns nothing that does not satisfy `Q`. -/
abbrev Leaves (Q : α → Database T → Prop) (p : Program (Connection T) Connection.Res Error α) (db : Database T) : Prop :=
  p.Sat Onward Ran (fun _ c _ => Books c.op) (onOk Q) db

/-- Among other calls, the method returns nothing that does not satisfy `Q`. -/
abbrev Gives (Q : α → Database T → Prop) (p : Method T α) (db : Database T) : Prop := Leaves Q (p.expand connections) db

section Rules

variable {Q : α → Database T → Prop} {Q' : β → Database T → Prop} {I : Database T → Prop} {db db' : Database T}

theorem ran_onward {c : Connection T} {x : Except Error c.Res} (h : Ran db c x db') (hop : Books c.op) :
    Onward db db' := by
  obtain ⟨⟨clock, _ | error⟩, he⟩ := h
  · have hdb : db' = (exec clock db c.op).2 := by
      rw [← connect_op]
      exact (congrArg Prod.snd he).symm
    rw [hdb]
    exact exec_onward clock db hop
  · have hdb : db' = db := (congrArg Prod.snd he).symm
    rw [hdb]
    exact Onward.refl db

omit [LinearOrder T] in
theorem books_connections (op : RepoOp T) (h : Books op) : (connections op).Calls fun c => Books c.op := by
  have one {c : Connection T} (hc : Books c.op) :
      (Program.invoke c : Program (Connection T) Connection.Res Error c.Res).Calls fun c => Books c.op :=
    Program.Calls.invoke hc
  have twice {op read : RepoOp T} (hop : Books op) (hread : Books read) :
      (writeThenRead op read).Calls fun c => Books c.op :=
    (one (c := .write op) hop).bind fun _ => one (c := .whole read) hread
  cases op with
  | createUser => exact twice trivial trivial
  | createHeldReservation => exact twice trivial trivial
  | confirmReservation => exact twice trivial trivial
  | cancelReservation => exact twice h trivial
  | expireReservation => exact twice trivial trivial
  | _ => exact one h

theorem leaves_invoke {c : Connection T} {Q : c.Res → Database T → Prop} (hop : Books c.op)
    (h : ∀ db₁, Onward db db₁ → ∀ clock a db₂, connect clock db₁ c = (.ok a, db₂) → Onward db₁ db₂ →
      ∀ db₃, Onward db₂ db₃ → Q a db₃) : Leaves Q (Program.invoke c) db := by
  refine Sat.invoke fun db₁ h₁ x db₂ hran => ⟨hop, fun db₃ h₃ => ?_⟩
  have h₂ := ran_onward hran hop
  obtain ⟨⟨clock, _ | error⟩, he⟩ := hran
  · cases x with
    | error e => trivial
    | ok a => exact h db₁ h₁ clock a db₂ he h₂ db₃ h₃
  · cases x with
    | error e => trivial
    | ok a => cases congrArg Prod.fst he

/-- What has been committed is there for the read, whatever comes in between. -/
theorem leaves_update (op : RepoOp T) {id : String} {P : Reservation T → Prop} (hP : Lasting P) (hop : Books op)
    (hb : AllBooked db.tables)
    (h : ∀ db₁, Onward db db₁ → ∀ clock a db₂, exec clock db₁ op = (.ok a, db₂) → Found id P db₂) :
    Leaves (Answers id P) (writeThenRead op (.getReservation id)) db := by
  have hwrite : Leaves (fun _ db' => AllBooked db'.tables ∧ Found id P db')
      (Program.invoke (Connection.write op)) db := by
    refine leaves_invoke hop fun db₁ h₁ clock a db₂ ha h₂ db₃ h₃ => ?_
    refine ⟨h₃.booked (h₂.booked (h₁.booked hb)), Found.later hP ?_ h₃⟩
    simp only [connect] at ha
    rcases hx : exec clock db₁ op with ⟨e | b, db'⟩
    · rw [hx] at ha
      cases congrArg Prod.fst ha
    · rw [hx] at ha
      obtain rfl : db' = db₂ := congrArg Prod.snd ha
      exact h db₁ h₁ clock b db' hx
  refine Sat.seq Onward.refl hwrite fun _ db' hdb' => ?_
  refine leaves_invoke (c := .whole (.getReservation id)) trivial fun db₁ h₁ clock x db₂ hx _ db₃ h₃ => ?_
  cases hx
  obtain ⟨x, hget, hx⟩ := seen_get (h₁.booked hdb'.1) (hdb'.2.later hP h₁)
  exact stays_answers id P _ _ _ h₃ ⟨x, hget, hx⟩

theorem Gives.seq {p : Method T α} {f : α → Method T β} (h : Gives Q p db) (hf : ∀ a db', Q a db' → Gives Q' (f a) db') :
    Gives Q' (p >>= f) db := by
  rw [Gives, Program.expand_bind]
  exact Sat.seq Onward.refl h hf

theorem Gives.map {p : Method T α} {f : α → β} (h : Gives Q p db) (hQ : ∀ a, Stays (Q a))
    (hf : ∀ a db', Q a db' → Q' (f a) db') : Gives Q' (p >>= fun a => pure (f a)) db :=
  h.seq fun a _ ha _ ho => hf a _ (hQ a _ _ ho ha)

theorem Gives.frame (hI : Stays I) {p : Method T α} (h : Gives Q p db) (hs : I db) :
    (p.expand connections).Sat Onward Ran (fun _ c _ => Books c.op) (fun x db' => onOk Q x db' ∧ I db') db := by
  refine Sat.frame hI ?_ h hs
  rintro db c x db' hran hop
  exact hI _ _ (ran_onward hran hop)

theorem gives_pure {a : α} (h : ∀ db', Onward db db' → Q a db') : Gives Q (pure a) db := h

theorem gives_throw (e : Error) : Gives Q (throw e : Method T α) db := fun _ _ => trivial

theorem gives_connections (op : RepoOp T) {Q : op.Res → Database T → Prop} (h : Leaves Q (connections op) db) :
    Gives Q (Service.call op) db := by
  rwa [Gives, Service.call, Program.expand_invoke]

theorem gives_call {op : RepoOp T} {Q : op.Res → Database T → Prop}
    (hwhole : connections op = Program.invoke (Connection.whole op)) (hop : Books op)
    (h : ∀ db₁, Onward db db₁ → ∀ clock a db₂, exec clock db₁ op = (.ok a, db₂) → Onward db₁ db₂ → ∀ db₃, Onward db₂ db₃ →
      Q a db₃) : Gives Q (Service.call op) db := by
  apply gives_connections op
  rw [hwhole]
  exact leaves_invoke hop h

theorem gives_books (hI : Stays I) {p : Method T α} (hp : p.Calls Books) (hs : I db) :
    Gives (fun _ db' => I db') p db := by
  have hsat : (p.expand connections).Sat Onward Ran (fun _ c _ => Books c.op) (fun _ db' => I db') db := by
    refine (hp.expand books_connections).sat hI ?_ hs
    rintro db c x db' hop hran hs
    exact ⟨hop, hI _ _ (ran_onward hran hop) hs⟩
  refine hsat.mono fun x db' h => ?_
  cases x with
  | error e => trivial
  | ok a => exact h

theorem Gives.tryCatch {p : Method T α} {f : Error → Method T α} (hI : Stays I) (h : Gives Q p db) (hs : I db)
    (hf : ∀ e db', I db' → Gives Q (f e) db') : Gives Q (tryCatch p f) db := by
  rw [Gives, Program.expand_tryCatch]
  exact Sat.tryCatch Onward.refl (h.frame hI hs) (fun _ _ hx => hx.1) fun e db' hx => hf e db' hx.2

theorem gives_conflictOnIntegrity {p : Method T α} (h : Gives Q p db) (message : String) :
    Gives Q (conflictOnIntegrity p message) db := by
  refine Gives.tryCatch (stays_const True) h trivial fun e db' _ => ?_
  split <;> exact gives_throw _

/-- Whatever holds stays while the clock is read. -/
theorem gives_timestamp (hI : Stays I) (hs : I db) {m : T → Method T α} (hm : ∀ now db', I db' → Gives Q (m now) db') :
    Gives Q (currentTimestamp >>= m) db :=
  (gives_books hI (p := (currentTimestamp : Method T T)) (Program.Calls.invoke trivial) hs).seq hm

end Rules

/-! ### The methods -/

section Methods

variable {db : Database T} {id : String}

omit [LinearOrder T] in
theorem books_of_sparesRows (op : RepoOp T) (h : SparesRows op) : Books op := by
  cases op with
  | cancelReservation id now payment => cases h
  | _ => trivial

theorem gives_expireStale (hb : AllBooked db.tables) :
    Gives (fun _ db' => AllBooked db'.tables) (expireStale : Method T Unit) db :=
  gives_books stays_booked (calls_expireStale books_of_sparesRows) hb

theorem gives_getReservation (hb : AllBooked db.tables) (id : String) :
    Gives (fun x db' => AllBooked db'.tables ∧ ∀ r ∈ x, r.reservation.reservationId = id ∧ Seen r db')
      (Service.call (.getReservation id)) db := by
  refine gives_call rfl trivial fun db₁ h₁ clock x db₂ hx _ db₃ h₃ => ?_
  cases hx
  refine ⟨(h₁.trans _ _ _ h₃).booked hb, fun r hr => ?_⟩
  obtain ⟨row, hrow, rfl⟩ := Option.map_eq_some_iff.mp hr
  obtain ⟨hmem, hid⟩ := findReservation_mem hrow
  exact ⟨hid, (seen_mem (h₁.booked hb) hmem).later h₃⟩

theorem gives_requireReservation (hb : AllBooked db.tables) (id : String) :
    Gives (fun x db' => AllBooked db'.tables ∧ x.reservation.reservationId = id ∧ Seen x db')
      (requireReservation id) db := by
  refine (gives_expireStale hb).seq fun _ db' hb => (gives_getReservation hb id).seq fun x db' hx => ?_
  cases x with
  | none => exact gives_throw _
  | some r => exact gives_pure fun db'' ho => ⟨ho.booked hx.1, (hx.2 r rfl).1, (hx.2 r rfl).2.later ho⟩

omit [LinearOrder T] in
theorem stays_checked (r : ReservationRecord T) : Stays fun db : Database T => AllBooked db.tables ∧ Seen r db :=
  stays_booked.and (stays_seen r)

omit [LinearOrder T] in
theorem lasting_confirmed : Lasting fun r : Reservation T => r.confirmedAt ≠ none := fun _ _ hl => hl.confirmedAt

omit [LinearOrder T] in
theorem lasting_cancelled : Lasting fun r : Reservation T => r.cancelledAt ≠ none := fun _ _ hl => hl.cancelledAt

omit [LinearOrder T] in
theorem lasting_left : Lasting fun r : Reservation T => r.status ≠ .held := fun _ _ hl h hheld => by
  rw [hl.held hheld] at hheld
  exact h hheld

theorem gives_expireReservation (hb : AllBooked db.tables) (id : String) :
    Gives (Answers id fun r => r.status ≠ .held) (Service.expireReservation id) db := by
  refine (gives_requireReservation hb id).seq fun r db' hr => ?_
  obtain ⟨hb, hid, hseen⟩ := hr
  split
  next hS => exact gives_pure fun db'' ho => ⟨r, rfl, hid, by simp [hS], hseen.later ho⟩
  next =>
    split
    · exact gives_throw _
    · refine gives_timestamp (stays_checked r) ⟨hb, hseen⟩ fun now db' hs =>
        gives_connections (.expireReservation id now) (leaves_update _ lasting_left trivial hs.1
          fun db₁ h₁ clock x db₂ hx => ?_)
      obtain ⟨htables, -⟩ := commit_ok (Repository.expireReservation id now) (fun t => getReservation t id) hx
      exact found_update htables hid (hs.2.later h₁).listed rfl fun r => ⟨rfl, nofun⟩

theorem gives_cancelReservation (hb : AllBooked db.tables) (id : String) (request : CancelReservationRequest) :
    Gives (Answers id fun r => r.cancelledAt ≠ none) (Service.cancelReservation id request) db := by
  refine (gives_requireReservation hb id).seq fun r db' hr => ?_
  obtain ⟨hb, hid, hseen⟩ := hr
  split
  next hS => exact gives_pure fun db'' ho => ⟨r, rfl, hid, hseen.booked.cancelled hS, hseen.later ho⟩
  next =>
    split
    · exact gives_throw _
    · cases hpayment : validateCancelPaymentPayload request with
      | error e => exact gives_throw e
      | ok payment =>
          have hop (now : T) : Books (.cancelReservation id now payment) := by
            cases payment with
            | none => trivial
            | some payment => exact validateCancelPaymentPayload_status hpayment
          refine gives_timestamp (stays_checked r) ⟨hb, hseen⟩ fun now db' hs =>
            gives_connections (.cancelReservation id now payment) (leaves_update _ lasting_cancelled (hop now) hs.1
              fun db₁ h₁ clock x db₂ hx => ?_)
          obtain ⟨htables, -⟩ :=
            commit_ok (Repository.cancelReservation id now payment) (fun t => getReservation t id) (bindAmount_ok hx)
          refine found_update htables hid (hs.2.later h₁).listed ?_ fun r => ⟨rfl, Option.some_ne_none now⟩
          cases payment with
          | none => rfl
          | some payment => exact upsertPayment_reservations id payment now _

theorem gives_confirmReservation (hb : AllBooked db.tables) (id : String) (request : ConfirmReservationRequest) :
    Gives (Answers id fun r => r.confirmedAt ≠ none) (Service.confirmReservation id request) db := by
  refine (gives_requireReservation hb id).seq fun r db' hr => ?_
  obtain ⟨hb, hid, hseen⟩ := hr
  split
  next hS =>
    split
    · exact gives_pure fun db'' ho => ⟨r, rfl, hid, (hseen.booked.confirmed hS).1, hseen.later ho⟩
    · exact gives_throw _
  next =>
    split
    · exact gives_throw _
    · refine gives_conflictOnIntegrity (gives_timestamp (stays_checked r) ⟨hb, hseen⟩ fun now db' hs =>
        gives_connections (.confirmReservation id _ now) (leaves_update _ lasting_confirmed trivial hs.1
          fun db₁ h₁ clock x db₂ hx => ?_)) _
      obtain ⟨htables, -⟩ := commit_ok (Repository.confirmReservation id
        ⟨request.paymentId, .succeeded, request.amount, request.provider, request.providerRef⟩ now)
        (fun t => getReservation t id) (bindAmount_ok hx)
      exact found_update htables hid (hs.2.later h₁).listed (upsertPayment_reservations id _ now _) fun r =>
        ⟨rfl, Option.some_ne_none now⟩

/-- What a request for a hold answers: the row that it has asked for. -/
def Placed [DecidableEq T] (normalizeTimestamp : D → Except Error T) (request : HeldReservationCreate D)
    (x : Option (ReservationRecord T) × Bool) (db : Database T) : Prop :=
  ∃ expiresAt, normalizeTimestamp request.expiresAt = .ok expiresAt ∧
    Answers request.reservationId (fun r => heldRequestMatches r request expiresAt = true) x.1 db

theorem stays_placed (normalizeTimestamp : D → Except Error T) (request : HeldReservationCreate D)
    (x : Option (ReservationRecord T) × Bool) : Stays (Placed normalizeTimestamp request x) := by
  rintro a b ho ⟨expiresAt, hexpiresAt, h⟩
  exact ⟨expiresAt, hexpiresAt, stays_answers _ _ _ _ _ ho h⟩

theorem lasting_placed (request : HeldReservationCreate D) (expiresAt : T) :
    Lasting fun r : Reservation T => heldRequestMatches r request expiresAt = true := by
  intro r r' hl h
  simpa only [heldRequestMatches, hl.same.eventId, hl.same.seatId, hl.same.userId, hl.same.holdToken,
    hl.same.expiresAt] using h

theorem gives_createHeldReservation (hb : AllBooked db.tables) (normalizeTimestamp : D → Except Error T)
    (request : HeldReservationCreate D) :
    Gives (Placed normalizeTimestamp request) (Service.createHeldReservation normalizeTimestamp request) db := by
  have booked {β : Type} {p : Method T β} (hp : p.Calls Books) {db : Database T} (hb : AllBooked db.tables) :
      Gives (fun _ db' => AllBooked db'.tables) p db := gives_books stays_booked hp hb
  refine (gives_expireStale hb).seq fun _ db' hb =>
    (booked (calls_requireEvent books_of_sparesRows request.eventId) hb).seq fun _ db' hb =>
    (booked (calls_requireSeat books_of_sparesRows request.eventId request.seatId) hb).seq fun _ db' hb =>
    (booked (calls_ensureUser books_of_sparesRows request.userId) hb).seq fun _ db' hb =>
    (gives_getReservation hb request.reservationId).seq fun existing db' hexisting => ?_
  obtain ⟨hb, hexisting⟩ := hexisting
  cases hexpiresAt : normalizeTimestamp request.expiresAt with
  | error e => exact gives_throw e
  | ok expiresAt =>
      rw [Program.ofExcept_ok, Program.bind_ret]
      cases existing with
      | some existing =>
          obtain ⟨hid, hseen⟩ := hexisting existing rfl
          dsimp only
          split
          next hmatch =>
            exact gives_pure fun db'' ho => ⟨expiresAt, hexpiresAt, existing, rfl, hid, hmatch, hseen.later ho⟩
          next => exact gives_throw _
      | none =>
          refine (booked (calls_call (by trivial : Books (.hasConfirmedReservation _ _))) hb).seq
            fun confirmed db' hb => ?_
          split
          · exact gives_throw _
          · refine Gives.map (gives_conflictOnIntegrity (gives_timestamp stays_booked hb fun now db' hb => ?_) _)
              (stays_answers request.reservationId fun r => heldRequestMatches r request expiresAt = true)
              fun _ _ hx => ⟨expiresAt, hexpiresAt, hx⟩
            refine gives_connections (.createHeldReservation _ _ _ _ _ _ now)
              (leaves_update _ (lasting_placed request expiresAt) trivial hb fun db₁ h₁ clock x db₂ hx => ?_)
            obtain ⟨htables, -⟩ := commit_ok (Repository.createHeldReservation request.reservationId request.eventId
              request.seatId request.userId request.holdToken expiresAt now)
              (fun t => getReservation t request.reservationId) hx
            have hmem : ⟨request.reservationId, request.eventId, request.seatId, request.userId, .held,
                some request.holdToken, some expiresAt, now, now, none, none⟩ ∈ db₂.tables.reservations := by
              rw [htables]
              exact List.mem_append_right _ List.mem_cons_self
            exact ⟨_, findReservation_of_mem db₂.valid hmem, by simp [heldRequestMatches]⟩

theorem gives_read (op : RepoOp T) {Q : op.Res → Database T → Prop} (hb : AllBooked db.tables)
    (hwhole : connections op = Program.invoke (Connection.whole op)) (hop : Books op) (hQ : ∀ a, Stays (Q a))
    (h : ∀ clock db₁ a db₂, AllBooked db₁.tables → exec clock db₁ op = (.ok a, db₂) → Q a db₂) :
    Gives Q (Service.call op) db :=
  gives_call hwhole hop fun db₁ h₁ clock a db₂ ha _ _ h₃ => hQ a _ _ h₃ (h clock db₁ a db₂ (h₁.booked hb) ha)

/-- A row that was read as `CONFIRMED`. -/
def Sold (r : Reservation T) (db : Database T) : Prop := r.status = .confirmed ∧ r.confirmedAt ≠ none ∧ Listed r db

def WasSold (seat : String × String) (db : Database T) : Prop :=
  ∃ row ∈ db.tables.reservations, row.seat = seat ∧ row.confirmedAt ≠ none

omit [LinearOrder T] in
theorem stays_sold (r : Reservation T) : Stays (Sold r) :=
  (stays_const _).and ((stays_const _).and fun _ _ ho h => h.later ho)

omit [LinearOrder T] in
theorem WasSold.later {seat : String × String} {db' : Database T} (h : WasSold seat db) (ho : Onward db db') :
    WasSold seat db' := by
  obtain ⟨row, hrow, hseat, hat⟩ := h
  obtain ⟨row', hrow', hl⟩ := ho.rows _ row (findReservation_of_mem db.valid hrow)
  exact ⟨row', (findReservation_mem hrow').1, hl.same.seat.trans hseat, hl.confirmedAt hat⟩

omit [LinearOrder T] in
theorem sold_mem (hb : AllBooked db.tables) {r : Reservation T} (hr : r ∈ db.tables.reservations)
    (hS : r.status = .confirmed) : Sold r db :=
  ⟨hS, ((hb r hr).confirmed hS).1, listed_mem hr⟩

/-- What each kind of listing says of the database. -/
def SeatShown (eventId : String) (s : SeatRecord T) (db : Database T) : Prop :=
  s.seat.eventId = eventId ∧ (s.status = .confirmed → WasSold s.seat.key db)

omit [LinearOrder T] in
theorem stays_seatShown (eventId : String) (s : SeatRecord T) : Stays (SeatShown eventId s) :=
  fun _ _ ho h => ⟨h.1, fun hc => (h.2 hc).later ho⟩

theorem gives_listEventSeats (hb : AllBooked db.tables) (eventId : String) :
    Gives (fun rows db' => ∀ s ∈ rows, SeatShown eventId s db') (Service.listEventSeats eventId) db := by
  refine (gives_expireStale hb).seq fun _ db' hb =>
    (gives_books stays_booked (calls_requireEvent books_of_sparesRows eventId) hb).seq fun _ db' hb =>
    gives_read (.listSeats eventId) hb rfl trivial (stays_all (stays_seatShown eventId))
      fun clock db₁ rows db₂ hb hx s hs => ?_
  cases hx
  refine ⟨(mem_listSeats hs).2, fun hc => ?_⟩
  simp only [listSeats, List.mem_map] at hs
  obtain ⟨seat, -, rfl⟩ := hs
  have hsold : hasConfirmedReservation db₁.tables seat.eventId seat.seatId = true := by
    by_contra hno
    simp [hno] at hc
  simp only [hasConfirmedReservation, List.any_eq_true, decide_eq_true_eq] at hsold
  obtain ⟨row, hrow, he, hs, hS⟩ := hsold
  exact ⟨row, hrow, by simp [Reservation.seat, Seat.key, he, hs], ((hb row hrow).confirmed hS).1⟩

theorem gives_listUserReservations (hb : AllBooked db.tables) (userId : String) :
    Gives (fun rows db' => ∀ x ∈ rows, x.reservation.userId = userId ∧ Seen x db')
      (Service.listUserReservations userId) db := by
  refine (gives_expireStale hb).seq fun _ db' hb =>
    (gives_books stays_booked (calls_requireUser books_of_sparesRows userId) hb).seq fun _ db' hb =>
    gives_read (.listUserReservations userId) hb rfl trivial (stays_all fun x => (stays_const _).and (stays_seen x))
      fun clock db₁ rows db₂ hb hx x hmem => ?_
  cases hx
  simp only [Repository.listUserReservations, List.mem_map, List.mem_insertionSort, List.mem_filter,
    decide_eq_true_eq] at hmem
  obtain ⟨row, ⟨hrow, huser⟩, rfl⟩ := hmem
  exact ⟨huser, seen_mem hb hrow⟩

theorem gives_listConfirmedSeats (hb : AllBooked db.tables) (eventId : String) :
    Gives (fun rows db' => ∀ r ∈ rows, r.eventId = eventId ∧ Sold r db') (Service.listConfirmedSeats eventId) db := by
  refine (gives_expireStale hb).seq fun _ db' hb =>
    (gives_books stays_booked (calls_requireEvent books_of_sparesRows eventId) hb).seq fun _ db' hb =>
    gives_read (.listConfirmedSeats eventId) hb rfl trivial (stays_all fun r => (stays_const _).and (stays_sold r))
      fun clock db₁ rows db₂ hb hx r hr => ?_
  cases hx
  simp only [Repository.listConfirmedSeats, List.mem_insertionSort, List.mem_filter, decide_eq_true_eq] at hr
  exact ⟨hr.2.1, sold_mem hb hr.1 hr.2.2⟩

theorem gives_listConfirmedReservations (hb : AllBooked db.tables) (limit : Option Int) :
    Gives (fun rows db' => ∀ r ∈ rows, Sold r db') (Service.listConfirmedReservations limit) db := by
  refine gives_read (.listConfirmedReservations limit) hb rfl trivial (stays_all stays_sold)
    fun clock db₁ rows db₂ hb hx r hr => ?_
  obtain ⟨hrows, rfl⟩ := Prod.mk.inj hx
  have hmem : r ∈ confirmedRows db₁.tables := by
    cases limit with
    | none => exact Except.ok.inj hrows ▸ hr
    | some limit => exact (withLimit_sublist hrows).mem hr
  obtain ⟨hmem, hS⟩ := mem_confirmedRows.mp hmem
  exact sold_mem hb hmem hS

theorem gives_listStaleHeldReservations (hb : AllBooked db.tables) (limit : Int) :
    Gives (fun rows db' => ∀ r ∈ rows, r.status = .held ∧ Listed r db') (Service.listStaleHeldReservations limit) db := by
  refine gives_timestamp stays_booked hb fun now db' hb =>
    gives_read (.listStaleHeldReservations now limit) hb rfl trivial
      (stays_all fun r => (stays_const _).and (stays_listed r))
      fun clock db₁ rows db₂ hb hx r hr => ?_
  obtain ⟨hrows, rfl⟩ := Prod.mk.inj hx
  obtain ⟨hmem, hstale⟩ := mem_staleRows.mp ((withLimit_sublist hrows).mem hr)
  exact ⟨hstale.1, listed_mem hmem⟩

/-- What a sweep answers for each row that it has listed. -/
def Swept (x : Option (ReservationRecord T)) (db : Database T) : Prop := ∃ id, Answers id (fun r => r.status ≠ .held) x db

omit [LinearOrder T] in
theorem stays_swept (x : Option (ReservationRecord T)) : Stays (Swept x) := by
  rintro a b ho ⟨id, h⟩
  exact ⟨id, stays_answers id _ x a b ho h⟩

theorem gives_expireListed (hb : AllBooked db.tables) (rows : List (Reservation T)) :
    Gives (fun xs db' => ∀ x ∈ xs, Swept x db') (expireListed rows) db := by
  induction rows generalizing db with
  | nil => exact gives_pure fun _ _ _ hx => absurd hx List.not_mem_nil
  | cons r rows ih =>
      have hone : Gives (fun xs db' => ∀ x ∈ xs, Swept x db')
          (Service.expireReservation r.reservationId >>= fun x => pure [x]) db := by
        refine (gives_expireReservation hb r.reservationId).map (stays_answers _ _) fun x db' hx y hy => ?_
        rw [List.mem_singleton.mp hy]
        exact ⟨_, hx⟩
      have htry : Gives (fun xs db' => (∀ x ∈ xs, Swept x db') ∧ AllBooked db'.tables)
          (tryCatch (Service.expireReservation r.reservationId >>= fun x => pure [x])
            fun e => if e.kind = .conflictError then pure [] else throw e) db := by
        refine Gives.tryCatch stays_booked ?_ hb fun e db' hb => ?_
        · refine (hone.frame stays_booked hb).mono fun x db' h => ?_
          cases x with
          | error e => trivial
          | ok a => exact h
        · split
          · exact gives_pure fun db'' ho => ⟨fun _ hx => absurd hx List.not_mem_nil, ho.booked hb⟩
          · exact gives_throw _
      refine htry.seq fun xs db' hxs => ?_
      have hrest : Gives (fun ys db' => (∀ x ∈ ys, Swept x db') ∧ ∀ x ∈ xs, Swept x db') (expireListed rows) db' := by
        refine ((ih hxs.2).frame (stays_all stays_swept xs) hxs.1).mono fun y db'' h => ?_
        cases y with
        | error e => trivial
        | ok ys => exact h
      refine hrest.map (fun ys => (stays_all stays_swept ys).and (stays_all stays_swept xs)) fun ys db'' h x hx => ?_
      rcases List.mem_append.mp hx with hx | hx
      · exact h.2 x hx
      · exact h.1 x hx

theorem gives_expireStaleReservations (hb : AllBooked db.tables) (limit : Int) :
    Gives (fun xs db' => ∀ x ∈ xs, Swept x db') (Service.expireStaleReservations limit) db := by
  have hlist : (Service.listStaleHeldReservations limit : Method T _).Calls Books :=
    (calls_timestamp books_of_sparesRows).bind fun now =>
      calls_call (by trivial : Books (.listStaleHeldReservations now limit))
  exact (gives_books stays_booked hlist hb).seq fun rows db' hb => gives_expireListed hb rows

/-- What a call may answer, whatever runs beside it and afterwards. -/
def MayAnswer (normalizeTimestamp : D → Except Error T) : ServiceCall D → ServiceResult T → Database T → Prop
  | .listEvents, .events _, _ => True
  | .listEventSeats eventId, .seats rows, db => ∀ s ∈ rows, SeatShown eventId s db
  | .createHeldReservation request, .created x created, db => Placed normalizeTimestamp request (x, created) db
  | .confirmReservation id _, .reservation x, db => Answers id (fun r => r.confirmedAt ≠ none) x db
  | .cancelReservation id _, .reservation x, db => Answers id (fun r => r.cancelledAt ≠ none) x db
  | .expireReservation id, .reservation x, db => Answers id (fun r => r.status ≠ .held) x db
  | .listUserReservations userId, .records rows, db => ∀ x ∈ rows, x.reservation.userId = userId ∧ Seen x db
  | .listConfirmedSeats eventId, .reservations rows, db => ∀ r ∈ rows, r.eventId = eventId ∧ Sold r db
  | .listConfirmedReservations _, .reservations rows, db => ∀ r ∈ rows, Sold r db
  | .listStaleHeldReservations _, .reservations rows, db => ∀ r ∈ rows, r.status = .held ∧ Listed r db
  | .expireStaleReservations _, .expired xs, db => ∀ x ∈ xs, Swept x db
  | _, _, _ => False

theorem gives_method (hb : AllBooked db.tables) (normalizeTimestamp : D → Except Error T) (c : ServiceCall D) :
    Gives (MayAnswer normalizeTimestamp c) (c.method normalizeTimestamp) db := by
  cases c with
  | listEvents =>
      exact (gives_books stays_booked (calls_call (by trivial : Books .listEvents)) hb).seq fun _ _ _ =>
        gives_pure fun _ _ => trivial
  | listEventSeats eventId =>
      exact (gives_listEventSeats hb eventId).map (stays_all (stays_seatShown eventId)) fun _ _ h => h
  | createHeldReservation request =>
      exact (gives_createHeldReservation hb normalizeTimestamp request).map (stays_placed normalizeTimestamp request)
        fun _ _ h => h
  | confirmReservation id request =>
      exact (gives_confirmReservation hb id request).map (stays_answers id _) fun _ _ h => h
  | cancelReservation id request => exact (gives_cancelReservation hb id request).map (stays_answers id _) fun _ _ h => h
  | expireReservation id => exact (gives_expireReservation hb id).map (stays_answers id _) fun _ _ h => h
  | listUserReservations userId =>
      exact (gives_listUserReservations hb userId).map (stays_all fun x => (stays_const _).and (stays_seen x))
        fun _ _ h => h
  | listConfirmedSeats eventId =>
      exact (gives_listConfirmedSeats hb eventId).map (stays_all fun r => (stays_const _).and (stays_sold r))
        fun _ _ h => h
  | listConfirmedReservations limit =>
      exact (gives_listConfirmedReservations hb limit).map (stays_all stays_sold) fun _ _ h => h
  | listStaleHeldReservations limit =>
      exact (gives_listStaleHeldReservations hb limit).map (stays_all fun r => (stays_const _).and (stays_listed r))
        fun _ _ h => h
  | expireStaleReservations limit =>
      exact (gives_expireStaleReservations hb limit).map (stays_all stays_swept) fun _ _ h => h

end Methods

/-! ### Any number of calls -/

end Ticketing.TicketingApi
