import Ticketing.TicketingApi.DemoData
import Ticketing.TicketingApi.Sweeps
import Ticketing.TicketingApi.Timestamps

namespace Ticketing.TicketingApi

open Python Interaction Repository

/-- The row is `HELD`, and the expiry that was requested for it is reached. -/
def Due (requests : List (HeldReservationCreate DateTime)) (now : DateTime) (r : Reservation String) : Prop :=
  r.status = .held ∧ ∃ request ∈ requests, WrittenFor normalizeTimestamp request r ∧
    request.expiresAt.instant ≤ now.instant

/-- The first row was requested to expire no later than the second. -/
def NoLater (r r' : Reservation String) : Prop :=
  ∀ request request', WrittenFor normalizeTimestamp request r → WrittenFor normalizeTimestamp request' r' →
    request.expiresAt.instant ≤ request'.expiresAt.instant

variable {requests : List (HeldReservationCreate DateTime)} {t : Tables String} {now : DateTime} {r r' : Reservation String}

theorem WrittenFor.expiresAt {request : HeldReservationCreate DateTime} (h : WrittenFor normalizeTimestamp request r) :
    ∃ text, r.expiresAt = some text ∧ normalizeTimestamp request.expiresAt = .ok text := by
  obtain ⟨text, _, htext, hrow⟩ := h
  exact ⟨text, hrow.expiresAt, htext⟩

/-- Comparing texts finds the rows that are due. -/
theorem stale_iff_due (h : Requested normalizeTimestamp requests t) (hr : r ∈ t.reservations)
    (hnow : now.utcoffset = some 0) : Stale r now.isoformat ↔ Due requests now r := by
  constructor
  · rintro ⟨hheld, text, htext, hle⟩
    rw [Option.mem_def] at htext
    obtain ⟨request, hmem, hwritten⟩ := h r hr (by rw [htext]; exact Option.some_ne_none text)
    obtain ⟨text', htext', hnormalized⟩ := hwritten.expiresAt
    obtain rfl : text = text' := Option.some.inj (htext.symm.trans htext')
    exact ⟨hheld, request, hmem, hwritten, (text_le_now_iff hnormalized hnow).1 hle⟩
  · rintro ⟨hheld, request, -, hwritten, hle⟩
    obtain ⟨text, htext, hnormalized⟩ := hwritten.expiresAt
    exact ⟨hheld, text, htext, (text_le_now_iff hnormalized hnow).2 hle⟩

theorem noLater_of_staleOrder (h : staleOrder r ≤ staleOrder r') : NoLater r r' := by
  intro request request' hwritten hwritten'
  obtain ⟨text, htext, hnormalized⟩ := hwritten.expiresAt
  obtain ⟨text', htext', hnormalized'⟩ := hwritten'.expiresAt
  rw [← text_le_iff hnormalized hnormalized']
  have hfst : @LE.le (WithBot String) _ r.expiresAt r'.expiresAt :=
    (Prod.Lex.toLex_le_toLex.1 h).elim le_of_lt fun h => h.1.le
  rw [htext, htext'] at hfst
  exact WithBot.coe_le_coe.1 hfst

theorem staleRows_sorted (t : Tables String) (now : String) : (staleRows t now).Pairwise NoLater := by
  have : Std.Total (fun a b : Reservation String => staleOrder a ≤ staleOrder b) := ⟨fun a b => le_total _ _⟩
  have : IsTrans (Reservation String) (fun a b => staleOrder a ≤ staleOrder b) := ⟨fun _ _ _ => le_trans⟩
  exact (List.pairwise_insertionSort _ _).imp noLater_of_staleOrder

/-- The rows that the listing is cut from: those that are due, in the order of their expiry. -/
theorem staleRows_due (h : Requested normalizeTimestamp requests t) (ht : Valid t) (hnow : now.utcoffset = some 0) :
    (staleRows t now.isoformat).Nodup ∧
      (∀ r, r ∈ staleRows t now.isoformat ↔ r ∈ t.reservations ∧ Due requests now r) ∧
      (staleRows t now.isoformat).Pairwise NoLater := by
  refine ⟨?_, fun r => ?_, staleRows_sorted t now.isoformat⟩
  · exact (staleRows_perm t now.isoformat).nodup_iff.2 (ht.reservationIds.of_map.filter _)
  · rw [mem_staleRows]
    exact and_congr_right fun hr => stale_iff_due h hr hnow

theorem expire_due (h : Requested normalizeTimestamp requests t) (hnow : now.utcoffset = some 0) :
    List.Forall₂ (fun r r' => Due requests now r ∧ r' = { r with status := .expired, updatedAt := now.isoformat } ∨
      ¬ Due requests now r ∧ r' = r) t.reservations (t.reservations.map (expiredAt now.isoformat)) := by
  rw [List.forall₂_map_right_iff, List.forall₂_same]
  intro r hr
  rw [← stale_iff_due h hr hnow]
  by_cases hstale : Stale r now.isoformat
  · exact .inl ⟨hstale, if_pos hstale⟩
  · exact .inr ⟨hstale, if_neg hstale⟩

/-- Normalized timestamps are ordered and told apart as the instants they stand for, so that the texts in the
tables, which all come from requests, select the rows whose requested expiry is reached. -/
theorem timestamps_in_order {db : Database String} (h : Requested normalizeTimestamp requests db.tables)
    (calls : List (TicketingRequest String DateTime)) :
    let after := calls.foldl (TicketingRequest.run normalizeTimestamp) db
    let requested := requests ++ calls.flatMap (fun c => c.1.requests)
    (∀ a b : DateTime, DateTime.Representable a.instant → DateTime.Representable b.instant →
      ∃ x y, normalizeTimestamp a = .ok x ∧ normalizeTimestamp b = .ok y ∧
        (Utf8.encode x ≤ Utf8.encode y ↔ a.instant ≤ b.instant) ∧ (x = y ↔ a.instant = b.instant)) ∧
      ∀ (now : DateTime) (clock : String), now.utcoffset = some 0 →
        List.Forall₂ (fun r r' => Due requested now r ∧ r' = { r with status := .expired, updatedAt := now.isoformat } ∨
            ¬ Due requested now r ∧ r' = r) after.tables.reservations
          (exec clock after (.expireStaleReservations now.isoformat)).2.tables.reservations ∧
        ∃ rows : List (Reservation String), rows.Nodup ∧
          (∀ r, r ∈ rows ↔ r ∈ after.tables.reservations ∧ Due requested now r) ∧ rows.Pairwise NoLater ∧
          ∀ limit, exec clock after (.listStaleHeldReservations now.isoformat limit) = (withLimit limit rows, after) := by
  intro after requested
  have hrequested : Requested normalizeTimestamp requested after.tables := runs_requested h calls
  refine ⟨fun a b ha hb => ?_, fun now clock hnow => ⟨?_, staleRows after.tables now.isoformat, ?_⟩⟩
  · obtain ⟨x, hx⟩ := exists_normalizeTimestamp ha
    obtain ⟨y, hy⟩ := exists_normalizeTimestamp hb
    refine ⟨x, y, hx, hy, ?_, text_eq_iff hx hy⟩
    rw [TextOrder.encode_le_iff, text_le_iff hx hy]
  · rw [exec_expireStale]
    exact expire_due hrequested hnow
  · obtain ⟨hnodup, hmem, hsorted⟩ := staleRows_due hrequested after.valid hnow
    exact ⟨hnodup, hmem, hsorted, fun limit => rfl⟩

def openEvent : Database String where
  tables :=
    { events := [⟨"e", "title", "venue", "2026-03-19", "2026-03-18", ""⟩]
      users := [⟨"u", "Mina", "mina@example.com", ""⟩]
      seats := [⟨"e", "s", "A-1", "A", "1", 1, 100, ""⟩]
      reservations := []
      payments := [] }
  valid := by decide +kernel

def eleven : DateTime where
  date := ⟨2026, 3, 19, by decide⟩
  time := ⟨20, 0, 0, 0, by decide⟩
  utcoffset := some 32400000000
  year_le := by decide
  utcoffset_lt := by rintro _ ⟨⟩; decide

def halfPastTen : DateTime where
  date := ⟨2026, 3, 19, by decide⟩
  time := ⟨10, 30, 0, 500, by decide⟩
  utcoffset := none
  year_le := by decide
  utcoffset_lt := by rintro _ ⟨⟩

def noon : DateTime where
  date := ⟨2026, 3, 19, by decide⟩
  time := ⟨12, 0, 0, 0, by decide⟩
  utcoffset := some 0
  year_le := by decide
  utcoffset_lt := eleven.replaceUtc.utcoffset_lt

/-- Two holds, the first until eleven in UTC, written in the time of Seoul. -/
def morningHolds : List (TicketingRequest String DateTime) :=
  [(.service (.createHeldReservation ⟨"r", "e", "s", "u", "token", eleven⟩), fun _ => ("2026-03-19T10:00:00+00:00", none)),
    (.service (.createHeldReservation ⟨"q", "e", "s", "u", "other", halfPastTen⟩),
      fun _ => ("2026-03-19T10:00:00+00:00", none))]

theorem morningHolds_in_order :
    let after := morningHolds.foldl (TicketingRequest.run normalizeTimestamp) openEvent
    ((exec "" after (.listStaleHeldReservations noon.isoformat 1)).1.map (List.map Reservation.reservationId)).toOption =
        some ["q"] ∧
      ∃ rows : List (Reservation String), rows.Nodup ∧
        (∀ r, r ∈ rows ↔ r ∈ after.tables.reservations ∧
          Due ([] ++ morningHolds.flatMap (fun c => c.1.requests)) noon r) ∧ rows.Pairwise NoLater ∧
        ∀ limit, exec "" after (.listStaleHeldReservations noon.isoformat limit) = (withLimit limit rows, after) :=
  ⟨by decide +kernel, ((timestamps_in_order (fun r hr => by cases hr) morningHolds).2 noon "" rfl).2⟩

end Ticketing.TicketingApi
