import Ticketing.AppServer.Passes

namespace Ticketing.AppServer

open Python Interaction TicketingApi Repository Commands Orchestrator Reconciler
open Storage (seatKey)
open Reconciler.ReconciliationReport (total)

/-! ### What a report says of a reservation -/

def releaseFailed (id : String) : String := "expire release failed for " ++ id ++ ": "

def repairFailed (id : String) : String := "confirm repair failed for " ++ id ++ ": "

/-- An error of the report that names the reservation. -/
def names (id text : String) : Bool :=
  (releaseFailed id).toList.isPrefixOf text.toList || (repairFailed id).toList.isPrefixOf text.toList ||
    text = "confirm repair returned unexpected state for " ++ id

/-- The part of a report that is about a reservation. -/
def about (id : String) (report : ReconciliationReport) : ReconciliationReport :=
  ⟨report.expiredReservationIds.filter (· = id), report.repairedReservationIds.filter (· = id),
    report.errors.filter (names id)⟩

theorem about_append (id : String) (a b : ReconciliationReport) :
    about id (a.append b) = (about id a).append (about id b) := by
  simp only [about, ReconciliationReport.append, List.filter_append]

/-- A text that ends at the first colon can be read off what goes on after it. -/
theorem prefix_colon {xs ys zs : List Char} (hx : ':' ∉ xs) (hy : ':' ∉ ys)
    (h : (xs ++ [':', ' ']) <+: ys ++ [':', ' '] ++ zs) : xs = ys := by
  obtain ⟨rest, h⟩ := h
  have take (xs rest : List Char) (hx : ':' ∉ xs) : (xs ++ [':', ' '] ++ rest).takeWhile (· ≠ ':') = xs := by
    rw [List.append_assoc, List.takeWhile_append_of_pos fun c hc => by simpa using ne_of_mem_of_not_mem hc hx]
    simp
  rw [← take xs rest hx, h, take ys zs hy]

theorem getElem?_text (a b : String) {i : ℕ} (h : i < a.toList.length) : (a ++ b).toList[i]? = a.toList[i]? := by
  rw [String.toList_append, List.getElem?_append_left h]

/-- Texts that differ at a place of their openings are no prefixes of each other. -/
theorem not_prefix {a b c d : String} (i : ℕ) (ha : i < a.toList.length) (hc : i < c.toList.length)
    (hne : a.toList[i]? ≠ c.toList[i]?) : ¬ (a ++ b).toList <+: (c ++ d).toList := by
  rintro ⟨rest, h⟩
  have hi : ((a ++ b).toList ++ rest)[i]? = (c ++ d).toList[i]? := by rw [h]
  rw [List.getElem?_append_left (by rw [String.toList_append, List.length_append]; omega), getElem?_text a b ha,
    getElem?_text c d hc] at hi
  exact hne hi

theorem prefix_text {label id id' message : String} (hid : ':' ∉ id.toList) (hid' : ':' ∉ id'.toList) :
    (label ++ (id ++ ": ")).toList <+: (label ++ (id' ++ ": " ++ message)).toList ↔ id = id' := by
  have hcolon : ": ".toList = [':', ' '] := rfl
  simp only [String.toList_append, List.prefix_append_right_inj, hcolon]
  constructor
  · exact fun h => String.toList_inj.mp (prefix_colon hid hid' h)
  · rintro rfl
    exact ⟨message.toList, rfl⟩

theorem names_iff {id id' label text : String} (message : String) (hid : ':' ∉ id.toList) (hid' : ':' ∉ id'.toList)
    (hlabel : label = "expire release failed for " ∨ label = "confirm repair failed for ")
    (htext : text = label ++ id' ++ ": " ++ message) : names id text = true ↔ id = id' := by
  have hshape : text = label ++ (id' ++ ": " ++ message) := by simp only [htext, String.append_assoc]
  have hrelease : releaseFailed id = "expire release failed for " ++ (id ++ ": ") := String.append_assoc ..
  have hrepair : repairFailed id = "confirm repair failed for " ++ (id ++ ": ") := String.append_assoc ..
  simp only [names, Bool.or_eq_true, List.isPrefixOf_iff_prefix, decide_eq_true_eq, hrelease, hrepair, hshape]
  have hopening {a b c d : String} (h : a ++ b = c ++ d) : (a ++ b).toList <+: (c ++ d).toList :=
    ⟨[], by rw [List.append_nil, h]⟩
  rcases hlabel with rfl | rfl
  · rw [prefix_text hid hid', or_assoc]
    refine or_iff_left (not_or_intro ?_ fun h => ?_)
    · exact not_prefix (a := "confirm repair failed for ") (c := "expire release failed for ") 0 (by decide) (by decide)
        (by decide)
    · exact not_prefix (a := "expire release failed for ") (c := "confirm repair returned unexpected state for ") 0
        (by decide) (by decide) (by decide) (hopening h)
  · rw [prefix_text hid hid', or_comm (b := id = id'), or_assoc]
    refine or_iff_left (not_or_intro ?_ fun h => ?_)
    · exact not_prefix (a := "expire release failed for ") (c := "confirm repair failed for ") 0 (by decide) (by decide)
        (by decide)
    · exact not_prefix (a := "confirm repair failed for ") (c := "confirm repair returned unexpected state for ") 15
        (by decide) (by decide) (by decide) (hopening h)

/-- A report that is about one reservation only. -/
structure Concerns (id : String) (report : ReconciliationReport) : Prop where
  expired : ∀ x ∈ report.expiredReservationIds, x = id
  repaired : ∀ x ∈ report.repairedReservationIds, x = id
  errors : ∀ text ∈ report.errors, ∀ id', ':' ∉ id'.toList → (names id' text = true ↔ id' = id)

theorem Concerns.about_self {id : String} {report : ReconciliationReport} (h : Concerns id report) (hid : ':' ∉ id.toList) :
    about id report = report := by
  simp only [about]
  rw [List.filter_eq_self.mpr fun x hx => by simpa using h.expired x hx,
    List.filter_eq_self.mpr fun x hx => by simpa using h.repaired x hx,
    List.filter_eq_self.mpr fun x hx => (h.errors x hx id hid).mpr rfl]

theorem Concerns.about_other {id id' : String} {report : ReconciliationReport} (h : Concerns id report)
    (hid : ':' ∉ id'.toList) (hne : id' ≠ id) : about id' report = ⟨[], [], []⟩ := by
  simp only [about]
  rw [List.filter_eq_nil_iff.mpr fun x hx hx' => hne ((of_decide_eq_true hx').symm.trans (h.expired x hx)),
    List.filter_eq_nil_iff.mpr fun x hx hx' => hne ((of_decide_eq_true hx').symm.trans (h.repaired x hx)),
    List.filter_eq_nil_iff.mpr fun x hx hx' => hne ((h.errors x hx id' hid).mp hx')]

theorem concerns_released {x : ReservationRecord ℚ} {report : ReconciliationReport} (h : Released x report)
    (hid : ':' ∉ x.reservation.reservationId.toList) : Concerns x.reservation.reservationId report := by
  obtain ⟨errors, rfl, hmessage⟩ := h
  refine ⟨by simp, by simp, fun text htext id' hid' => ?_⟩
  obtain ⟨message, hm⟩ := hmessage text htext
  exact names_iff message hid' hid (.inl rfl) hm

theorem concerns_repair {r : Reservation ℚ} {report : ReconciliationReport} (h : RepairReport r report)
    (hid : ':' ∉ r.reservationId.toList) : Concerns r.reservationId report := by
  cases h with
  | kept => exact ⟨by simp, by simp, by simp⟩
  | repaired => exact ⟨by simp, by simp, by simp⟩
  | failed message =>
      refine ⟨by simp, by simp, fun text htext id' hid' => ?_⟩
      exact names_iff message hid' hid (.inr rfl) (List.mem_singleton.mp htext)

section Total

variable {α : Type} {idOf : α → String} {items : List α} {reports reports' : List ReconciliationReport} {id : String}

theorem about_total_cons (id : String) (report : ReconciliationReport) (reports : List ReconciliationReport) :
    about id (total (report :: reports)) = (about id report).append (about id (total reports)) :=
  about_append id report (total reports)

theorem about_total_none (idOf : α → String) (h : List.Forall₂ (fun a d => Concerns (idOf a) d) items reports) (hid : ':' ∉ id.toList)
    (hne : ∀ a ∈ items, idOf a ≠ id) : about id (total reports) = ⟨[], [], []⟩ := by
  induction h with
  | nil => rfl
  | @cons a report items reports ha _ ih =>
      rw [about_total_cons, ha.about_other hid (hne a List.mem_cons_self).symm,
        ih fun a ha => hne a (List.mem_cons_of_mem _ ha)]
      rfl

/-- Of an item with an id of its own, the whole report says what its own report does. -/
theorem about_total_own (idOf : α → String) {R : α → ReconciliationReport → Prop} (h : List.Forall₂ R items reports)
    (hR : ∀ a ∈ items, ∀ d, R a d → ':' ∉ (idOf a).toList ∧ Concerns (idOf a) d) (hnodup : (items.map idOf).Nodup) :
    ∀ a ∈ items, ∃ d, R a d ∧ about (idOf a) (total reports) = d := by
  induction h with
  | nil => simp
  | @cons a report items reports ha hrest ih =>
      have hRrest (a' : α) (ha' : a' ∈ items) := hR a' (List.mem_cons_of_mem a ha')
      obtain ⟨hplain, hconcerns⟩ := hR a List.mem_cons_self report ha
      obtain ⟨hnew, hnodup⟩ := List.nodup_cons.mp hnodup
      have hother (a' : α) (ha' : a' ∈ items) : idOf a' ≠ idOf a := fun he => hnew (List.mem_map.mpr ⟨a', ha', he⟩)
      intro a' ha'
      rcases List.mem_cons.mp ha' with rfl | ha'
      · refine ⟨report, ha, ?_⟩
        rw [about_total_cons, hconcerns.about_self hplain,
          about_total_none idOf (forall₂_imp hrest fun a' ha' d hd => (hRrest a' ha' d hd).2) hplain hother,
          ReconciliationReport.append_empty]
      · obtain ⟨d, hd, he⟩ := ih hRrest hnodup a' ha'
        refine ⟨d, hd, ?_⟩
        rw [about_total_cons, hconcerns.about_other (hRrest a' ha' d hd).1 (hother a' ha'), he]
        rfl

/-- Two reports that say the same of every item of a place say the same of a reservation whose items are all there. -/
theorem about_total_eq {κ : Type} {place : α → κ} {k : κ}
    (h : List.Forall₂ (fun a d => Concerns (idOf a) d) items reports)
    (h' : List.Forall₂ (fun a d => Concerns (idOf a) d) items reports')
    (hsame : List.Forall₂ (fun a x => place a = k → x.1 = x.2) items (reports.zip reports'))
    (hid : ':' ∉ id.toList) (hplace : ∀ a ∈ items, idOf a = id → place a = k) :
    about id (total reports) = about id (total reports') := by
  induction h generalizing reports' with
  | nil =>
      cases h'
      rfl
  | @cons a report items reports ha _ ih =>
      cases h' with
      | @cons _ report' _ reports' ha' h' =>
          obtain ⟨hhead, htail⟩ := List.forall₂_cons.mp hsame
          rw [about_total_cons, about_total_cons, ih h' htail fun a ha => hplace a (List.mem_cons_of_mem _ ha)]
          by_cases he : idOf a = id
          · rw [show report = report' from hhead (hplace a List.mem_cons_self he)]
          · rw [ha.about_other hid (Ne.symm he), ha'.about_other hid (Ne.symm he)]

end Total

end Ticketing.AppServer
