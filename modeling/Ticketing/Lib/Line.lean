import Mathlib.Data.List.Induction
import Mathlib.Data.List.Nodup
import Mathlib.Algebra.Order.Group.Nat
import Ticketing.Lib.Trace

/-! A line of distinct members, served in the order in which they joined. -/

structure Line (α : Type) where
  members : List α
  distinct : members.Nodup

namespace Line

variable {α : Type}

inductive Move (α : Type)
  | join (u : α)
  | position (u : α)
  | pop
  | leave (u : α)
  | peek

inductive Answer (α : Type)
  | joined (entered : Bool) (rank length : Nat)
  | position (rank : Option Nat) (length : Nat)
  | first (u : Option α) (length : Nat)
  | left (rank : Option Nat) (length : Nat)

/-! ### Histories -/

abbrev History (α : Type) := List (Move α × Answer α)

/-- Who a move has brought into the line. -/
def joined : Move α × Answer α → Option α
  | (.join u, .joined true _ _) => some u
  | _ => none

/-- Who a move has taken out of it. -/
def gone : Move α × Answer α → Option α
  | (.pop, .first u _) => u
  | (.leave u, .left (some _) _) => some u
  | _ => none

variable {h : History α} {l : Line α} {x : Move α × Answer α} {u v : α} {i j : Nat}

def Joins (h : History α) (i : Nat) (u : α) : Prop := h[i]?.bind joined = some u

def Goes (h : History α) (j : Nat) (u : α) : Prop := h[j]?.bind gone = some u

/-- The move at `i` is the latest that brought the member in, and nothing has undone it. -/
def Waits (h : History α) (u : α) (i : Nat) : Prop := Joins h i u ∧ ∀ j, i < j → ¬ Joins h j u ∧ ¬ Goes h j u

/-- The move at `j` takes out who the move at `i` has brought in. -/
def Undoes (h : History α) (j i : Nat) : Prop := ∃ u, Goes h j u ∧ Waits (h.take j) u i

/-- The members are those who have joined and not gone since, in the order of their latest joining; the
one who is served is the one who has waited longest; nobody goes who is not waiting, and no joining is
undone twice. -/
structure InOrder (h : History α) (l : Line α) : Prop where
  waiting : ∀ u, u ∈ l.members ↔ ∃ i, Waits h u i
  order : l.members.Pairwise fun u v => ∀ i j, Waits h u i → Waits h v j → i < j
  served : ∀ j u n, h[j]? = some (.pop, .first (some u) n) →
    ∃ i, Waits (h.take j) u i ∧ ∀ v k, Waits (h.take j) v k → i ≤ k
  undoes : ∀ j u, Goes h j u → ∃ i, Waits (h.take j) u i
  undone : ∀ i u, Joins h i u → (Waits h u i ∧ ∀ j, ¬ Undoes h j i) ∨ ∃ j, Undoes h j i ∧ ∀ k, Undoes h k i → k = j

theorem bind_snoc {β : Type} (f : Move α × Answer α → Option β) (h : History α) (x : Move α × Answer α) (i : Nat)
    (b : β) : (h ++ [x])[i]?.bind f = some b ↔ h[i]?.bind f = some b ∨ i = h.length ∧ f x = some b := by
  rcases lt_trichotomy i h.length with hi | rfl | hi
  · rw [List.getElem?_append_left hi]
    simp [hi.ne]
  · simp
  · rw [List.getElem?_eq_none (by rw [List.length_append, List.length_singleton]; omega), List.getElem?_eq_none hi.le]
    simp [hi.ne']

theorem joins_lt (hj : Joins h i u) : i < h.length := by
  by_contra hi
  rw [Joins, List.getElem?_eq_none (not_lt.mp hi)] at hj
  cases hj

theorem goes_lt (hg : Goes h i u) : i < h.length := by
  by_contra hi
  rw [Goes, List.getElem?_eq_none (not_lt.mp hi)] at hg
  cases hg

theorem waits_snoc : Waits (h ++ [x]) u i ↔
    (i = h.length ∧ joined x = some u) ∨ Waits h u i ∧ joined x ≠ some u ∧ gone x ≠ some u := by
  have hj (k : Nat) : Joins (h ++ [x]) k u ↔ _ := bind_snoc joined h x k u
  have hg (k : Nat) : Goes (h ++ [x]) k u ↔ _ := bind_snoc gone h x k u
  constructor
  · rintro ⟨hi, hlater⟩
    rcases (hj i).mp hi with hi | hi
    · obtain ⟨hj', hg'⟩ := hlater h.length (joins_lt hi)
      refine .inr ⟨⟨hi, fun k hk => ⟨fun hjk => ?_, fun hgk => ?_⟩⟩, fun hx => ?_, fun hx => ?_⟩
      · exact (hlater k hk).1 ((hj k).mpr (.inl hjk))
      · exact (hlater k hk).2 ((hg k).mpr (.inl hgk))
      · exact hj' ((hj _).mpr (.inr ⟨rfl, hx⟩))
      · exact hg' ((hg _).mpr (.inr ⟨rfl, hx⟩))
    · exact .inl hi
  · rintro (⟨rfl, hx⟩ | ⟨⟨hi, hlater⟩, hx, hx'⟩)
    · refine ⟨(hj _).mpr (.inr ⟨rfl, hx⟩), fun k hk => ⟨fun hjk => ?_, fun hgk => ?_⟩⟩
      · rcases (hj k).mp hjk with hjk | hjk
        · exact absurd (joins_lt hjk) (by omega)
        · omega
      · rcases (hg k).mp hgk with hgk | hgk
        · exact absurd (goes_lt hgk) (by omega)
        · omega
    · refine ⟨(hj i).mpr (.inl hi), fun k hk => ⟨fun hjk => ?_, fun hgk => ?_⟩⟩
      · exact ((hj k).mp hjk).elim (hlater k hk).1 fun hjk => hx hjk.2
      · exact ((hg k).mp hgk).elim (hlater k hk).2 fun hgk => hx' hgk.2

theorem undoes_snoc : Undoes (h ++ [x]) j i ↔
    Undoes h j i ∨ j = h.length ∧ ∃ u, gone x = some u ∧ Waits h u i := by
  constructor
  · rintro ⟨u, hg, hw⟩
    rcases (bind_snoc gone h x j u).mp hg with hg | ⟨rfl, hx⟩
    · rw [List.take_append_of_le_length (goes_lt hg).le] at hw
      exact .inl ⟨u, hg, hw⟩
    · rw [List.take_left] at hw
      exact .inr ⟨rfl, u, hx, hw⟩
  · rintro (⟨u, hg, hw⟩ | ⟨rfl, u, hx, hw⟩)
    · refine ⟨u, (bind_snoc gone h x j u).mpr (.inl hg), ?_⟩
      rwa [List.take_append_of_le_length (goes_lt hg).le]
    · refine ⟨u, (bind_snoc gone h x _ u).mpr (.inr ⟨rfl, hx⟩), ?_⟩
      rwa [List.take_left]

theorem Waits.unique (hi : Waits h u i) (hj : Waits h u j) : i = j := by
  rcases lt_trichotomy i j with hlt | heq | hlt
  · exact absurd hj.1 (hi.2 j hlt).1
  · exact heq
  · exact absurd hi.1 (hj.2 i hlt).1

/-- What has been undone is not waiting. -/
theorem Undoes.not_waits (hu : Undoes h j i) : ¬ Waits h u i := by
  obtain ⟨v, hg, hw⟩ := hu
  intro hwu
  have hi : i < j := by
    have := joins_lt hw.1
    rw [List.length_take] at this
    omega
  have huv : u = v := by
    have hj : Joins h i v := by
      have := hw.1
      rwa [Joins, List.getElem?_take_of_lt hi] at this
    exact Option.some.inj (hwu.1.symm.trans hj)
  subst huv
  exact (hwu.2 j hi).2 hg

/-- The first of the line has waited longest. -/
theorem InOrder.first (hf : InOrder h l) (hu : l.members.head? = some u) :
    ∃ i, Waits h u i ∧ ∀ v k, Waits h v k → i ≤ k := by
  obtain ⟨rest, hl⟩ := List.head?_eq_some_iff.mp hu
  obtain ⟨i, hi⟩ := (hf.waiting u).mp (by rw [hl]; exact List.mem_cons_self)
  refine ⟨i, hi, fun v k hk => ?_⟩
  have hv := (hf.waiting v).mpr ⟨k, hk⟩
  have horder := hf.order
  rw [hl] at hv horder
  rcases List.mem_cons.mp hv with rfl | hv
  · exact (hi.unique hk).le
  · exact ((List.pairwise_cons.mp horder).1 v hv i k hi hk).le

/-! ### Moves -/

variable [DecidableEq α]

def empty : Line α := ⟨[], .nil⟩

/-- The place of a member, counted from one. -/
def rank (l : Line α) (u : α) : Option Nat := if u ∈ l.members then some (l.members.idxOf u + 1) else none

def enter (l : Line α) (u : α) (hu : u ∉ l.members) : Line α :=
  ⟨l.members ++ [u], List.nodup_append_comm.mp (List.nodup_cons.mpr ⟨hu, l.distinct⟩)⟩

def remove (l : Line α) (u : α) : Line α := ⟨l.members.erase u, l.distinct.erase u⟩

def act (l : Line α) : Move α → Answer α × Line α
  | .join u =>
    if hu : u ∈ l.members then (.joined false (l.members.idxOf u + 1) l.members.length, l)
    else (.joined true (l.members.length + 1) (l.members.length + 1), l.enter u hu)
  | .position u => (.position (l.rank u) l.members.length, l)
  | .pop => match l.members.head? with
    | none => (.first none 0, l)
    | some u => (.first (some u) (l.members.length - 1), l.remove u)
  | .leave u =>
    if u ∈ l.members then (.left (l.rank u) (l.members.length - 1), l.remove u)
    else (.left none l.members.length, l)
  | .peek => (.first l.members.head? l.members.length, l)

def history (l : Line α) (moves : List (Move α)) : History α := moves.zip (Trace.answers act l moves)

def after (l : Line α) (moves : List (Move α)) : Line α := moves.foldl (fun l m => (l.act m).2) l

theorem history_snoc (l : Line α) (moves : List (Move α)) (m : Move α) :
    history l (moves ++ [m]) = history l moves ++ [(m, ((l.after moves).act m).1)] := by
  have hlength : moves.length = (Trace.answers act l moves).length := by
    induction moves generalizing l with
    | nil => rfl
    | cons m moves ih => exact congrArg (· + 1) (ih _)
  rw [history, Trace.answers_append, List.zip_append hlength]
  rfl

theorem after_snoc (l : Line α) (moves : List (Move α)) (m : Move α) :
    l.after (moves ++ [m]) = ((l.after moves).act m).2 :=
  List.foldl_concat _ _ _ _

/-- A move brings one in at the end, takes one out, or leaves the line as it is. -/
theorem act_cases (l : Line α) (m : Move α) :
    (∃ u, joined (m, (l.act m).1) = some u ∧ gone (m, (l.act m).1) = none ∧ u ∉ l.members ∧
      (l.act m).2.members = l.members ++ [u]) ∨
    (∃ u, joined (m, (l.act m).1) = none ∧ gone (m, (l.act m).1) = some u ∧ u ∈ l.members ∧
      (l.act m).2.members = l.members.erase u) ∨
    joined (m, (l.act m).1) = none ∧ gone (m, (l.act m).1) = none ∧ (l.act m).2 = l := by
  cases m with
  | join u =>
      by_cases hu : u ∈ l.members
      · rw [act, dif_pos hu]
        exact .inr (.inr ⟨rfl, rfl, rfl⟩)
      · rw [act, dif_neg hu]
        exact .inl ⟨u, rfl, rfl, hu, rfl⟩
  | position u => exact .inr (.inr ⟨rfl, rfl, rfl⟩)
  | peek => exact .inr (.inr ⟨rfl, rfl, rfl⟩)
  | leave u =>
      by_cases hu : u ∈ l.members
      · rw [act, if_pos hu, rank, if_pos hu]
        exact .inr (.inl ⟨u, rfl, rfl, hu, rfl⟩)
      · rw [act, if_neg hu]
        exact .inr (.inr ⟨rfl, rfl, rfl⟩)
  | pop =>
      rw [act]
      cases hl : l.members.head? with
      | none => exact .inr (.inr ⟨rfl, rfl, rfl⟩)
      | some u => exact .inr (.inl ⟨u, rfl, rfl, List.mem_of_head? hl, rfl⟩)

theorem act_pop {n : Nat} (h : (l.act .pop).1 = .first (some u) n) : l.members.head? = some u := by
  rw [act] at h
  cases hl : l.members.head? with
  | none => rw [hl] at h; cases h
  | some v => rw [hl] at h; cases h; rfl

theorem idxOf_erase_le {xs : List α} {u v : α} (hu : u ∈ xs) (hv : u ≠ v) :
    (xs.erase v).idxOf u ≤ xs.idxOf u := by
  induction xs with
  | nil => cases hu
  | cons x xs ih =>
      by_cases hx : x = v
      · subst hx
        rw [List.erase_cons_head, List.idxOf_cons_ne _ hv.symm]
        exact Nat.le_succ _
      · rw [List.erase_cons_tail (by simpa using hx)]
        by_cases hxu : x = u
        · rw [hxu, List.idxOf_cons_self]
          exact Nat.zero_le _
        · rw [List.idxOf_cons_ne _ hxu, List.idxOf_cons_ne _ hxu]
          exact Nat.succ_le_succ (ih ((List.mem_cons.mp hu).resolve_left (Ne.symm hxu)))

/-- Whoever is not taken out stays in the line, and nobody comes to stand before them. -/
theorem place_act (hu : u ∈ l.members) {m : Move α} (hgone : gone (m, (l.act m).1) ≠ some u) :
    u ∈ (l.act m).2.members ∧ (l.act m).2.members.idxOf u ≤ l.members.idxOf u := by
  rcases act_cases l m with ⟨v, -, -, -, hl⟩ | ⟨v, -, hg, -, hl⟩ | ⟨-, -, hl⟩
  · rw [hl, List.idxOf_append_of_mem hu]
    exact ⟨List.mem_append_left _ hu, le_rfl⟩
  · have hne : u ≠ v := fun he => hgone (he ▸ hg)
    rw [hl]
    exact ⟨(List.mem_erase_of_ne hne).mpr hu, idxOf_erase_le hu hne⟩
  · rw [hl]
    exact ⟨hu, le_rfl⟩

/-! ### The order of the line -/

theorem InOrder.waiting_act (hf : InOrder h l) (m : Move α) (u : α) :
    u ∈ (l.act m).2.members ↔ ∃ i, Waits (h ++ [(m, (l.act m).1)]) u i := by
  simp only [waits_snoc]
  rcases act_cases l m with ⟨v, hj, hg, hv, hl⟩ | ⟨v, hj, hg, hv, hl⟩ | ⟨hj, hg, hl⟩
  · rw [hl, hj, hg, List.mem_append, List.mem_singleton, hf.waiting u]
    constructor
    · rintro (⟨i, hi⟩ | rfl)
      · refine ⟨i, .inr ⟨hi, fun he => hv ?_, Option.some_ne_none _ ∘ Eq.symm⟩⟩
        cases he
        exact (hf.waiting u).mpr ⟨i, hi⟩
      · exact ⟨h.length, .inl ⟨rfl, rfl⟩⟩
    · rintro ⟨i, ⟨_, he⟩ | ⟨hi, _⟩⟩
      · exact .inr (Option.some.inj he).symm
      · exact .inl ⟨i, hi⟩
  · rw [hl, hj, hg, l.distinct.mem_erase_iff, hf.waiting u]
    constructor
    · rintro ⟨hne, i, hi⟩
      exact ⟨i, .inr ⟨hi, Option.some_ne_none _ ∘ Eq.symm, fun he => hne (Option.some.inj he).symm⟩⟩
    · rintro ⟨i, ⟨_, he⟩ | ⟨hi, _, hne⟩⟩
      · cases he
      · exact ⟨fun he => hne (congrArg some he.symm), i, hi⟩
  · rw [hl, hj, hg, hf.waiting u]
    simp

theorem InOrder.order_act (hf : InOrder h l) (m : Move α) : (l.act m).2.members.Pairwise fun u v =>
    ∀ i j, Waits (h ++ [(m, (l.act m).1)]) u i → Waits (h ++ [(m, (l.act m).1)]) v j → i < j := by
  simp only [waits_snoc]
  rcases act_cases l m with ⟨v, hj, hg, hv, hl⟩ | ⟨v, hj, hg, hv, hl⟩ | ⟨hj, hg, hl⟩
  · rw [hl, hj, hg, List.pairwise_append]
    refine ⟨?_, List.pairwise_singleton _ _, ?_⟩
    · refine hf.order.imp_of_mem ?_
      rintro a b ha hb hab i j (⟨_, he⟩ | ⟨hi, _⟩) (⟨_, he'⟩ | ⟨hj, _⟩)
      · cases he; exact absurd ha hv
      · cases he; exact absurd ha hv
      · cases he'; exact absurd hb hv
      · exact hab i j hi hj
    · rintro a ha b hb i j (⟨_, he⟩ | ⟨hi, _⟩) (⟨rfl, _⟩ | ⟨_, hne, _⟩)
      · cases he; exact absurd ha hv
      · cases he; exact absurd ha hv
      · exact joins_lt hi.1
      · exact absurd (congrArg some (List.mem_singleton.mp hb).symm) hne
  · rw [hl, hj, hg]
    refine (hf.order.sublist List.erase_sublist).imp ?_
    rintro a b hab i j (⟨_, he⟩ | ⟨hi, _⟩) (⟨_, he'⟩ | ⟨hj, _⟩)
    · cases he
    · cases he
    · cases he'
    · exact hab i j hi hj
  · rw [hl, hj, hg]
    refine hf.order.imp ?_
    rintro a b hab i j (⟨_, he⟩ | ⟨hi, _⟩) (⟨_, he'⟩ | ⟨hj, _⟩)
    · cases he
    · cases he
    · cases he'
    · exact hab i j hi hj

theorem InOrder.gone_waits (hf : InOrder h l) (m : Move α) (hg : gone (m, (l.act m).1) = some u) :
    ∃ i, Waits h u i := by
  apply (hf.waiting u).mp
  rcases act_cases l m with ⟨v, _, hg', _⟩ | ⟨v, _, hg', hv, _⟩ | ⟨_, hg', _⟩
  · rw [hg'] at hg; cases hg
  · rw [hg'] at hg; cases hg; exact hv
  · rw [hg'] at hg; cases hg

theorem InOrder.act (hf : InOrder h l) (m : Move α) : InOrder (h ++ [(m, (l.act m).1)]) (l.act m).2 := by
  refine ⟨hf.waiting_act m, hf.order_act m, fun j u n hx => ?_, fun j u hg => ?_, fun i u hj => ?_⟩
  · by_cases hj : j < h.length
    · rw [List.getElem?_append_left hj] at hx
      rw [List.take_append_of_le_length hj.le]
      exact hf.served j u n hx
    · have hlt := (List.getElem?_eq_some_iff.mp hx).1
      rw [List.length_append, List.length_singleton] at hlt
      obtain rfl : j = h.length := by omega
      rw [List.getElem?_concat_length] at hx
      obtain ⟨rfl, hx⟩ := Prod.mk.inj (Option.some.inj hx)
      rw [List.take_left]
      exact hf.first (act_pop hx)
  · rcases (bind_snoc gone h _ j u).mp hg with hg | ⟨rfl, hx⟩
    · rw [List.take_append_of_le_length (goes_lt hg).le]
      exact hf.undoes j u hg
    · rw [List.take_left]
      exact hf.gone_waits m hx
  · simp only [undoes_snoc, waits_snoc]
    rcases (bind_snoc joined h _ i u).mp hj with hj | ⟨rfl, hx⟩
    · rcases hf.undone i u hj with ⟨hw, hn⟩ | ⟨j, hu, huniq⟩
      · by_cases hx : gone (m, (l.act m).1) = some u
        · refine .inr ⟨h.length, .inr ⟨rfl, u, hx, hw⟩, ?_⟩
          rintro k (hk | ⟨rfl, _⟩)
          · exact absurd hk (hn k)
          · rfl
        · refine .inl ⟨.inr ⟨hw, fun hx' => ?_, hx⟩, ?_⟩
          · rcases act_cases l m with ⟨v, hj', _, hv, _⟩ | ⟨v, hj', _⟩ | ⟨hj', _⟩
            · rw [hj'] at hx'
              cases hx'
              exact hv ((hf.waiting u).mpr ⟨i, hw⟩)
            · rw [hj'] at hx'; cases hx'
            · rw [hj'] at hx'; cases hx'
          · rintro k (hk | ⟨rfl, v, hv, hwv⟩)
            · exact hn k hk
            · have : v = u := Option.some.inj (hwv.1.symm.trans hw.1)
              exact hx (this ▸ hv)
      · refine .inr ⟨j, .inl hu, ?_⟩
        rintro k (hk | ⟨rfl, v, _, hwv⟩)
        · exact huniq k hk
        · exact absurd hwv hu.not_waits
    · refine .inl ⟨.inl ⟨rfl, hx⟩, ?_⟩
      rintro k (⟨v, _, hw⟩ | ⟨_, v, _, hw⟩)
      · have hlt := joins_lt hw.1
        rw [List.length_take] at hlt
        omega
      · exact absurd (joins_lt hw.1) (lt_irrefl _)

/-- A line that starts empty serves its members in the order in which they have joined. -/
theorem inOrder (moves : List (Move α)) : InOrder (history empty moves) (after empty moves) := by
  induction moves using List.reverseRecOn with
  | nil =>
      have hj (i : Nat) (u : α) : ¬ Joins (history empty []) i u := fun h => absurd (joins_lt h) (Nat.not_lt_zero i)
      have hg (i : Nat) (u : α) : ¬ Goes (history empty []) i u := fun h => absurd (goes_lt h) (Nat.not_lt_zero i)
      refine ⟨fun u => ⟨fun hu => absurd hu List.not_mem_nil, fun ⟨i, hi⟩ => absurd hi.1 (hj i u)⟩, .nil,
        fun j u n hx => ?_, fun j u hx => absurd hx (hg j u), fun i u hx => absurd hx (hj i u)⟩
      cases (List.getElem?_eq_some_iff.mp hx).1
  | append_singleton moves m ih =>
      rw [history_snoc, after_snoc]
      exact ih.act m

end Line
