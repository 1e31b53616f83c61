import Mathlib.Data.List.Forall2
import Mathlib.Data.List.TakeWhile

namespace Decimal

/-- The classes of symbols that an integer literal is made of. -/
structure Alphabet (α : Type) where
  digit : α → Option Nat
  isSpace : α → Bool
  plus : α
  minus : α
  underscore : α

variable {α : Type} [DecidableEq α] (A : Alphabet α)

/-- A non-empty run of digits, with single underscores between digits. -/
def readDigits : List α → Option (List Nat)
  | [] => none
  | [c] => (A.digit c).map (fun d => [d])
  | c :: c' :: cs => (A.digit c).bind (fun d =>
      if c' = A.underscore then (readDigits cs).map (d :: ·) else (readDigits (c' :: cs)).map (d :: ·))

def value (digits : List Nat) : Nat := digits.foldl (fun n d => 10 * n + d) 0

def strip (cs : List α) : List α := ((cs.dropWhile A.isSpace).reverse.dropWhile A.isSpace).reverse

/-- A literal with more digits than `limit` is refused. -/
def readNat (limit : Nat) (cs : List α) : Option Nat :=
  (readDigits A cs).bind (fun ds => if ds.length ≤ limit then some (value ds) else none)

def readInt (limit : Nat) (cs : List α) : Option Int :=
  match strip A cs with
  | [] => none
  | c :: cs =>
      if c = A.plus then (readNat A limit cs).map Int.ofNat
      else if c = A.minus then (readNat A limit cs).map (fun n => -(Int.ofNat n))
      else (readNat A limit (c :: cs)).map Int.ofNat

/-- `sym` spells the ten digits and the minus sign in the alphabet. -/
structure Spells (sym : Char → α) : Prop where
  digit : ∀ d, d < 10 → A.digit (sym (Nat.digitChar d)) = some d
  space : ∀ c d, A.digit c = some d → A.isSpace c = false
  underscore : A.digit A.underscore = none
  plus : A.digit A.plus = none
  minus : A.digit A.minus = none
  minus_space : A.isSpace A.minus = false
  minus_plus : A.minus ≠ A.plus
  sym_minus : sym '-' = A.minus

def spellNat (sym : Char → α) (n : Nat) : List α := (Nat.toDigits 10 n).map sym

def spellInt (sym : Char → α) : Int → List α
  | .ofNat n => spellNat sym n
  | .negSucc n => sym '-' :: spellNat sym (n + 1)

theorem value_append (ds : List Nat) (d : Nat) : value (ds ++ [d]) = 10 * value ds + d := by
  simp [value, List.foldl_append]

omit [DecidableEq α] in
theorem strip_eq {cs : List α} (h : ∀ c ∈ cs, A.isSpace c = false) : strip A cs = cs := by
  have drop (xs : List α) (hx : ∀ c ∈ xs, A.isSpace c = false) : xs.dropWhile A.isSpace = xs := by
    cases xs with
    | nil => rfl
    | cons c cs => rw [List.dropWhile_cons_of_neg]; simpa using hx c (by simp)
  rw [strip, drop cs h, drop cs.reverse (by simpa using h), List.reverse_reverse]

theorem readDigits_all {cs : List α} {ds : List Nat} (hne : cs ≠ []) (hu : A.digit A.underscore = none)
    (h : List.Forall₂ (fun c d => A.digit c = some d) cs ds) : readDigits A cs = some ds := by
  induction h with
  | nil => exact absurd rfl hne
  | @cons c d cs ds hd ht ih =>
      cases ht with
      | nil => simp [readDigits, hd]
      | @cons c' d' cs ds hd' ht =>
          have hc : c' ≠ A.underscore := by rintro rfl; simp [hu] at hd'
          simp [readDigits, hd, hc, ih]

variable {A} {sym : Char → α}

omit [DecidableEq α] in
theorem spellNat_digits (hs : Spells A sym) (n : Nat) :
    ∃ ds, List.Forall₂ (fun c d => A.digit c = some d) (spellNat sym n) ds ∧ value ds = n := by
  induction n using Nat.strongRecOn with
  | ind n ih =>
      by_cases hn : n < 10
      · exact ⟨[n], by simpa [spellNat, Nat.toDigits_of_lt_base hn] using hs.digit n hn, by simp [value]⟩
      · obtain ⟨ds, hd, hv⟩ := ih (n / 10) (by omega)
        refine ⟨ds ++ [n % 10], ?_, ?_⟩
        · rw [spellNat, Nat.toDigits_of_base_le (by decide) (by omega), List.map_append]
          exact List.rel_append hd
            (.cons (hs.digit (n % 10) (Nat.mod_lt _ (by decide))) .nil)
        · rw [value_append, hv]; omega

theorem readNat_spellNat (hs : Spells A sym) {limit n : Nat} (hn : (Nat.toDigits 10 n).length ≤ limit) :
    readNat A limit (spellNat sym n) = some n := by
  obtain ⟨ds, hd, hv⟩ := spellNat_digits hs n
  have hne : spellNat sym n ≠ [] := by
    have hp := Nat.length_toDigits_pos (b := 10) (n := n)
    intro he
    rw [spellNat, List.map_eq_nil_iff] at he
    simp [he] at hp
  have hl : ds.length ≤ limit := by
    rw [← hd.length_eq, spellNat, List.length_map]; exact hn
  simp [readNat, readDigits_all A hne hs.underscore hd, hl, hv]

/-- Reading undoes spelling, up to the limit on the number of digits. -/
theorem readInt_spellInt (hs : Spells A sym) {limit : Nat} {n : Int}
    (hn : (Nat.toDigits 10 n.natAbs).length ≤ limit) :
    readInt A limit (spellInt sym n) = some n := by
  have hall (m : Nat) : ∀ c ∈ spellNat sym m, ∃ d, A.digit c = some d := by
    obtain ⟨ds, hd, _⟩ := spellNat_digits hs m
    intro c hc
    obtain ⟨i, hi, rfl⟩ := List.mem_iff_getElem.mp hc
    exact ⟨_, (List.forall₂_iff_get.mp hd).2 i hi (hd.length_eq ▸ hi)⟩
  have hspace (m : Nat) : ∀ c ∈ spellNat sym m, A.isSpace c = false := fun c hc =>
    (hall m c hc).elim fun d h => hs.space c d h
  cases n with
  | ofNat m =>
      have hr : readNat A limit (spellNat sym m) = some m := readNat_spellNat hs (by simpa using hn)
      simp only [spellInt, readInt, strip_eq A (hspace m)]
      cases hc : spellNat sym m with
      | nil => rw [hc] at hr; simp [readNat, readDigits] at hr
      | cons c cs =>
          obtain ⟨d, hd⟩ := hall m c (by simp [hc])
          have hp : c ≠ A.plus := by rintro rfl; simp [hs.plus] at hd
          have hm : c ≠ A.minus := by rintro rfl; simp [hs.minus] at hd
          rw [hc] at hr
          simp [hp, hm, hr]
  | negSucc m =>
      have hr : readNat A limit (spellNat sym (m + 1)) = some (m + 1) := readNat_spellNat hs (by simpa using hn)
      have hall' : ∀ c ∈ sym '-' :: spellNat sym (m + 1), A.isSpace c = false := by
        simpa [hs.sym_minus, hs.minus_space] using hspace (m + 1)
      rw [hs.sym_minus] at hall'
      simp only [spellInt, hs.sym_minus, readInt, strip_eq A hall', hs.minus_plus, if_false, if_true, hr]
      rfl

/-! ### Literals -/

section Literals

variable (A)

/-- Digits, with an underscore here and there between two of them. -/
inductive Digits : List α → List Nat → Prop
  | one {c d} (h : A.digit c = some d) : Digits [c] [d]
  | next {c d cs ds} (h : A.digit c = some d) (rest : Digits cs ds) : Digits (c :: cs) (d :: ds)
  | underscore {c d cs ds} (h : A.digit c = some d) (rest : Digits cs ds) : Digits (c :: A.underscore :: cs) (d :: ds)

inductive Sign : List α → Nat → Int → Prop
  | none {n} : Sign [] n n
  | plus {n} : Sign [A.plus] n n
  | minus {n} : Sign [A.minus] n (-n)

/-- Space, a sign, digits up to the limit, and space. -/
inductive Literal (limit : Nat) : List α → Int → Prop
  | mk {lead sign digits trail ds n} (hlead : ∀ c ∈ lead, A.isSpace c = true) (htrail : ∀ c ∈ trail, A.isSpace c = true)
      (hdigits : Digits A digits ds) (hlimit : ds.length ≤ limit) (hsign : Sign A sign (value ds) n) :
      Literal limit (lead ++ (sign ++ digits) ++ trail) n

variable {A}

omit [DecidableEq α] in
theorem Digits.head {cs : List α} {ds : List Nat} (h : Digits A cs ds) : ∃ c cs' d, cs = c :: cs' ∧ A.digit c = some d := by
  cases h with
  | one h => exact ⟨_, _, _, rfl, h⟩
  | next h rest => exact ⟨_, _, _, rfl, h⟩
  | underscore h rest => exact ⟨_, _, _, rfl, h⟩

theorem readDigits_iff (hu : A.digit A.underscore = none) {cs : List α} {ds : List Nat} :
    readDigits A cs = some ds ↔ Digits A cs ds := by
  constructor
  · intro h
    fun_induction readDigits A cs generalizing ds with
    | case1 => cases h
    | case2 c =>
        obtain ⟨d, hd, rfl⟩ := Option.map_eq_some_iff.mp h
        exact .one hd
    | case3 c c' cs ih ih' =>
        obtain ⟨d, hd, h⟩ := Option.bind_eq_some_iff.mp h
        split at h
        next hc =>
          obtain ⟨ds, hds, rfl⟩ := Option.map_eq_some_iff.mp h
          rw [hc]
          exact .underscore hd (ih hds)
        next =>
          obtain ⟨ds, hds, rfl⟩ := Option.map_eq_some_iff.mp h
          exact .next hd (ih' hds)
  · intro h
    induction h with
    | one hd => simp [readDigits, hd]
    | underscore hd rest ih => simp [readDigits, hd, ih]
    | @next c d cs ds hd rest ih =>
        obtain ⟨c', cs', d', rfl, hd'⟩ := rest.head
        have hc : c' ≠ A.underscore := by
          rintro rfl
          rw [hu] at hd'
          cases hd'
        simp [readDigits, hd, hc, ih]

omit [DecidableEq α] in
theorem strip_split (A : Alphabet α) (cs : List α) : ∃ lead trail, cs = lead ++ strip A cs ++ trail ∧
    (∀ c ∈ lead, A.isSpace c = true) ∧ ∀ c ∈ trail, A.isSpace c = true := by
  refine ⟨cs.takeWhile A.isSpace, ((cs.dropWhile A.isSpace).reverse.takeWhile A.isSpace).reverse, ?_,
    fun c hc => List.mem_takeWhile_imp hc, fun c hc => List.mem_takeWhile_imp (List.mem_reverse.mp hc)⟩
  rw [strip, List.append_assoc, ← List.reverse_append, List.takeWhile_append_dropWhile, List.reverse_reverse,
    List.takeWhile_append_dropWhile]

omit [DecidableEq α] in
theorem strip_between {lead body trail : List α} (hlead : ∀ c ∈ lead, A.isSpace c = true)
    (htrail : ∀ c ∈ trail, A.isSpace c = true) (hne : body ≠ []) (hbody : ∀ c ∈ body, A.isSpace c = false) :
    strip A (lead ++ body ++ trail) = body := by
  have drop {xs ys zs : List α} (hxs : ∀ c ∈ xs, A.isSpace c = true) (hne : ys ≠ []) (hys : ∀ c ∈ ys, A.isSpace c = false) :
      (xs ++ ys ++ zs).dropWhile A.isSpace = ys ++ zs := by
    rw [List.append_assoc, List.dropWhile_append_of_pos hxs]
    cases ys with
    | nil => exact absurd rfl hne
    | cons y ys => exact List.dropWhile_cons_of_neg (by simp [hys y List.mem_cons_self])
  have hback := @drop trail.reverse body.reverse [] (fun c hc => htrail c (List.mem_reverse.mp hc))
    (fun h => hne (List.reverse_eq_nil_iff.mp h)) fun c hc => hbody c (List.mem_reverse.mp hc)
  rw [List.append_nil, List.append_nil] at hback
  rw [strip, drop hlead hne hbody, List.reverse_append, hback, List.reverse_reverse]

omit [DecidableEq α] in
theorem Digits.not_space (hs : Spells A sym) (hspace : A.isSpace A.underscore = false) {cs : List α} {ds : List Nat}
    (h : Digits A cs ds) : ∀ c ∈ cs, A.isSpace c = false := by
  induction h with
  | one hd =>
      intro c hc
      rw [List.mem_singleton.mp hc]
      exact hs.space _ _ hd
  | next hd rest ih =>
      intro c hc
      rcases List.mem_cons.mp hc with rfl | hc
      · exact hs.space _ _ hd
      · exact ih c hc
  | underscore hd rest ih =>
      intro c hc
      rcases List.mem_cons.mp hc with rfl | hc
      · exact hs.space _ _ hd
      · rcases List.mem_cons.mp hc with rfl | hc
        · exact hspace
        · exact ih c hc

theorem readNat_iff (hu : A.digit A.underscore = none) {limit n : Nat} {cs : List α} :
    readNat A limit cs = some n ↔ ∃ ds, Digits A cs ds ∧ ds.length ≤ limit ∧ value ds = n := by
  simp [readNat, Option.bind_eq_some_iff, readDigits_iff hu]

/-- What `int` reads. -/
theorem readInt_iff (hs : Spells A sym) (hunder : A.isSpace A.underscore = false) (hplus : A.isSpace A.plus = false)
    {limit : Nat} {cs : List α} {n : Int} : readInt A limit cs = some n ↔ Literal A limit cs n := by
  constructor
  · intro h
    obtain ⟨lead, trail, hcs, hlead, htrail⟩ := strip_split A cs
    rw [readInt] at h
    cases hstrip : strip A cs with
    | nil => rw [hstrip] at h; cases h
    | cons c body =>
        simp only [hstrip] at h
        rw [hstrip] at hcs
        rw [hcs]
        split at h
        next hc =>
          obtain ⟨m, hm, rfl⟩ := Option.map_eq_some_iff.mp h
          obtain ⟨ds, hds, hlimit, rfl⟩ := (readNat_iff hs.underscore).mp hm
          rw [hc]
          exact .mk hlead htrail hds hlimit .plus
        next hc =>
          split at h
          next hc =>
            obtain ⟨m, hm, rfl⟩ := Option.map_eq_some_iff.mp h
            obtain ⟨ds, hds, hlimit, rfl⟩ := (readNat_iff hs.underscore).mp hm
            rw [hc]
            exact .mk hlead htrail hds hlimit .minus
          next =>
            obtain ⟨m, hm, rfl⟩ := Option.map_eq_some_iff.mp h
            obtain ⟨ds, hds, hlimit, rfl⟩ := (readNat_iff hs.underscore).mp hm
            exact .mk hlead htrail hds hlimit .none
  · rintro ⟨hlead, htrail, hdigits, hlimit, hsign⟩
    have hall := hdigits.not_space hs hunder
    have hread := (readNat_iff hs.underscore).mpr ⟨_, hdigits, hlimit, rfl⟩
    obtain ⟨c, cs', d, rfl, hd⟩ := hdigits.head
    cases hsign with
    | none =>
        have hp : c ≠ A.plus := by rintro rfl; rw [hs.plus] at hd; cases hd
        have hm : c ≠ A.minus := by rintro rfl; rw [hs.minus] at hd; cases hd
        have hstrip := strip_between hlead htrail (List.cons_ne_nil _ _) hall
        simp only [readInt, List.nil_append, hstrip, if_neg hp, if_neg hm, hread]
        rfl
    | plus =>
        have hstrip := strip_between hlead htrail (List.cons_ne_nil _ _) (List.forall_mem_cons.mpr ⟨hplus, hall⟩)
        simp only [readInt, List.singleton_append, hstrip, if_pos, hread]
        rfl
    | minus =>
        have hstrip := strip_between hlead htrail (List.cons_ne_nil _ _)
          (List.forall_mem_cons.mpr ⟨hs.minus_space, hall⟩)
        simp only [readInt, List.singleton_append, hstrip, if_neg hs.minus_plus, if_pos, hread]
        rfl

end Literals

end Decimal
