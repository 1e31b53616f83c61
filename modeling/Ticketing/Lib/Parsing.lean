import Mathlib.Data.List.Basic
import Mathlib.Data.List.Forall2
import Mathlib.Tactic.Common

/-! Parsers of a buffer to which more symbols may come. -/

namespace Parsing

variable {β α γ ε : Type}

/-- What stands at the start of the symbols and the symbols after it, or an exception. -/
abbrev Parser (β ε α : Type) := List β → Except ε (α × List β)

def give (a : α) : Parser β ε α := fun bs => .ok (a, bs)

def refuse (e : ε) : Parser β ε α := fun _ => .error e

def andThen (p : Parser β ε α) (f : α → Parser β ε γ) : Parser β ε γ := fun bs => (p bs).bind (fun r => f r.1 r.2)

def lift (x : Except ε α) : Parser β ε α := fun bs => x.map (fun a => (a, bs))

def mapped (g : α → γ) (p : Parser β ε α) : Parser β ε γ := fun bs => (p bs).map (fun r => (g r.1, r.2))

def times (p : Parser β ε α) : Nat → Parser β ε (List α)
  | 0 => give []
  | n + 1 => andThen p (fun a => mapped (a :: ·) (times p n))

variable {p : Parser β ε α} {f : α → Parser β ε γ} {g : α → γ}

theorem mapped_eq (g : α → γ) (p : Parser β ε α) : mapped g p = andThen p (fun a => give (g a)) := by
  funext bs
  unfold mapped andThen
  cases p bs <;> rfl

theorem andThen_ok {bs rest : List β} {a : α} (h : p bs = .ok (a, rest)) : andThen p f bs = f a rest := by
  rw [andThen, h]
  rfl

theorem andThen_error {bs : List β} {e : ε} (h : p bs = .error e) : andThen p f bs = .error e := by
  rw [andThen, h]
  rfl

/-! ### Verdicts that stand -/

/-- A verdict stands when more symbols come, unless it is one that waits for them. -/
structure Stable (short : ε → Bool) (p : Parser β ε α) : Prop where
  ok : ∀ {bs a rest}, p bs = .ok (a, rest) → ∀ more, p (bs ++ more) = .ok (a, rest ++ more)
  error : ∀ {bs e}, p bs = .error e → short e = false → ∀ more, p (bs ++ more) = .error e

variable {short : ε → Bool}

theorem Stable.give (a : α) : Stable short (give a : Parser β ε α) where
  ok h more := by cases h; rfl
  error h := by cases h

theorem Stable.refuse (e : ε) : Stable short (refuse e : Parser β ε α) where
  ok h := by cases h
  error h _ _ := by cases h; rfl

theorem Stable.lift (x : Except ε α) : Stable short (lift x : Parser β ε α) := by
  cases x with
  | error e => exact .refuse e
  | ok a => exact .give a

theorem Stable.andThen (hp : Stable short p) (hf : ∀ a, Stable short (f a)) : Stable short (andThen p f) where
  ok {bs c rest} h more := by
    cases hbs : p bs with
    | error e => rw [andThen_error hbs] at h; cases h
    | ok r =>
        rw [andThen_ok hbs] at h
        rw [andThen_ok (hp.ok hbs more)]
        exact (hf r.1).ok h more
  error {bs e} h he more := by
    cases hbs : p bs with
    | error e' =>
        rw [andThen_error hbs] at h
        cases h
        exact andThen_error (hp.error hbs he more)
    | ok r =>
        rw [andThen_ok hbs] at h
        rw [andThen_ok (hp.ok hbs more)]
        exact (hf r.1).error h he more

theorem Stable.mapped (hp : Stable short p) : Stable short (mapped g p) :=
  mapped_eq g p ▸ hp.andThen fun a => .give (g a)

theorem Stable.times (hp : Stable short p) (n : Nat) : Stable short (times p n) := by
  induction n with
  | zero => exact .give []
  | succ n ih => exact hp.andThen fun _ => ih.mapped

/-- A parser that chooses by the first symbol. -/
theorem Stable.cons {q : β → Parser β ε α} (hnil : ∃ e, p [] = .error e ∧ short e = true)
    (hcons : ∀ b rest, p (b :: rest) = q b rest) (hq : ∀ b, Stable short (q b)) : Stable short p where
  ok {bs a rest} h more := by
    cases bs with
    | nil =>
        obtain ⟨e, he, _⟩ := hnil
        cases he.symm.trans h
    | cons b bs =>
        rw [hcons] at h
        rw [List.cons_append, hcons]
        exact (hq b).ok h more
  error {bs e} h he more := by
    cases bs with
    | nil =>
        obtain ⟨e', he', hs⟩ := hnil
        obtain rfl := Except.error.inj (he'.symm.trans h)
        rw [hs] at he
        cases he
    | cons b bs =>
        rw [hcons] at h
        rw [List.cons_append, hcons]
        exact (hq b).error h he more

/-- Where all the symbols make one frame, a proper prefix of them waits for more. -/
theorem Stable.prefix_short (hp : Stable short p) {xs ys : List β} {a : α} (h : p (xs ++ ys) = .ok (a, []))
    (hy : ys ≠ []) : ∃ e, p xs = .error e ∧ short e = true := by
  cases hxs : p xs with
  | ok r =>
      have hall := (hp.ok hxs ys).symm.trans h
      cases hr : r.2 with
      | nil =>
          rw [hr, List.nil_append] at hall
          exact absurd (congrArg Prod.snd (Except.ok.inj hall)) hy
      | cons b rest =>
          rw [hr] at hall
          cases congrArg Prod.snd (Except.ok.inj hall)
  | error e =>
      refine ⟨e, rfl, ?_⟩
      by_contra he
      cases (hp.error hxs (by simpa using he) ys).symm.trans h

/-! ### What is consumed -/

/-- What is read takes at least `n` symbols. -/
def Consumes (n : Nat) (p : Parser β ε α) : Prop := ∀ ⦃bs a rest⦄, p bs = .ok (a, rest) → rest.length + n ≤ bs.length

theorem Consumes.give (a : α) : Consumes 0 (give a : Parser β ε α) := by
  intro bs b rest h
  cases h
  exact Nat.le_refl _

theorem Consumes.refuse (n : Nat) (e : ε) : Consumes n (refuse e : Parser β ε α) := by
  intro bs b rest h
  cases h

theorem Consumes.mono {n m : Nat} (hp : Consumes n p) (hm : m ≤ n) : Consumes m p := by
  intro bs a rest h
  have := hp h
  omega

theorem Consumes.andThen {n : Nat} (hp : Consumes n p) (hf : ∀ a, Consumes 0 (f a)) : Consumes n (andThen p f) := by
  intro bs c rest h
  cases hbs : p bs with
  | error e => rw [andThen_error hbs] at h; cases h
  | ok r =>
      rw [andThen_ok hbs] at h
      have h₁ := hp hbs
      have h₂ := hf r.1 h
      omega

theorem Consumes.mapped {n : Nat} (hp : Consumes n p) : Consumes n (mapped g p) :=
  mapped_eq g p ▸ Consumes.andThen hp fun a => Consumes.give (g a)

theorem Consumes.times (hp : Consumes 0 p) (n : Nat) : Consumes 0 (times p n) := by
  induction n with
  | zero => exact Consumes.give []
  | succ n ih => exact hp.andThen fun _ => Consumes.mapped ih

/-! ### What is written is read -/

/-- The symbols `xs` are read as `a`, whatever follows. -/
def Reads (p : Parser β ε α) (xs : List β) (a : α) : Prop := ∀ rest, p (xs ++ rest) = .ok (a, rest)

theorem Reads.give (a : α) : Reads (give a : Parser β ε α) [] a := fun _ => rfl

theorem Reads.lift {x : Except ε α} {a : α} (h : x = .ok a) : Reads (lift x : Parser β ε α) [] a :=
  h ▸ Reads.give a

theorem Reads.andThen {xs ys : List β} {a : α} {c : γ} (hp : Reads p xs a) (hf : Reads (f a) ys c) :
    Reads (andThen p f) (xs ++ ys) c := by
  intro rest
  rw [List.append_assoc, andThen_ok (hp _)]
  exact hf rest

theorem Reads.mapped {xs : List β} {a : α} (hp : Reads p xs a) : Reads (mapped g p) xs (g a) := by
  intro rest
  rw [Parsing.mapped, hp rest]
  rfl

theorem Reads.times {frames : List (List β)} {as : List α} (h : List.Forall₂ (Reads p) frames as) :
    Reads (times p as.length) frames.flatten as := by
  induction h with
  | nil => exact .give []
  | @cons frame a frames as ha _ ih =>
      exact ha.andThen ih.mapped

theorem Reads.cons {q : Parser β ε α} {b : β} {xs : List β} {a : α} (hcons : ∀ rest, p (b :: rest) = q rest)
    (hq : Reads q xs a) : Reads p (b :: xs) a := by
  intro rest
  rw [List.cons_append, hcons]
  exact hq rest

theorem Reads.whole {xs : List β} {a : α} (h : Reads p xs a) : p xs = .ok (a, []) := by
  simpa using h []

/-! ### What is read, exactly -/

/-- The parser reads the frames of the relation, and nothing else. -/
def Parses (p : Parser β ε α) (R : List β → α → Prop) : Prop :=
  ∀ bs a rest, p bs = .ok (a, rest) ↔ ∃ frame, bs = frame ++ rest ∧ R frame a

theorem Parses.congr {R R' : List β → α → Prop} (hp : Parses p R) (h : ∀ frame a, R frame a ↔ R' frame a) : Parses p R' := by
  intro bs a rest
  rw [hp bs a rest]
  exact exists_congr fun frame => and_congr_right fun _ => h frame a

theorem Parses.give (a : α) : Parses (give a : Parser β ε α) (fun frame b => frame = [] ∧ b = a) := by
  intro bs b rest
  constructor
  · intro h
    cases h
    exact ⟨[], rfl, rfl, rfl⟩
  · rintro ⟨frame, rfl, rfl, rfl⟩
    rfl

theorem Parses.refuse (e : ε) : Parses (refuse e : Parser β ε α) (fun _ _ => False) := by
  intro bs b rest
  constructor
  · intro h
    cases h
  · rintro ⟨_, _, h⟩
    exact h.elim

variable {R : List β → α → Prop} {S : α → List β → γ → Prop}

theorem Parses.andThen (hp : Parses p R) (hf : ∀ a, Parses (f a) (S a)) :
    Parses (andThen p f) (fun frame c => ∃ a first second, frame = first ++ second ∧ R first a ∧ S a second c) := by
  intro bs c rest
  constructor
  · intro h
    cases hbs : p bs with
    | error e => rw [andThen_error hbs] at h; cases h
    | ok r =>
        rw [andThen_ok hbs] at h
        obtain ⟨first, rfl, hfirst⟩ := (hp bs r.1 r.2).mp hbs
        obtain ⟨second, hsecond, hr⟩ := (hf r.1 r.2 c rest).mp h
        exact ⟨first ++ second, by rw [hsecond, List.append_assoc], r.1, first, second, rfl, hfirst, hr⟩
  · rintro ⟨_, rfl, a, first, second, rfl, hfirst, hsecond⟩
    have h := (hp (first ++ second ++ rest) a (second ++ rest)).mpr ⟨first, List.append_assoc first second rest, hfirst⟩
    rw [andThen_ok h]
    exact (hf a _ c rest).mpr ⟨second, rfl, hsecond⟩

theorem Parses.mapped (hp : Parses p R) : Parses (mapped g p) (fun frame c => ∃ a, R frame a ∧ c = g a) := by
  intro bs c rest
  unfold Parsing.mapped
  constructor
  · intro h
    cases hbs : p bs with
    | error e => rw [hbs] at h; cases h
    | ok r =>
        rw [hbs] at h
        cases h
        obtain ⟨frame, hframe, hr⟩ := (hp bs r.1 r.2).mp hbs
        exact ⟨frame, hframe, r.1, hr, rfl⟩
  · rintro ⟨frame, hbs, a, ha, rfl⟩
    rw [(hp bs a rest).mpr ⟨frame, hbs, ha⟩]
    rfl

theorem Parses.times (hp : Parses p R) (n : Nat) :
    Parses (times p n) (fun frame as => as.length = n ∧ ∃ parts, List.Forall₂ R parts as ∧ frame = parts.flatten) := by
  induction n with
  | zero =>
      intro bs as rest
      rw [Parsing.times, Parses.give [] bs as rest]
      constructor
      · rintro ⟨frame, hbs, rfl, rfl⟩
        exact ⟨[], hbs, rfl, [], .nil, rfl⟩
      · rintro ⟨frame, hbs, hlen, parts, hparts, rfl⟩
        obtain rfl := List.length_eq_zero_iff.mp hlen
        cases hparts
        exact ⟨[], hbs, rfl, rfl⟩
  | succ n ih =>
      intro bs as rest
      rw [Parsing.times, hp.andThen (fun a => ih.mapped (g := (a :: ·))) bs as rest]
      constructor
      · rintro ⟨frame, hbs, a, first, second, rfl, hfirst, as', ⟨hlen, parts, hparts, rfl⟩, rfl⟩
        exact ⟨_, hbs, by rw [List.length_cons, hlen], first :: parts, .cons hfirst hparts, rfl⟩
      · rintro ⟨frame, hbs, hlen, parts, hparts, rfl⟩
        cases hparts with
        | nil => cases hlen
        | @cons first a parts as hfirst hparts =>
            exact ⟨_, hbs, a, first, parts.flatten, rfl, hfirst, as, ⟨Nat.succ.inj hlen, parts, hparts, rfl⟩, rfl⟩

/-! ### How much is taken -/

/-- What is read stands at the start, and takes at least `n` symbols. -/
def Takes (n : Nat) (p : Parser β ε α) : Prop :=
  ∀ ⦃bs a rest⦄, p bs = .ok (a, rest) → ∃ taken, bs = taken ++ rest ∧ n ≤ taken.length

theorem Parses.takes {n : Nat} (hp : Parses p R) (h : ∀ frame a, R frame a → n ≤ frame.length) : Takes n p := by
  intro bs a rest hbs
  obtain ⟨frame, hframe, hr⟩ := (hp bs a rest).mp hbs
  exact ⟨frame, hframe, h frame a hr⟩

theorem Takes.give (a : α) : Takes 0 (give a : Parser β ε α) :=
  (Parses.give a).takes fun _ _ _ => Nat.zero_le _

theorem Takes.refuse (n : Nat) (e : ε) : Takes n (refuse e : Parser β ε α) :=
  (Parses.refuse e).takes fun _ _ h => h.elim

theorem Takes.lift (x : Except ε α) : Takes 0 (lift x : Parser β ε α) := by
  cases x with
  | error e => exact Takes.refuse 0 e
  | ok a => exact Takes.give a

theorem Takes.mono {n m : Nat} (hp : Takes n p) (hm : m ≤ n) : Takes m p := by
  intro bs a rest h
  obtain ⟨taken, hbs, hn⟩ := hp h
  exact ⟨taken, hbs, Nat.le_trans hm hn⟩

theorem Takes.andThen {n m : Nat} (hp : Takes n p) (hf : ∀ a, Takes m (f a)) : Takes (n + m) (andThen p f) := by
  intro bs c rest h
  cases hbs : p bs with
  | error e => rw [andThen_error hbs] at h; cases h
  | ok r =>
      rw [andThen_ok hbs] at h
      obtain ⟨first, hfirst, hn⟩ := hp hbs
      obtain ⟨second, hsecond, hm⟩ := hf r.1 h
      refine ⟨first ++ second, by rw [hfirst, hsecond, List.append_assoc], ?_⟩
      rw [List.length_append]
      exact Nat.add_le_add hn hm

theorem Takes.mapped {n : Nat} (hp : Takes n p) : Takes n (mapped g p) :=
  mapped_eq g p ▸ hp.andThen fun a => Takes.give (g a)

theorem Takes.times (hp : Takes 0 p) (n : Nat) : Takes 0 (times p n) := by
  induction n with
  | zero => exact Takes.give []
  | succ n ih => exact hp.andThen fun _ => Takes.mapped ih

theorem Takes.cons {n : Nat} {q : β → Parser β ε α} (hnil : ∃ e, p [] = .error e)
    (hcons : ∀ b rest, p (b :: rest) = q b rest) (hq : ∀ b, Takes n (q b)) : Takes (n + 1) p := by
  intro bs a rest h
  cases bs with
  | nil =>
      obtain ⟨e, he⟩ := hnil
      cases he.symm.trans h
  | cons b bs =>
      rw [hcons] at h
      obtain ⟨taken, rfl, hn⟩ := hq b h
      exact ⟨b :: taken, rfl, Nat.succ_le_succ hn⟩

/-- Whatever follows, a value is read again from as many symbols, at least `least` and at most all, and an
exception that waits for nothing is raised again. -/
structure Steady (short : ε → Bool) (least : Nat) (p : Parser β ε α) : Prop where
  value : ∀ bs a rest, p bs = .ok (a, rest) → ∃ n, least ≤ n ∧ n ≤ bs.length ∧ rest = bs.drop n ∧
    ∀ more, p (bs ++ more) = .ok (a, (bs ++ more).drop n)
  error : ∀ bs e, p bs = .error e → short e = false → ∀ more, p (bs ++ more) = .error e

theorem Stable.steady {least : Nat} (hp : Stable short p) (ht : Takes least p) : Steady short least p where
  value bs a rest h := by
    obtain ⟨taken, rfl, hn⟩ := ht h
    refine ⟨taken.length, hn, by rw [List.length_append]; exact Nat.le_add_right _ _, List.drop_left.symm, fun more => ?_⟩
    rw [hp.ok h more, List.append_assoc, List.drop_left]
  error _ _ h he more := hp.error h he more

end Parsing
