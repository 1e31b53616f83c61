import Ticketing.Lib.Parsing

/-! Two parsers of one format, of which the second stops at symbols that the first lets through. -/

namespace Parsing

variable {β ε ε' α γ : Type}

/-- The second parser reads what the first reads, and raises the verdict on what the first raises, if there is one.
It stops only at odd symbols. -/
structure Agrees (odd : ε' → List β → Prop) (verdict : ε → Option ε') (p : Parser β ε α) (q : Parser β ε' α) : Prop where
  ok : ∀ {bs a rest}, p bs = .ok (a, rest) → q bs = .ok (a, rest) ∨ ∃ stop, q bs = .error stop ∧ odd stop bs
  error : ∀ {bs e e'}, p bs = .error e → verdict e = some e' →
    q bs = .error e' ∨ ∃ stop, q bs = .error stop ∧ odd stop bs
  rest : ∀ {bs a rest stop}, p bs = .ok (a, rest) → odd stop rest → odd stop bs

section Rules

variable {odd : ε' → List β → Prop} {verdict : ε → Option ε'} {p : Parser β ε α} {q : Parser β ε' α}
  {f : α → Parser β ε γ} {g : α → Parser β ε' γ}

theorem Agrees.give (a : α) : Agrees odd verdict (give a) (give a) where
  ok h := by cases h; exact .inl rfl
  error h := by cases h
  rest h ho := by cases h; exact ho

/-- Nothing is asked of the second parser where the first raises an exception without a verdict. -/
theorem Agrees.refuse {e : ε} (h : verdict e = none) (q : Parser β ε' α) : Agrees odd verdict (refuse e) q where
  ok h := by cases h
  error he hv := by
    cases he
    cases h.symm.trans hv
  rest h := by cases h

theorem Agrees.raise {e : ε} {e' : ε'} (h : verdict e = some e') :
    Agrees odd verdict (Parsing.refuse e : Parser β ε α) (Parsing.refuse e') where
  ok h := by cases h
  error he hv := by
    cases he
    cases h.symm.trans hv
    exact .inl rfl
  rest h := by cases h

theorem Agrees.andThen (hp : Agrees odd verdict p q) (hf : ∀ a, Agrees odd verdict (f a) (g a)) :
    Agrees odd verdict (andThen p f) (andThen q g) where
  ok {bs c rest} h := by
    cases hbs : p bs with
    | error e => rw [andThen_error hbs] at h; cases h
    | ok r =>
        rw [andThen_ok hbs] at h
        rcases hp.ok hbs with hq | ⟨stop, hq, ho⟩
        · rw [andThen_ok hq]
          exact ((hf r.1).ok h).imp_right fun ⟨stop, hg, ho⟩ => ⟨stop, hg, hp.rest hbs ho⟩
        · exact .inr ⟨stop, andThen_error hq, ho⟩
  error {bs e e'} h hv := by
    cases hbs : p bs with
    | error e₁ =>
        rw [andThen_error hbs] at h
        cases h
        rcases hp.error hbs hv with hq | ⟨stop, hq, ho⟩
        · exact .inl (andThen_error hq)
        · exact .inr ⟨stop, andThen_error hq, ho⟩
    | ok r =>
        rw [andThen_ok hbs] at h
        rcases hp.ok hbs with hq | ⟨stop, hq, ho⟩
        · rw [andThen_ok hq]
          exact ((hf r.1).error h hv).imp_right fun ⟨stop, hg, ho⟩ => ⟨stop, hg, hp.rest hbs ho⟩
        · exact .inr ⟨stop, andThen_error hq, ho⟩
  rest {bs c rest stop} h ho := by
    cases hbs : p bs with
    | error e => rw [andThen_error hbs] at h; cases h
    | ok r =>
        rw [andThen_ok hbs] at h
        exact hp.rest hbs ((hf r.1).rest h ho)

theorem Agrees.mapped (hp : Agrees odd verdict p q) (g : α → γ) :
    Agrees odd verdict (mapped g p) (mapped g q) := by
  rw [mapped_eq, mapped_eq]
  exact hp.andThen fun a => .give (g a)

theorem Agrees.times (hp : Agrees odd verdict p q) (n : Nat) :
    Agrees odd verdict (times p n) (times q n) := by
  induction n with
  | zero => exact .give []
  | succ n ih => exact hp.andThen fun a => ih.mapped (a :: ·)

/-- Parsers that choose by the first symbol. -/
theorem Agrees.cons {p' : β → Parser β ε α} {q' : β → Parser β ε' α} (hnil : ∃ e, p [] = .error e ∧ verdict e = none)
    (hp : ∀ b bs, p (b :: bs) = p' b bs) (hq : ∀ b bs, q (b :: bs) = q' b bs)
    (h : ∀ b, Agrees odd verdict (p' b) (q' b))
    (ho : ∀ b, (∀ stop bs, odd stop bs → odd stop (b :: bs)) ∨ ∃ e, p' b = Parsing.refuse e ∧ verdict e = none) :
    Agrees odd verdict p q where
  ok {bs a rest} hbs := by
    cases bs with
    | nil =>
        obtain ⟨e, he, -⟩ := hnil
        cases he.symm.trans hbs
    | cons b bs =>
        rw [hp] at hbs
        rw [hq]
        rcases ho b with ho | ⟨e, he, -⟩
        · exact ((h b).ok hbs).imp_right fun ⟨stop, hr, hbs⟩ => ⟨stop, hr, ho stop bs hbs⟩
        · rw [he] at hbs
          cases hbs
  error {bs e e'} hbs hv := by
    cases bs with
    | nil =>
        obtain ⟨e₁, he, hnone⟩ := hnil
        cases he.symm.trans hbs
        cases hnone.symm.trans hv
    | cons b bs =>
        rw [hp] at hbs
        rw [hq]
        rcases ho b with ho | ⟨e₁, he, hnone⟩
        · exact ((h b).error hbs hv).imp_right fun ⟨stop, hr, hbs⟩ => ⟨stop, hr, ho stop bs hbs⟩
        · rw [he] at hbs
          cases hbs
          cases hnone.symm.trans hv
  rest {bs a rest stop} hbs hrest := by
    cases bs with
    | nil =>
        obtain ⟨e, he, -⟩ := hnil
        cases he.symm.trans hbs
    | cons b bs =>
        rw [hp] at hbs
        rcases ho b with ho | ⟨e, he, -⟩
        · exact ho _ bs ((h b).rest hbs hrest)
        · rw [he] at hbs
          cases hbs

end Rules

end Parsing
