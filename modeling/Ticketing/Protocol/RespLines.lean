import Ticketing.AppServer.RespReply
import Ticketing.Lib.Parsing
import Ticketing.Lib.Utf8RoundTrip
import Ticketing.Python

namespace Ticketing.Protocol

open Parsing Python AppServer

/-! What the request parser and the reply parser are built from. -/

variable {ε : Type}

/-- A type byte. -/
def marker (b : UInt8) (missing other : ε) : Parser UInt8 ε Unit
  | [] => .error missing
  | c :: rest => if c = b then .ok ((), rest) else .error other

/-- A line that ends with CRLF. -/
def line (incomplete : ε) : Parser UInt8 ε (List UInt8) := fun bs =>
  match splitLine bs with
  | some p => .ok p
  | none => .error incomplete

/-- So many bytes, with CRLF after them. -/
def payload (length : Nat) (incomplete unended : ε) : Parser UInt8 ε (List UInt8) := fun bs =>
  if bs.length < length + 2 then .error incomplete
  else if (bs.drop length).take 2 ≠ [cr, lf] then .error unended
  else .ok (bs.take length, bs.drop (length + 2))

/-! ### Lines -/

theorem splitLine_append {bs l rest : List UInt8} (h : splitLine bs = some (l, rest)) (more : List UInt8) :
    splitLine (bs ++ more) = some (l, rest ++ more) := by
  induction bs generalizing l with
  | nil => cases h
  | cons b bs ih =>
      rw [splitLine] at h
      rw [List.cons_append, splitLine]
      by_cases hb : b = cr ∧ bs.head? = some lf
      · rw [if_pos hb] at h
        cases bs with
        | nil => cases hb.2
        | cons c bs =>
            rw [if_pos ⟨hb.1, hb.2⟩]
            cases h
            rfl
      · rw [if_neg hb] at h
        obtain ⟨p, hp, heq⟩ := Option.map_eq_some_iff.mp h
        cases heq
        have hb' : ¬ (b = cr ∧ (bs ++ more).head? = some lf) := by
          cases bs with
          | nil => cases hp
          | cons c bs => exact hb
        rw [if_neg hb', ih hp]
        rfl

theorem splitLine_consumes {bs l rest : List UInt8} (h : splitLine bs = some (l, rest)) :
    rest.length + 2 ≤ bs.length := by
  induction bs generalizing l with
  | nil => cases h
  | cons b bs ih =>
      rw [splitLine] at h
      split at h
      next hb =>
        cases bs with
        | nil => cases hb.2
        | cons c bs => cases h; exact Nat.le_refl _
      next =>
        obtain ⟨p, hp, heq⟩ := Option.map_eq_some_iff.mp h
        cases heq
        exact Nat.le_succ_of_le (ih hp)

theorem splitLine_line {l : List UInt8} (h : cr ∉ l) (rest : List UInt8) :
    splitLine (l ++ [cr, lf] ++ rest) = some (l, rest) := by
  induction l with
  | nil => rfl
  | cons b l ih =>
      have hb : b ≠ cr := fun hb => h (hb ▸ List.mem_cons_self)
      rw [List.cons_append, List.cons_append, splitLine, if_neg (fun hc => hb hc.1),
        ih (fun hm => h (List.mem_cons_of_mem _ hm))]
      rfl

section Pieces

variable {short : ε → Bool}

theorem marker_stable {missing other : ε} (h : short missing = true) (b : UInt8) :
    Stable short (marker b missing other) where
  ok {bs _ _} hbs more := by
    cases bs with
    | nil => cases hbs
    | cons c bs =>
        rw [List.cons_append]
        unfold marker at hbs ⊢
        dsimp only at hbs ⊢
        split at hbs
        next hc => cases hbs; exact if_pos hc
        next => cases hbs
  error {bs e} hbs he more := by
    cases bs with
    | nil =>
        cases hbs
        rw [h] at he
        cases he
    | cons c bs =>
        rw [List.cons_append]
        unfold marker at hbs ⊢
        dsimp only at hbs ⊢
        split at hbs
        next => cases hbs
        next hc => cases hbs; exact if_neg hc

theorem marker_consumes (b : UInt8) (missing other : ε) : Consumes 1 (marker b missing other) := by
  intro bs _ rest h
  cases bs with
  | nil => cases h
  | cons c bs =>
      unfold marker at h
      dsimp only at h
      split at h
      next => cases h; exact Nat.le_refl _
      next => cases h

theorem marker_reads (b : UInt8) (missing other : ε) : Reads (marker b missing other) [b] () := fun _ => if_pos rfl

theorem line_stable {incomplete : ε} (h : short incomplete = true) : Stable short (line incomplete) where
  ok {bs l rest} hbs more := by
    unfold line at hbs ⊢
    cases hs : splitLine bs with
    | none => rw [hs] at hbs; cases hbs
    | some p =>
        rw [hs] at hbs
        cases hbs
        rw [splitLine_append hs more]
  error {bs e} hbs he more := by
    unfold line at hbs
    split at hbs
    next => cases hbs
    next => cases hbs; rw [h] at he; cases he

theorem line_consumes (incomplete : ε) : Consumes 0 (line incomplete) := by
  intro bs l rest h
  unfold line at h
  cases hs : splitLine bs with
  | none => rw [hs] at h; cases h
  | some p =>
      rw [hs] at h
      cases h
      exact Nat.le_of_add_right_le (splitLine_consumes hs)

theorem line_reads (incomplete : ε) {l : List UInt8} (h : cr ∉ l) : Reads (line incomplete) (l ++ [cr, lf]) l := by
  intro rest
  rw [line, splitLine_line h]

theorem payload_stable {length : Nat} {incomplete unended : ε} (h : short incomplete = true) :
    Stable short (payload length incomplete unended) where
  ok {bs bytes rest} hbs more := by
    unfold payload at hbs ⊢
    split at hbs
    next => cases hbs
    next hlen =>
      have hdrop : (bs ++ more).drop length = bs.drop length ++ more := List.drop_append_of_le_length (by omega)
      have htake : ((bs ++ more).drop length).take 2 = (bs.drop length).take 2 := by
        rw [hdrop, List.take_append_of_le_length (by rw [List.length_drop]; omega)]
      rw [if_neg (by rw [List.length_append]; omega), htake]
      split at hbs
      next => cases hbs
      next hend =>
        cases hbs
        rw [if_neg hend, List.take_append_of_le_length (by omega), List.drop_append_of_le_length (by omega)]
  error {bs e} hbs he more := by
    unfold payload at hbs ⊢
    split at hbs
    next => cases hbs; rw [h] at he; cases he
    next hlen =>
      have hdrop : (bs ++ more).drop length = bs.drop length ++ more := List.drop_append_of_le_length (by omega)
      have htake : ((bs ++ more).drop length).take 2 = (bs.drop length).take 2 := by
        rw [hdrop, List.take_append_of_le_length (by rw [List.length_drop]; omega)]
      rw [if_neg (by rw [List.length_append]; omega), htake]
      split at hbs
      next hend => cases hbs; exact if_pos hend
      next => cases hbs

theorem payload_consumes (length : Nat) (incomplete unended : ε) : Consumes 0 (payload length incomplete unended) := by
  intro bs bytes rest h
  unfold payload at h
  split at h
  next => cases h
  next =>
    split at h
    next => cases h
    next => cases h; rw [List.length_drop]; omega

theorem payload_reads (incomplete unended : ε) (bytes : List UInt8) :
    Reads (payload bytes.length incomplete unended) (bytes ++ [cr, lf]) bytes := by
  intro rest
  have hlen : ¬ (bytes ++ [cr, lf] ++ rest).length < bytes.length + 2 := by simp
  have hend : ¬ ((bytes ++ [cr, lf] ++ rest).drop bytes.length).take 2 ≠ [cr, lf] := by simp
  rw [payload, if_neg hlen, if_neg hend]
  simp [List.append_assoc]

end Pieces

/-! ### Numbers -/

theorem byteAlphabet_spells : Decimal.Spells byteAlphabet byteOf where
  digit d hd := by interval_cases d <;> rfl
  space b d h := by
    have hb : 48 ≤ b ∧ b ≤ 57 := by
      by_contra hb
      rw [byteAlphabet] at h
      simp only [if_neg hb, reduceCtorEq] at h
    obtain ⟨h₁, h₂⟩ := hb
    rw [UInt8.le_iff_toNat_le] at h₁ h₂
    have h₃ : b ≠ 32 := by
      rintro rfl
      exact absurd h₁ (by decide)
    have h₄ : ¬ b ≤ 13 := by
      rw [UInt8.le_iff_toNat_le]
      exact fun h => absurd (Nat.le_trans h₁ h) (by decide)
    simp [byteAlphabet, h₃, h₄]
  underscore := by decide
  plus := by decide
  minus := by decide
  minus_space := by decide
  minus_plus := by decide
  sym_minus := rfl

theorem spellInt_char {n : Int} {c : Char} (h : c ∈ Decimal.spellInt id n) : c.isDigit = true ∨ c = '-' := by
  have hnat {m : Nat} (h : c ∈ Decimal.spellNat id m) : c.isDigit = true := by
    rw [Decimal.spellNat, List.map_id] at h
    exact Nat.isDigit_of_mem_toDigits (by decide) (by decide) h
  cases n with
  | ofNat m => exact .inl (hnat h)
  | negSucc m =>
      rcases List.mem_cons.mp h with rfl | h
      · exact .inr rfl
      · exact .inl (hnat h)

theorem digit_ascii {c : Char} (h : c.isDigit = true ∨ c = '-') : c.toNat < 0x80 ∧ c.toNat ≠ 13 := by
  rcases h with h | rfl
  · have hc : 48 ≤ c.toNat ∧ c.toNat ≤ 57 := by
      rw [Char.isDigit, Bool.and_eq_true, decide_eq_true_iff, decide_eq_true_iff, ge_iff_le, UInt32.le_iff_toNat_le,
        UInt32.le_iff_toNat_le] at h
      exact h
    omega
  · decide

theorem spellInt_map (n : Int) : (Decimal.spellInt id n).map byteOf = Decimal.spellInt byteOf n := by
  cases n with
  | ofNat m => simp [Decimal.spellInt, Decimal.spellNat]
  | negSucc m => simp [Decimal.spellInt, Decimal.spellNat]

theorem encode_header (c : Char) {mark : String} (hm : mark.toList = [c]) (h : c.toNat < 0x80) (s : String) :
    Utf8.encode (mark ++ s ++ "\r\n") = [byteOf c] ++ (Utf8.encode s ++ [cr, lf]) := by
  rw [Utf8.encode_append, Utf8.encode_append, List.append_assoc, Utf8.encode, hm, List.flatMap_singleton,
    Utf8.encodeChar_ascii h]
  rfl

theorem encode_strInt {n : Int} {s : String} (h : strInt n = .ok s) :
    Utf8.encode s = Decimal.spellInt byteOf n ∧ parseIntBytes (Utf8.encode s) = some n ∧ cr ∉ Utf8.encode s := by
  unfold strInt at h
  split at h
  next hn =>
    cases h
    have hascii : Utf8.encode (String.ofList (Decimal.spellInt id n)) = Decimal.spellInt byteOf n := by
      rw [Utf8.encode_ascii fun c hc => (digit_ascii (spellInt_char hc)).1]
      exact spellInt_map n
    refine ⟨hascii, ?_, fun hcr => ?_⟩
    · rw [hascii, parseIntBytes]
      exact Decimal.readInt_spellInt byteAlphabet_spells hn
    · obtain ⟨c, hc, heq⟩ := Utf8.mem_encode_ascii (by decide) hcr
      rw [String.toList_ofList] at hc
      exact (digit_ascii (spellInt_char hc)).2 heq.symm
  next => cases h

end Ticketing.Protocol
