import Ticketing.Lib.Utf8RoundTrip
import Mathlib.Data.List.Lex
import Mathlib.Data.String.Basic
import Mathlib.Tactic.IntervalCases

/-! The order of texts: of their bytes, and of numbers written with a fixed number of digits. -/

namespace TextOrder

theorem append_lt_append_iff {α : Type} [LT α] {xs ys as bs : List α} (h : xs.length = ys.length) :
    xs ++ as < ys ++ bs ↔ xs < ys ∨ xs = ys ∧ as < bs := by
  induction xs generalizing ys with
  | nil =>
      obtain rfl := List.length_eq_zero_iff.mp h.symm
      simp
  | cons x xs ih =>
      cases ys with
      | nil => cases h
      | cons y ys =>
          rw [List.cons_append, List.cons_append, List.cons_lt_cons_iff, List.cons_lt_cons_iff, ih (Nat.succ.inj h),
            List.cons.injEq]
          tauto

/-! ### Bytes -/

theorem cons_ofNat_lt {n m : ℕ} {xs ys : List UInt8} (hm : m < 256) (h : n < m ∨ n = m ∧ xs < ys) :
    UInt8.ofNat n :: xs < UInt8.ofNat m :: ys := by
  rw [List.cons_lt_cons_iff]
  obtain h | ⟨rfl, h⟩ := h
  · refine .inl ?_
    rw [UInt8.lt_iff_toNat_lt, Utf8.toNat_ofNat (h.trans hm), Utf8.toNat_ofNat hm]
    exact h
  · exact .inr ⟨rfl, h⟩

/-- The bytes of a greater character are greater, whatever follows. -/
theorem utf8EncodeChar_lt {a b : Char} (h : a < b) (xs ys : List UInt8) :
    String.utf8EncodeChar a ++ xs < String.utf8EncodeChar b ++ ys := by
  obtain ⟨n, hn⟩ : ∃ n, n = a.val.toNat := ⟨_, rfl⟩
  obtain ⟨m, hm⟩ : ∃ m, m = b.val.toNat := ⟨_, rfl⟩
  have hlt : n < m := hn ▸ hm ▸ h
  have hmax : m < 0x110000 := by
    have hv : b.toNat.isValidChar := b.valid
    have hb : m = b.toNat := hm
    unfold Nat.isValidChar at hv
    omega
  simp only [String.utf8EncodeChar, ← hn, ← hm]
  by_cases hm1 : m ≤ 0x7f
  · rw [if_pos hm1, if_pos (hlt.le.trans hm1)]
    exact cons_ofNat_lt (by omega) (.inl hlt)
  by_cases hm2 : m ≤ 0x7ff
  · rw [if_neg hm1, if_pos hm2]
    by_cases hn1 : n ≤ 0x7f
    · rw [if_pos hn1]
      exact cons_ofNat_lt (by omega) (.inl (by omega))
    · rw [if_neg hn1, if_pos (by omega)]
      refine cons_ofNat_lt (by omega) ?_
      by_cases h1 : n / 64 = m / 64
      · exact .inr ⟨by omega, cons_ofNat_lt (by omega) (.inl (by omega))⟩
      · exact .inl (by omega)
  by_cases hm3 : m ≤ 0xffff
  · rw [if_neg hm1, if_neg hm2, if_pos hm3]
    by_cases hn1 : n ≤ 0x7f
    · rw [if_pos hn1]
      exact cons_ofNat_lt (by omega) (.inl (by omega))
    by_cases hn2 : n ≤ 0x7ff
    · rw [if_neg hn1, if_pos hn2]
      exact cons_ofNat_lt (by omega) (.inl (by omega))
    · rw [if_neg hn1, if_neg hn2, if_pos (by omega)]
      refine cons_ofNat_lt (by omega) ?_
      by_cases h1 : n / 4096 = m / 4096
      · refine .inr ⟨by omega, cons_ofNat_lt (by omega) ?_⟩
        by_cases h2 : n / 64 = m / 64
        · exact .inr ⟨by omega, cons_ofNat_lt (by omega) (.inl (by omega))⟩
        · exact .inl (by omega)
      · exact .inl (by omega)
  · rw [if_neg hm1, if_neg hm2, if_neg hm3]
    by_cases hn1 : n ≤ 0x7f
    · rw [if_pos hn1]
      exact cons_ofNat_lt (by omega) (.inl (by omega))
    by_cases hn2 : n ≤ 0x7ff
    · rw [if_neg hn1, if_pos hn2]
      exact cons_ofNat_lt (by omega) (.inl (by omega))
    by_cases hn3 : n ≤ 0xffff
    · rw [if_neg hn1, if_neg hn2, if_pos hn3]
      exact cons_ofNat_lt (by omega) (.inl (by omega))
    · rw [if_neg hn1, if_neg hn2, if_neg hn3]
      refine cons_ofNat_lt (by omega) ?_
      by_cases h1 : n / 262144 = m / 262144
      · refine .inr ⟨by omega, cons_ofNat_lt (by omega) ?_⟩
        by_cases h2 : n / 4096 = m / 4096
        · refine .inr ⟨by omega, cons_ofNat_lt (by omega) ?_⟩
          by_cases h3 : n / 64 = m / 64
          · exact .inr ⟨by omega, cons_ofNat_lt (by omega) (.inl (by omega))⟩
          · exact .inl (by omega)
        · exact .inl (by omega)
      · exact .inl (by omega)

theorem flatMap_utf8EncodeChar_lt {cs ds : List Char} (h : cs < ds) :
    cs.flatMap String.utf8EncodeChar < ds.flatMap String.utf8EncodeChar := by
  induction h with
  | @nil d ds =>
      rw [List.flatMap_cons]
      cases he : String.utf8EncodeChar d with
      | nil => exact absurd he (Utf8.encodeChar_ne_nil d)
      | cons b bs => exact List.nil_lt_cons b _
  | cons h ih =>
      rw [List.flatMap_cons, List.flatMap_cons]
      exact List.append_left_lt ih
  | rel h =>
      rw [List.flatMap_cons, List.flatMap_cons]
      exact utf8EncodeChar_lt h _ _

/-- The order of texts is the order of their bytes. -/
theorem encode_lt_iff {s t : String} : Utf8.encode s < Utf8.encode t ↔ s < t := by
  have hmono {s t : String} (h : s < t) : Utf8.encode s < Utf8.encode t :=
    flatMap_utf8EncodeChar_lt (String.lt_iff_toList_lt.1 h)
  have : Std.Asymm (α := UInt8) (· < ·) := ⟨fun _ _ => UInt8.lt_asymm⟩
  refine ⟨fun h => ?_, hmono⟩
  by_contra hcontra
  obtain hlt | rfl := (not_lt.1 hcontra).lt_or_eq
  · exact List.lt_asymm h (hmono hlt)
  · exact List.lt_asymm h h

theorem encode_le_iff {s t : String} : Utf8.encode s ≤ Utf8.encode t ↔ s ≤ t := by
  rw [← List.not_lt, encode_lt_iff, not_lt]

/-! ### Numbers -/

/-- A number with `width` digits. -/
def padded : ℕ → ℕ → List Char
  | 0, _ => []
  | width + 1, n => padded width (n / 10) ++ [Nat.digitChar (n % 10)]

theorem length_padded (width n : ℕ) : (padded width n).length = width := by
  induction width generalizing n with
  | zero => rfl
  | succ width ih => rw [padded, List.length_append, ih, List.length_singleton]

theorem digitChar_lt {n m : ℕ} (hm : m < 10) (h : n < m) : Nat.digitChar n < Nat.digitChar m := by
  revert n
  interval_cases m <;> decide

theorem padded_lt {width n m : ℕ} (hm : m < 10 ^ width) (h : n < m) : padded width n < padded width m := by
  induction width generalizing n m with
  | zero => omega
  | succ width ih =>
      have hdiv : m / 10 < 10 ^ width := by
        rw [pow_succ] at hm
        exact Nat.div_lt_of_lt_mul (by omega)
      rw [padded, padded, append_lt_append_iff (by rw [length_padded, length_padded])]
      by_cases hlt : n / 10 < m / 10
      · exact .inl (ih hdiv hlt)
      · have heq : n / 10 = m / 10 := by omega
        refine .inr ⟨by rw [heq], ?_⟩
        rw [List.cons_lt_cons_iff]
        exact .inl (digitChar_lt (Nat.mod_lt _ (by decide)) (by omega))

theorem padded_inj {width n m : ℕ} (hn : n < 10 ^ width) (hm : m < 10 ^ width) :
    padded width n = padded width m ↔ n = m := by
  refine ⟨fun h => ?_, fun h => by rw [h]⟩
  by_contra hne
  obtain hlt | hlt := Nat.lt_or_gt_of_ne hne
  · exact List.lt_irrefl _ (h ▸ padded_lt hm hlt)
  · exact List.lt_irrefl _ (h ▸ padded_lt hn hlt)

/-- Numbers of one width compare as their texts, and then what follows decides. -/
theorem padded_append_lt_iff {width n m : ℕ} (hn : n < 10 ^ width) (hm : m < 10 ^ width) {cs ds : List Char} :
    padded width n ++ cs < padded width m ++ ds ↔ n < m ∨ n = m ∧ cs < ds := by
  rw [append_lt_append_iff (by rw [length_padded, length_padded]), padded_inj hn hm]
  refine or_congr_left ⟨fun h => ?_, padded_lt hm⟩
  by_contra hle
  obtain hlt | heq := (not_lt.1 hle).lt_or_eq
  · exact List.lt_asymm h (padded_lt hn hlt)
  · exact List.lt_irrefl _ (heq ▸ h)

end TextOrder
