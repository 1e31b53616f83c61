import Ticketing.Lib.Utf8
import Mathlib.Tactic.Common

/-! Decoding undoes encoding. -/

namespace Utf8

/-! ### One character -/

theorem toNat_ofNat {n : Nat} (h : n < 256) : (UInt8.ofNat n).toNat = n := by
  rw [UInt8.toNat_ofNat', Nat.mod_eq_of_lt h]

theorem tail_ofNat {n : Nat} (h : n < 64) : tail (UInt8.ofNat (n + 0x80)) = some n := by
  have hn := toNat_ofNat (show n + 0x80 < 256 by omega)
  have h₁ : 0x80 ≤ UInt8.ofNat (n + 0x80) := by
    rw [UInt8.le_iff_toNat_le, hn]
    exact Nat.le_add_left _ _
  have h₂ : UInt8.ofNat (n + 0x80) < 0xc0 := by
    rw [UInt8.lt_iff_toNat_lt, hn]
    exact Nat.add_lt_add_right h 0x80
  rw [tail, if_pos ⟨h₁, h₂⟩, hn, Nat.add_sub_cancel]

theorem char?_toNat {least n : Nat} {c : Char} (hn : n = c.toNat) (h : least ≤ n) : char? least n = some c := by
  subst hn
  have hv : c.toNat.isValidChar := c.valid
  have hc : Char.ofNatAux c.toNat hv = c := Char.ext (UInt32.toNat_inj.mp rfl)
  rw [char?, dif_pos hv, if_pos h, hc]

theorem next_one {c : Char} (h : c.toNat < 0x80) (rest : List UInt8) :
    next (UInt8.ofNat c.toNat :: rest) = some (c, rest) := by
  have hn := toNat_ofNat (show c.toNat < 256 by omega)
  have ha : UInt8.ofNat c.toNat < 0x80 := by rwa [UInt8.lt_iff_toNat_lt, hn]
  unfold next
  dsimp only
  rw [if_pos ha, hn, Char.ofNat_toNat]

section Lead

variable {a : UInt8} {n t₁ t₂ t₃ : Nat} {c : Char}

/-- The classes of leading bytes do not meet. -/
theorem lead {low : Nat} (ha : a.toNat = n + low) (hlow : 0x80 ≤ low) : ¬ a < 0x80 := by
  rw [UInt8.lt_iff_toNat_lt, ha]
  exact Nat.not_lt.mpr (Nat.le_add_left_of_le hlow)

theorem next_two (ha : a.toNat = n + 0xc0) (hn : n < 0x20) (h₁ : t₁ < 64) (hc : n * 64 + t₁ = c.toNat)
    (hl : 0x80 ≤ c.toNat) (rest : List UInt8) :
    next (a :: UInt8.ofNat (t₁ + 0x80) :: rest) = some (c, rest) := by
  have hlead : 0xc0 ≤ a ∧ a < 0xe0 := by
    rw [UInt8.le_iff_toNat_le, UInt8.lt_iff_toNat_lt, ha]
    exact ⟨Nat.le_add_left _ _, Nat.add_lt_add_right hn 0xc0⟩
  unfold next
  dsimp only
  rw [if_neg (lead ha (by decide)), if_pos hlead, tail_ofNat h₁, ha, Nat.add_sub_cancel]
  simp only [Option.pure_def, Option.bind_eq_bind, Option.bind_some, char?_toNat hc (hc ▸ hl)]

theorem next_three (ha : a.toNat = n + 0xe0) (hn : n < 0x10) (h₁ : t₁ < 64) (h₂ : t₂ < 64)
    (hc : (n * 64 + t₁) * 64 + t₂ = c.toNat) (hl : 0x800 ≤ c.toNat) (rest : List UInt8) :
    next (a :: UInt8.ofNat (t₁ + 0x80) :: UInt8.ofNat (t₂ + 0x80) :: rest) = some (c, rest) := by
  have hlead : 0xe0 ≤ a ∧ a < 0xf0 := by
    rw [UInt8.le_iff_toNat_le, UInt8.lt_iff_toNat_lt, ha]
    exact ⟨Nat.le_add_left _ _, Nat.add_lt_add_right hn 0xe0⟩
  have hother : ¬ (0xc0 ≤ a ∧ a < 0xe0) := by
    rw [UInt8.lt_iff_toNat_lt, ha]
    exact fun h => absurd h.2 (Nat.not_lt.mpr (Nat.le_add_left _ _))
  unfold next
  dsimp only
  rw [if_neg (lead ha (by decide)), if_neg hother, if_pos hlead, tail_ofNat h₁, tail_ofNat h₂, ha,
    Nat.add_sub_cancel]
  simp only [Option.pure_def, Option.bind_eq_bind, Option.bind_some, char?_toNat hc (hc ▸ hl)]

theorem next_four (ha : a.toNat = n + 0xf0) (hn : n < 0x8) (h₁ : t₁ < 64) (h₂ : t₂ < 64) (h₃ : t₃ < 64)
    (hc : ((n * 64 + t₁) * 64 + t₂) * 64 + t₃ = c.toNat) (hl : 0x10000 ≤ c.toNat) (rest : List UInt8) :
    next (a :: UInt8.ofNat (t₁ + 0x80) :: UInt8.ofNat (t₂ + 0x80) :: UInt8.ofNat (t₃ + 0x80) :: rest) =
      some (c, rest) := by
  have hlead : 0xf0 ≤ a ∧ a < 0xf8 := by
    rw [UInt8.le_iff_toNat_le, UInt8.lt_iff_toNat_lt, ha]
    exact ⟨Nat.le_add_left _ _, Nat.add_lt_add_right hn 0xf0⟩
  have hother : ¬ (0xc0 ≤ a ∧ a < 0xe0) ∧ ¬ (0xe0 ≤ a ∧ a < 0xf0) := by
    rw [UInt8.lt_iff_toNat_lt, UInt8.lt_iff_toNat_lt, ha]
    exact ⟨fun h => absurd h.2 (Nat.not_lt.mpr (Nat.le_add_left_of_le (by decide))),
      fun h => absurd h.2 (Nat.not_lt.mpr (Nat.le_add_left _ _))⟩
  unfold next
  dsimp only
  rw [if_neg (lead ha (by decide)), if_neg hother.1, if_neg hother.2, if_pos hlead, tail_ofNat h₁,
    tail_ofNat h₂, tail_ofNat h₃, ha, Nat.add_sub_cancel]
  simp only [Option.pure_def, Option.bind_eq_bind, Option.bind_some, char?_toNat hc (hc ▸ hl)]

end Lead

theorem next_encodeChar (c : Char) (rest : List UInt8) : next (String.utf8EncodeChar c ++ rest) = some (c, rest) := by
  have hmod (n : Nat) : n % 0x40 < 64 := Nat.mod_lt n (by decide)
  have hlt : c.toNat < 0x110000 := by
    have hv : c.toNat.isValidChar := c.valid
    unfold Nat.isValidChar at hv
    omega
  have hval : c.val.toNat = c.toNat := rfl
  simp only [String.utf8EncodeChar, hval]
  by_cases h1 : c.toNat ≤ 0x7f
  · rw [if_pos h1]
    exact next_one (Nat.lt_succ_of_le h1) rest
  by_cases h2 : c.toNat ≤ 0x7ff
  · rw [if_neg h1, if_pos h2]
    exact next_two (toNat_ofNat (by omega)) (by omega) (hmod _) (by omega) (by omega) rest
  by_cases h3 : c.toNat ≤ 0xffff
  · rw [if_neg h1, if_neg h2, if_pos h3]
    exact next_three (toNat_ofNat (by omega)) (by omega) (hmod _) (hmod _) (by omega) (by omega) rest
  · rw [if_neg h1, if_neg h2, if_neg h3]
    exact next_four (toNat_ofNat (by omega)) (by omega) (hmod _) (hmod _) (hmod _) (by omega) (by omega) rest

/-! ### Text -/

theorem encodeChar_ne_nil (c : Char) : String.utf8EncodeChar c ≠ [] := by
  intro h
  have := next_encodeChar c []
  rw [h] at this
  cases this

theorem encode_append (s t : String) : encode (s ++ t) = encode s ++ encode t := by
  rw [encode, String.toList_append, List.flatMap_append]
  rfl

theorem encode_join (ss : List String) : encode (String.join ss) = (ss.map encode).flatten := by
  induction ss with
  | nil => rfl
  | cons s ss ih => rw [String.join_cons, encode_append, ih, List.map_cons, List.flatten_cons]

theorem length_le_encode (cs : List Char) : cs.length ≤ (cs.flatMap String.utf8EncodeChar).length := by
  induction cs with
  | nil => exact Nat.le_refl 0
  | cons c cs ih =>
      have := List.length_pos_iff.mpr (encodeChar_ne_nil c)
      rw [List.flatMap_cons, List.length_append, List.length_cons]
      omega

theorem decodeChars_encode (cs : List Char) {fuel : Nat} (h : cs.length ≤ fuel) :
    decodeChars fuel (cs.flatMap String.utf8EncodeChar) = some cs := by
  induction cs generalizing fuel with
  | nil => cases fuel <;> rfl
  | cons c cs ih =>
      have hnext := next_encodeChar c (cs.flatMap String.utf8EncodeChar)
      rw [List.flatMap_cons]
      cases fuel with
      | zero => cases h
      | succ fuel =>
          cases he : String.utf8EncodeChar c with
          | nil => exact absurd he (encodeChar_ne_nil c)
          | cons b bs =>
              rw [he, List.cons_append] at hnext
              rw [List.cons_append, decodeChars, hnext, Option.bind_some, ih (Nat.le_of_succ_le_succ h)]
              · rfl
              · exact nofun

theorem decode_encode (s : String) : decode (encode s) = some s := by
  rw [decode, encode, decodeChars_encode s.toList (length_le_encode _), Option.map_some, String.ofList_toList]

/-! ### ASCII -/

theorem encodeChar_ascii {c : Char} (h : c.toNat < 0x80) : String.utf8EncodeChar c = [c.toNat.toUInt8] :=
  if_pos (Nat.le_of_lt_succ h)

theorem encode_ascii {cs : List Char} (h : ∀ c ∈ cs, c.toNat < 0x80) :
    encode (String.ofList cs) = cs.map (fun c => c.toNat.toUInt8) := by
  rw [encode, String.toList_ofList]
  induction cs with
  | nil => rfl
  | cons c cs ih =>
      rw [List.flatMap_cons, encodeChar_ascii (h c (by simp)), ih (fun d hd => h d (by simp [hd]))]
      rfl

theorem high_of_add {n low : Nat} (h : n + low < 256) (hlow : 0x80 ≤ low) : ¬ UInt8.ofNat (n + low) < 0x80 := by
  rw [UInt8.lt_iff_toNat_lt, toNat_ofNat h]
  exact Nat.not_lt.mpr (Nat.le_add_left_of_le hlow)

/-- An ASCII byte stands for its own character only. -/
theorem mem_encodeChar_ascii {c : Char} {b : UInt8} (hb : b < 0x80) (h : b ∈ String.utf8EncodeChar c) :
    b.toNat = c.toNat := by
  have hval : c.val.toNat = c.toNat := rfl
  by_cases h1 : c.toNat < 0x80
  · rw [encodeChar_ascii h1] at h
    have hb : b = c.toNat.toUInt8 := List.mem_singleton.mp h
    rw [hb]
    exact toNat_ofNat (Nat.lt_trans h1 (by decide))
  exfalso
  have hout {n low : Nat} (hn : n + low < 256) (hlow : 0x80 ≤ low) : b ≠ UInt8.ofNat (n + low) := by
    rintro rfl
    exact high_of_add hn hlow hb
  have hmod (n : Nat) : n % 0x40 + 0x80 < 256 := by omega
  simp only [String.utf8EncodeChar, hval, if_neg (show ¬ c.toNat ≤ 0x7f by omega)] at h
  split at h
  · rcases List.mem_pair.mp h with h | h
    · exact hout (by omega) (by decide) h
    · exact hout (hmod _) (by decide) h
  split at h
  · simp only [List.mem_cons, List.not_mem_nil, or_false] at h
    rcases h with h | h | h
    · exact hout (by omega) (by decide) h
    · exact hout (hmod _) (by decide) h
    · exact hout (hmod _) (by decide) h
  · simp only [List.mem_cons, List.not_mem_nil, or_false] at h
    rcases h with h | h | h | h
    · exact hout (by omega) (by decide) h
    · exact hout (hmod _) (by decide) h
    · exact hout (hmod _) (by decide) h
    · exact hout (hmod _) (by decide) h

theorem mem_encode_ascii {s : String} {b : UInt8} (hb : b < 0x80) (h : b ∈ encode s) :
    ∃ c ∈ s.toList, b.toNat = c.toNat := by
  obtain ⟨c, hc, hmem⟩ := List.mem_flatMap.mp h
  exact ⟨c, hc, mem_encodeChar_ascii hb hmem⟩

end Utf8
