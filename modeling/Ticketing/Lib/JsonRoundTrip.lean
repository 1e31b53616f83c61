import Ticketing.Lib.Json
import Mathlib.Data.List.Chain
import Mathlib.Tactic.IntervalCases

namespace JsonText

def IsSurrogate (c : CodePoint) : Prop := 0xd800 ≤ c.val ∧ c.val ≤ 0xdfff

def Str.Scalar (s : Str) : Prop := ∀ c ∈ s, ¬ IsSurrogate c

@[simp] theorem ofChar_val (c : Char) : (CodePoint.ofChar c).val = c.toNat := rfl

@[simp] theorem toChar?_ofChar (c : Char) : (CodePoint.ofChar c).toChar? = some c := by
  have hv : (CodePoint.ofChar c).val.isValidChar := c.valid
  rw [CodePoint.toChar?, dif_pos hv]
  exact congrArg some (Char.ext (UInt32.toNat_inj.mp rfl))

theorem mapM_ofChar (cs : List Char) : cs.mapM (CodePoint.toChar? ∘ CodePoint.ofChar) = some cs := by
  induction cs with
  | nil => rfl
  | cons c cs ih => simp [ih]

@[simp] theorem toString?_ofString (s : String) : (Str.ofString s).toString? = some s := by
  simp [Str.toString?, Str.ofString, mapM_ofChar]

theorem toChar?_eq_some {c : CodePoint} {d : Char} (h : c.toChar? = some d) : c = CodePoint.ofChar d := by
  obtain ⟨_, hd⟩ := Option.dite_none_right_eq_some.mp h
  cases hd
  exact Fin.ext rfl

theorem mapM_toChar? {s : Str} {cs : List Char} (h : s.mapM CodePoint.toChar? = some cs) :
    s = cs.map CodePoint.ofChar := by
  induction s generalizing cs with
  | nil => cases h; rfl
  | cons c s ih =>
      simp only [List.mapM_cons, Option.bind_eq_bind, Option.bind_eq_some_iff, Option.pure_def, Option.some.injEq] at h
      obtain ⟨d, hd, ds, hds, rfl⟩ := h
      rw [List.map_cons, toChar?_eq_some hd, ih hds]

theorem toString?_eq_some {s : Str} {t : String} : s.toString? = some t ↔ s = Str.ofString t := by
  constructor
  · intro h
    obtain ⟨cs, hcs, rfl⟩ := Option.map_eq_some_iff.mp h
    rw [Str.ofString, String.toList_ofList]
    exact mapM_toChar? hcs
  · rintro rfl
    exact toString?_ofString t

theorem ofString_injective : Function.Injective Str.ofString := by
  intro s t h
  have he := congrArg Str.toString? h
  simpa using he

@[simp] theorem ofString_inj {s t : String} : Str.ofString s = Str.ofString t ↔ s = t :=
  ofString_injective.eq_iff

theorem ofChar_not_surrogate (c : Char) : ¬ IsSurrogate (CodePoint.ofChar c) := by
  intro hs
  have hv : c.toNat.isValidChar := c.valid
  simp only [IsSurrogate, ofChar_val, Nat.isValidChar] at hs hv
  omega

theorem ofString_scalar (s : String) : (Str.ofString s).Scalar := by
  intro c hc
  obtain ⟨d, _, rfl⟩ := List.mem_map.mp hc
  exact ofChar_not_surrogate d

/-! ### Strings -/

theorem hexDigit_digitChar {d : Nat} (hd : d < 16) : hexDigit (Nat.digitChar d) = some d := by
  interval_cases d <;> rfl

theorem readHex_hexUnit {n : Nat} (hn : n < 0x10000) :
    readHex (Nat.digitChar (n / 4096 % 16)) (Nat.digitChar (n / 256 % 16))
      (Nat.digitChar (n / 16 % 16)) (Nat.digitChar (n % 16)) = some n := by
  simp only [readHex, hexDigit_digitChar (Nat.mod_lt _ (by decide : 0 < 16)), Option.pure_def,
    Option.bind_eq_bind, Option.bind_some, Option.some.injEq]
  omega

theorem readStr_hexUnit {n : Nat} (hn : n < 0x10000) (cs : List Char) :
    readStr (hexUnit n ++ cs) = (readStr cs).map (fun p => (joinUnit n p.1, p.2)) := by
  simp [hexUnit, readStr, readHex_hexUnit hn]

theorem codePoint_ofNat {n : Nat} (hn : n < 0x110000) : (CodePoint.ofNat n).val = n := by
  simp [CodePoint.ofNat, hn]

theorem joinUnit_low {n : Nat} (hn : ¬ IsHigh n) (s : Str) : joinUnit n s = CodePoint.ofNat n :: s := by
  cases s <;> simp [joinUnit, hn]

theorem joinUnit_pair (c : CodePoint) (hc : 0x10000 ≤ c.val) (s : Str) :
    joinUnit (0xd800 + (c.val - 0x10000) / 0x400)
      (joinUnit (0xdc00 + (c.val - 0x10000) % 0x400) s) = c :: s := by
  have hlt := c.isLt
  have hlow : ¬ IsHigh (0xdc00 + (c.val - 0x10000) % 0x400) := by simp only [IsHigh]; omega
  have hval : (CodePoint.ofNat (0xdc00 + (c.val - 0x10000) % 0x400)).val =
      0xdc00 + (c.val - 0x10000) % 0x400 := codePoint_ofNat (by omega)
  rw [joinUnit_low hlow, joinUnit, hval, if_pos]
  · refine congrArg (· :: s) (Fin.ext ?_)
    rw [codePoint_ofNat] <;> omega
  · simp only [IsHigh, IsLow]; omega

theorem escape_cases {P : List Char → Prop} (c : CodePoint)
    (short : ∀ e, escapeCode e = some c.val → e ≠ 'u' → P ['\\', e])
    (plain : 0x20 ≤ c.val → c.val ≤ 0x7e → c.val ≠ 0x22 → c.val ≠ 0x5c → P [Char.ofNat c.val])
    (unit : c.val < 0x10000 → P (hexUnit c.val))
    (pair : 0x10000 ≤ c.val → P (hexUnit (0xd800 + (c.val - 0x10000) / 0x400) ++
      hexUnit (0xdc00 + (c.val - 0x10000) % 0x400))) : P (escape c) := by
  have hshort (e : Char) (n : Nat) (hc : c.val = n) (he : escapeCode e = some n) (hu : e ≠ 'u') :
      P ['\\', e] := short e (by rw [he, hc]) hu
  unfold escape
  split
  next h => exact hshort '"' _ h rfl (by decide)
  split
  next h => exact hshort '\\' _ h rfl (by decide)
  split
  next h => exact hshort 'n' _ h rfl (by decide)
  split
  next h => exact hshort 'r' _ h rfl (by decide)
  split
  next h => exact hshort 't' _ h rfl (by decide)
  split
  next h => exact hshort 'f' _ h rfl (by decide)
  split
  next h => exact hshort 'b' _ h rfl (by decide)
  split
  next h => exact plain h.1 h.2 ‹_› ‹_›
  split
  next h => exact unit h
  next h => exact pair (by omega)

theorem escapeCode_low {e : Char} {n : Nat} (he : escapeCode e = some n) : ¬ IsHigh n := by
  unfold escapeCode at he
  split at he <;> cases he <;> decide

theorem readStr_short {e : Char} {n : Nat} (he : escapeCode e = some n) (hu : e ≠ 'u') (cs : List Char) :
    readStr ('\\' :: e :: cs) = (readStr cs).map (fun p => (CodePoint.ofNat n :: p.1, p.2)) := by
  rw [readStr]
  · rw [he, Option.bind_some]
  · intro _ _ _ _ _ h _
    exact hu h

theorem readStr_plain {c : Char} (hq : c ≠ '"') (hb : c ≠ '\\') (hc : 0x20 ≤ c.toNat) (cs : List Char) :
    readStr (c :: cs) = (readStr cs).map (fun p => (CodePoint.ofChar c :: p.1, p.2)) := by
  rw [readStr] <;> simp_all [Nat.not_lt.mpr hc]

/-- No high surrogate stands before a low one. -/
def Str.Joined (s : Str) : Prop := s.IsChain (fun a b => ¬ (IsHigh a.val ∧ IsLow b.val))

theorem Str.Scalar.joined {s : Str} (hs : s.Scalar) : s.Joined := by
  induction s with
  | nil => exact .nil
  | cons c s ih =>
      have hc := hs c List.mem_cons_self
      refine List.isChain_cons.mpr ⟨fun d _ hd => hc ?_, ih fun d hd => hs d (List.mem_cons_of_mem _ hd)⟩
      have := hd.1
      simp only [IsHigh, IsSurrogate] at this ⊢
      omega

theorem ofString_joined (s : String) : (Str.ofString s).Joined := (ofString_scalar s).joined

theorem joinUnit_joined {c : CodePoint} {s : Str} (h : Str.Joined (c :: s)) : joinUnit c.val s = c :: s := by
  have hval : CodePoint.ofNat c.val = c := Fin.ext (codePoint_ofNat c.isLt)
  cases s with
  | nil => rw [joinUnit, hval]
  | cons d s => rw [joinUnit, if_neg ((List.isChain_cons_cons.mp h).1), hval]

theorem readStr_escape (c : CodePoint) (cs : List Char) :
    readStr (escape c ++ cs) = (readStr cs).map (fun p => (joinUnit c.val p.1, p.2)) := by
  have hval : CodePoint.ofNat c.val = c := Fin.ext (codePoint_ofNat c.isLt)
  have hlow (h : ¬ IsHigh c.val) (s : Str) : joinUnit c.val s = c :: s := (joinUnit_low h s).trans (by rw [hval])
  refine escape_cases (P := fun x => readStr (x ++ cs) = _) c ?_ ?_ ?_ ?_
  · intro e he hu
    have hh : ¬ IsHigh c.val := escapeCode_low he
    simp only [List.cons_append, List.nil_append, readStr_short he hu, hlow hh, hval]
  · intro hlo hhi hq hb
    have hv : c.val.isValidChar := by left; omega
    have hn : (Char.ofNat c.val).toNat = c.val := congrArg Char.toNat (dif_pos hv)
    have hh : ¬ IsHigh c.val := by simp only [IsHigh]; omega
    rw [List.cons_append, List.nil_append, readStr_plain]
    · have he : CodePoint.ofChar (Char.ofNat c.val) = c := Fin.ext hn
      simp only [he, hlow hh]
    · intro h; rw [h] at hn; exact hq hn.symm
    · intro h; rw [h] at hn; exact hb hn.symm
    · omega
  · intro h
    rw [readStr_hexUnit h]
  · intro h
    have hlt := c.isLt
    have hh : ¬ IsHigh c.val := by simp only [IsHigh]; omega
    rw [List.append_assoc, readStr_hexUnit (by omega), readStr_hexUnit (by omega), Option.map_map]
    simp only [Function.comp_def, joinUnit_pair c h, hlow hh]

theorem readStr_write {s : Str} (hs : s.Joined) (rest : List Char) :
    readStr (s.flatMap escape ++ '"' :: rest) = some (s, rest) := by
  induction s with
  | nil => simp [readStr]
  | cons c s ih =>
      rw [List.flatMap_cons, List.append_assoc, readStr_escape, ih (List.isChain_cons.mp hs).2, Option.map_some,
        joinUnit_joined hs]

theorem not_high_ofNat {n : Nat} (hn : ¬ IsHigh n) : ¬ IsHigh (CodePoint.ofNat n).val := by
  unfold CodePoint.ofNat
  split
  · exact hn
  · decide

theorem joined_cons {c : CodePoint} {s : Str} (hc : ¬ IsHigh c.val) (hs : s.Joined) : Str.Joined (c :: s) :=
  List.isChain_cons.mpr ⟨fun _ _ h => hc h.1, hs⟩

theorem joined_joinUnit {u : Nat} {s : Str} (hs : s.Joined) : (joinUnit u s).Joined := by
  cases s with
  | nil => exact List.isChain_singleton _
  | cons lo s =>
      rw [joinUnit]
      split
      next h =>
        refine joined_cons (not_high_ofNat ?_) (List.isChain_cons.mp hs).2
        simp only [IsHigh, IsLow] at h ⊢
        omega
      next h =>
        by_cases hu : IsHigh u
        · have hval : (CodePoint.ofNat u).val = u := codePoint_ofNat (by simp only [IsHigh] at hu; omega)
          exact List.isChain_cons_cons.mpr ⟨by rwa [hval], hs⟩
        · exact joined_cons (not_high_ofNat hu) hs

/-- What is read as a string has no pair of surrogates left in it. -/
theorem readStr_joined {cs : List Char} {s : Str} {rest : List Char} (h : readStr cs = some (s, rest)) : s.Joined := by
  induction cs using readStr.induct generalizing s rest with
  | case1 => cases h
  | case2 => cases h; exact .nil
  | case3 a b c d cs ih =>
      rw [readStr] at h
      obtain ⟨u, _, h⟩ := Option.bind_eq_some_iff.mp h
      obtain ⟨p, hp, h⟩ := Option.map_eq_some_iff.mp h
      cases h
      exact joined_joinUnit (ih hp)
  | case4 e cs hne ih =>
      rw [readStr] at h
      · obtain ⟨n, hn, h⟩ := Option.bind_eq_some_iff.mp h
        obtain ⟨p, hp, h⟩ := Option.map_eq_some_iff.mp h
        cases h
        exact joined_cons (not_high_ofNat (escapeCode_low hn)) (ih hp)
      · exact hne
  | case5 c cs hq hu hb hc =>
      rw [readStr, if_pos hc] at h
      · cases h
      all_goals assumption
  | case6 c cs hq hu hb hc ih =>
      rw [readStr, if_neg hc] at h
      · obtain ⟨p, hp, h⟩ := Option.map_eq_some_iff.mp h
        cases h
        refine joined_cons (fun hh => ofChar_not_surrogate c ?_) (ih hp)
        simp only [IsHigh, IsSurrogate] at hh ⊢
        omega
      all_goals assumption

/-! ### Values -/

mutual

/-- Values without numbers, all of whose text is made of scalar values. -/
def Numberless : Value → Prop
  | .null | .bool _ => True
  | .number _ => False
  | .str s => s.Scalar
  | .array items => NumberlessItems items
  | .object members => NumberlessMembers members

def NumberlessItems : List Value → Prop
  | [] => True
  | v :: vs => Numberless v ∧ NumberlessItems vs

def NumberlessMembers : List (Str × Value) → Prop
  | [] => True
  | (k, v) :: ms => k.Scalar ∧ Numberless v ∧ NumberlessMembers ms

end

mutual

/-- Values without numbers, in whose text no pair of surrogates is left. -/
def Legible : Value → Prop
  | .null | .bool _ => True
  | .number _ => False
  | .str s => s.Joined
  | .array items => LegibleItems items
  | .object members => LegibleMembers members

def LegibleItems : List Value → Prop
  | [] => True
  | v :: vs => Legible v ∧ LegibleItems vs

def LegibleMembers : List (Str × Value) → Prop
  | [] => True
  | (k, v) :: ms => k.Joined ∧ Legible v ∧ LegibleMembers ms

end

mutual

theorem Numberless.legible : ∀ {v : Value}, Numberless v → Legible v
  | .null, _ | .bool _, _ => trivial
  | .number _, h => h
  | .str _, h => Str.Scalar.joined h
  | .array _, h => NumberlessItems.legible h
  | .object _, h => NumberlessMembers.legible h

theorem NumberlessItems.legible : ∀ {vs : List Value}, NumberlessItems vs → LegibleItems vs
  | [], _ => trivial
  | _ :: _, h => ⟨Numberless.legible h.1, NumberlessItems.legible h.2⟩

theorem NumberlessMembers.legible : ∀ {ms : List (Str × Value)}, NumberlessMembers ms → LegibleMembers ms
  | [], _ => trivial
  | (_, _) :: _, h => ⟨Str.Scalar.joined h.1, Numberless.legible h.2.1, NumberlessMembers.legible h.2.2⟩

end

theorem skipSpace_cons {c : Char} (hc : isSpace c = false) (cs : List Char) :
    skipSpace (c :: cs) = c :: cs := by
  simp [skipSpace, hc]

theorem write_head {v : Value} (hv : Legible v) :
    ∃ c cs, write v = c :: cs ∧ isSpace c = false ∧ c ≠ ']' := by
  cases v with
  | null => exact ⟨'n', _, by rw [write], by decide, by decide⟩
  | bool b => cases b
              · exact ⟨'f', _, by rw [write], by decide, by decide⟩
              · exact ⟨'t', _, by rw [write], by decide, by decide⟩
  | number l => exact absurd hv (by simp [Legible])
  | str s => exact ⟨'"', _, by rw [write, writeStr]; rfl, by decide, by decide⟩
  | array items => exact ⟨'[', _, by rw [write]; rfl, by decide, by decide⟩
  | object members => exact ⟨'{', _, by rw [write]; rfl, by decide, by decide⟩

theorem joinWith_cons (sep : Char) (x : List Char) (xs : List (List Char)) (hxs : xs ≠ []) :
    joinWith sep (x :: xs) = x ++ sep :: joinWith sep xs := by
  cases xs with
  | nil => exact absurd rfl hxs
  | cons y ys => rfl

theorem writeItems_ne_nil {v : Value} {vs : List Value} : writeItems (v :: vs) ≠ [] := by
  simp [writeItems]

theorem writeMembers_ne_nil {m : Str × Value} {ms : List (Str × Value)} :
    writeMembers (m :: ms) ≠ [] := by
  simp [writeMembers]

theorem joinWith_items_head {v : Value} (vs : List Value) (hv : Legible v) (rest : List Char) :
    ∃ c cs, joinWith ',' (writeItems (v :: vs)) ++ rest = c :: cs ∧ isSpace c = false ∧ c ≠ ']' := by
  obtain ⟨c, cs, hw, hs, hb⟩ := write_head hv
  cases vs with
  | nil => exact ⟨c, cs ++ rest, by simp [writeItems, joinWith, hw], hs, hb⟩
  | cons v' vs =>
      refine ⟨c, cs ++ ',' :: joinWith ',' (writeItems (v' :: vs)) ++ rest, ?_, hs, hb⟩
      rw [writeItems, joinWith_cons _ _ _ writeItems_ne_nil, hw]
      simp

theorem joinWith_members_head (m : Str × Value) (ms : List (Str × Value)) (rest : List Char) :
    ∃ cs, joinWith ',' (writeMembers (m :: ms)) ++ rest = '"' :: cs := by
  obtain ⟨k, v⟩ := m
  have hw : ∃ cs, joinWith ',' (writeMembers ((k, v) :: ms)) = '"' :: cs := by
    cases ms with
    | nil => exact ⟨_, by simp only [writeMembers, joinWith, writeStr, List.cons_append]; rfl⟩
    | cons m' ms =>
        rw [writeMembers, joinWith_cons _ _ _ writeMembers_ne_nil]
        exact ⟨_, by simp only [writeStr, List.cons_append]; rfl⟩
  obtain ⟨cs, hw⟩ := hw
  exact ⟨cs ++ rest, by rw [hw, List.cons_append]⟩

theorem readValue_array (fuel : Nat) {c : Char} {cs : List Char} (hs : isSpace c = false) (hb : c ≠ ']') :
    readValue (fuel + 1) ('[' :: c :: cs) =
      (readItems fuel (c :: cs)).map (fun p => (.array p.1, p.2)) := by
  simp only [readValue, skipSpace_cons hs]
  split
  next h => simp only [List.cons.injEq] at h; exact absurd h.1 hb
  next => rfl

theorem readValue_object (fuel : Nat) (cs : List Char) :
    readValue (fuel + 1) ('{' :: '"' :: cs) =
      (readMembers fuel ('"' :: cs)).map (fun p => (.object p.1, p.2)) := by
  simp only [readValue, skipSpace_cons (show isSpace '"' = false by decide)]
  rfl

theorem readMembers_colon (fuel : Nat) {k : Str} (hk : k.Joined) (cs : List Char) :
    readMembers (fuel + 1) (writeStr k ++ ':' :: cs) =
      (readValue fuel (skipSpace cs)).bind (fun p => match skipSpace p.2 with
        | '}' :: rest => some ([(k, p.1)], rest)
        | ',' :: rest => (readMembers fuel (skipSpace rest)).map (fun q => ((k, p.1) :: q.1, q.2))
        | _ => none) := by
  have hkey : writeStr k ++ ':' :: cs = '"' :: (k.flatMap escape ++ '"' :: ':' :: cs) := by simp [writeStr]
  rw [hkey, readMembers, readStr_write hk]
  rfl

theorem skipSpace_write {v : Value} (hv : Legible v) (rest : List Char) :
    skipSpace (write v ++ rest) = write v ++ rest := by
  obtain ⟨c, cs, hw, hs, _⟩ := write_head hv
  rw [hw, List.cons_append, skipSpace_cons hs]

mutual

theorem readValue_write (v : Value) (hv : Legible v) (fuel : Nat) (hf : (write v).length ≤ fuel)
    (rest : List Char) : readValue fuel (write v ++ rest) = some (v, rest) := by
  obtain ⟨c, cs, hw, _, _⟩ := write_head hv
  cases fuel with
  | zero => simp [hw] at hf
  | succ fuel =>
      cases v with
      | null => simp [write, readValue]
      | bool b => cases b <;> simp [write, readValue]
      | number l => exact absurd hv (by simp [Legible])
      | str s =>
          have hs : s.Joined := by simpa [Legible] using hv
          simp [write, writeStr, readValue, readStr_write hs]
      | array items =>
          cases items with
          | nil =>
              have hsp : isSpace ']' = false := by decide
              simp [write, writeItems, joinWith, readValue, skipSpace_cons hsp]
          | cons v vs =>
              have hi : LegibleItems (v :: vs) := by simpa [Legible] using hv
              have hr := readItems_write v vs hi fuel (by simp [write] at hf; omega) rest
              obtain ⟨c, cs, hc, hs, hb⟩ := joinWith_items_head vs
                (by simpa [LegibleItems] using hi.1) (']' :: rest)
              simp only [write, List.cons_append, List.append_assoc, List.nil_append]
              rw [hc] at hr ⊢
              rw [readValue_array fuel hs hb, hr]
              rfl
      | object members =>
          cases members with
          | nil =>
              have hsp : isSpace '}' = false := by decide
              simp [write, writeMembers, joinWith, readValue, skipSpace_cons hsp]
          | cons m ms =>
              have hi : LegibleMembers (m :: ms) := by simpa [Legible] using hv
              have hr := readMembers_write m ms hi fuel (by simp [write] at hf; omega) rest
              obtain ⟨cs, hc⟩ := joinWith_members_head m ms ('}' :: rest)
              simp only [write, List.cons_append, List.append_assoc, List.nil_append]
              rw [hc] at hr ⊢
              rw [readValue_object, hr]
              rfl
termination_by fuel

theorem readItems_write (v : Value) (vs : List Value) (hv : LegibleItems (v :: vs)) (fuel : Nat)
    (hf : (joinWith ',' (writeItems (v :: vs))).length + 1 ≤ fuel) (rest : List Char) :
    readItems fuel (joinWith ',' (writeItems (v :: vs)) ++ ']' :: rest) = some (v :: vs, rest) := by
  have hv' : Legible v ∧ LegibleItems vs := by simpa [LegibleItems] using hv
  cases fuel with
  | zero => omega
  | succ fuel =>
      cases vs with
      | nil =>
          have hr := readValue_write v hv'.1 fuel (by simpa [writeItems, joinWith] using hf) (']' :: rest)
          have hsp : isSpace ']' = false := by decide
          simp [writeItems, joinWith, readItems, hr, skipSpace_cons hsp]
      | cons v' vs =>
          rw [writeItems, joinWith_cons _ _ _ writeItems_ne_nil] at hf ⊢
          simp only [List.length_append, List.length_cons] at hf
          have hr := readValue_write v hv'.1 fuel (by omega)
            (',' :: (joinWith ',' (writeItems (v' :: vs)) ++ ']' :: rest))
          have hi := readItems_write v' vs hv'.2 fuel (by omega) rest
          obtain ⟨c, cs, hc, hs, _⟩ := joinWith_items_head vs
            (by simpa [LegibleItems] using hv'.2.1) (']' :: rest)
          have hsp : isSpace ',' = false := by decide
          rw [hc] at hr hi
          simp only [List.append_assoc, List.cons_append, hc, readItems, hr, Option.bind_some,
            skipSpace_cons hsp, skipSpace_cons hs, hi, Option.map_some]
termination_by fuel

theorem readMembers_write (m : Str × Value) (ms : List (Str × Value)) (hm : LegibleMembers (m :: ms))
    (fuel : Nat) (hf : (joinWith ',' (writeMembers (m :: ms))).length + 1 ≤ fuel) (rest : List Char) :
    readMembers fuel (joinWith ',' (writeMembers (m :: ms)) ++ '}' :: rest) = some (m :: ms, rest) := by
  obtain ⟨k, v⟩ := m
  have hm' : k.Joined ∧ Legible v ∧ LegibleMembers ms := by simpa [LegibleMembers] using hm
  cases fuel with
  | zero => omega
  | succ fuel =>
      cases ms with
      | nil =>
          simp only [writeMembers, joinWith, List.length_append, List.length_cons] at hf
          have hr := readValue_write v hm'.2.1 fuel (by omega) ('}' :: rest)
          have hsp : isSpace '}' = false := by decide
          simp only [writeMembers, joinWith, List.append_assoc, List.cons_append,
            readMembers_colon fuel hm'.1, skipSpace_write hm'.2.1, hr, Option.bind_some, skipSpace_cons hsp]
      | cons m' ms =>
          rw [writeMembers, joinWith_cons _ _ _ writeMembers_ne_nil] at hf ⊢
          simp only [List.length_append, List.length_cons] at hf
          have hr := readValue_write v hm'.2.1 fuel (by omega)
            (',' :: (joinWith ',' (writeMembers (m' :: ms)) ++ '}' :: rest))
          have hi := readMembers_write m' ms hm'.2.2 fuel (by omega) rest
          obtain ⟨cs, hc⟩ := joinWith_members_head m' ms ('}' :: rest)
          have hsp : isSpace ',' = false := by decide
          have hsq : isSpace '"' = false := by decide
          rw [hc] at hr hi
          simp only [List.append_assoc, List.cons_append, hc, readMembers_colon fuel hm'.1,
            skipSpace_write hm'.2.1, hr, Option.bind_some, skipSpace_cons hsp, skipSpace_cons hsq, hi,
            Option.map_some]
termination_by fuel

end

/-! ### Strings that have been read -/

def Value.TextJoined : Value → Prop
  | .str s => s.Joined
  | .array items => ∀ s, .str s ∈ items → s.Joined
  | _ => True

theorem readNumber_joined {cs rest : List Char} {v : Value} (h : readNumber cs = some (v, rest)) : v.TextJoined := by
  simp only [readNumber, Option.ite_none_left_eq_some, Option.some.injEq, Prod.mk.injEq] at h
  obtain ⟨_, _, rfl, _⟩ := h
  trivial

mutual

theorem readValue_joined {fuel : Nat} {cs rest : List Char} {v : Value} (h : readValue fuel cs = some (v, rest)) :
    v.TextJoined := by
  cases fuel with
  | zero => cases h
  | succ fuel =>
      unfold readValue at h
      split at h
      case h_1 =>
        obtain ⟨p, hp, h⟩ := Option.map_eq_some_iff.mp h
        cases h
        exact readStr_joined hp
      case h_2 =>
        split at h
        · cases h
          exact fun s hs => absurd hs List.not_mem_nil
        · obtain ⟨p, hp, h⟩ := Option.map_eq_some_iff.mp h
          cases h
          exact fun s hs => readItems_joined hp hs
      case h_3 =>
        split at h
        · cases h
          trivial
        · obtain ⟨p, _, h⟩ := Option.map_eq_some_iff.mp h
          cases h
          trivial
      case h_10 => exact readNumber_joined h
      all_goals
        cases h
        trivial

theorem readItems_joined {fuel : Nat} {cs rest : List Char} {items : List Value}
    (h : readItems fuel cs = some (items, rest)) {s : Str} (hs : .str s ∈ items) : s.Joined := by
  cases fuel with
  | zero => cases h
  | succ fuel =>
      rw [readItems] at h
      obtain ⟨p, hp, h⟩ := Option.bind_eq_some_iff.mp h
      have hfirst := readValue_joined hp
      split at h
      · cases h
        rw [List.mem_singleton] at hs
        rw [← hs] at hfirst
        exact hfirst
      · obtain ⟨q, hq, h⟩ := Option.map_eq_some_iff.mp h
        cases h
        rcases List.mem_cons.mp hs with hs | hs
        · rw [← hs] at hfirst
          exact hfirst
        · exact readItems_joined hq hs
      · cases h

end

theorem loads_joined {text : String} {v : Value} (h : loads text = some v) : v.TextJoined := by
  obtain ⟨p, hp, h⟩ := Option.bind_eq_some_iff.mp h
  split at h
  · cases h
    exact readValue_joined hp
  · cases h

theorem loads_legible {v : Value} (hv : Legible v) : loads (dumps v) = some v := by
  have hr := readValue_write v hv ((write v).length + 1) (by omega) []
  have hs := skipSpace_write hv []
  simp only [List.append_nil] at hr hs
  rw [loads, dumps, String.toList_ofList, hs, hr, Option.bind_some]
  exact if_pos (by rfl)

/-- Reading undoes writing, on values without numbers and lone surrogates. -/
theorem loads_dumps {v : Value} (hv : Numberless v) : loads (dumps v) = some v := loads_legible hv.legible

end JsonText
