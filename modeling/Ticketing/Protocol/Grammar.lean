import Ticketing.Protocol.RespParser

namespace Ticketing.Protocol

open Parsing Python AppServer

/-- Parse exactly one RESP command into a token list. -/
def parseResp (message : List UInt8) : Except RespError (List String) :=
  match parseRespFrame message with
  | .error e => .error e
  | .ok (command, rest) =>
    if rest ≠ [] then .error (.malformed "unexpected trailing data after RESP request") else .ok command

/-! ### The grammar of a request -/

/-- A byte length, CRLF, so many bytes of text, CRLF. -/
inductive BulkString (number : List UInt8 → Nat → Prop) : List UInt8 → String → Prop
  | mk {length bytes token} (hlength : number length bytes.length) (htoken : Utf8.decode bytes = some token) :
      BulkString number (byteOf '$' :: (length ++ [cr, lf] ++ (bytes ++ [cr, lf]))) token

/-- The number of tokens, CRLF, the tokens. -/
inductive Frame (number : List UInt8 → Nat → Prop) : List UInt8 → List String → Prop
  | mk {count parts tokens} (hcount : number count tokens.length)
      (hparts : List.Forall₂ (BulkString number) parts tokens) :
      Frame number (byteOf '*' :: (count ++ [cr, lf] ++ parts.flatten)) tokens

/-- ASCII digits and nothing else. -/
def RunOfDigits (l : List UInt8) (n : Nat) : Prop :=
  ∃ ds, l ≠ [] ∧ List.Forall₂ (fun b d => byteAlphabet.digit b = some d) l ds ∧ Decimal.value ds = n

/-- What `int` makes of the line before the first CRLF. -/
def IntLiteral (l : List UInt8) (n : Nat) : Prop :=
  ¬ [cr, lf] <:+: l ∧ Decimal.Literal byteAlphabet maxStrDigits l n

/-! ### Pieces -/

section Pieces

variable {ε : Type}

theorem marker_parses (b : UInt8) (missing other : ε) : Parses (marker b missing other) (fun frame _ => frame = [b]) := by
  intro bs u rest
  constructor
  · intro h
    cases bs with
    | nil => cases h
    | cons c bs =>
        unfold marker at h
        dsimp only at h
        split at h
        next hc => cases h; exact ⟨[b], by rw [hc, List.singleton_append], rfl⟩
        next => cases h
  · rintro ⟨_, rfl, rfl⟩
    exact marker_reads b missing other rest

theorem splitLine_iff {bs l rest : List UInt8} :
    splitLine bs = some (l, rest) ↔ bs = l ++ [cr, lf] ++ rest ∧ ¬ [cr, lf] <:+: l := by
  induction bs generalizing l with
  | nil => simp [splitLine]
  | cons b bs ih =>
      rw [splitLine]
      by_cases hb : b = cr ∧ bs.head? = some lf
      · obtain ⟨rfl, hhead⟩ := hb
        cases bs with
        | nil => cases hhead
        | cons c bs =>
            cases hhead
            rw [if_pos ⟨rfl, rfl⟩]
            constructor
            · intro h
              cases h
              exact ⟨rfl, by simp⟩
            · rintro ⟨heq, hno⟩
              rcases l with _ | ⟨x, _ | ⟨y, l⟩⟩
              · cases heq
                rfl
              · cases heq
              · cases heq
                exact absurd ⟨[], l, rfl⟩ hno
      · rw [if_neg hb, Option.map_eq_some_iff]
        constructor
        · rintro ⟨⟨l', rest'⟩, hs, heq⟩
          cases heq
          obtain ⟨rfl, hno⟩ := ih.mp hs
          refine ⟨rfl, fun hin => ?_⟩
          rcases List.infix_cons_iff.mp hin with ⟨more, hpre⟩ | hin
          · cases l' with
            | nil => cases hpre
            | cons c l' =>
                cases hpre
                exact hb ⟨rfl, rfl⟩
          · exact hno hin
        · rintro ⟨heq, hno⟩
          cases l with
          | nil =>
              cases heq
              exact absurd ⟨rfl, rfl⟩ hb
          | cons x l =>
              obtain ⟨rfl, rfl⟩ := List.cons.inj heq
              exact ⟨(l, rest), ih.mpr ⟨rfl, fun hin => hno (List.infix_cons hin)⟩, rfl⟩

theorem line_parses (incomplete : ε) :
    Parses (line incomplete) (fun frame l => frame = l ++ [cr, lf] ∧ ¬ [cr, lf] <:+: l) := by
  intro bs l rest
  have hsplit : line incomplete bs = .ok (l, rest) ↔ splitLine bs = some (l, rest) := by
    unfold line
    cases splitLine bs with
    | none => simp
    | some p => simp
  rw [hsplit, splitLine_iff]
  constructor
  · rintro ⟨hbs, hno⟩
    exact ⟨l ++ [cr, lf], hbs, rfl, hno⟩
  · rintro ⟨_, hbs, rfl, hno⟩
    exact ⟨hbs, hno⟩

theorem payload_parses (length : Nat) (incomplete unended : ε) : Parses (payload length incomplete unended)
    (fun frame bytes => bytes.length = length ∧ frame = bytes ++ [cr, lf]) := by
  intro bs bytes rest
  constructor
  · intro h
    unfold payload at h
    split at h
    next => cases h
    next hlen =>
      split at h
      next => cases h
      next hend =>
        cases h
        refine ⟨bs.take length ++ [cr, lf], ?_, List.length_take_of_le (by omega), rfl⟩
        rw [← not_not.mp hend, List.append_assoc, ← List.drop_drop, List.take_append_drop, List.take_append_drop]
  · rintro ⟨_, rfl, rfl, rfl⟩
    exact payload_reads incomplete unended bytes rest

end Pieces

theorem parseIntBytes_iff {l : List UInt8} {n : Int} :
    parseIntBytes l = some n ↔ Decimal.Literal byteAlphabet maxStrDigits l n :=
  Decimal.readInt_iff byteAlphabet_spells rfl rfl

/-! ### What is accepted -/

/-- A line that stands for a number which is not negative. -/
theorem number_parses {α : Type} {p : Nat → Parser UInt8 RespError α} {R : Nat → List UInt8 → α → Prop} {bad negative : RespError}
    (hp : ∀ n, Parses (p n) (R n)) :
    Parses (andThen readLine fun raw => match parseIntBytes raw with
      | none => refuse bad
      | some n => if n < 0 then refuse negative else p n.toNat)
      (fun frame a => ∃ raw n second, frame = raw ++ [cr, lf] ++ second ∧ IntLiteral raw n ∧ R n second a) := by
  have hrest (raw : List UInt8) : Parses (match parseIntBytes raw with
      | none => refuse bad
      | some n => if n < 0 then refuse negative else p n.toNat)
      (fun second a => ∃ n : Nat, parseIntBytes raw = some (n : Int) ∧ R n second a) := by
    cases parseIntBytes raw with
    | none => exact (Parses.refuse bad).congr fun frame a => by simp
    | some n =>
        dsimp only
        split
        next hn =>
          refine (Parses.refuse negative).congr fun frame a => iff_of_false id ?_
          rintro ⟨m, hm, _⟩
          cases hm
          omega
        next hn =>
          refine (hp n.toNat).congr fun frame a => ?_
          constructor
          · intro h
            exact ⟨n.toNat, by rw [Int.toNat_of_nonneg (not_lt.mp hn)], h⟩
          · rintro ⟨m, hm, h⟩
            cases hm
            exact h
  refine ((line_parses _).andThen hrest).congr fun frame a => ?_
  constructor
  · rintro ⟨raw, _, second, rfl, ⟨rfl, hno⟩, n, hn, h⟩
    exact ⟨raw, n, second, rfl, ⟨hno, parseIntBytes_iff.mp hn⟩, h⟩
  · rintro ⟨raw, n, second, rfl, ⟨hno, hn⟩, h⟩
    exact ⟨raw, _, second, rfl, ⟨rfl, hno⟩, n, parseIntBytes_iff.mpr hn, h⟩

theorem parseArrayHeader_parses :
    Parses parseArrayHeader (fun frame n => ∃ count, IntLiteral count n ∧ frame = byteOf '*' :: (count ++ [cr, lf])) := by
  refine ((marker_parses _ _ _).andThen fun _ => number_parses fun n => Parses.give n).congr fun frame n => ?_
  constructor
  · rintro ⟨_, _, second, rfl, rfl, count, m, _, rfl, hcount, rfl, rfl⟩
    exact ⟨count, hcount, by simp⟩
  · rintro ⟨count, hcount, rfl⟩
    exact ⟨(), _, _, rfl, rfl, count, n, [], by simp, hcount, rfl, rfl⟩

theorem parseBulkString_parses : Parses parseBulkString (BulkString IntLiteral) := by
  refine ((marker_parses _ _ _).andThen fun _ => number_parses fun n => (payload_parses n _ _).andThen
    (S := fun bytes frame token => frame = [] ∧ Utf8.decode bytes = some token) fun bytes => ?_).congr fun frame token => ?_
  · cases Utf8.decode bytes with
    | none => exact (Parses.refuse _).congr fun frame token => by simp
    | some s => exact (Parses.give s).congr fun frame token => by simp [eq_comm]
  constructor
  · rintro ⟨_, _, second, rfl, rfl, length, n, _, rfl, hlength, bytes, _, _, rfl, ⟨rfl, rfl⟩, rfl, htoken⟩
    rw [List.append_nil]
    exact .mk hlength htoken
  · rintro ⟨hlength, htoken⟩
    exact ⟨(), _, _, rfl, rfl, _, _, _, rfl, hlength, _, _, [], (List.append_nil _).symm, ⟨rfl, rfl⟩, rfl, htoken⟩

theorem parseRespFrame_parses : Parses parseRespFrame (Frame IntLiteral) := by
  refine (parseArrayHeader_parses.andThen fun n => parseBulkString_parses.times n).congr fun frame tokens => ?_
  constructor
  · rintro ⟨n, _, _, rfl, ⟨count, hcount, rfl⟩, rfl, parts, hparts, rfl⟩
    exact .mk hcount hparts
  · rintro ⟨hcount, hparts⟩
    exact ⟨_, _, _, rfl, ⟨_, hcount, rfl⟩, rfl, _, hparts, rfl⟩

theorem Frame.mono {number number' : List UInt8 → Nat → Prop} (h : ∀ l n, number l n → number' l n) {bs : List UInt8}
    {tokens : List String} (hbs : Frame number bs tokens) : Frame number' bs tokens := by
  obtain ⟨hcount, hparts⟩ := hbs
  refine .mk (h _ _ hcount) (hparts.imp fun part token hpart => ?_)
  obtain ⟨hlength, htoken⟩ := hpart
  exact .mk (h _ _ hlength) htoken

theorem RunOfDigits.literal {l : List UInt8} {n : Nat} (h : RunOfDigits l n) (hlimit : l.length ≤ maxStrDigits) :
    IntLiteral l n := by
  obtain ⟨ds, hne, hds, rfl⟩ := h
  refine ⟨fun hin => ?_, ?_⟩
  · obtain ⟨i, hi, hcr⟩ := List.mem_iff_getElem.mp (hin.subset List.mem_cons_self)
    have hd := (List.forall₂_iff_get.mp hds).2 i hi (hds.length_eq ▸ hi)
    rw [List.get_eq_getElem, hcr] at hd
    cases hd
  · have hdigits : Decimal.Digits byteAlphabet l ds := by
      rw [← Decimal.readDigits_iff byteAlphabet_spells.underscore]
      exact Decimal.readDigits_all byteAlphabet hne byteAlphabet_spells.underscore hds
    have hlit : Decimal.Literal byteAlphabet maxStrDigits ([] ++ ([] ++ l) ++ []) (Decimal.value ds) :=
      .mk (by simp) (by simp) hdigits (hds.length_eq ▸ hlimit) .none
    simpa using hlit

/-- The requests that are accepted are those of the grammar, with numbers as `int` reads them, among which are
all runs of digits up to the conversion limit. -/
theorem parseResp_iff (bs : List UInt8) :
    (∀ tokens, parseResp bs = .ok tokens ↔ Frame IntLiteral bs tokens) ∧
      ((∀ tokens, ¬ Frame IntLiteral bs tokens) → ∃ e : RespError, parseResp bs = .error e) ∧
      ∀ tokens, Frame (fun l n => RunOfDigits l n ∧ l.length ≤ maxStrDigits) bs tokens → parseResp bs = .ok tokens := by
  have hiff (tokens : List String) : parseResp bs = .ok tokens ↔ Frame IntLiteral bs tokens := by
    have hwhole : parseResp bs = .ok tokens ↔ parseRespFrame bs = .ok (tokens, []) := by
      unfold parseResp
      cases parseRespFrame bs with
      | error e => simp
      | ok r =>
          obtain ⟨command, rest⟩ := r
          cases rest <;> simp
    rw [hwhole, parseRespFrame_parses bs tokens []]
    simp
  refine ⟨hiff, fun hno => ?_, fun tokens h => (hiff tokens).mpr (h.mono fun l n hl => hl.1.literal hl.2)⟩
  cases h : parseResp bs with
  | error e => exact ⟨e, rfl⟩
  | ok tokens => exact absurd ((hiff tokens).mp h) (hno tokens)

/-- `+1` for the number of tokens. -/
def signedCount : List UInt8 := Utf8.encode "*+1\r\n$4\r\nPING\r\n"

theorem signedCount_accepted : ¬ ∀ (bs : List UInt8) (tokens : List String),
    parseResp bs = .ok tokens ↔ Frame RunOfDigits bs tokens := by
  intro h
  have hframe := (h signedCount ["PING"]).mp (by decide +kernel)
  have hsecond : ∀ bs tokens, Frame RunOfDigits bs tokens → ∃ b d, bs[1]? = some b ∧ byteAlphabet.digit b = some d := by
    rintro _ _ ⟨⟨ds, hne, hds, _⟩, _⟩
    cases hds with
    | nil => exact absurd rfl hne
    | cons hd _ => exact ⟨_, _, rfl, hd⟩
  obtain ⟨b, d, hb, hd⟩ := hsecond _ _ hframe
  have hplus : signedCount[1]? = some (byteOf '+') := by decide +kernel
  cases hplus.symm.trans hb
  cases hd

end Ticketing.Protocol
