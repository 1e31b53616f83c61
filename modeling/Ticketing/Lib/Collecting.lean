import Ticketing.Lib.Framing
import Ticketing.Lib.Trace

/-! The loop that hands over the frames of a chunk all at once, and raises where it meets a malformed frame. -/

namespace Framing

open Parsing Trace

variable {β α ε : Type}

/-- A malformed frame stays in the buffer, and what the call has read before it is not handed over. -/
def collect (short : ε → Bool) (p : Parser β ε α) : Nat → List α → List β → Except ε (List α) × List β
  | 0, as, bs => (.ok as, bs)
  | n + 1, as, bs => if bs.isEmpty then (.ok as, bs) else match p bs with
    | .ok (a, rest) => collect short p n (as ++ [a]) rest
    | .error e => if short e then (.ok as, bs) else (.error e, bs)

def feed (short : ε → Bool) (p : Parser β ε α) (buffer chunk : List β) : Except ε (List α) × List β :=
  collect short p (buffer ++ chunk).length [] (buffer ++ chunk)

/-- What the calls have returned before one of them raises is the whole list, and no later call returns. -/
def Delivered (as : List α) (results : List (Except ε (List α))) : Prop :=
  ∃ (before : List (List α)) (e : ε) (after : List (Except ε (List α))), results = before.map .ok ++ .error e :: after ∧ before.flatten = as ∧
    ∀ r ∈ after, ∃ e', r = .error e'

variable {short : ε → Bool} {p : Parser β ε α} {bs buffer left : List β} {as : List α} {e : ε} {chunks : List (List β)}

/-! ### One call -/

theorem collect_ok (hc : Consumes 1 p) {n : Nat} (hn : bs.length ≤ n) (h : (parseAll short p bs).1 = as.map .ok)
    (done : List α) : collect short p n done bs = (.ok (done ++ as), (parseAll short p bs).2) := by
  induction n generalizing bs as done with
  | zero =>
      obtain rfl := List.length_eq_zero_iff.mp (Nat.le_zero.mp hn)
      obtain rfl := List.map_eq_nil_iff.mp h.symm
      rw [collect, List.append_nil, parseAll_nil]
  | succ n ih =>
      rw [collect]
      by_cases hbs : bs = []
      · subst hbs
        obtain rfl := List.map_eq_nil_iff.mp h.symm
        rw [if_pos List.isEmpty_nil, List.append_nil, parseAll_nil]
      · rw [if_neg (by simpa using hbs)]
        cases hp : p bs with
        | ok r =>
            obtain ⟨a, rest⟩ := r
            rw [parseAll_ok hc hp] at h ⊢
            cases as with
            | nil => cases h
            | cons a' as =>
                obtain ⟨ha, hrest⟩ := List.cons.inj h
                cases ha
                have hlen := hc hp
                dsimp only
                rw [ih (by omega) hrest, List.append_assoc, List.singleton_append]
        | error e =>
            by_cases he : short e = true
            · rw [parseAll_short hp he] at h ⊢
              obtain rfl := List.map_eq_nil_iff.mp h.symm
              dsimp only
              rw [if_pos he, List.append_nil]
            · rw [parseAll_bad hbs hp (eq_false_of_ne_true he)] at h
              cases as with
              | nil => cases h
              | cons a as => cases (List.cons.inj h).1

theorem collect_bad (hc : Consumes 1 p) {n : Nat} (hn : bs.length ≤ n) (h : ¬ Clean (parseAll short p bs).1)
    (done : List α) : ∃ e, (collect short p n done bs).1 = .error e := by
  induction n generalizing bs done with
  | zero =>
      obtain rfl := List.length_eq_zero_iff.mp (Nat.le_zero.mp hn)
      exact absurd (clean_oks []) h
  | succ n ih =>
      rw [collect]
      by_cases hbs : bs = []
      · subst hbs
        exact absurd (clean_oks []) h
      · rw [if_neg (by simpa using hbs)]
        cases hp : p bs with
        | ok r =>
            have hlen := hc hp
            rw [parseAll_ok hc hp] at h
            refine ih (by omega) (fun hclean => h fun e he => ?_) (done ++ [r.1])
            rcases List.mem_cons.mp he with he | he
            · cases he
            · exact hclean e he
        | error e =>
            by_cases he : short e = true
            · rw [parseAll_short hp he] at h
              exact absurd (clean_oks []) h
            · dsimp only
              rw [if_neg he]
              exact ⟨e, rfl⟩

theorem collect_fuel (hc : Consumes 1 p) {n m : Nat} (hn : bs.length ≤ n) (hm : bs.length ≤ m) (done : List α) :
    collect short p n done bs = collect short p m done bs := by
  induction n generalizing m bs done with
  | zero =>
      obtain rfl := List.length_eq_zero_iff.mp (Nat.le_zero.mp hn)
      cases m <;> rfl
  | succ n ih =>
      cases m with
      | zero =>
          obtain rfl := List.length_eq_zero_iff.mp (Nat.le_zero.mp hm)
          rfl
      | succ m =>
          rw [collect, collect]
          cases hp : p bs with
          | error e => rfl
          | ok r =>
              have hlen := hc hp
              dsimp only
              rw [@ih r.2 m (by omega) (by omega)]

theorem feed_ok (hc : Consumes 1 p) {chunk : List β} (h : (parseAll short p (buffer ++ chunk)).1 = as.map .ok) :
    feed short p buffer chunk = (.ok as, (parseAll short p (buffer ++ chunk)).2) :=
  collect_ok hc (Nat.le_refl _) h []

/-- A call that returns has read what the buffer and the chunk hold. -/
theorem feed_returns (hc : Consumes 1 p) {chunk : List β} (h : (feed short p buffer chunk).1 = .ok as) :
    (parseAll short p (buffer ++ chunk)).1 = as.map .ok := by
  by_cases hclean : Clean (parseAll short p (buffer ++ chunk)).1
  · obtain ⟨as', hall | ⟨e, hbad⟩⟩ := parseAll_items hc (buffer ++ chunk)
    · rw [feed_ok hc hall] at h
      cases h
      exact hall
    · rw [hbad] at hclean
      exact absurd (List.mem_append_right _ (List.mem_singleton_self _)) (hclean e)
  · obtain ⟨e, he⟩ := collect_bad hc (Nat.le_refl _) hclean []
    cases h.symm.trans he

theorem feed_waits (hc : Consumes 1 p) {chunk : List β} (h : p (buffer ++ chunk) = .error e) (he : short e = true) :
    feed short p buffer chunk = (.ok [], buffer ++ chunk) := by
  have hshort := parseAll_short h he
  rw [feed_ok hc (by rw [hshort, List.map_nil]), hshort]

theorem feed_raises {chunk : List β} (hne : buffer ++ chunk ≠ []) (h : p (buffer ++ chunk) = .error e)
    (he : short e = false) : feed short p buffer chunk = (.error e, buffer ++ chunk) := by
  have hlen : (buffer ++ chunk).length = (buffer ++ chunk).length - 1 + 1 :=
    (Nat.succ_pred_eq_of_pos (List.length_pos_iff.mpr hne)).symm
  rw [feed, hlen, collect, if_neg (by simpa using hne), h]
  exact if_neg (by rw [he]; decide)

/-! ### Chunk after chunk -/

theorem answers_ok (hp : Stable short p) (hc : Consumes 1 p) (hb : parseAll short p buffer = ([], buffer))
    (h : (parseAll short p (buffer ++ chunks.flatten)).1 = as.map .ok) :
    ∃ parts : List (List α), answers (feed short p) buffer chunks = parts.map .ok ∧ parts.flatten = as ∧
      chunks.foldl (fun b chunk => (feed short p b chunk).2) buffer = (parseAll short p (buffer ++ chunks.flatten)).2 := by
  induction chunks generalizing buffer as with
  | nil =>
      rw [List.flatten_nil, List.append_nil, hb] at h
      obtain rfl := List.map_eq_nil_iff.mp h.symm
      exact ⟨[], rfl, rfl, by rw [List.flatten_nil, List.append_nil, hb]; rfl⟩
  | cons chunk chunks ih =>
      rw [List.flatten_cons, ← List.append_assoc] at h ⊢
      have hfirst : Clean (parseAll short p (buffer ++ chunk)).1 := by
        by_contra hbad
        rw [parseAll_append_bad hp hc hbad] at h
        exact hbad (h ▸ clean_oks as)
      have happ := parseAll_append hp hc hfirst chunks.flatten
      obtain ⟨now, hnow | ⟨e, hbad⟩⟩ := parseAll_items hc (buffer ++ chunk)
      · rw [happ, hnow] at h
        obtain ⟨as₁, as₂, rfl, h₁, h₂⟩ := List.append_eq_map_iff.mp h
        obtain rfl := List.map_injective_iff.mpr (fun a b hab => Except.ok.inj hab) h₁
        obtain ⟨parts, hparts, hflat, hend⟩ := ih (parseAll_left hc _).1 h₂.symm
        refine ⟨as₁ :: parts, ?_, by rw [List.flatten_cons, hflat], ?_⟩
        · rw [answers, feed_ok hc hnow, hparts, List.map_cons]
        · rw [List.foldl_cons, feed_ok hc hnow, hend, happ]
      · rw [hbad] at hfirst
        exact absurd (List.mem_append_right _ (List.mem_singleton_self _)) (hfirst e)

/-- As long as every call returns, together they have read what has come. -/
theorem answers_returned (hp : Stable short p) (hc : Consumes 1 p) (hb : parseAll short p buffer = ([], buffer))
    {parts : List (List α)} (h : answers (feed short p) buffer chunks = parts.map .ok) :
    (parseAll short p (buffer ++ chunks.flatten)).1 = parts.flatten.map .ok := by
  induction chunks generalizing buffer parts with
  | nil =>
      obtain rfl := List.map_eq_nil_iff.mp h.symm
      rw [List.flatten_nil, List.append_nil, hb]
      rfl
  | cons chunk chunks ih =>
      rw [answers] at h
      cases parts with
      | nil => cases h
      | cons now parts =>
          obtain ⟨hfirst, hrest⟩ := List.cons.inj h
          have hnow := feed_returns hc hfirst
          rw [feed_ok hc hnow] at hrest
          have hrest := ih (parseAll_left hc _).1 hrest
          rw [List.flatten_cons, ← List.append_assoc, parseAll_append hp hc (hnow ▸ clean_oks now), hnow, hrest,
            List.flatten_cons, List.map_append]

theorem answers_stuck (hp : Stable short p) (hne : buffer ≠ []) (h : p buffer = .error e) (he : short e = false) :
    ∀ r ∈ answers (feed short p) buffer chunks, ∃ e', r = .error e' := by
  induction chunks generalizing buffer with
  | nil =>
      intro r hr
      cases hr
  | cons chunk chunks ih =>
      have hmore := hp.error h he chunk
      have hne' : buffer ++ chunk ≠ [] := by simp [hne]
      have hfeed := feed_raises hne' hmore he
      intro r hr
      rw [answers, hfeed] at hr
      rcases List.mem_cons.mp hr with rfl | hr
      · exact ⟨e, rfl⟩
      · exact ih hne' hmore r hr

/-- While a malformed frame is still incomplete the calls return nothing, and then they raise. -/
theorem answers_malformed (hp : Stable short p) (hc : Consumes 1 p) (hb : ∃ e, p buffer = .error e ∧ short e = true)
    (h : p (buffer ++ chunks.flatten) = .error e) (he : short e = false) :
    Delivered [] (answers (feed short p) buffer chunks) := by
  induction chunks generalizing buffer with
  | nil =>
      obtain ⟨e', hb, he'⟩ := hb
      rw [List.flatten_nil, List.append_nil, hb] at h
      cases h
      rw [he'] at he
      cases he
  | cons chunk chunks ih =>
      rw [List.flatten_cons, ← List.append_assoc] at h
      cases hnow : p (buffer ++ chunk) with
      | ok r =>
          rw [hp.ok hnow chunks.flatten] at h
          cases h
      | error e' =>
          by_cases he' : short e' = true
          · obtain ⟨before, e₀, after, hres, hflat, hafter⟩ := ih ⟨e', hnow, he'⟩ h
            refine ⟨[] :: before, e₀, after, ?_, hflat, hafter⟩
            rw [answers, feed_waits hc hnow he', hres, List.map_cons, List.cons_append]
          · have he' := eq_false_of_ne_true he'
            have hne : buffer ++ chunk ≠ [] := by
              rintro hnil
              obtain ⟨e₀, hb, he₀⟩ := hb
              obtain ⟨rfl, rfl⟩ := List.append_eq_nil_iff.mp hnil
              rw [List.append_nil, hb] at hnow
              cases hnow
              rw [he'] at he₀
              cases he₀
            refine ⟨[], e', answers (feed short p) (buffer ++ chunk) chunks, ?_, rfl, answers_stuck hp hne hnow he'⟩
            rw [answers, feed_raises hne hnow he', List.map_nil, List.nil_append]

/-- Where all the frames have been read from a start of the stream, it goes as far as their end. -/
theorem prefix_of_frames (hp : Stable short p) (hc : Consumes 1 p) (hnil : ∃ e, p [] = .error e ∧ short e = true)
    {frames : List (List β)} (hframes : List.Forall₂ (Reads p) frames as) {more rest : List β}
    (hbs : bs ++ rest = frames.flatten ++ more) (h : (parseAll short p bs).1 = as.map .ok) :
    ∃ w, bs = frames.flatten ++ w ∧ ∃ e, p w = .error e ∧ short e = true := by
  induction hframes generalizing bs with
  | nil =>
      refine ⟨bs, rfl, ?_⟩
      by_cases hne : bs = []
      · rw [hne]
        exact hnil
      · cases hpb : p bs with
        | ok r => rw [parseAll_ok hc hpb] at h; cases h
        | error e =>
            refine ⟨e, rfl, ?_⟩
            by_contra he
            rw [parseAll_bad hne hpb (eq_false_of_ne_true he)] at h
            cases h
  | @cons frame a frames as ha _ ih =>
      have hne : bs ≠ [] := by
        rintro rfl
        cases h
      cases hpb : p bs with
      | error e =>
          by_cases he : short e = true
          · rw [parseAll_short hpb he] at h
            cases h
          · rw [parseAll_bad hne hpb (eq_false_of_ne_true he)] at h
            cases (List.cons.inj h).1
      | ok r =>
          obtain ⟨a', left⟩ := r
          rw [parseAll_ok hc hpb] at h
          have hall := hp.ok hpb rest
          rw [hbs, List.flatten_cons, List.append_assoc, ha (frames.flatten ++ more)] at hall
          have hleft : left ++ rest = frames.flatten ++ more := (Prod.mk.inj (Except.ok.inj hall)).2.symm
          obtain ⟨w, hw, hshort⟩ := ih hleft (List.cons.inj h).2
          refine ⟨w, ?_, hshort⟩
          rw [List.flatten_cons, List.append_assoc, ← hw]
          rw [List.flatten_cons, List.append_assoc, ← hleft, ← List.append_assoc] at hbs
          exact List.append_cancel_right hbs

/-- The frames before a malformed one are all handed over if and only if some call ends between the last of
them and the symbol that makes the next one malformed. -/
theorem delivered_iff (hp : Stable short p) (hc : Consumes 1 p) (hnil : ∃ e, p [] = .error e ∧ short e = true)
    {frames : List (List β)} (hframes : List.Forall₂ (Reads p) frames as) {bad : List β} (hbad : p bad = .error e)
    (he : short e = false) (hchunks : chunks.flatten = frames.flatten ++ bad) :
    Delivered as (answers (feed short p) [] chunks) ↔ ∃ before after w, chunks = before ++ after ∧
      before.flatten = frames.flatten ++ w ∧ ∃ e, p w = .error e ∧ short e = true := by
  constructor
  · rintro ⟨parts, e', after, hres, rfl, _⟩
    have hlen : parts.length ≤ chunks.length := by
      have hl : chunks.length = (answers (feed short p) [] chunks).length := (answers_length _ _ _).symm
      rw [hl, hres, List.length_append, List.length_map]
      omega
    have hsplit := answers_append (feed short p) [] (chunks.take parts.length) (chunks.drop parts.length)
    rw [List.take_append_drop, hres] at hsplit
    have hfirst := (List.append_inj hsplit (by rw [List.length_map, answers_length, List.length_take_of_le hlen])).1
    have hread := answers_returned hp hc parseAll_nil hfirst.symm
    rw [List.nil_append] at hread
    have hflat : (chunks.take parts.length).flatten ++ (chunks.drop parts.length).flatten = frames.flatten ++ bad := by
      rw [← List.flatten_append, List.take_append_drop, hchunks]
    obtain ⟨w, hw, hshort⟩ := prefix_of_frames hp hc hnil hframes hflat hread
    exact ⟨_, _, w, (List.take_append_drop _ chunks).symm, hw, hshort⟩
  · rintro ⟨before, after, w, rfl, hw, hshort⟩
    have hall := parseAll_frames hc hframes hshort
    have hbefore : (parseAll short p ([] ++ before.flatten)).1 = as.map .ok := by rw [List.nil_append, hw, hall]
    obtain ⟨parts, hparts, hflat, hend⟩ := answers_ok hp hc parseAll_nil hbefore
    rw [List.nil_append, hw, hall] at hend
    rw [List.flatten_append, hw, List.append_assoc] at hchunks
    have hrest : p (w ++ after.flatten) = .error e := by rw [List.append_cancel_left hchunks, hbad]
    obtain ⟨waiting, e', late, hres, hnone, hlate⟩ := answers_malformed hp hc hshort hrest he
    refine ⟨parts ++ waiting, e', late, ?_, ?_, hlate⟩
    · rw [answers_append, hparts, hend, hres, List.map_append, List.append_assoc]
    · rw [List.flatten_append, hflat, hnone, List.append_nil]

end Framing
