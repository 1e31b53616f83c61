import Ticketing.Lib.Parsing

/-! The loop that reads frame after frame from a buffer, whatever the chunks that fill it. -/

namespace Framing

open Parsing

variable {β α ε : Type}

/-- Read frames from the buffer. A malformed frame takes the whole buffer with it; an unfinished one stays. -/
def scan (short : ε → Bool) (p : Parser β ε α) : Nat → List β → List (Except ε α) × List β
  | 0, bs => ([], bs)
  | n + 1, bs => if bs.isEmpty then ([], bs) else match p bs with
    | .ok (a, rest) => (.ok a :: (scan short p n rest).1, (scan short p n rest).2)
    | .error e => if short e then ([], bs) else ([.error e], [])

def parseAll (short : ε → Bool) (p : Parser β ε α) (bs : List β) : List (Except ε α) × List β :=
  scan short p bs.length bs

/-- Read frames whenever a chunk has come. -/
def receiveAll (short : ε → Bool) (p : Parser β ε α) : List β → List (List β) → List (Except ε α) × List β
  | buffer, [] => ([], buffer)
  | buffer, chunk :: chunks =>
    let r := parseAll short p (buffer ++ chunk)
    (r.1 ++ (receiveAll short p r.2 chunks).1, (receiveAll short p r.2 chunks).2)

variable {short : ε → Bool} {p : Parser β ε α}

theorem scan_fuel (hc : Consumes 1 p) {n m : Nat} {bs : List β} (hn : bs.length ≤ n) (hm : bs.length ≤ m) :
    scan short p n bs = scan short p m bs := by
  induction n generalizing m bs with
  | zero =>
      obtain rfl := List.length_eq_zero_iff.mp (Nat.le_zero.mp hn)
      cases m <;> rfl
  | succ n ih =>
      cases m with
      | zero =>
          obtain rfl := List.length_eq_zero_iff.mp (Nat.le_zero.mp hm)
          rfl
      | succ m =>
          cases hbs : p bs with
          | error e => simp only [scan, hbs]
          | ok r =>
              have hr := hc hbs
              have hrest := @ih m r.2 (by omega) (by omega)
              simp only [scan, hbs, hrest]

theorem parseAll_nil : parseAll short p [] = ([], []) := rfl

theorem parseAll_ok (hc : Consumes 1 p) {bs rest : List β} {a : α} (h : p bs = .ok (a, rest)) :
    parseAll short p bs = (.ok a :: (parseAll short p rest).1, (parseAll short p rest).2) := by
  have hlen := hc h
  cases bs with
  | nil => simp at hlen
  | cons b bs =>
      have hrest : scan short p bs.length rest = parseAll short p rest :=
        scan_fuel hc (by simp only [List.length_cons] at hlen; omega) (Nat.le_refl _)
      simp only [parseAll, List.length_cons, scan, h, hrest]
      rfl

theorem parseAll_short {bs : List β} {e : ε} (h : p bs = .error e) (he : short e = true) :
    parseAll short p bs = ([], bs) := by
  cases bs with
  | nil => rfl
  | cons b bs => simp [parseAll, scan, h, he]

theorem parseAll_bad {bs : List β} {e : ε} (hne : bs ≠ []) (h : p bs = .error e) (he : short e = false) :
    parseAll short p bs = ([.error e], []) := by
  cases bs with
  | nil => exact absurd rfl hne
  | cons b bs => simp [parseAll, scan, h, he]

/-- A list of frames and the start of one more: the frames are read, the rest is kept. -/
theorem parseAll_frames (hc : Consumes 1 p) {frames : List (List β)} {as : List α} {left : List β}
    (h : List.Forall₂ (Reads p) frames as) (hleft : ∃ e, p left = .error e ∧ short e = true) :
    parseAll short p (frames.flatten ++ left) = (as.map .ok, left) := by
  induction h with
  | nil =>
      obtain ⟨e, he, hshort⟩ := hleft
      exact parseAll_short he hshort
  | @cons frame a frames as ha _ ih =>
      rw [List.flatten_cons, List.append_assoc, parseAll_ok hc (ha _), ih]
      rfl

/-- No frame was malformed. -/
def Clean (items : List (Except ε α)) : Prop := ∀ e, .error e ∉ items

/-- What has been read is read again when more symbols come, and the rest is read with them. -/
theorem parseAll_append (hp : Stable short p) (hc : Consumes 1 p) {bs : List β} (h : Clean (parseAll short p bs).1)
    (more : List β) : parseAll short p (bs ++ more) =
      ((parseAll short p bs).1 ++ (parseAll short p ((parseAll short p bs).2 ++ more)).1,
        (parseAll short p ((parseAll short p bs).2 ++ more)).2) := by
  induction hn : bs.length using Nat.strongRecOn generalizing bs with
  | ind n ih =>
      by_cases hbs : bs = []
      · subst hbs
        simp [parseAll_nil]
      · cases hpb : p bs with
        | ok r =>
            have hlen := hc hpb
            rw [parseAll_ok hc hpb] at h ⊢
            have hclean : Clean (parseAll short p r.2).1 := fun e he => h e (List.mem_cons_of_mem _ he)
            rw [parseAll_ok hc (hp.ok hpb more), ih r.2.length (by omega) hclean rfl]
            rfl
        | error e =>
            by_cases he : short e = true
            · rw [parseAll_short hpb he]
              rfl
            · rw [parseAll_bad hbs hpb (by simpa using he)] at h
              exact absurd (List.mem_singleton_self _) (h e)

/-- After a malformed frame nothing more is read. -/
theorem parseAll_append_bad (hp : Stable short p) (hc : Consumes 1 p) {bs : List β}
    (h : ¬ Clean (parseAll short p bs).1) (more : List β) : parseAll short p (bs ++ more) = parseAll short p bs := by
  induction hn : bs.length using Nat.strongRecOn generalizing bs with
  | ind n ih =>
      by_cases hbs : bs = []
      · subst hbs
        exact absurd (fun e he => nomatch he) h
      · cases hpb : p bs with
        | ok r =>
            have hlen := hc hpb
            rw [parseAll_ok hc hpb] at h ⊢
            have hbad : ¬ Clean (parseAll short p r.2).1 := fun hclean => h fun e he => by
              rcases List.mem_cons.mp he with he | he
              · cases he
              · exact hclean e he
            rw [parseAll_ok hc (hp.ok hpb more), ih r.2.length (by omega) hbad rfl]
        | error e =>
            by_cases he : short e = true
            · rw [parseAll_short hpb he] at h
              exact absurd (fun e he => nomatch he) h
            · have he := eq_false_of_ne_true he
              rw [parseAll_bad hbs hpb he, parseAll_bad (by simp [hbs]) (hp.error hpb he more) he]

/-- What is left in the buffer has no frame to give, and nothing is left after a malformed frame. -/
theorem parseAll_left (hc : Consumes 1 p) (bs : List β) :
    parseAll short p (parseAll short p bs).2 = ([], (parseAll short p bs).2) ∧
      (¬ Clean (parseAll short p bs).1 → (parseAll short p bs).2 = []) := by
  induction hn : bs.length using Nat.strongRecOn generalizing bs with
  | ind n ih =>
      by_cases hbs : bs = []
      · subst hbs
        exact ⟨rfl, fun _ => rfl⟩
      · cases hpb : p bs with
        | ok r =>
            have hlen := hc hpb
            obtain ⟨hleft, hbad⟩ := ih r.2.length (by omega) r.2 rfl
            rw [parseAll_ok hc hpb]
            refine ⟨hleft, fun h => hbad fun hclean => h fun e he => ?_⟩
            rcases List.mem_cons.mp he with he | he
            · cases he
            · exact hclean e he
        | error e =>
            by_cases he : short e = true
            · rw [parseAll_short hpb he]
              exact ⟨parseAll_short hpb he, fun h => absurd (fun e he => nomatch he) h⟩
            · rw [parseAll_bad hbs hpb (eq_false_of_ne_true he)]
              exact ⟨rfl, fun _ => rfl⟩

/-- Chunks without a malformed frame read like the whole stream. -/
theorem receiveAll_clean (hp : Stable short p) (hc : Consumes 1 p) {chunks : List (List β)} {buffer : List β}
    (hb : parseAll short p buffer = ([], buffer)) (h : Clean (parseAll short p (buffer ++ chunks.flatten)).1) :
    receiveAll short p buffer chunks = parseAll short p (buffer ++ chunks.flatten) := by
  induction chunks generalizing buffer with
  | nil => rw [List.flatten_nil, List.append_nil, hb, receiveAll]
  | cons chunk chunks ih =>
      rw [List.flatten_cons, ← List.append_assoc] at h ⊢
      have hfirst : Clean (parseAll short p (buffer ++ chunk)).1 := by
        by_contra hbad
        rw [parseAll_append_bad hp hc hbad] at h
        exact hbad h
      have happ := parseAll_append hp hc hfirst chunks.flatten
      rw [happ] at h ⊢
      have hrest : Clean (parseAll short p ((parseAll short p (buffer ++ chunk)).2 ++ chunks.flatten)).1 :=
        fun e he => h e (List.mem_append_right _ he)
      rw [receiveAll, ih (parseAll_left hc _).1 hrest]

theorem clean_oks (as : List α) : Clean (as.map (.ok : α → Except ε α)) := by
  intro e he
  obtain ⟨a, _, ha⟩ := List.mem_map.mp he
  cases ha

/-- Frames are read up to the first malformed one. -/
theorem parseAll_items (hc : Consumes 1 p) (bs : List β) : ∃ as : List α,
    (parseAll short p bs).1 = as.map .ok ∨ ∃ e, (parseAll short p bs).1 = as.map .ok ++ [.error e] := by
  induction hn : bs.length using Nat.strongRecOn generalizing bs with
  | ind n ih =>
      by_cases hbs : bs = []
      · subst hbs
        exact ⟨[], .inl rfl⟩
      · cases hpb : p bs with
        | ok r =>
            have hlen := hc hpb
            rw [parseAll_ok hc hpb]
            obtain ⟨as, hall | ⟨e, hbad⟩⟩ := ih r.2.length (by omega) r.2 rfl
            · exact ⟨r.1 :: as, .inl (by rw [hall, List.map_cons])⟩
            · exact ⟨r.1 :: as, .inr ⟨e, by rw [hbad, List.map_cons, List.cons_append]⟩⟩
        | error e =>
            by_cases he : short e = true
            · rw [parseAll_short hpb he]
              exact ⟨[], .inl rfl⟩
            · rw [parseAll_bad hbs hpb (eq_false_of_ne_true he)]
              exact ⟨[], .inr ⟨e, rfl⟩⟩

theorem clean_append {items items' : List (Except ε α)} : Clean (items ++ items') ↔ Clean items ∧ Clean items' := by
  simp only [Clean, List.mem_append, not_or, forall_and]

/-- With a malformed frame, the chunk that completes it is the last one to be read as part of the
stream: the rest of that chunk is dropped, and the chunks after it are read as a stream of their own. -/
theorem receiveAll_bad (hp : Stable short p) (hc : Consumes 1 p) {chunks : List (List β)} {buffer : List β}
    (hb : parseAll short p buffer = ([], buffer)) (h : ¬ Clean (parseAll short p (buffer ++ chunks.flatten)).1) :
    ∃ before chunk after, chunks = before ++ chunk :: after ∧
      Clean (parseAll short p (buffer ++ before.flatten)).1 ∧
      ¬ Clean (parseAll short p (buffer ++ before.flatten ++ chunk)).1 ∧
      receiveAll short p buffer chunks =
        ((parseAll short p (buffer ++ chunks.flatten)).1 ++ (receiveAll short p [] after).1,
          (receiveAll short p [] after).2) := by
  induction chunks generalizing buffer with
  | nil =>
      rw [List.flatten_nil, List.append_nil, hb] at h
      exact absurd (fun e he => nomatch he) h
  | cons chunk chunks ih =>
      rw [List.flatten_cons, ← List.append_assoc] at h ⊢
      by_cases hfirst : Clean (parseAll short p (buffer ++ chunk)).1
      · have happ := parseAll_append hp hc hfirst
        rw [happ] at h ⊢
        have hrest : ¬ Clean (parseAll short p ((parseAll short p (buffer ++ chunk)).2 ++ chunks.flatten)).1 :=
          fun hclean => h (clean_append.mpr ⟨hfirst, hclean⟩)
        obtain ⟨before, last, after, rfl, hbefore, hlast, heq⟩ := ih (parseAll_left hc _).1 hrest
        refine ⟨chunk :: before, last, after, rfl, ?_, ?_, ?_⟩
        · rw [List.flatten_cons, ← List.append_assoc, happ]
          exact clean_append.mpr ⟨hfirst, hbefore⟩
        · rw [List.flatten_cons, ← List.append_assoc, List.append_assoc (buffer ++ chunk), happ, ← List.append_assoc]
          exact fun hclean => hlast (clean_append.mp hclean).2
        · rw [receiveAll, heq]
          simp only [List.append_assoc]
      · refine ⟨[], chunk, chunks, rfl, ?_, ?_, ?_⟩
        · rw [List.flatten_nil, List.append_nil, hb]
          exact fun e he => nomatch he
        · rwa [List.flatten_nil, List.append_nil]
        · rw [receiveAll, (parseAll_left hc _).2 hfirst, parseAll_append_bad hp hc hfirst]

end Framing
