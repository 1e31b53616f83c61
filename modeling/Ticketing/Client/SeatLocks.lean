import Ticketing.Client.AutoTicketing

namespace Ticketing.Client

open Python JsonText Storage Commands Server AppServer

variable {users : Nat}

section Turns

variable {seatNo : Fin users → Nat} {d d' : Demo users} {user : Fin users}

/-! ### What a thread relies on -/

def Locked (seatNo : Fin users → Nat) (d : Demo users) (user : Fin users) : Prop :=
  d.seatLocks (seatNo user) = some user

/-- Another user's mark is on the seat. -/
def Lost (seatNo : Fin users → Nat) (d : Demo users) (user : Fin users) : Prop :=
  ∃ other, other ≠ user ∧ seatNo other = seatNo user ∧ d.entry seatNo user = some (mark other)

def Told (seatNo : Fin users → Nat) (d : Demo users) (user : Fin users) : Outcome → Prop
  | .sold _ => d.entry seatNo user = some (mark user)
  | .failed .taken => Lost seatNo d user
  | .failed .changed => False
  | .failed .disconnected | .crashed => True

/-- What is so where a thread stands in its attempt. -/
def Stands (seatNo : Fin users → Nat) (d : Demo users) (user : Fin users) : Phase → Prop
  | .waiting => True
  | .connecting | .reading => Locked seatNo d user
  | .writing => Locked seatNo d user ∧ d.entry seatNo user = none
  | .verifying | .selling => Locked seatNo d user ∧ d.entry seatNo user = some (mark user)
  | .failing why => Locked seatNo d user ∧ Told seatNo d user (.failed why)
  | .leaving outcome => Locked seatNo d user ∧ Told seatNo d user outcome
  | .finished outcome => Told seatNo d user outcome

/-- The thread has sent its mark, and may have left it. -/
def Phase.Marked : Phase → Prop
  | .verifying | .selling | .failing .disconnected => True
  | .leaving outcome | .finished outcome => outcome ≠ .failed .taken ∧ outcome ≠ .failed .changed
  | _ => False

theorem Told.later {outcome : Outcome} (h : Told seatNo d user outcome)
    (hkept : ∀ entry, d.entry seatNo user = some entry → d'.entry seatNo user = some entry) :
    Told seatNo d' user outcome := by
  cases outcome with
  | sold r => exact hkept _ h
  | crashed => trivial
  | failed why =>
      cases why with
      | changed => exact h
      | disconnected => trivial
      | taken =>
          obtain ⟨other, hne, hseat, hentry⟩ := h
          exact ⟨other, hne, hseat, hkept _ hentry⟩

/-- Who holds the lock of a seat finds it as it was; a mark stays. -/
theorem Stands.later {p : Phase} (h : Stands seatNo d user p)
    (hlock : Locked seatNo d user → Locked seatNo d' user ∧ d'.entry seatNo user = d.entry seatNo user)
    (hkept : ∀ entry, d.entry seatNo user = some entry → d'.entry seatNo user = some entry) :
    Stands seatNo d' user p := by
  cases p with
  | waiting => trivial
  | connecting | reading => exact (hlock h).1
  | writing | verifying | selling => exact ⟨(hlock h.1).1, (hlock h.1).2.trans h.2⟩
  | failing why => exact ⟨(hlock h.1).1, h.2.later hkept⟩
  | leaving outcome => exact ⟨(hlock h.1).1, h.2.later hkept⟩
  | finished outcome => exact Told.later h hkept

structure Discipline (seatNo : Fin users → Nat) (d : Demo users) : Prop where
  stands : ∀ i, Stands seatNo d i (d.phase i)
  marks : ∀ i entry, d.entry seatNo i = some entry → ∃ j, seatNo j = seatNo i ∧ (d.phase j).Marked ∧ entry = mark j

theorem Discipline.undated (h : Discipline seatNo d) (user : Fin users) : Undated d.redis (seatKey (seatNo user)) := by
  intro entry hentry
  obtain ⟨j, -, -, rfl⟩ := h.marks user entry hentry
  rfl

/-- Two users with the lock of one seat are one. -/
theorem Locked.unique {i : Fin users} (hi : Locked seatNo d i) (h : Locked seatNo d user)
    (hseat : seatNo i = seatNo user) : i = user := by
  unfold Locked at hi h
  rw [hseat, h] at hi
  exact (Option.some.inj hi).symm

theorem Discipline.onward {p : Phase} (h : Discipline seatNo d) (hphase : d'.phase = Function.update d.phase user p)
    (hlock : ∀ i, i ≠ user → Locked seatNo d i → Locked seatNo d' i ∧ d'.entry seatNo i = d.entry seatNo i)
    (hkept : ∀ i entry, d.entry seatNo i = some entry → d'.entry seatNo i = some entry)
    (huser : Stands seatNo d' user p)
    (hmarks : ∀ i entry, d'.entry seatNo i = some entry →
      d.entry seatNo i = some entry ∨ seatNo user = seatNo i ∧ entry = mark user ∧ p.Marked)
    (hmarked : (d.phase user).Marked → p.Marked) : Discipline seatNo d' := by
  refine ⟨fun i => ?_, fun i entry hentry => ?_⟩
  · rw [hphase]
    by_cases hi : i = user
    · subst hi
      rwa [Function.update_self]
    · rw [Function.update_of_ne hi]
      exact (h.stands i).later (hlock i hi) (hkept i)
  · rcases hmarks i entry hentry with hold | ⟨hseat, rfl, hp⟩
    · obtain ⟨j, hseat, hj, rfl⟩ := h.marks i entry hold
      refine ⟨j, hseat, ?_, rfl⟩
      rw [hphase]
      by_cases hju : j = user
      · subst hju
        rw [Function.update_self]
        exact hmarked hj
      · rwa [Function.update_of_ne hju]
    · refine ⟨user, hseat, ?_, rfl⟩
      rwa [hphase, Function.update_self]

/-- A turn that changes no key and no lock but the user's own. -/
theorem Discipline.calm {p : Phase} (h : Discipline seatNo d) (hphase : d'.phase = Function.update d.phase user p)
    (hredis : d'.redis = d.redis) (hlock : ∀ i, i ≠ user → Locked seatNo d i → Locked seatNo d' i)
    (huser : Stands seatNo d' user p) (hmarked : (d.phase user).Marked → p.Marked) : Discipline seatNo d' := by
  have hentry (i : Fin users) : d'.entry seatNo i = d.entry seatNo i := by rw [Demo.entry, hredis, Demo.entry]
  refine h.onward hphase (fun i hi hl => ⟨hlock i hi hl, hentry i⟩) (fun i entry he => ?_) huser (fun i entry he => ?_)
    hmarked
  · rw [hentry, he]
  · exact .inl (hentry i ▸ he)

theorem stands_breaks {p : Phase} (h : Locked seatNo d user) (hp : Breaks p) : Stands seatNo d user p := by
  rcases hp with rfl | rfl
  · exact ⟨h, trivial⟩
  · exact ⟨h, trivial⟩

theorem marked_breaks {p : Phase} (hp : Breaks p) : p.Marked := by
  rcases hp with rfl | rfl
  · trivial
  · exact ⟨nofun, nofun⟩

theorem Discipline.goes {p : Phase} (h : Discipline seatNo d) (hp : Goes (d.entry seatNo user) user (d.phase user) p) :
    Stands seatNo d user p ∧ ((d.phase user).Marked → p.Marked) := by
  have hstands := h.stands user
  generalize hq : d.phase user = q at hp hstands
  cases hp with
  | connected => exact ⟨hstands, False.elim⟩
  | free he => exact ⟨⟨hstands, he⟩, False.elim⟩
  | taken he =>
      obtain ⟨entry, hentry⟩ := Option.ne_none_iff_exists'.mp he
      obtain ⟨j, hseat, hj, rfl⟩ := h.marks user entry hentry
      refine ⟨⟨hstands, j, fun hju => ?_, hseat, hentry⟩, False.elim⟩
      rw [hju, hq] at hj
      exact hj
  | verified he => exact ⟨hstands, fun _ => trivial⟩
  | changed he => exact absurd hstands.2 he
  | broken hq hp =>
      refine ⟨stands_breaks ?_ hp, fun _ => marked_breaks hp⟩
      simp only [List.mem_cons, List.not_mem_nil, or_false] at hq
      rcases hq with rfl | rfl | rfl | rfl
      · exact hstands
      · exact hstands
      · exact hstands.1
      · exact hstands.1

theorem Discipline.turned (h : Discipline seatNo d) (ht : Turned seatNo d user d') : Discipline seatNo d' := by
  have hstands := h.stands user
  cases ht with
  | idle => exact h
  | goes hp => exact h.calm rfl rfl (fun _ _ hl => hl) (h.goes hp).1 (h.goes hp).2
  | locks hq hfree =>
      refine h.calm rfl rfl (fun i _ hl => ?_) (Function.update_self ..) (by rw [hq]; exact False.elim)
      have hne : seatNo i ≠ seatNo user := fun he => by
        rw [Locked, he, hfree] at hl
        cases hl
      exact (Function.update_of_ne hne ..).trans hl
  | writes hq hp =>
      rw [hq] at hstands
      obtain ⟨hlocked, hnone⟩ := hstands
      have hother {i : Fin users} (hne : seatNo i ≠ seatNo user) :
          (Storage.set d.redis (seatKey (seatNo user)) (userId user)).lookup (seatKey (seatNo i)) = d.entry seatNo i :=
        AList.lookup_insert_ne fun he => hne (seatKey_injective he)
      have hown {i : Fin users} (he : seatNo i = seatNo user) :
          (Storage.set d.redis (seatKey (seatNo user)) (userId user)).lookup (seatKey (seatNo i)) = some (mark user) := by
        rw [he]
        exact AList.lookup_insert _
      refine h.onward rfl (fun i hi hl => ?_) (fun i entry hentry => ?_) ?_ (fun i entry hentry => ?_)
        (by rw [hq]; exact False.elim)
      · exact ⟨hl, hother fun he => hi (hl.unique hlocked he)⟩
      · refine (hother fun he => ?_).trans hentry
        rw [Demo.entry, he] at hentry
        cases hnone.symm.trans hentry
      · rcases hp with rfl | hp
        · exact ⟨hlocked, hown rfl⟩
        · exact stands_breaks hlocked hp
      · by_cases he : seatNo i = seatNo user
        · refine .inr ⟨he.symm, Option.some.inj (hentry.symm.trans (hown he)), ?_⟩
          rcases hp with rfl | hp
          · trivial
          · exact marked_breaks hp
        · exact .inl ((hother he).symm.trans hentry)
  | sells hq =>
      rw [hq] at hstands
      exact h.calm rfl rfl (fun _ _ hl => hl) hstands fun _ => ⟨nofun, nofun⟩
  | cut hq =>
      rw [hq] at hstands
      exact h.calm rfl rfl (fun _ _ hl => hl) hstands fun _ => ⟨nofun, nofun⟩
  | @fails why hq hwhy =>
      rw [hq] at hstands
      refine h.calm rfl rfl (fun _ _ hl => hl) hstands ?_
      rw [hq]
      intro hmarked
      cases why with
      | taken | changed => exact hmarked.elim
      | disconnected => exact absurd rfl hwhy
  | unlocks hq =>
      rw [hq] at hstands
      refine h.calm rfl rfl (fun i hi hl => ?_) hstands.2 (by rw [hq]; exact id)
      exact (Function.update_of_ne (fun he => hi (hl.unique hstands.1 he)) ..).trans hl

end Turns

end Ticketing.Client
