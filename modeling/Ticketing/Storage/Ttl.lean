import Ticketing.Python

namespace Ticketing.Storage

open Python

inductive ExpireOption
  | nx | xx | gt | lt
  deriving DecidableEq, Repr

def validExpireOption : String → Option ExpireOption
  | "NX" => some .nx
  | "XX" => some .xx
  | "GT" => some .gt
  | "LT" => some .lt
  | _ => none

def normalizeExpireOption : Option String → Except Error (Option ExpireOption)
  | none => .ok none
  | some option => match validExpireOption (upper option) with
    | some o => .ok (some o)
    | none => .error ⟨.valueError, "unsupported EXPIRE option '" ++ option ++ "'"⟩

def computeDeadline (now : ℚ) (seconds : Int) : Except Error ℚ :=
  (toFloat seconds).map (fun s => now + s)

def IsExpired (deadline now : ℚ) : Prop := deadline ≤ now

instance (deadline now : ℚ) : Decidable (IsExpired deadline now) := inferInstanceAs (Decidable (_ ≤ _))

/-- A key without a deadline counts as one whose deadline is infinite. -/
def ShouldApplyExpiry (option : Option ExpireOption) (current : Option ℚ) (new : ℚ) : Prop :=
  match option, current with
  | none, _ => True
  | some .nx, d => d = none
  | some .xx, d => d ≠ none
  | some .gt, none => False
  | some .gt, some d => d < new
  | some .lt, none => True
  | some .lt, some d => new < d

instance (option : Option ExpireOption) (current : Option ℚ) (new : ℚ) :
    Decidable (ShouldApplyExpiry option current new) :=
  match option, current with
  | none, _ => .isTrue trivial
  | some .nx, d => inferInstanceAs (Decidable (d = none))
  | some .xx, d => inferInstanceAs (Decidable (d ≠ none))
  | some .gt, none => .isFalse id
  | some .gt, some d => inferInstanceAs (Decidable (d < new))
  | some .lt, none => .isTrue trivial
  | some .lt, some d => inferInstanceAs (Decidable (new < d))

end Ticketing.Storage
