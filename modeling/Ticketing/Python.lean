import Ticketing.Lib.Decimal
import Ticketing.Lib.JsonRoundTrip
import Mathlib.Algebra.Order.Field.Rat
import Mathlib.Data.Rat.Floor

namespace Ticketing.Python

open JsonText

/-! What the source takes from the language: exceptions, text and numbers. -/

/-- The class of a raised exception. -/
inductive ErrorKind
  | valueError | typeError | attributeError | overflowError | unicodeEncodeError | unicodeDecodeError
  | jsonDecodeError | osError | recursionError | runtimeError
  | commandError | unknownCommandError | wrongNumberOfArgumentsError | protocolError
  | integrityError | notFoundError | conflictError | upstreamError
  deriving DecidableEq, Repr

structure Error where
  kind : ErrorKind
  message : String
  deriving DecidableEq, Repr

/-- Where a sequence of two steps returns, both do. -/
theorem bind_ok {ε α β : Type} {x : Except ε α} {f : α → Except ε β} {b : β} (h : (x >>= f) = .ok b) :
    ∃ a, x = .ok a ∧ f a = .ok b := by
  cases x with
  | error e => cases h
  | ok a => exact ⟨a, rfl, h⟩

theorem mapM_ok {ε α β : Type} {f : α → Except ε β} {xs : List α} {ys : List β} :
    xs.mapM f = .ok ys ↔ List.Forall₂ (fun x y => f x = .ok y) xs ys := by
  constructor
  · intro h
    induction xs generalizing ys with
    | nil => cases h; exact .nil
    | cons x xs ih =>
        rw [List.mapM_cons] at h
        obtain ⟨y, hy, h⟩ := bind_ok h
        obtain ⟨ys, hys, h⟩ := bind_ok h
        cases h
        exact .cons hy (ih hys)
  · intro h
    induction h with
    | nil => rfl
    | cons hy _ ih =>
        rw [List.mapM_cons, hy, ih]
        rfl

/-- The characters that are not ASCII and whose upper case is. -/
def upperToAscii : List (Char × String) :=
  [('\u00df', "SS"), ('\u0131', "I"), ('\u017f', "S"), ('\ufb00', "FF"), ('\ufb01', "FI"), ('\ufb02', "FL"),
    ('\ufb03', "FFI"), ('\ufb04', "FFL"), ('\ufb05', "ST"), ('\ufb06', "ST")]

def upperChar (c : Char) : List Char :=
  match upperToAscii.find? (fun p => p.1 = c) with
  | some p => p.2.toList
  | none => [c.toUpper]

/-- `str.upper`. The source compares the result with ASCII names only, so the
characters whose upper case is not ASCII are kept as they are. -/
def upper (s : String) : String := String.ofList (s.toList.flatMap upperChar)

/-- The zeros of the runs of ten decimal digits. -/
def decimalZeros : List Nat :=
  [0x30, 0x660, 0x6f0, 0x7c0, 0x966, 0x9e6, 0xa66, 0xae6, 0xb66, 0xbe6, 0xc66, 0xce6, 0xd66, 0xde6, 0xe50,
    0xed0, 0xf20, 0x1040, 0x1090, 0x17e0, 0x1810, 0x1946, 0x19d0, 0x1a80, 0x1a90, 0x1b50, 0x1bb0, 0x1c40,
    0x1c50, 0xa620, 0xa8d0, 0xa900, 0xa9d0, 0xa9f0, 0xaa50, 0xabf0, 0xff10, 0x104a0, 0x10d30, 0x11066,
    0x110f0, 0x11136, 0x111d0, 0x112f0, 0x11450, 0x114d0, 0x11650, 0x116c0, 0x11730, 0x118e0, 0x11950,
    0x11c50, 0x11d50, 0x11da0, 0x16a60, 0x16ac0, 0x16b50, 0x1d7ce, 0x1d7d8, 0x1d7e2, 0x1d7ec, 0x1d7f6,
    0x1e140, 0x1e2f0, 0x1e950, 0x1fbf0]

def decimalDigit (c : Char) : Option Nat :=
  (decimalZeros.find? (fun z => z ≤ c.toNat && c.toNat < z + 10)).map (fun z => c.toNat - z)

def spaces : List Nat :=
  [0x9, 0xa, 0xb, 0xc, 0xd, 0x1c, 0x1d, 0x1e, 0x1f, 0x20, 0x85, 0xa0, 0x1680, 0x2000, 0x2001, 0x2002, 0x2003,
    0x2004, 0x2005, 0x2006, 0x2007, 0x2008, 0x2009, 0x200a, 0x2028, 0x2029, 0x202f, 0x205f, 0x3000]

def textAlphabet : Decimal.Alphabet Char where
  digit := decimalDigit
  isSpace c := spaces.contains c.toNat
  plus := '+'
  minus := '-'
  underscore := '_'

/-- The conversion limit of the interpreter between text and integers. -/
def maxStrDigits : Nat := 4300

/-- `int` does not strip U+001C to U+001F, which `str.strip` does. -/
def intAlphabet : Decimal.Alphabet Char :=
  { textAlphabet with isSpace := fun c => spaces.contains c.toNat && !(0x1c ≤ c.toNat && c.toNat ≤ 0x1f) }

/-- `int(text)`. -/
def parseInt (s : String) : Option Int := Decimal.readInt intAlphabet maxStrDigits s.toList

/-- `str(n)`. -/
def strInt (n : Int) : Except Error String :=
  if (Nat.toDigits 10 n.natAbs).length ≤ maxStrDigits then
    .ok (String.ofList (Decimal.spellInt id n))
  else .error ⟨.valueError, "Exceeds the limit (4300 digits) for integer string conversion"⟩

theorem decimalZeros_spaces : ∀ z ∈ decimalZeros, ∀ s ∈ spaces, ¬ (z ≤ s ∧ s < z + 10) := by
  decide +kernel

theorem intAlphabet_spells : Decimal.Spells intAlphabet id where
  digit d hd := by interval_cases d <;> rfl
  space c d h := by
    obtain ⟨z, hz, _⟩ := Option.map_eq_some_iff.mp h
    have hr := List.find?_some hz
    simp only [Bool.and_eq_true, decide_eq_true_eq] at hr
    have hspace : spaces.contains c.toNat = false := by
      rw [List.contains_eq_mem, decide_eq_false_iff_not]
      exact fun hs => decimalZeros_spaces z (List.mem_of_find?_eq_some hz) _ hs hr
    simp only [intAlphabet, hspace, Bool.false_and]
  underscore := by decide
  plus := by decide
  minus := by decide
  minus_space := by decide
  minus_plus := by decide
  sym_minus := rfl

theorem parseInt_strInt {n : Int} {s : String} (h : strInt n = .ok s) : parseInt s = some n := by
  unfold strInt at h
  split at h
  next hn =>
    cases h
    rw [parseInt, String.toList_ofList]
    exact Decimal.readInt_spellInt intAlphabet_spells hn
  next => cases h

/-- From here on `float(n)` overflows: the least integer that rounds to 2^1024. -/
@[irreducible] def floatOverflow : Nat := 2 ^ 1024 - 2 ^ 970

/-- `float(n)`, with exact arithmetic below the overflow. -/
def toFloat (n : Int) : Except Error ℚ :=
  if n.natAbs < floatOverflow then .ok n
  else .error ⟨.overflowError, "int too large to convert to float"⟩

/-- Integers that fit a column of the database. -/
def IsInt64 (n : Int) : Prop := -2 ^ 63 ≤ n ∧ n < 2 ^ 63

instance (n : Int) : Decidable (IsInt64 n) := inferInstanceAs (Decidable (_ ∧ _))

end Ticketing.Python
