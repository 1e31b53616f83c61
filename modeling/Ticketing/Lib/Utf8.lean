import Mathlib.Data.List.Basic

namespace Utf8

def encode (s : String) : List UInt8 := s.toList.flatMap String.utf8EncodeChar

/-- The six bits of a continuation byte. -/
def tail (b : UInt8) : Option Nat := if 0x80 ≤ b ∧ b < 0xc0 then some (b.toNat - 0x80) else none

/-- A scalar value that is at least `least`: shorter encodings are refused. -/
def char? (least n : Nat) : Option Char :=
  if h : n.isValidChar then if least ≤ n then some (Char.ofNatAux n h) else none else none

def next : List UInt8 → Option (Char × List UInt8)
  | [] => none
  | a :: rest =>
    if a < 0x80 then some (Char.ofNat a.toNat, rest)
    else if 0xc0 ≤ a ∧ a < 0xe0 then match rest with
      | b :: rest => do
        let n := (a.toNat - 0xc0) * 64 + (← tail b)
        return (← char? 0x80 n, rest)
      | _ => none
    else if 0xe0 ≤ a ∧ a < 0xf0 then match rest with
      | b :: c :: rest => do
        let n := ((a.toNat - 0xe0) * 64 + (← tail b)) * 64 + (← tail c)
        return (← char? 0x800 n, rest)
      | _ => none
    else if 0xf0 ≤ a ∧ a < 0xf8 then match rest with
      | b :: c :: d :: rest => do
        let n := (((a.toNat - 0xf0) * 64 + (← tail b)) * 64 + (← tail c)) * 64 + (← tail d)
        return (← char? 0x10000 n, rest)
      | _ => none
    else none

def decodeChars : Nat → List UInt8 → Option (List Char)
  | _, [] => some []
  | 0, _ => none
  | fuel + 1, bs => (next bs).bind (fun p => (decodeChars fuel p.2).map (p.1 :: ·))

/-- The text of well-formed bytes. Every character consumes a byte, so the
length bounds their number. -/
def decode (bs : List UInt8) : Option String := (decodeChars bs.length bs).map String.ofList

end Utf8
