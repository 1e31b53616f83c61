import Mathlib.Data.List.Basic

namespace JsonText

/-- A code point, a lone surrogate included. -/
abbrev CodePoint := Fin 0x110000

abbrev Str := List CodePoint

def CodePoint.ofChar (c : Char) : CodePoint :=
  ⟨c.toNat, by have h := c.valid; simp only [UInt32.isValidChar, Nat.isValidChar] at h; simp only [Char.toNat]; omega⟩

def CodePoint.ofNat (n : Nat) : CodePoint := if h : n < 0x110000 then ⟨n, h⟩ else ⟨0xfffd, by decide⟩

def Str.ofString (s : String) : Str := s.toList.map CodePoint.ofChar

def CodePoint.toChar? (c : CodePoint) : Option Char :=
  if h : c.val.isValidChar then some (Char.ofNatAux c.val h) else none

/-- The text as Unicode scalar values; a lone surrogate has none. -/
def Str.toString? (s : Str) : Option String := (s.mapM CodePoint.toChar?).map String.ofList

inductive Value
  | null
  | bool (b : Bool)
  | number (literal : List Char)
  | str (s : Str)
  | array (items : List Value)
  | object (members : List (Str × Value))

/-! ### Writing -/

def hexUnit (n : Nat) : List Char :=
  ['\\', 'u', Nat.digitChar (n / 4096 % 16), Nat.digitChar (n / 256 % 16),
    Nat.digitChar (n / 16 % 16), Nat.digitChar (n % 16)]

/-- Escape one code point, so that only printable ASCII is written. -/
def escape (c : CodePoint) : List Char :=
  if c.val = 0x22 then ['\\', '"']
  else if c.val = 0x5c then ['\\', '\\']
  else if c.val = 0x0a then ['\\', 'n']
  else if c.val = 0x0d then ['\\', 'r']
  else if c.val = 0x09 then ['\\', 't']
  else if c.val = 0x0c then ['\\', 'f']
  else if c.val = 0x08 then ['\\', 'b']
  else if 0x20 ≤ c.val ∧ c.val ≤ 0x7e then [Char.ofNat c.val]
  else if c.val < 0x10000 then hexUnit c.val
  else hexUnit (0xd800 + (c.val - 0x10000) / 0x400) ++ hexUnit (0xdc00 + (c.val - 0x10000) % 0x400)

def writeStr (s : Str) : List Char := '"' :: s.flatMap escape ++ ['"']

def joinWith (sep : Char) : List (List Char) → List Char
  | [] => []
  | [x] => x
  | x :: xs => x ++ sep :: joinWith sep xs

mutual

def write : Value → List Char
  | .null => ['n', 'u', 'l', 'l']
  | .bool true => ['t', 'r', 'u', 'e']
  | .bool false => ['f', 'a', 'l', 's', 'e']
  | .number literal => literal
  | .str s => writeStr s
  | .array items => '[' :: joinWith ',' (writeItems items) ++ [']']
  | .object members => '{' :: joinWith ',' (writeMembers members) ++ ['}']

def writeItems : List Value → List (List Char)
  | [] => []
  | v :: vs => write v :: writeItems vs

def writeMembers : List (Str × Value) → List (List Char)
  | [] => []
  | (k, v) :: ms => (writeStr k ++ ':' :: write v) :: writeMembers ms

end

/-- The compact text of a value, with the separators "," and ":". -/
def dumps (v : Value) : String := String.ofList (write v)

/-! ### Reading -/

def hexDigit (c : Char) : Option Nat :=
  if '0' ≤ c ∧ c ≤ '9' then some (c.toNat - 48)
  else if 'a' ≤ c ∧ c ≤ 'f' then some (c.toNat - 87)
  else if 'A' ≤ c ∧ c ≤ 'F' then some (c.toNat - 55)
  else none

def readHex (a b c d : Char) : Option Nat := do
  return (((← hexDigit a) * 16 + (← hexDigit b)) * 16 + (← hexDigit c)) * 16 + (← hexDigit d)

def IsHigh (n : Nat) : Prop := 0xd800 ≤ n ∧ n ≤ 0xdbff

def IsLow (n : Nat) : Prop := 0xdc00 ≤ n ∧ n ≤ 0xdfff

instance (n : Nat) : Decidable (IsHigh n) := inferInstanceAs (Decidable (_ ∧ _))

instance (n : Nat) : Decidable (IsLow n) := inferInstanceAs (Decidable (_ ∧ _))

/-- An escaped high surrogate takes the escaped low surrogate after it. Text
outside escapes has no surrogates, so a low one at the head was escaped. -/
def joinUnit (u : Nat) (s : Str) : Str :=
  match s with
  | [] => [CodePoint.ofNat u]
  | lo :: s' =>
      if IsHigh u ∧ IsLow lo.val then
        CodePoint.ofNat (0x10000 + (u - 0xd800) * 0x400 + (lo.val - 0xdc00)) :: s'
      else CodePoint.ofNat u :: s

def escapeCode : Char → Option Nat
  | '"' => some 0x22
  | '\\' => some 0x5c
  | '/' => some 0x2f
  | 'b' => some 0x08
  | 'f' => some 0x0c
  | 'n' => some 0x0a
  | 'r' => some 0x0d
  | 't' => some 0x09
  | _ => none

/-- Read the rest of a string literal, after the opening quote. -/
def readStr : List Char → Option (Str × List Char)
  | [] => none
  | '"' :: rest => some ([], rest)
  | '\\' :: 'u' :: a :: b :: c :: d :: rest =>
      (readHex a b c d).bind (fun u => (readStr rest).map (fun p => (joinUnit u p.1, p.2)))
  | '\\' :: e :: rest =>
      (escapeCode e).bind (fun n => (readStr rest).map (fun p => (CodePoint.ofNat n :: p.1, p.2)))
  | c :: rest =>
      if c.toNat < 0x20 then none
      else (readStr rest).map (fun p => (CodePoint.ofChar c :: p.1, p.2))

def isSpace (c : Char) : Bool := c = ' ' || c = '\t' || c = '\n' || c = '\r'

def skipSpace (cs : List Char) : List Char := cs.dropWhile isSpace

/-- Split off the longest run of ASCII digits. -/
def readDigits (cs : List Char) : List Char × List Char := cs.span (fun c => '0' ≤ c && c ≤ '9')

def readFraction : List Char → List Char × List Char
  | '.' :: cs => match readDigits cs with
    | ([], _) => ([], '.' :: cs)
    | (ds, rest) => ('.' :: ds, rest)
  | cs => ([], cs)

def readExponent (cs : List Char) : List Char × List Char :=
  match cs with
  | e :: rest =>
      if e = 'e' ∨ e = 'E' then
        let (sign, rest) := match rest with
          | '+' :: r => (['+'], r)
          | '-' :: r => (['-'], r)
          | r => ([], r)
        match readDigits rest with
        | ([], _) => ([], cs)
        | (ds, rest) => (e :: sign ++ ds, rest)
      else ([], cs)
  | [] => ([], [])

/-- The number of digits at which an integer literal is refused. -/
def maxDigits : Nat := 4300

def readNumber (cs : List Char) : Option (Value × List Char) :=
  let (sign, rest) := match cs with
    | '-' :: r => (['-'], r)
    | r => ([], r)
  let (int, rest) := match rest with
    | '0' :: r => (['0'], r)
    | r => readDigits r
  if int = [] then none
  else
    let (frac, rest) := readFraction rest
    let (exp, rest) := readExponent rest
    if frac = [] ∧ exp = [] ∧ maxDigits < int.length then none
    else some (.number (sign ++ int ++ frac ++ exp), rest)

mutual

def readValue : Nat → List Char → Option (Value × List Char)
  | 0, _ => none
  | fuel + 1, cs => match cs with
    | '"' :: rest => (readStr rest).map (fun p => (.str p.1, p.2))
    | '[' :: rest => match skipSpace rest with
      | ']' :: rest => some (.array [], rest)
      | rest => (readItems fuel rest).map (fun p => (.array p.1, p.2))
    | '{' :: rest => match skipSpace rest with
      | '}' :: rest => some (.object [], rest)
      | rest => (readMembers fuel rest).map (fun p => (.object p.1, p.2))
    | 'n' :: 'u' :: 'l' :: 'l' :: rest => some (.null, rest)
    | 't' :: 'r' :: 'u' :: 'e' :: rest => some (.bool true, rest)
    | 'f' :: 'a' :: 'l' :: 's' :: 'e' :: rest => some (.bool false, rest)
    | 'N' :: 'a' :: 'N' :: rest => some (.number ['N', 'a', 'N'], rest)
    | 'I' :: 'n' :: 'f' :: 'i' :: 'n' :: 'i' :: 't' :: 'y' :: rest => some (.number "Infinity".toList, rest)
    | '-' :: 'I' :: 'n' :: 'f' :: 'i' :: 'n' :: 'i' :: 't' :: 'y' :: rest =>
        some (.number "-Infinity".toList, rest)
    | cs => readNumber cs

def readItems : Nat → List Char → Option (List Value × List Char)
  | 0, _ => none
  | fuel + 1, cs => (readValue fuel cs).bind (fun p => match skipSpace p.2 with
    | ']' :: rest => some ([p.1], rest)
    | ',' :: rest => (readItems fuel (skipSpace rest)).map (fun q => (p.1 :: q.1, q.2))
    | _ => none)

def readMembers : Nat → List Char → Option (List (Str × Value) × List Char)
  | 0, _ => none
  | fuel + 1, cs => match cs with
    | '"' :: rest => (readStr rest).bind (fun k => match skipSpace k.2 with
      | ':' :: rest => (readValue fuel (skipSpace rest)).bind (fun p => match skipSpace p.2 with
        | '}' :: rest => some ([(k.1, p.1)], rest)
        | ',' :: rest => (readMembers fuel (skipSpace rest)).map (fun q => ((k.1, p.1) :: q.1, q.2))
        | _ => none)
      | _ => none)
    | _ => none

end

/-- The value of a text, or nothing where the text is malformed. Every call
of a reader consumes a character, so the length bounds their depth. -/
def loads (text : String) : Option Value :=
  (readValue (text.toList.length + 1) (skipSpace text.toList)).bind (fun p =>
    if skipSpace p.2 = [] then some p.1 else none)

/-- Of equal names in an object the last one counts. -/
def member? (name : Str) (members : List (Str × Value)) : Option Value :=
  (members.reverse.find? (fun m => m.1 = name)).map Prod.snd

end JsonText
