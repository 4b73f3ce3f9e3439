import SqlCompose.Number.Binary64
import SqlCompose.Text.Hex
import SqlCompose.Text.Numeral
import SqlCompose.Toml.Document

namespace SqlCompose.Toml
open Text (isDigit hexValue?)
open Number (tenTo)
open Number.Binary64 (magnitudeOfRatio infinityBits)

def separated (accepts : Char → Bool) : List Char → Bool
  | [] => false
  | [c] => accepts c
  | c :: '_' :: rest => accepts c && separated accepts rest
  | c :: rest => accepts c && separated accepts rest

def digits? (accepts : Char → Bool) (s : List Char) : Option (List Char) :=
  if separated accepts s then some (s.filter (· != '_')) else none

def ofBase (base : Nat) (digits : List Char) : Nat :=
  digits.foldl (fun n c => base * n + (hexValue? c).getD 0) 0

def splitSign : List Char → Bool × List Char
  | '-' :: rest => (true, rest)
  | '+' :: rest => (false, rest)
  | s => (false, s)

def wholeDigits? (s : List Char) : Option (List Char) :=
  match s with
  | ['0'] => some s
  | '0' :: _ => none
  | _ => digits? isDigit s

def integer? (s : List Char) : Option Int :=
  match s with
  | '0' :: 'x' :: rest => (digits? (fun c => (hexValue? c).isSome) rest).map (ofBase 16 ·)
  | '0' :: 'o' :: rest => (digits? (fun c => '0' ≤ c && c ≤ '7') rest).map (ofBase 8 ·)
  | '0' :: 'b' :: rest => (digits? (fun c => c == '0' || c == '1') rest).map (ofBase 2 ·)
  | _ =>
    let (negative, s) := splitSign s
    (wholeDigits? s).map fun digits =>
      let n : Int := ofBase 10 digits
      if negative then -n else n

def inRange (n : Int) : Bool :=
  -0x80000000000000000000000000000000 ≤ n && n < 0x100000000000000000000000000000000

def isFinite (digits : List Char) (exponent : Int) : Bool :=
  let n := ofBase 10 digits
  let size := (Nat.toDigits 10 n).length + exponent
  if n = 0 ∨ size < -400 then true
  else if 400 < size then false
  else magnitudeOfRatio (n * tenTo exponent.toNat) (tenTo (-exponent).toNat) < infinityBits

def isExponentMark (c : Char) : Bool := c == 'e' || c == 'E'

def isFloat (s : List Char) : Bool :=
  let (_, s) := splitSign s
  if s = ['i', 'n', 'f'] ∨ s = ['n', 'a', 'n'] then true
  else
    let mantissa := s.takeWhile (!isExponentMark ·)
    let marked := s.dropWhile (!isExponentMark ·)
    let whole := mantissa.takeWhile (· != '.')
    let pointed := mantissa.dropWhile (· != '.')
    let fraction := if pointed.isEmpty then some [] else digits? isDigit (pointed.drop 1)
    let exponent :=
      if marked.isEmpty then some 0
      else
        let (negative, s) := splitSign (marked.drop 1)
        (digits? isDigit s).map fun digits =>
          let n : Int := ofBase 10 digits
          if negative then -n else n
    match wholeDigits? whole, fraction, exponent with
    | some whole, some fraction, some exponent =>
      !(pointed.isEmpty && marked.isEmpty) &&
        isFinite (whole ++ fraction) (exponent - fraction.length)
    | _, _, _ => false

def twoDigits? (a b : Char) : Option Nat :=
  if isDigit a && isDigit b then some (Text.ofDigits [a, b]) else none

def daysIn (year month : Nat) : Nat :=
  if month = 2 then if year % 4 = 0 ∧ (year % 100 ≠ 0 ∨ year % 400 = 0) then 29 else 28
  else if month = 4 ∨ month = 6 ∨ month = 9 ∨ month = 11 then 30
  else 31

def readDate : List Char → Option (List Char)
  | y₁ :: y₂ :: y₃ :: y₄ :: '-' :: m₁ :: m₂ :: '-' :: d₁ :: d₂ :: rest => do
    let century ← twoDigits? y₁ y₂
    let year ← twoDigits? y₃ y₄
    let month ← twoDigits? m₁ m₂
    let day ← twoDigits? d₁ d₂
    if 1 ≤ month ∧ month ≤ 12 ∧ 1 ≤ day ∧ day ≤ daysIn (100 * century + year) month then some rest
    else none
  | _ => none

def readSubsecond : List Char → Option (List Char)
  | '.' :: c :: rest => if isDigit c then some (rest.dropWhile isDigit) else none
  | '.' :: [] => none
  | rest => some rest

def readClock : List Char → Option (List Char)
  | h₁ :: h₂ :: ':' :: m₁ :: m₂ :: rest => do
    let hour ← twoDigits? h₁ h₂
    let minute ← twoDigits? m₁ m₂
    if hour ≤ 23 ∧ minute ≤ 59 then some rest else none
  | _ => none

def readTime (s : List Char) : Option (List Char) := do
  match ← readClock s with
  | ':' :: s₁ :: s₂ :: rest =>
    let second ← twoDigits? s₁ s₂
    if 60 < second then none else readSubsecond rest
  | rest => some rest

def isOffset : List Char → Bool
  | [] | ['Z'] | ['z'] => true
  | sign :: clock => (sign == '+' || sign == '-') && readClock clock == some []

def isDatetime (s : List Char) : Bool :=
  match readDate s with
  | some [] => true
  | some (c :: rest) =>
    (c == 'T' || c == 't' || c == ' ') && ((readTime rest).map isOffset).getD false
  | none => readTime s == some []

def isWordChar (c : Char) : Bool :=
  c.isAlphanum || c == '_' || c == '-' || c == '+' || c == '.' || c == ':'

-- One word; a date takes the time of day after one space with it.
def spanWord (s : List Char) : List Char × List Char :=
  let word := s.takeWhile isWordChar
  let rest := s.dropWhile isWordChar
  match readDate word, rest with
  | some [], ' ' :: c :: rest =>
    let time := c :: rest
    if isDigit c then (word ++ ' ' :: time.takeWhile isWordChar, time.dropWhile isWordChar)
    else (word, ' ' :: time)
  | _, rest => (word, rest)

def scalarItem? (word : List Char) : Option Item :=
  if word = "true".toList then some (.boolean true)
  else if word = "false".toList then some (.boolean false)
  else
    match integer? word with
    | some n => if inRange n then some (.integer n) else none
    | none =>
      if isFloat word then some .float
      else if isDatetime word then some .datetime
      else none

end SqlCompose.Toml
