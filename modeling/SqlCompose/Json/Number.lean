import SqlCompose.Json.Tree
import SqlCompose.Value

namespace SqlCompose.Json
open Number (Binary64 tenTo twoTo maxWord)
open Number.Binary64 (magnitudeOfRatio infinityBits)

-- The digits that fit a word make the significand, which is then scaled by a power of ten. Each step rounds by
-- itself, so the last place may differ from the nearest double.
def gather (n : Nat) : List Char → Nat × List Char
  | [] => (n, [])
  | c :: rest =>
    let next := 10 * n + (c.toNat - 48)
    if next ≤ maxWord then gather next rest else (n, c :: rest)

def ratio (magnitude : Nat) : Nat × Nat :=
  let s := (Binary64.ofMagnitude false magnitude).scaled
  (s.significand * twoTo s.exponent.toNat, twoTo (-s.exponent).toNat)

def product (a b : Nat) : Nat :=
  magnitudeOfRatio ((ratio a).1 * (ratio b).1) ((ratio a).2 * (ratio b).2)

def quotient (a b : Nat) : Nat :=
  magnitudeOfRatio ((ratio a).1 * (ratio b).2) ((ratio a).2 * (ratio b).1)

def maxPower : Nat := 308

def powerOfTen (k : Nat) : Nat := magnitudeOfRatio (tenTo k) 1

def scaleDown (magnitude places : Nat) : Nat :=
  if places ≤ maxPower then quotient magnitude (powerOfTen places)
  else if magnitude = 0 then 0
  else scaleDown (quotient magnitude (powerOfTen maxPower)) (places - maxPower)
termination_by places
decreasing_by have : 0 < maxPower := by decide
              omega

def scale (magnitude : Nat) : Int → Option Nat
  | .ofNat places =>
    if places ≤ maxPower then
      let scaled := product magnitude (powerOfTen places)
      if scaled = infinityBits then none else some scaled
    else if magnitude = 0 then some 0
    else none
  | .negSucc n => some (scaleDown magnitude (n + 1))

def Literal.double? (l : Literal) : Option Binary64 :=
  let (n, left) := gather 0 l.whole
  let (n, unread) := gather n l.fraction
  let places := (left.length : Int) - (l.fraction.length - unread.length : Nat) + l.exponent.getD 0
  (scale (magnitudeOfRatio n 1) places).map (Binary64.ofMagnitude l.negative)

def Literal.integer? (l : Literal) : Option Int :=
  if l.fraction.isEmpty && l.exponent.isNone then
    let n : Int := Text.ofDigits l.whole
    if l.negative then if n = 0 then none else some (-n) else some n
  else none

def Literal.word? (l : Literal) : Option Int64 :=
  match l.integer? with
  | some i => if Number.isSigned i then some (Int64.ofInt i) else none
  | none => none

def Literal.value? (l : Literal) : Option Value :=
  match l.word? with
  | some i => some (.int i)
  | none => l.double?.map .float

end SqlCompose.Json
