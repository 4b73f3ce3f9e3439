import SqlCompose.Number.Power

namespace SqlCompose.Number

structure Binary64 where
  bits : UInt64
  deriving DecidableEq, Repr, Inhabited

namespace Binary64

def negative (x : Binary64) : Bool := signedBound ≤ x.bits.toNat

def magnitude (x : Binary64) : Nat := x.bits.toNat % signedBound

def fractionSize : Nat := 0x10000000000000

def infinityBits : Nat := 0x7ff * fractionSize

def isNaN (x : Binary64) : Bool := infinityBits < x.magnitude

def isInfinite (x : Binary64) : Bool := x.magnitude == infinityBits

def isZero (x : Binary64) : Bool := x.magnitude == 0

def ofMagnitude (negative : Bool) (magnitude : Nat) : Binary64 :=
  ⟨UInt64.ofNat (magnitude + if negative then signedBound else 0)⟩

def same (x y : Binary64) : Bool :=
  !x.isNaN && !y.isNaN && (x.bits == y.bits || (x.isZero && y.isZero))

structure Scaled where
  significand : Nat
  exponent : Int
  deriving DecidableEq, Repr

def scaled (x : Binary64) : Scaled :=
  let fraction := x.magnitude % fractionSize
  let biased := x.magnitude / fractionSize
  if biased = 0 then ⟨fraction, -1074⟩ else ⟨fractionSize + fraction, Int.ofNat biased - 1075⟩

def roundDiv (num den : Nat) : Nat :=
  let q := num / den
  let r := num % den
  if 2 * r > den ∨ (2 * r = den ∧ q % 2 = 1) then q + 1 else q

def ratioExponent (num den : Nat) : Int :=
  let e : Int := (num.log2 : Int) - den.log2
  if den * twoTo e.toNat ≤ num * twoTo (-e).toNat then e else e - 1

-- The magnitude nearest to num / den, ties to even; infinity when the ratio is too large. The significand is added
-- to the shifted exponent, so one that rounds up to 2 ^ 53 carries by itself.
def magnitudeOfRatio (num den : Nat) : Nat :=
  if num = 0 then 0
  else
    let q := max (ratioExponent num den - 52) (-1074)
    let significand := roundDiv (num * twoTo (-q).toNat) (den * twoTo q.toNat)
    min infinityBits (significand + (q + 1074).toNat * fractionSize)

def ofRatio (negative : Bool) (num den : Nat) : Binary64 :=
  ofMagnitude negative (magnitudeOfRatio num den)

def ofBinary32 (bits : UInt32) : Binary64 :=
  let n := bits.toNat
  let negative := decide (twoTo 31 ≤ n)
  let biased := n / twoTo 23 % twoTo 8
  let fraction := n % twoTo 23
  if biased = 0xff then
    let quiet := if fraction = 0 then 0 else (fraction % twoTo 22 + twoTo 22) * twoTo 29
    ofMagnitude negative (infinityBits + quiet)
  else
    let significand := if biased = 0 then fraction else twoTo 23 + fraction
    ofRatio negative (significand * twoTo (biased - 1)) (twoTo 149)

end Binary64

end SqlCompose.Number
