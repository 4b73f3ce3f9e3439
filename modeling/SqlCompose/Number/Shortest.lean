import SqlCompose.Number.Binary64
import SqlCompose.Text.Numeral

namespace SqlCompose.Number

structure Decimal where
  digits : Nat
  exponent : Int
  deriving DecidableEq, Repr

namespace Binary64

-- The reals that round to a finite nonzero magnitude, in units of 2 ^ unit: those between low and high, the ends
-- themselves when the significand is even. Below a power of two the gap is halved.
structure Neighbourhood where
  low : Nat
  value : Nat
  high : Nat
  unit : Int
  closed : Bool
  deriving DecidableEq, Repr

def neighbourhood (x : Binary64) : Neighbourhood :=
  let s := x.scaled
  let below := if s.significand = fractionSize ∧ -1074 < s.exponent then 1 else 2
  ⟨4 * s.significand - below, 4 * s.significand, 4 * s.significand + 2, s.exponent - 2,
    s.significand % 2 = 0⟩

def Neighbourhood.contains (n : Neighbourhood) (grid : Int) (count : Nat) : Bool :=
  let point := count * tenTo grid.toNat * twoTo (-n.unit).toNat
  let scale := twoTo n.unit.toNat * tenTo (-grid).toNat
  if n.closed then n.low * scale ≤ point && point ≤ n.high * scale
  else n.low * scale < point && point < n.high * scale

def Neighbourhood.pick (n : Neighbourhood) (grid : Int) : Option Decimal :=
  let step := tenTo grid.toNat * twoTo (-n.unit).toNat
  let value := n.value * (twoTo n.unit.toNat * tenTo (-grid).toNat)
  let floor := value / step
  let lower := n.contains grid floor
  let upper := n.contains grid (floor + 1)
  if upper && (!lower || step ≤ 2 * (value % step)) then some ⟨floor + 1, grid⟩
  else if lower then some ⟨floor, grid⟩
  else none

def Neighbourhood.leading (n : Neighbourhood) : Int :=
  let whole := n.value * twoTo n.unit.toNat * tenTo 340 / twoTo (-n.unit).toNat
  ((Nat.toDigits 10 whole).length : Int) - 341

-- Seventeen digits always suffice, so the search ends before its default.
def shortest (x : Binary64) : Decimal :=
  let n := x.neighbourhood
  ((List.range 17).findSome? fun (extra : Nat) => n.pick (n.leading - (extra : Int))).getD ⟨0, 0⟩

end Binary64

def trimZeros (ds : List Char) : List Char := (ds.reverse.dropWhile (· == '0')).reverse

def Decimal.positional (d : Decimal) : String :=
  let digits := Nat.toDigits 10 d.digits
  if 0 ≤ d.exponent then String.ofList (digits ++ List.replicate d.exponent.toNat '0')
  else
    let places := (-d.exponent).toNat
    let padded := List.replicate (places + 1 - digits.length) '0' ++ digits
    let whole := padded.take (padded.length - places)
    let fraction := trimZeros (padded.drop (padded.length - places))
    String.ofList (if fraction.isEmpty then whole else whole ++ '.' :: fraction)

def Binary64.text (x : Binary64) : String :=
  let sign := if x.negative then "-" else ""
  if x.isNaN then "NaN"
  else if x.isInfinite then sign ++ "inf"
  else if x.isZero then sign ++ "0"
  else sign ++ x.shortest.positional

end SqlCompose.Number
