import SqlCompose.Number.Shortest

namespace SqlCompose
open Number (Binary64)

inductive Value where
  | null
  | bool (b : Bool)
  | int (i : Int64)
  | float (x : Binary64)
  | str (s : String)
  deriving DecidableEq, Repr, Inhabited

namespace Value

-- A word beyond the signed range keeps its digits as a string, so no count is rounded or refused.
def ofWord (n : UInt64) : Value :=
  if n.toNat < Number.signedBound then .int n.toInt64 else .str (Text.numeral n.toNat)

def ofBinary32 (bits : UInt32) : Value := .float (Binary64.ofBinary32 bits)

def ofOption : Option Value → Value
  | none => .null
  | some v => v

def isNull : Value → Bool
  | .null => true
  | _ => false

def text : Value → String
  | .null => "NULL"
  | .bool b => if b then "1" else "0"
  | .int i => Text.signedNumeral i.toInt
  | .float x => x.text
  | .str s => s

def same : Value → Value → Bool
  | .float x, .float y => x.same y
  | a, b => a == b

end Value

end SqlCompose
