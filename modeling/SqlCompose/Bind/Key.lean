import SqlCompose.Text.Numeral

namespace SqlCompose

-- The second key of the third registry is _3_2_, spliced into SQL as :_3_2_.
structure Key where
  ordinal : UInt64
  sequence : UInt64
  deriving DecidableEq, Repr

namespace Key

def text (k : Key) : String :=
  "_" ++ Text.numeral k.ordinal.toNat ++ "_" ++ Text.numeral k.sequence.toNat ++ "_"

def placeholder (k : Key) : String := ":" ++ k.text

end Key

end SqlCompose
