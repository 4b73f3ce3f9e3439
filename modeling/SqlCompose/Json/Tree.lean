namespace SqlCompose.Json

structure Literal where
  negative : Bool
  whole : List Char
  fraction : List Char
  exponent : Option Int
  deriving DecidableEq, Repr

abbrev Units := List Nat

-- As written: numbers keep their digits, and strings their code points and \u escapes, so that a part of a document
-- that is never used may hold what has no meaning here.
inductive Tree where
  | null
  | bool (b : Bool)
  | number (literal : Literal)
  | string (units : Units)
  | array (items : List Tree)
  | object (fields : List (Units × Tree))
  deriving Repr

def isHighSurrogate (n : Nat) : Bool := 0xd800 ≤ n && n ≤ 0xdbff

def isLowSurrogate (n : Nat) : Bool := 0xdc00 ≤ n && n ≤ 0xdfff

def chars? : Units → Option (List Char)
  | [] => some []
  | high :: low :: rest =>
    if isHighSurrogate high then
      if isLowSurrogate low then
        (chars? rest).map (Char.ofNat ((high - 0xd800) * 0x400 + (low - 0xdc00) + 0x10000) :: ·)
      else none
    else if isLowSurrogate high then none
    else (chars? (low :: rest)).map (Char.ofNat high :: ·)
  | [n] => if isHighSurrogate n || isLowSurrogate n then none else some [Char.ofNat n]

def text? (units : Units) : Option String := (chars? units).map String.ofList

end SqlCompose.Json
