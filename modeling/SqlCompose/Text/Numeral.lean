namespace SqlCompose.Text

def numeral (n : Nat) : String := String.ofList (Nat.toDigits 10 n)

def isDigit (c : Char) : Bool := '0' ≤ c && c ≤ '9'

def spanDigits (s : List Char) : List Char × List Char := (s.takeWhile isDigit, s.dropWhile isDigit)

def ofDigits (ds : List Char) : Nat := Nat.ofDigitChars 10 ds 0

def readNumeral (s : List Char) : Option (Nat × List Char) :=
  match spanDigits s with
  | ([], _) => none
  | (ds, rest) => some (ofDigits ds, rest)

def signedNumeral (i : Int) : String :=
  match i with
  | .ofNat n => numeral n
  | .negSucc n => "-" ++ numeral (n + 1)

theorem numeral_injective {m n : Nat} (same : numeral m = numeral n) : m = n := by
  have digits := congrArg String.toList same
  simp only [numeral, String.toList_ofList] at digits
  have values := congrArg (fun ds => Nat.ofDigitChars 10 ds 0) digits
  simpa using values

end SqlCompose.Text
