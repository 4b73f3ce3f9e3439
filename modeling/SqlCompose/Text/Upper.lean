import SqlCompose.Text.UpperTable

namespace SqlCompose.Text

def UpperRun.find? (n : Nat) (run : UpperRun) : Option Nat :=
  if run.first ≤ n ∧ n < run.first + run.count * run.step ∧ (n - run.first) % run.step = 0 then
    some (run.upper + (n - run.first))
  else none

-- One character may become several: ß becomes SS, and ŉ becomes ʼN.
def upperChar (c : Char) : List Char :=
  match upperExpansions.lookup c.toNat with
  | some codes => codes.map Char.ofNat
  | none =>
    match upperRuns.findSome? (UpperRun.find? c.toNat) with
    | some code => [Char.ofNat code]
    | none => [c]

def toUpper (s : String) : String := String.ofList (s.toList.flatMap upperChar)

def toLowerAscii (s : String) : String := String.ofList (s.toList.map Char.toLower)

theorem toList_toUpper (s : String) : (toUpper s).toList = s.toList.flatMap upperChar := by
  simp [toUpper]

end SqlCompose.Text
