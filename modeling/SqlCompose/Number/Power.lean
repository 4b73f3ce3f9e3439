namespace SqlCompose.Number

def twoTo (n : Nat) : Nat := Nat.pow 2 n

def tenTo (n : Nat) : Nat := Nat.pow 10 n

def signedBound : Nat := 0x8000000000000000

def maxWord : Nat := UInt64.size - 1

def isSigned (i : Int) : Bool := -(signedBound : Int) ≤ i && i < signedBound

theorem isSigned_iff {i : Int} : isSigned i = true ↔ -9223372036854775808 ≤ i ∧ i < 9223372036854775808 := by
  unfold isSigned signedBound
  rw [Bool.and_eq_true, decide_eq_true_eq, decide_eq_true_eq]
  rfl

end SqlCompose.Number
