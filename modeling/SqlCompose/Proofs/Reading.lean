import SqlCompose.Dialect.Window

namespace SqlCompose

namespace Text

theorem toList_colon (name : String) : (":" ++ name).toList = ':' :: name.toList := by
  rw [String.toList_append]
  rfl

theorem run_append {p : Char → Bool} {run rest : List Char} (inside : ∀ c ∈ run, p c = true)
    (stops : ∀ c ∈ rest.head?, p c = false) :
    (run ++ rest).takeWhile p = run ∧ (run ++ rest).dropWhile p = rest := by
  rw [List.takeWhile_append_of_pos inside, List.dropWhile_append_of_pos inside]
  cases rest with
  | nil => simp
  | cons c rest => simp [stops c rfl]

def Digits (ds : List Char) : Prop := ds ≠ [] ∧ ∀ c ∈ ds, isDigit c = true

theorem numeral_digits (n : Nat) : Digits (numeral n).toList := by
  refine ⟨by simp [numeral], ?_⟩
  intro c member
  have digit := Nat.isDigit_of_mem_toDigits (by decide) (by decide)
    (by simpa [numeral] using member : c ∈ Nat.toDigits 10 n)
  simp only [Char.isDigit, Bool.and_eq_true, decide_eq_true_eq, ge_iff_le] at digit
  simp only [isDigit, Bool.and_eq_true, decide_eq_true_eq]
  exact ⟨digit.1, digit.2⟩

theorem ofDigits_numeral (n : Nat) : ofDigits (numeral n).toList = n := by simp [ofDigits, numeral]

theorem numeral_first {n : Nat} (positive : 0 < n) : (numeral n).toList.head? ≠ some '0' := by
  rw [numeral, String.toList_ofList]
  induction n using Nat.strongRecOn with
  | _ n ih =>
    rw [Nat.toDigits_eq_if (by decide)]
    split
    · rw [List.head?_cons, Ne, Option.some.injEq, Nat.digitChar_eq_zero]
      omega
    · have shorter := ih (n / 10) (by omega) (by omega)
      obtain ⟨d, ds, is⟩ := List.exists_cons_of_ne_nil (Nat.toDigits_ne_nil (n := n / 10) (b := 10))
      rw [is] at shorter ⊢
      exact shorter

inductive SignText : List Char → Bool → Prop where
  | none : SignText [] false
  | plus : SignText ['+'] false
  | minus : SignText ['-'] true

-- What follows a numeral without going on with it.
def Ends (rest : List Char) : Prop := ∀ c ∈ rest.head?, isDigit c = false

theorem ends_nil : Ends [] := by simp [Ends]

theorem ends_cons {c : Char} (other : isDigit c = false) (rest : List Char) : Ends (c :: rest) := by
  simpa [Ends] using other

theorem spanDigits_append {ds rest : List Char} (digits : Digits ds) (ends : Ends rest) :
    spanDigits (ds ++ rest) = (ds, rest) := by
  obtain ⟨taken, left⟩ := run_append digits.2 ends
  rw [spanDigits, taken, left]

theorem spanDigits_parts {s ds rest : List Char} (span : spanDigits s = (ds, rest)) :
    s = ds ++ rest ∧ ∀ c ∈ ds, isDigit c = true := by
  cases span
  exact ⟨List.takeWhile_append_dropWhile.symm, List.all_eq_true.mp List.all_takeWhile⟩

theorem readNumeral_numeral (n : Nat) {rest : List Char} (ends : Ends rest) :
    readNumeral ((numeral n).toList ++ rest) = some (n, rest) := by
  have digits := numeral_digits n
  have value := ofDigits_numeral n
  rw [readNumeral, spanDigits_append digits ends]
  obtain ⟨filled, _⟩ := digits
  generalize (numeral n).toList = ds at filled value
  cases ds with
  | nil => exact absurd rfl filled
  | cons d ds => rw [← value]

end Text

namespace Dialect

open Text (numeral Ends)

variable {rest : List Char}

theorem dropPhrase_append (phrase : String) (rest : List Char) :
    dropPhrase phrase (phrase.toList ++ rest) = some rest := by
  rw [dropPhrase, if_pos (List.isPrefixOf_iff_prefix.mpr (List.prefix_append _ _)), ← String.length_toList,
    List.drop_left]

theorem readPhrase_append (phrase : String) (n : Nat) (ends : Ends rest) :
    readPhrase phrase (phrase.toList ++ ((numeral n).toList ++ rest)) = some (n, rest) := by
  rw [readPhrase, dropPhrase_append]
  exact Text.readNumeral_numeral n ends

theorem readOptional_append (phrase : String) (n : UInt64) (ends : Ends rest)
    (other : dropPhrase phrase rest = none) :
    readOptional phrase ((if n = 0 then "" else phrase ++ numeral n.toNat).toList ++ rest) = some (n.toNat, rest) := by
  by_cases unset : n = 0
  · have nothing : "".toList ++ rest = rest := rfl
    rw [if_pos unset, nothing, readOptional, other, unset]
    rfl
  · rw [if_neg unset, String.toList_append, List.append_assoc, readOptional, dropPhrase_append]
    exact Text.readNumeral_numeral n.toNat ends

theorem dropPhrase_length {phrase : String} {more : List Char} (dropped : dropPhrase phrase rest = some more) :
    more.length ≤ rest.length := by
  unfold dropPhrase at dropped
  split at dropped
  · cases dropped
    simp
  · cases dropped

end Dialect

end SqlCompose
