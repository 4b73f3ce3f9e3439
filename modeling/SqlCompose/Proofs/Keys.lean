import SqlCompose.Bind.Key
import SqlCompose.Bind.Placeholder
import SqlCompose.Proofs.Reading

namespace SqlCompose

namespace Placeholder
open Text (Digits spanDigits spanDigits_append spanDigits_parts ends_cons)

def form (ordinal sequence : List Char) : List Char := '_' :: ordinal ++ '_' :: sequence ++ ['_']

theorem readGenerated_form {o q : List Char} (ordinal : Digits o) (sequence : Digits q)
    (rest : List Char) :
    readGenerated (form o q ++ rest) = some (form o q) := by
  have first : spanDigits (o ++ '_' :: (q ++ '_' :: rest)) = (o, '_' :: (q ++ '_' :: rest)) :=
    spanDigits_append ordinal (ends_cons rfl _)
  have second : spanDigits (q ++ '_' :: rest) = (q, '_' :: rest) :=
    spanDigits_append sequence (ends_cons rfl _)
  simp [form, readGenerated, first, second, ordinal.1, sequence.1]

theorem readGenerated_parts {s k : List Char} (read : readGenerated s = some k) :
    ∃ o q rest, Digits o ∧ Digits q ∧ k = form o q ∧ s = k ++ rest := by
  unfold readGenerated at read
  split at read
  · rename_i tail
    split at read
    · rename_i o tail' first
      split at read
      · rename_i q rest second
        split at read
        · cases read
        · rename_i filled
          cases Option.some.inj read
          obtain ⟨rfl, ordinal⟩ := spanDigits_parts first
          obtain ⟨rfl, sequence⟩ := spanDigits_parts second
          simp only [Bool.or_eq_true, List.isEmpty_iff, not_or] at filled
          exact ⟨o, q, rest, ⟨filled.1, ordinal⟩, ⟨filled.2, sequence⟩, rfl, by simp⟩
      · cases read
    · cases read
  · cases read

theorem readGenerated_iff {s k : List Char} :
    readGenerated s = some k ↔ readGenerated k = some k ∧ k <+: s := by
  constructor
  · intro read
    obtain ⟨o, q, rest, ordinal, sequence, rfl, rfl⟩ := readGenerated_parts read
    have self := readGenerated_form ordinal sequence []
    exact ⟨by simpa using self, rest, rfl⟩
  · rintro ⟨self, rest, rfl⟩
    obtain ⟨o, q, _, ordinal, sequence, rfl, _⟩ := readGenerated_parts self
    exact readGenerated_form ordinal sequence rest

theorem isGenerated_iff {key : String} :
    isGenerated key = true ↔ readGenerated key.toList = some key.toList := by
  simp [isGenerated]

theorem isGenerated_starts {key : String} (generated : isGenerated key = true) :
    ∃ rest, key.toList = '_' :: rest := by
  obtain ⟨o, q, _, _, _, same, _⟩ := readGenerated_parts (isGenerated_iff.mp generated)
  exact ⟨_, same⟩

end Placeholder

namespace Key
open Placeholder (form isGenerated readGenerated_form isGenerated_iff)

theorem toList_text (k : Key) :
    k.text.toList =
      form (Text.numeral k.ordinal.toNat).toList (Text.numeral k.sequence.toNat).toList := by
  simp [text, form]

theorem text_isGenerated (k : Key) : isGenerated k.text = true := by
  rw [isGenerated_iff, toList_text]
  simpa using readGenerated_form (Text.numeral_digits _) (Text.numeral_digits _) []

-- The underscores stand where the digits end, so each number is read off on its own.
theorem text_injective {k l : Key} (same : k.text = l.text) : k = l := by
  have chars := congrArg String.toList same
  simp only [toList_text, form, List.cons_append, List.cons.injEq, true_and, List.append_assoc] at chars
  have spans := congrArg Text.spanDigits chars
  rw [Text.spanDigits_append (Text.numeral_digits _) (Text.ends_cons rfl _),
    Text.spanDigits_append (Text.numeral_digits _) (Text.ends_cons rfl _)] at spans
  simp only [Prod.mk.injEq, List.cons.injEq, true_and] at spans
  obtain ⟨ordinals, tails⟩ := spans
  have sequences : (Text.numeral k.sequence.toNat).toList = (Text.numeral l.sequence.toNat).toList := by
    simpa using tails
  have ordinal : k.ordinal = l.ordinal :=
    UInt64.toNat_inj.mp (Text.numeral_injective (String.toList_inj.mp ordinals))
  have sequence : k.sequence = l.sequence :=
    UInt64.toNat_inj.mp (Text.numeral_injective (String.toList_inj.mp sequences))
  cases k; cases l; simp_all

end Key

end SqlCompose
