import SqlCompose.Clause.From
import SqlCompose.Dialect
import SqlCompose.Proofs.Casing
import SqlCompose.Proofs.Keys

namespace SqlCompose.Text

def reserved : List Char := [':', '"', '\x60', '[', ']']

def Without (marks : List Char) (s : String) : Prop := ∀ c ∈ marks, c ∉ s.toList

-- Tries the marks alone, not every character there is.
instance (marks : List Char) : DecidablePred (Without marks) :=
  fun s => List.decidableBAll (fun c => c ∉ s.toList) marks

theorem joined_all {P : String → Prop} (append : ∀ s t, P s → P t → P (s ++ t)) (empty : P "")
    {separator : String} (between : P separator) {items : List String} (each : ∀ t ∈ items, P t) :
    P (joined separator items) := by
  induction items with
  | nil => exact empty
  | cons first rest ih =>
    have here := each first (List.mem_cons_self ..)
    cases rest with
    | nil => exact here
    | cons second rest =>
      have later := ih fun t member => each t (List.mem_cons_of_mem _ member)
      exact append _ _ (append _ _ here between) later

theorem listing_all {P : String → Prop} (append : ∀ s t, P s → P t → P (s ++ t)) (empty : P "")
    (blank : P " ") {glue : String} (between : P glue) {items : List String} (each : ∀ t ∈ items, P t) :
    P (listing glue items) := by
  cases items with
  | nil => exact empty
  | cons first rest => exact append _ _ blank (joined_all append empty (append _ _ between blank) each)

variable {marks : List Char} {s t : String}

theorem without_nil (s : String) : Without [] s := fun _ marked => absurd marked List.not_mem_nil

theorem without_empty (marks : List Char) : Without marks "" := by
  intro c _ member
  cases member

theorem Without.mono {more : List Char} (fewer : marks ⊆ more) (without : Without more s) :
    Without marks s :=
  fun c marked => without c (fewer marked)

theorem Without.append (left : Without marks s) (right : Without marks t) : Without marks (s ++ t) := by
  intro c marked member
  rw [String.toList_append] at member
  exact (List.mem_append.mp member).elim (left c marked) (right c marked)

theorem Without.trimStart (without : Without marks s) : Without marks (trimStart s) := by
  intro c marked member
  rw [toList_trimStart] at member
  exact without c marked ((List.dropWhile_sublist _).subset member)

theorem Without.trim (without : Without marks s) : Without marks (trim s) := by
  intro c marked member
  have dropped : c ∈ ((Text.trimStart s).toList.reverse.dropWhile isBlank).reverse := by
    simpa [Text.trim, Text.trimEnd] using member
  have kept := (List.dropWhile_sublist _).subset (List.mem_reverse.mp dropped)
  exact without.trimStart c marked (List.mem_reverse.mp kept)

theorem numeral_without (n : Nat) : Without reserved (numeral n) := by
  intro c marked member
  have digit := (numeral_digits n).2 c member
  have digitless : ∀ c ∈ reserved, isDigit c = false := by simp [reserved, isDigit]
  rw [digitless c marked] at digit
  cases digit

theorem upperChar_reserved {c d : Char} (member : d ∈ upperChar c) (marked : d ∈ reserved) : d = c := by
  have unmarked : ∀ n ∈ upperCodes, Char.ofNat n ∉ reserved := by decide +kernel
  refine (upperChar_cases member).resolve_right fun listed => unmarked d.toNat listed ?_
  rwa [Char.ofNat_toNat]

theorem Without.toUpper (few : marks ⊆ reserved) (without : Without marks s) :
    Without marks (toUpper s) := by
  intro d marked member
  rw [toList_toUpper] at member
  obtain ⟨c, there, inside⟩ := List.mem_flatMap.mp member
  rw [← upperChar_reserved inside (few marked)] at there
  exact without d marked there

end SqlCompose.Text

namespace SqlCompose

theorem Key.text_without (k : Key) : Text.Without Text.reserved k.text :=
  (((Text.Without.append (by decide) (Text.numeral_without _)).append (by decide)).append
    (Text.numeral_without _)).append (by decide)

namespace Join

variable {marks : List Char} {s : String}

theorem kindText_without (few : marks ⊆ Text.reserved) (without : Text.Without marks s) :
    Text.Without marks (kindText s) := by
  have upper : Text.Without marks (Text.toUpper (Text.trim s)) := without.trim.toUpper few
  have join : Text.Without marks " JOIN" := Text.Without.mono few (by decide)
  unfold kindText
  dsimp only
  split
  · exact upper
  · exact upper.append join

theorem conditionText_without (few : marks ⊆ Text.reserved) (without : Text.Without marks s) :
    Text.Without marks (conditionText s) := by
  have on : Text.Without marks "ON " := Text.Without.mono few (by decide)
  unfold conditionText
  dsimp only
  split
  · exact without.trimStart
  · exact on.append without.trimStart

end Join

namespace Dialect

theorem earlyWindow_without (d : Dialect) (limit offset : UInt64) :
    Text.Without Text.reserved (d.earlyWindow limit offset) := by
  unfold earlyWindow
  split
  · exact Text.Without.append (by decide) (Text.numeral_without _)
  · decide

theorem lateWindow_without (d : Dialect) (limit offset : UInt64) :
    Text.Without Text.reserved (d.lateWindow limit offset) := by
  have phrase {p : String} (without : Text.Without Text.reserved p) (n : UInt64) :
      Text.Without Text.reserved (p ++ Text.numeral n.toNat) := without.append (Text.numeral_without _)
  unfold lateWindow
  split
  · split
    · exact ((phrase (by decide) _).append (by decide)).append (Text.numeral_without _)
        |>.append (by decide)
    · decide
  · refine Text.Without.append ?_ ?_ <;> split
    · decide
    · exact phrase (by decide) _
    · decide
    · exact phrase (by decide) _

end Dialect

end SqlCompose
