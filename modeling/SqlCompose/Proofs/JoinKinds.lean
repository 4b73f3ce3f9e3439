import SqlCompose.Proofs.Casing
import SqlCompose.Proofs.Reach
import SqlCompose.Proofs.Trimming

namespace SqlCompose

namespace Join

open Text (Trimmed)

variable {kind : String}

structure Standing (text : String) : Prop where
  trimmed : Trimmed text
  ends : "JOIN".toList <:+ text.toList
  upper : Text.toUpper text = text

theorem Standing.kindText_eq {text : String} (standing : Standing text) : kindText text = text := by
  rw [kindText, standing.trimmed.trim_eq, standing.upper]
  exact if_pos (List.isSuffixOf_iff_suffix.mpr standing.ends)

theorem kindText_ends (kind : String) : "JOIN".toList <:+ (kindText kind).toList := by
  unfold kindText
  dsimp only
  split
  · exact List.isSuffixOf_iff_suffix.mp ‹_›
  · rw [String.toList_append]
    exact ⟨_ ++ [' '], List.append_assoc ..⟩

theorem toUpper_kindText (kind : String) : Text.toUpper (kindText kind) = kindText kind := by
  have join : Text.toUpper " JOIN" = " JOIN" := by decide +kernel
  unfold kindText
  dsimp only
  split
  · exact Text.toUpper_toUpper _
  · rw [Text.toUpper_append, Text.toUpper_toUpper, join]

theorem kindText_trail (kind : String) : ∀ c ∈ (kindText kind).toList.getLast?, Text.isBlank c = false := by
  obtain ⟨front, is⟩ := kindText_ends kind
  rw [← is, List.getLast?_append]
  intro c last
  cases last
  decide

theorem kindText_lead (spoken : Text.trim kind ≠ "") : ∀ c ∈ (kindText kind).toList.head?, Text.isBlank c = false := by
  have upper := Text.head?_toUpper (Text.trim_trimmed kind).lead
  have worded : (Text.toUpper (Text.trim kind)).toList ≠ [] := by
    rw [Text.toList_toUpper, Ne, List.flatMap_eq_nil_iff]
    intro blank
    obtain ⟨c, there⟩ := List.exists_mem_of_ne_nil _ (mt String.toList_eq_nil_iff.mp spoken)
    exact Text.upperChar_full c (blank c there)
  unfold kindText
  dsimp only
  split
  · exact upper
  · rwa [String.toList_append, List.head?_append_of_ne_nil _ worded]

theorem kindText_standing (spoken : Text.trim kind ≠ "") : Standing (kindText kind) where
  trimmed := ⟨kindText_lead spoken, kindText_trail kind⟩
  ends := kindText_ends kind
  upper := toUpper_kindText kind

theorem kindText_of_blank (blank : Text.trim kind = "") : kindText kind = " JOIN" := by
  rw [kindText, blank]
  decide +kernel

theorem kindText_eq_self_iff {text : String} : kindText text = text ↔ Standing text := by
  refine ⟨fun same => ?_, Standing.kindText_eq⟩
  by_cases blank : Text.trim text = ""
  · have is : text = " JOIN" := same.symm.trans (kindText_of_blank blank)
    rw [is] at blank
    exact absurd blank (by decide +kernel)
  · exact same ▸ kindText_standing blank

-- To give a join its own kind again is to give it the same kind, unless there was no kind to
-- begin with: a blank one settles in two steps.
theorem kindText_settles (kind : String) :
    "JOIN".toList <:+ (kindText kind).toList ∧ (∀ c ∈ (kindText kind).toList.getLast?, Text.isBlank c = false) ∧
      Text.toUpper (kindText kind) = kindText kind ∧ Standing (kindText (kindText kind)) ∧
      (Text.trim kind = "" → kindText (kindText kind) ≠ kindText kind) ∧
      (Text.trim kind ≠ "" →
        Standing (kindText kind) ∧ kindText (kindText kind) = kindText kind ∧
          ∀ (s : Select) (source : Source Embedded) (condition : String) (value : Option (Inline Embedded)),
            s.apply (.join (kindText kind) source condition value) = s.apply (.join kind source condition value)) := by
  have settled (spoken : Text.trim kind ≠ "") : kindText (kindText kind) = kindText kind :=
    (kindText_standing spoken).kindText_eq
  have twice (blank : Text.trim kind = "") : kindText (kindText kind) = "JOIN" := by
    rw [kindText_of_blank blank]
    decide +kernel
  refine ⟨kindText_ends kind, kindText_trail kind, toUpper_kindText kind, ?standing, fun blank => ?blank,
    fun spoken => ⟨kindText_standing spoken, settled spoken, fun s source condition value => ?calls⟩⟩
  case standing =>
    by_cases blank : Text.trim kind = ""
    · rw [twice blank]
      exact kindText_eq_self_iff.mp (by decide +kernel)
    · rw [settled blank]
      exact kindText_standing blank
  case blank =>
    rw [twice blank, kindText_of_blank blank]
    decide
  case calls =>
    simp only [Select.apply, Select.addJoin, text, settled spoken]

theorem kindText_settles_padded :
    Text.trim "\t großer  " ≠ "" ∧ kindText "\t großer  " = "GROSSER JOIN" ∧ Standing "GROSSER JOIN" ∧
      kindText "GROSSER JOIN" = "GROSSER JOIN" ∧
      (Select.new .sqlite "main" 1).apply (.join "GROSSER JOIN" (.text "t") "x" none) =
        (Select.new .sqlite "main" 1).apply (.join "\t großer  " (.text "t") "x" none) := by
  have spoken : Text.trim "\t großer  " ≠ "" := by decide +kernel
  have upper : kindText "\t großer  " = "GROSSER JOIN" := by decide +kernel
  obtain ⟨_, _, _, _, _, settles⟩ := kindText_settles "\t großer  "
  obtain ⟨standing, same, calls⟩ := settles spoken
  rw [upper] at standing same calls
  exact ⟨spoken, upper, standing, same, calls (.new .sqlite "main" 1) (.text "t") "x" none⟩

def joinedBy (kind : String) : List Command := [
  .create "s" .select (.standalone "sqlite" "main") false,
  .call "s" (.select (.table (.text "a"))),
  .call "s" (.select (.join kind (.text "t") "x" none))]

-- A join of no kind keeps the space in front of JOIN, and goes without it when it is given its own kind again.
theorem blank_kind_moves :
    kindText "" = " JOIN" ∧ ¬ Standing (kindText "") ∧ kindText (kindText "") ≠ kindText "" ∧
      Session.Reaches {} (joinedBy "") (fun s => (s.slots.get? "s").map (·.statement.sql) =
        some "SELECT * FROM a  JOIN t ON x") ∧
      Session.Reaches {} (joinedBy (kindText "")) (fun s => (s.slots.get? "s").map (·.statement.sql) =
        some "SELECT * FROM a JOIN t ON x") := by
  refine ⟨by decide +kernel, fun standing => ?_, by decide +kernel, by decide +kernel, by decide +kernel⟩
  have lead := standing.trimmed.lead ' ' (by decide +kernel)
  exact absurd lead (by decide)

end Join

end SqlCompose
