import SqlCompose.Proofs.Deferral
import SqlCompose.Proofs.Keywords
import SqlCompose.Proofs.Trimming

namespace SqlCompose

namespace FromClause

def lastJoin? (c : FromClause) : Option String := c.entries.getLast?.bind (·.joins.getLast?)

theorem lastJoin?_addJoin (c : FromClause) (join : String) : (c.addJoin join).lastJoin? = some join := by
  rw [addJoin, lastJoin?]
  rcases List.eq_nil_or_concat' c.entries with tableless | ⟨front, last, entries⟩
  · rw [tableless]
    rfl
  · rw [entries, changeLast_concat, List.getLast?_concat, Option.bind_some, List.getLast?_concat]

end FromClause

namespace Join

open Text (trimStart toUpper isBlank spellings fits)

variable {condition phrase : String}

def Introduced (phrase : String) : Prop :=
  "ON ".toList <+: (toUpper phrase).toList ∨ "USING ".toList <+: (toUpper phrase).toList
  deriving Decidable

theorem on_keyword : Text.Keyword "ON ".toList := by decide +kernel

theorem using_keyword : Text.Keyword "USING ".toList := by decide +kernel

-- What it may begin with: capital and small letters, the long s and the dotless i, and no other character.
theorem introduced_iff : Introduced phrase ↔
    fits [['O', 'o'], ['N', 'n'], [' ']] phrase.toList = true ∨
      fits [['U', 'u'], ['S', 's', 'ſ'], ['I', 'i', 'ı'], ['N', 'n'], ['G', 'g'], [' ']] phrase.toList = true := by
  have on : "ON ".toList.map spellings = [['O', 'o'], ['N', 'n'], [' ']] := by decide +kernel
  have usings : "USING ".toList.map spellings =
      [['U', 'u'], ['S', 's', 'ſ'], ['I', 'i', 'ı'], ['N', 'n'], ['G', 'g'], [' ']] := by decide +kernel
  rw [Introduced, Text.toList_toUpper, on_keyword.upper_begins_iff, using_keyword.upper_begins_iff, on, usings]

structure Settled (phrase : String) : Prop where
  lead : ∀ c ∈ phrase.toList.head?, isBlank c = false
  introduced : phrase ≠ "" → Introduced phrase

theorem conditionText_eq (condition : String) :
    conditionText condition =
      if trimStart condition ≠ "" → Introduced (trimStart condition) then trimStart condition
      else "ON " ++ trimStart condition := by
  refine if_congr ?_ rfl rfl
  rw [Bool.or_eq_true, Bool.or_eq_true, List.isPrefixOf_iff_prefix, List.isPrefixOf_iff_prefix, String.isEmpty_iff]
  exact or_iff_not_imp_left

theorem conditionText_of_introduced (introduced : trimStart condition ≠ "" → Introduced (trimStart condition)) :
    conditionText condition = trimStart condition := by rw [conditionText_eq, if_pos introduced]

theorem conditionText_of_bare (spoken : trimStart condition ≠ "") (bare : ¬ Introduced (trimStart condition)) :
    conditionText condition = "ON " ++ trimStart condition := by
  rw [conditionText_eq, if_neg fun introduced => bare (introduced spoken)]

theorem introduced_on (phrase : String) : Introduced ("ON " ++ phrase) := by
  have on : toUpper "ON " = "ON " := by decide +kernel
  rw [Introduced, Text.toUpper_append, on, String.toList_append]
  exact .inl (List.prefix_append ..)

theorem conditionText_settled (condition : String) : Settled (conditionText condition) := by
  by_cases introduced : trimStart condition ≠ "" → Introduced (trimStart condition)
  · rw [conditionText_of_introduced introduced]
    exact ⟨Text.trimStart_lead condition, introduced⟩
  · obtain ⟨spoken, bare⟩ := Classical.not_imp.mp introduced
    rw [conditionText_of_bare spoken bare]
    refine ⟨fun c first => ?_, fun _ => introduced_on _⟩
    rw [String.toList_append] at first
    cases first
    decide

theorem Settled.conditionText_eq (settled : Settled phrase) : conditionText phrase = phrase := by
  have kept : trimStart phrase = phrase := Text.trimStart_of_lead settled.lead
  rw [conditionText_of_introduced (kept.symm ▸ settled.introduced), kept]

theorem conditionText_eq_self_iff : conditionText phrase = phrase ↔ Settled phrase :=
  ⟨fun same => same ▸ conditionText_settled phrase, Settled.conditionText_eq⟩

theorem conditionText_eq_trimStart_iff :
    conditionText condition = trimStart condition ↔ (trimStart condition ≠ "" → Introduced (trimStart condition)) := by
  refine ⟨fun same spoken => ?_, conditionText_of_introduced⟩
  have introduced := (conditionText_settled condition).introduced
  rw [same] at introduced
  exact introduced spoken

theorem conditionText_eq_on_iff :
    conditionText condition = "ON " ++ trimStart condition ↔
      trimStart condition ≠ "" ∧ ¬ Introduced (trimStart condition) := by
  refine ⟨fun same => Classical.not_imp.mp fun introduced => ?_,
    fun ⟨spoken, bare⟩ => conditionText_of_bare spoken bare⟩
  have longer := congrArg String.length (same.symm.trans (conditionText_of_introduced introduced))
  rw [String.length_append] at longer
  exact absurd longer (by simp)

theorem conditionText_eq_empty_iff : conditionText condition = "" ↔ ∀ c ∈ condition.toList, isBlank c = true := by
  rw [← Text.trimStart_eq_empty_iff]
  refine ⟨fun empty => by_contra fun spoken => conditionText_ne_empty spoken empty, fun blank => ?_⟩
  rw [conditionText_of_introduced fun spoken => absurd blank spoken, blank]

-- To join on what already stands after the table is to join on the same.
theorem conditionText_settles (condition : String) :
    (∀ c ∈ (conditionText condition).toList.head?, isBlank c = false) ∧
      (conditionText condition = "" ↔ ∀ c ∈ condition.toList, isBlank c = true) ∧
      (conditionText condition ≠ "" → Introduced (conditionText condition)) ∧
      (conditionText condition = trimStart condition ↔ trimStart condition = "" ∨ Introduced (trimStart condition)) ∧
      (conditionText condition = "ON " ++ trimStart condition ↔
        trimStart condition ≠ "" ∧ ¬ Introduced (trimStart condition)) ∧
      (∀ phrase, Introduced phrase ↔
        fits [['O', 'o'], ['N', 'n'], [' ']] phrase.toList = true ∨
          fits [['U', 'u'], ['S', 's', 'ſ'], ['I', 'i', 'ı'], ['N', 'n'], ['G', 'g'], [' ']] phrase.toList = true) ∧
      conditionText (conditionText condition) = conditionText condition ∧
      ∀ (s : Select) (kind : String) (source : Source Embedded) (value : Option (Inline Embedded)),
        (s.apply (.join kind source condition value)).clauses.tables.lastJoin? =
            some (text kind (s.registry.splice source).1 (s.registry.extend (conditionText condition) value).1) ∧
          s.apply (.join kind source (conditionText condition) value) =
            s.apply (.join kind source condition value) := by
  have settled := conditionText_settled condition
  have again : conditionText (conditionText condition) = conditionText condition :=
    conditionText_eq_self_iff.mpr settled
  refine ⟨settled.lead, conditionText_eq_empty_iff, settled.introduced, ?trimmed, conditionText_eq_on_iff,
    fun phrase => introduced_iff, again, fun s kind source value => ⟨?stored, ?calls⟩⟩
  case trimmed =>
    rw [conditionText_eq_trimStart_iff, or_iff_not_imp_left]
  case stored =>
    show (s.addJoin kind source condition value).clauses.tables.lastJoin? = _
    rw [s.addJoin_tables, FromClause.lastJoin?_addJoin]
  case calls =>
    simp only [Select.apply, Select.addJoin, again]

theorem conditionText_settles_dotless :
    conditionText "\t uſıng (id)" = "uſıng (id)" ∧ Introduced "uſıng (id)" ∧
      conditionText "uſıng (id)" = "uſıng (id)" ∧
      conditionText "\n a = b" = "ON a = b" ∧ Introduced "ON a = b" ∧ conditionText "\u3000 " = "" ∧
      let s := (Select.new .sqlite "main" 1).apply (.join "left" (.text "t") "\n a = b" none)
      s.clauses.tables.lastJoin? = some "LEFT JOIN t ON a = b" ∧
        (Select.new .sqlite "main" 1).apply (.join "left" (.text "t") "ON a = b" none) = s := by
  have long : conditionText "\t uſıng (id)" = "uſıng (id)" := by decide +kernel
  have bare : conditionText "\n a = b" = "ON a = b" := by decide +kernel
  have stands : text "left" "t" "ON a = b" = "LEFT JOIN t ON a = b" := by decide +kernel
  obtain ⟨_, _, using_introduced, _, _, _, using_same, _⟩ := conditionText_settles "\t uſıng (id)"
  obtain ⟨_, _, introduced, _, _, _, _, joins⟩ := conditionText_settles "\n a = b"
  obtain ⟨_, blank, _⟩ := conditionText_settles "\u3000 "
  obtain ⟨stored, again⟩ := joins (.new .sqlite "main" 1) "left" (.text "t") none
  rw [long] at using_introduced using_same
  rw [bare] at introduced stored again
  exact ⟨long, using_introduced (by decide), using_same, bare, introduced (by decide),
    blank.mpr (Text.trimStart_eq_empty_iff.mp (by decide +kernel)),
    stored.trans (congrArg some stands), again⟩

end Join

end SqlCompose
