import SqlCompose.Proofs.Coverage
import SqlCompose.Proofs.Printing
import SqlCompose.Proofs.Spacing

namespace SqlCompose

open Text (Spaced Part)

variable {ρ : Type}

-- A fragment with the value that follows it, if any. Before a value there may be a space.
def Inline.Follows (lead : Bool) (fragment : String) : Option (Inline ρ) → Prop
  | none => Spaced lead false fragment
  | some value => Spaced lead true fragment ∧ value.isEmptyList = false

def Source.Tidy : Source ρ → Prop
  | .text sql => Text.Tidy sql
  | .statement _ => True

def Criterion.Tidy : Criterion ρ → Prop
  | .raw fragment => Text.Tidy fragment
  | .column name _ => Text.Tidy name

def ConditionCall.Tidy (c : Conditions) : ConditionCall ρ → Prop
  | .add _ fragment value => Inline.Follows false fragment value
  | .append text value => c.fragments ≠ [] ∧ Inline.Follows true text value
  | .reset => True

def WithCall.Tidy : WithCall ρ → Prop
  | .define name columns body => Text.Tidy name ∧ (∀ t ∈ columns, Text.Tidy t) ∧ body.Tidy
  | .recursive _ | .reset => True

def FlagCall.Tidy : FlagCall → Prop
  | .set name _ => Text.Tidy name
  | .reset => True

def CommonCall.Tidy : CommonCall ρ → Prop
  | .flag call => call.Tidy
  | .bind .. | .bindAll _ | .inline _ => True

def FilterCall.Tidy (c : Clauses) : FilterCall ρ → Prop
  | .paging _ => True
  | .condition call => call.Tidy c.conditions
  | .equals criteria => ∀ x ∈ criteria, x.Tidy
  | .ctes call => call.Tidy

def ReturningCall.Tidy : ReturningCall → Prop
  | .add columns => ∀ t ∈ columns, Text.Tidy t
  | .reset => True

def Column.Tidy : Column → Prop
  | .name column | .value column _ => Text.Tidy column

def ColumnCall.Tidy : ColumnCall → Prop
  | .assign column _ => Text.Tidy column
  | .assignMany columns => ∀ x ∈ columns, x.Tidy
  | .literal column text => Text.Tidy column ∧ Text.Tidy text
  | .reset => True

-- A join may do without a condition, and then without a value.
def SelectCall.Tidy (c : Clauses) : SelectCall ρ → Prop
  | .common call => call.Tidy
  | .filter call => call.Tidy c
  | .having call => call.Tidy c.having
  | .columns texts | .groupBy texts | .orderBy texts => ∀ t ∈ texts, Text.Tidy t
  | .columnsAs texts => ∀ t ∈ texts, Text.Tidy t.1 ∧ Text.Tidy t.2
  | .table source => source.Tidy
  | .join kind source condition value =>
    Text.Tidy (Text.trim kind) ∧ source.Tidy ∧
      (condition = "" ∧ value.isNone = true ∨ Inline.Follows false condition value)
  | .appendJoin text value => c.tables.entries ≠ [] ∧ Inline.Follows true text value
  | .setAlias name => Text.Tidy name
  | .resetColumns | .resetTables | .resetGroupBy | .resetOrderBy | .distinct _ | .forUpdate _ | .resetAlias
  | .union _ | .reset => True

def InsertCall.Tidy : InsertCall ρ → Prop
  | .common call => call.Tidy
  | .column call => call.Tidy
  | .returning call => call.Tidy
  | .table name => Text.Tidy name
  | .reset => True

def UpdateCall.Tidy (c : Clauses) : UpdateCall ρ → Prop
  | .common call => call.Tidy
  | .filter call => call.Tidy c
  | .column call => call.Tidy
  | .returning call => call.Tidy
  | .table name => Text.Tidy name
  | .reset => True

def DeleteCall.Tidy (c : Clauses) : DeleteCall ρ → Prop
  | .common call => call.Tidy
  | .filter call => call.Tidy c
  | .returning call => call.Tidy
  | .table name => Text.Tidy name
  | .reset => True

def Call.Tidy (c : Clauses) : Call ρ → Prop
  | .select call => call.Tidy c
  | .insert call => call.Tidy
  | .update call => call.Tidy c
  | .delete call => call.Tidy c

section

variable (c : Clauses)

instance (lead : Bool) (fragment : String) : DecidablePred (Inline.Follows (ρ := ρ) lead fragment)
  | none => inferInstanceAs (Decidable (Spaced lead false fragment))
  | some value => inferInstanceAs (Decidable (Spaced lead true fragment ∧ value.isEmptyList = false))

instance : DecidablePred (Source.Tidy (ρ := ρ))
  | .text sql => inferInstanceAs (Decidable (Text.Tidy sql))
  | .statement _ => inferInstanceAs (Decidable True)

instance : DecidablePred (Criterion.Tidy (ρ := ρ))
  | .raw fragment => inferInstanceAs (Decidable (Text.Tidy fragment))
  | .column name _ => inferInstanceAs (Decidable (Text.Tidy name))

instance (c : Conditions) : DecidablePred (ConditionCall.Tidy (ρ := ρ) c)
  | .add _ fragment value => inferInstanceAs (Decidable (Inline.Follows false fragment value))
  | .append text value => inferInstanceAs (Decidable (c.fragments ≠ [] ∧ Inline.Follows true text value))
  | .reset => inferInstanceAs (Decidable True)

instance : DecidablePred (WithCall.Tidy (ρ := ρ))
  | .define name columns body =>
    inferInstanceAs (Decidable (Text.Tidy name ∧ (∀ t ∈ columns, Text.Tidy t) ∧ body.Tidy))
  | .recursive _ | .reset => inferInstanceAs (Decidable True)

instance : DecidablePred FlagCall.Tidy
  | .set name _ => inferInstanceAs (Decidable (Text.Tidy name))
  | .reset => inferInstanceAs (Decidable True)

instance : DecidablePred (CommonCall.Tidy (ρ := ρ))
  | .flag call => inferInstanceAs (Decidable call.Tidy)
  | .bind .. | .bindAll _ | .inline _ => inferInstanceAs (Decidable True)

instance : DecidablePred (FilterCall.Tidy (ρ := ρ) c)
  | .paging _ => inferInstanceAs (Decidable True)
  | .condition call => inferInstanceAs (Decidable (call.Tidy c.conditions))
  | .equals criteria => inferInstanceAs (Decidable (∀ x ∈ criteria, x.Tidy))
  | .ctes call => inferInstanceAs (Decidable call.Tidy)

instance : DecidablePred ReturningCall.Tidy
  | .add columns => inferInstanceAs (Decidable (∀ t ∈ columns, Text.Tidy t))
  | .reset => inferInstanceAs (Decidable True)

instance : DecidablePred Column.Tidy
  | .name column | .value column _ => inferInstanceAs (Decidable (Text.Tidy column))

instance : DecidablePred ColumnCall.Tidy
  | .assign column _ => inferInstanceAs (Decidable (Text.Tidy column))
  | .assignMany columns => inferInstanceAs (Decidable (∀ x ∈ columns, x.Tidy))
  | .literal column text => inferInstanceAs (Decidable (Text.Tidy column ∧ Text.Tidy text))
  | .reset => inferInstanceAs (Decidable True)

instance : DecidablePred (SelectCall.Tidy (ρ := ρ) c)
  | .common call => inferInstanceAs (Decidable call.Tidy)
  | .filter call => inferInstanceAs (Decidable (call.Tidy c))
  | .having call => inferInstanceAs (Decidable (call.Tidy c.having))
  | .columns texts | .groupBy texts | .orderBy texts => inferInstanceAs (Decidable (∀ t ∈ texts, Text.Tidy t))
  | .columnsAs texts => inferInstanceAs (Decidable (∀ t ∈ texts, Text.Tidy t.1 ∧ Text.Tidy t.2))
  | .table source => inferInstanceAs (Decidable source.Tidy)
  | .join kind source condition value =>
    inferInstanceAs (Decidable (Text.Tidy (Text.trim kind) ∧ source.Tidy ∧
      (condition = "" ∧ value.isNone = true ∨ Inline.Follows false condition value)))
  | .appendJoin text value => inferInstanceAs (Decidable (c.tables.entries ≠ [] ∧ Inline.Follows true text value))
  | .setAlias name => inferInstanceAs (Decidable (Text.Tidy name))
  | .resetColumns | .resetTables | .resetGroupBy | .resetOrderBy | .distinct _ | .forUpdate _ | .resetAlias
  | .union _ | .reset => inferInstanceAs (Decidable True)

instance : DecidablePred (InsertCall.Tidy (ρ := ρ))
  | .common call => inferInstanceAs (Decidable call.Tidy)
  | .column call => inferInstanceAs (Decidable call.Tidy)
  | .returning call => inferInstanceAs (Decidable call.Tidy)
  | .table name => inferInstanceAs (Decidable (Text.Tidy name))
  | .reset => inferInstanceAs (Decidable True)

instance : DecidablePred (UpdateCall.Tidy (ρ := ρ) c)
  | .common call => inferInstanceAs (Decidable call.Tidy)
  | .filter call => inferInstanceAs (Decidable (call.Tidy c))
  | .column call => inferInstanceAs (Decidable call.Tidy)
  | .returning call => inferInstanceAs (Decidable call.Tidy)
  | .table name => inferInstanceAs (Decidable (Text.Tidy name))
  | .reset => inferInstanceAs (Decidable True)

instance : DecidablePred (DeleteCall.Tidy (ρ := ρ) c)
  | .common call => inferInstanceAs (Decidable call.Tidy)
  | .filter call => inferInstanceAs (Decidable (call.Tidy c))
  | .returning call => inferInstanceAs (Decidable call.Tidy)
  | .table name => inferInstanceAs (Decidable (Text.Tidy name))
  | .reset => inferInstanceAs (Decidable True)

instance : DecidablePred (Call.Tidy (ρ := ρ) c)
  | .select call => inferInstanceAs (Decidable (call.Tidy c))
  | .insert call => inferInstanceAs (Decidable call.Tidy)
  | .update call => inferInstanceAs (Decidable (call.Tidy c))
  | .delete call => inferInstanceAs (Decidable (call.Tidy c))

end

def FromEntry.Tidy (e : FromEntry) : Prop :=
  (Text.Tidy e.table ∨ e.table = "" ∧ e.joins ≠ []) ∧ ∀ j ∈ e.joins, Text.Tidy j

def CommonTable.Tidy (t : CommonTable) : Prop := (∀ n ∈ t.columns, Text.Tidy n) ∧ Text.Tidy t.body

-- Closed members bring the space after them.
structure Clauses.Tidy (c : Clauses) : Prop where
  columns : ∀ t ∈ c.columns, Text.Tidy t
  tables : ∀ e ∈ c.tables.entries, e.Tidy
  conditions : ∀ t ∈ c.conditions.fragments, Text.Tidy t
  having : ∀ t ∈ c.having.fragments, Text.Tidy t
  group : ∀ t ∈ c.group, Text.Tidy t
  order : ∀ t ∈ c.order, Text.Tidy t
  flags : ∀ t ∈ c.flags.names, Text.Tidy t
  ctes : ∀ x ∈ c.ctes.tables.entries, Text.Tidy x.1 ∧ x.2.Tidy
  union : ∀ t ∈ c.union, Spaced false true t
  returning : ∀ t ∈ c.returning, Text.Tidy t

def Assignments.Tidy (m : Assignments) : Prop := ∀ x ∈ m.entries, Text.Tidy x.1 ∧ Text.Tidy x.2

def Statement.Tidy : Statement → Prop
  | .select s => s.clauses.Tidy ∧ Part false false s.aliasName
  | .insert s => s.clauses.Tidy ∧ Part false false s.table ∧ s.assignments.Tidy
  | .update s => s.clauses.Tidy ∧ Part false false s.table ∧ s.assignments.Tidy
  | .delete s => s.clauses.Tidy ∧ Part false false s.table

namespace Registry

variable (r : Registry)

theorem inlineEach_tidy (type : Option ParamType) (vs : List Value) :
    ∀ t ∈ (inlineEach type vs r).1, Text.Tidy t := by
  induction vs generalizing r with
  | nil => exact fun _ member => absurd member List.not_mem_nil
  | cons v rest ih => exact List.forall_mem_cons.mpr ⟨Key.placeholder_tidy _, ih _⟩

theorem inline_tidy (value : Inline Embedded) (embedded : ∀ e, .absorb e ∈ value.effects → Text.Tidy e.sql) :
    Text.Tidy (r.inline value).1 := by
  have opens : Text.Tidy "(" := by decide
  have closes : Text.Tidy ")" := by decide
  cases value with
  | scalar v type => exact Key.placeholder_tidy _
  | list vs type =>
    exact (opens.tail (Text.joined_part (by decide) (r.inlineEach_tidy type vs))).append closes rfl
  | statement e => exact (opens.append (embedded e (List.mem_cons_self ..)) rfl).append closes rfl

theorem splice_tidy {source : Source Embedded} (tidy : source.Tidy)
    (embedded : ∀ e, .absorb e ∈ source.effects → Text.Tidy e.sql) : Text.Tidy (r.splice source).1 := by
  cases source with
  | text sql => exact tidy
  | statement e => exact embedded e (List.mem_cons_self ..)

theorem extend_spaced {lead : Bool} {fragment : String} {value : Option (Inline Embedded)}
    (follows : Inline.Follows lead fragment value)
    (embedded : ∀ e, .absorb e ∈ Inline.effectsOf value → Text.Tidy e.sql) :
    Spaced lead false (r.extend fragment value).1 := by
  cases value with
  | none => exact follows
  | some value =>
    obtain ⟨spaced, filled⟩ := follows
    simp only [extend, filled]
    exact spaced.append (r.inline_tidy value embedded) rfl

theorem criterion_tidy {c : Criterion Embedded} (tidy : c.Tidy)
    (embedded : ∀ e, .absorb e ∈ c.effects → Text.Tidy e.sql) : Text.Tidy (r.criterion c).1 := by
  have compared {name word : String} {value : Inline Embedded} (tidy : Text.Tidy name) (between : Spaced true true word)
      (embedded : ∀ e, .absorb e ∈ (Criterion.column name value).effects → Text.Tidy e.sql) :
      Text.Tidy (name ++ word ++ (r.inline value).1) :=
    (tidy.append between rfl).append (r.inline_tidy value fun e member => embedded e (absorb_mem_column member)) rfl
  have isNull : Spaced true false " IS NULL" := by decide
  have never : Text.Tidy "FALSE" := by decide
  unfold criterion
  split
  · exact tidy
  · exact Spaced.append tidy isNull rfl
  · exact never
  · exact compared tidy (by decide) embedded
  · exact compared tidy (by decide) embedded

end Registry

theorem Conditions.add_tidy {c : Conditions} {fragment : String} (each : ∀ t ∈ c.fragments, Text.Tidy t)
    (connective : Connective) (text : Text.Tidy fragment) :
    ∀ t ∈ (c.add connective fragment).fragments, Text.Tidy t := by
  have lead : Spaced false true connective.lead := by cases connective <;> decide
  refine List.forall_mem_append.mpr ⟨each, List.forall_mem_singleton.mpr ?_⟩
  split
  · exact text
  · exact lead.append text rfl

namespace BoundConditions

variable {b : BoundConditions}

theorem apply_tidy {call : ConditionCall Embedded} (each : ∀ t ∈ b.conditions.fragments, Text.Tidy t)
    (tidy : call.Tidy b.conditions) (embedded : ∀ e, .absorb e ∈ call.effects → Text.Tidy e.sql) :
    ∀ t ∈ (b.apply call).conditions.fragments, Text.Tidy t := by
  cases call with
  | add connective fragment value =>
    have text : Text.Tidy (b.registry.extend fragment value).1 :=
      b.registry.extend_spaced tidy fun e member => embedded e (List.mem_cons_of_mem _ member)
    exact Conditions.add_tidy each connective text
  | append text value =>
    have added : Spaced true false (b.registry.extend text value).1 :=
      b.registry.extend_spaced tidy.2 fun e member => embedded e (List.mem_cons_of_mem _ member)
    exact lengthenLast_all (fun s old => Spaced.append old added rfl) each fun empty => absurd empty tidy.1
  | reset => exact fun _ member => absurd member List.not_mem_nil

theorem addCriteria_tidy {criteria : List (Criterion Embedded)} (each : ∀ t ∈ b.conditions.fragments, Text.Tidy t)
    (tidy : ∀ x ∈ criteria, x.Tidy)
    (embedded : ∀ e, .absorb e ∈ criteria.flatMap Criterion.effects → Text.Tidy e.sql) :
    ∀ t ∈ (b.addCriteria criteria).conditions.fragments, Text.Tidy t := by
  induction criteria generalizing b with
  | nil => exact each
  | cons c rest ih =>
    obtain ⟨here, later⟩ := List.forall_mem_cons.mp tidy
    have text := b.registry.criterion_tidy here fun e member => embedded e (List.mem_append_left _ member)
    have added : ∀ t ∈ (b.addCriterion c).conditions.fragments, Text.Tidy t := Conditions.add_tidy each .and text
    exact ih added later fun e member => embedded e (List.mem_append_right _ member)

end BoundConditions

theorem BoundWith.apply_tidy {b : BoundWith} {call : WithCall Embedded}
    (each : ∀ x ∈ b.ctes.tables.entries, Text.Tidy x.1 ∧ x.2.Tidy) (tidy : call.Tidy)
    (embedded : ∀ e, .absorb e ∈ call.effects → Text.Tidy e.sql) :
    ∀ x ∈ (b.apply call).ctes.tables.entries, Text.Tidy x.1 ∧ x.2.Tidy := by
  cases call with
  | define name columns body =>
    obtain ⟨named, each', source⟩ := tidy
    have text := b.registry.splice_tidy source fun e member => embedded e (List.mem_append_right _ member)
    intro x member
    rcases OrderedMap.mem_insert member with rfl | old
    · exact ⟨named, each', text⟩
    · exact each x old
  | recursive on => exact each
  | reset => exact fun _ member => absurd member List.not_mem_nil

theorem Flags.set_tidy {f : Flags} {name : String} (each : ∀ t ∈ f.names, Text.Tidy t) (tidy : Text.Tidy name)
    (on : Bool) : ∀ t ∈ (f.set name on).names, Text.Tidy t := by
  cases on with
  | true =>
    simp only [set, if_true]
    split
    · exact each
    · exact List.forall_mem_append.mpr ⟨each, List.forall_mem_singleton.mpr tidy⟩
  | false => exact fun t member => each t (List.mem_filter.mp member).1

namespace BoundColumns

variable {b : BoundColumns}

theorem insert_tidy {m : Assignments} {column fragment : String} (each : m.Tidy) (named : Text.Tidy column)
    (text : Text.Tidy fragment) : Assignments.Tidy (m.insert column fragment) := by
  intro x member
  rcases OrderedMap.mem_insert member with rfl | old
  · exact ⟨named, text⟩
  · exact each x old

theorem assign_tidy (each : b.assignments.Tidy) {column : String} (tidy : Text.Tidy column)
    (value : Option (Value × Option ParamType)) : (b.assign column value).assignments.Tidy := by
  have colon : Text.Tidy ":" := by decide
  exact insert_tidy each tidy (colon.append tidy rfl)

theorem apply_tidy {call : ColumnCall} (each : b.assignments.Tidy) (tidy : call.Tidy) :
    (b.apply call).assignments.Tidy := by
  cases call with
  | assign column value => exact assign_tidy each tidy value
  | assignMany columns =>
    rw [apply]
    induction columns generalizing b with
    | nil => exact each
    | cons c rest ih =>
      obtain ⟨here, later⟩ := List.forall_mem_cons.mp tidy
      have first : (b.assignColumn c).assignments.Tidy := by cases c <;> exact assign_tidy each here _
      exact ih first later
  | literal column text => exact insert_tidy each tidy.1 tidy.2
  | reset => exact fun _ member => absurd member List.not_mem_nil

end BoundColumns

namespace Draft

variable {d : Draft}

theorem applyCommon_tidy {call : CommonCall Embedded} (each : d.clauses.Tidy) (tidy : call.Tidy) :
    (d.applyCommon call).clauses.Tidy := by
  cases call with
  | flag call =>
    cases call with
    | set name on => exact { each with flags := Flags.set_tidy each.flags tidy on }
    | reset => exact { each with flags := fun _ member => absurd member List.not_mem_nil }
  | bind | bindAll | inline => exact each

theorem applyFilter_tidy {call : FilterCall Embedded} (each : d.clauses.Tidy) (tidy : call.Tidy d.clauses)
    (embedded : ∀ e, .absorb e ∈ call.effects → Text.Tidy e.sql) : (d.applyFilter call).clauses.Tidy := by
  cases call with
  | paging => exact { each with }
  | condition call =>
    have conditions :=
      BoundConditions.apply_tidy (b := ⟨d.clauses.conditions, d.registry⟩) each.conditions tidy embedded
    exact { each with conditions := conditions }
  | equals criteria =>
    have conditions :=
      BoundConditions.addCriteria_tidy (b := ⟨d.clauses.conditions, d.registry⟩) each.conditions tidy embedded
    exact { each with conditions := conditions }
  | ctes call =>
    have ctes := BoundWith.apply_tidy (b := ⟨d.clauses.ctes, d.registry⟩) each.ctes tidy embedded
    exact { each with ctes := ctes }

theorem applyReturning_tidy {call : ReturningCall} (each : d.clauses.Tidy) (tidy : call.Tidy) :
    (d.applyReturning call).clauses.Tidy := by
  cases call with
  | add columns => exact { each with returning := List.forall_mem_append.mpr ⟨each.returning, tidy⟩ }
  | reset => exact { each with returning := fun _ member => absurd member List.not_mem_nil }

end Draft

namespace Clauses.Tidy

variable {c : Clauses}

theorem new (perPage : UInt64) : (Clauses.new perPage).Tidy := by
  constructor <;> exact fun _ member => absurd member List.not_mem_nil

theorem resetMember (tidy : c.Tidy) : c.resetMember.Tidy :=
  { new 0 with ctes := tidy.ctes, union := tidy.union }

theorem reset : c.reset.Tidy := by
  constructor <;> exact fun _ member => absurd member List.not_mem_nil

end Clauses.Tidy

namespace FromClause

variable {c : FromClause}

theorem addTable_tidy {table : String} (each : ∀ e ∈ c.entries, e.Tidy) (tidy : Text.Tidy table) :
    ∀ e ∈ (c.addTable table).entries, e.Tidy :=
  List.forall_mem_append.mpr ⟨each,
    List.forall_mem_singleton.mpr ⟨.inl tidy, fun _ member => absurd member List.not_mem_nil⟩⟩

theorem addJoin_tidy {join : String} (each : ∀ e ∈ c.entries, e.Tidy) (tidy : Text.Tidy join) :
    ∀ e ∈ (c.addJoin join).entries, e.Tidy := by
  have joined {joins : List String} (old : ∀ j ∈ joins, Text.Tidy j) : ∀ j ∈ joins ++ [join], Text.Tidy j :=
    List.forall_mem_append.mpr ⟨old, List.forall_mem_singleton.mpr tidy⟩
  refine changeLast_all (fun e old => ⟨old.1.imp_right fun bare => ⟨bare.1, ?_⟩, joined old.2⟩) each
    fun _ => ⟨.inr ⟨rfl, ?_⟩, joined fun _ member => absurd member List.not_mem_nil⟩ <;> simp

theorem append_tidy {text : String} (each : ∀ e ∈ c.entries, e.Tidy) (filled : c.entries ≠ [])
    (spaced : Spaced true false text) : ∀ e ∈ (c.append text).entries, e.Tidy := by
  refine changeLast_all (fun e old => ?_) each fun tableless => absurd tableless filled
  obtain ⟨table, joins⟩ := old
  unfold FromEntry.lengthen
  split
  · rename_i joinless
    have tidy := table.resolve_right fun joined => joined.2 (List.isEmpty_iff.mp joinless)
    exact ⟨.inl (Spaced.append tidy spaced rfl), joins⟩
  · rename_i continued
    refine ⟨table.imp_right fun joined => ⟨joined.1, Text.lengthenLast_ne_nil _ _⟩, ?_⟩
    exact lengthenLast_all (fun _ old => Spaced.append old spaced rfl) joins
      fun joinless => absurd (List.isEmpty_iff.mpr joinless) continued

end FromClause

end SqlCompose
