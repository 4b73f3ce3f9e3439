import SqlCompose.Bind.Placeholder
import SqlCompose.Proofs.Maps
import SqlCompose.Statement.Reference

namespace SqlCompose

open Placeholder (isGenerated)

-- A piece of a call: text of the caller's, a value or name to be bound, or a change to what is there. ρ is the
-- kind of statement references, as in the calls.
inductive Effect (ρ : Type) where
  | text (s : String)
  | column (name : String)
  | table (name : String)
  | bind (key : String) (value : Value) (type : Option ParamType)
  | unbind (key : String)
  | generate (value : Value) (type : Option ParamType)
  | absorb (s : ρ)
  | handOut
  | clear
  | reset
  deriving DecidableEq, Repr

variable {ρ : Type}

def Inline.effects : Inline ρ → List (Effect ρ)
  | .scalar v type => [.generate v type]
  | .list vs type => vs.map (.generate · type)
  | .statement s => [.absorb s]

def Inline.effectsOf : Option (Inline ρ) → List (Effect ρ)
  | none => []
  | some value => value.effects

def Source.effects : Source ρ → List (Effect ρ)
  | .text sql => [.text sql]
  | .statement s => [.absorb s]

def Criterion.effects : Criterion ρ → List (Effect ρ)
  | .raw fragment => [.text fragment]
  | .column name (.scalar .null _) => [.text name]
  | .column name value => .text name :: value.effects

def ConditionCall.effects : ConditionCall ρ → List (Effect ρ)
  | .add _ fragment value => .text fragment :: Inline.effectsOf value
  | .append text value => .text text :: Inline.effectsOf value
  | .reset => [.clear]

def WithCall.effects : WithCall ρ → List (Effect ρ)
  | .define name columns body => .table name :: columns.map .text ++ body.effects
  | .recursive _ => []
  | .reset => [.clear]

def FlagCall.effects : FlagCall → List (Effect ρ)
  | .set name _ => [.text name]
  | .reset => []

def CommonCall.effects : CommonCall ρ → List (Effect ρ)
  | .bind key value type => [.bind key value type]
  | .bindAll entries => entries.map fun (key, value) => .bind key value none
  | .inline value => .handOut :: value.effects
  | .flag call => call.effects

def FilterCall.effects : FilterCall ρ → List (Effect ρ)
  | .paging _ => []
  | .condition call => call.effects
  | .equals criteria => criteria.flatMap Criterion.effects
  | .ctes call => call.effects

def ReturningCall.effects : ReturningCall → List (Effect ρ)
  | .add columns => columns.map .text
  | .reset => []

def Column.effects : Column → List (Effect ρ)
  | .name column => [.column column]
  | .value column v => [.column column, .bind column v none]

def ColumnCall.effects : ColumnCall → List (Effect ρ)
  | .assign column none => [.column column]
  | .assign column (some (v, type)) => [.column column, .bind column v type]
  | .assignMany columns => columns.flatMap Column.effects
  | .literal column text => [.column column, .text text, .unbind column]
  | .reset => []

-- The value of a join is bound before its table is spliced in.
def SelectCall.effects : SelectCall ρ → List (Effect ρ)
  | .common call => call.effects
  | .filter call => call.effects
  | .having call => call.effects
  | .columns texts => texts.map .text
  | .columnsAs texts => texts.flatMap fun (e, name) => [.text e, .text name]
  | .table source => source.effects
  | .join kind source condition value =>
    .text kind :: .text condition :: Inline.effectsOf value ++ source.effects
  | .appendJoin text value => .text text :: Inline.effectsOf value
  | .resetTables => [.clear]
  | .groupBy texts => texts.map .text
  | .orderBy texts => texts.map .text
  | .setAlias name => [.text name]
  | .reset => [.reset]
  | .resetColumns | .resetGroupBy | .resetOrderBy | .distinct _ | .forUpdate _ | .resetAlias
  | .union _ => []

def InsertCall.effects : InsertCall ρ → List (Effect ρ)
  | .common call => call.effects
  | .column call => call.effects
  | .returning call => call.effects
  | .table name => [.text name]
  | .reset => [.reset]

def UpdateCall.effects : UpdateCall ρ → List (Effect ρ)
  | .common call => call.effects
  | .filter call => call.effects
  | .column call => call.effects
  | .returning call => call.effects
  | .table name => [.text name]
  | .reset => [.reset]

def DeleteCall.effects : DeleteCall ρ → List (Effect ρ)
  | .common call => call.effects
  | .filter call => call.effects
  | .returning call => call.effects
  | .table name => [.text name]
  | .reset => [.reset]

def Call.effects : Call ρ → List (Effect ρ)
  | .select call => call.effects
  | .insert call => call.effects
  | .update call => call.effects
  | .delete call => call.effects

def Effect.Releases : Effect ρ → Prop
  | .unbind key => isGenerated key = true
  | .reset => True
  | _ => False

theorem Inline.effects_keep (value : Inline ρ) : ∀ e ∈ value.effects, ¬ e.Releases := by
  intro e member
  cases value with
  | scalar v type =>
    rw [List.mem_singleton.mp member]
    exact id
  | list vs type =>
    obtain ⟨v, _, rfl⟩ := List.mem_map.mp member
    exact id
  | statement s =>
    rw [List.mem_singleton.mp member]
    exact id

namespace Registry

def carry (r : Registry) : Effect Embedded → Registry
  | .bind key value type => r.bind key value type
  | .unbind key => r.unbind key
  | .generate value type => (r.inlineScalar value type).2
  | .absorb e => r.absorb e.binds
  | .reset => r.reset
  | .text _ | .column _ | .table _ | .handOut | .clear => r

def carryAll (r : Registry) (effects : List (Effect Embedded)) : Registry := effects.foldl carry r

variable (r : Registry)

@[simp] theorem carryAll_nil : r.carryAll [] = r := rfl

@[simp] theorem carryAll_append (es fs : List (Effect Embedded)) :
    r.carryAll (es ++ fs) = (r.carryAll es).carryAll fs := List.foldl_append ..

@[simp] theorem carryAll_texts (texts : List String) : r.carryAll (texts.map .text) = r := by
  induction texts with
  | nil => rfl
  | cons t rest ih => exact ih

-- The generated keys of a registry are bound in another as well.
def Grows (r r' : Registry) : Prop :=
  ∀ key ∈ r.values.keys, isGenerated key = true → key ∈ r'.values.keys

theorem Grows.trans {r r' r'' : Registry} (first : r.Grows r') (second : r'.Grows r'') : r.Grows r'' :=
  fun key member generated => second key (first key member generated) generated

theorem Grows.refl (r : Registry) : r.Grows r := fun _ member _ => member

theorem carry_grows {e : Effect Embedded} (kept : ¬ e.Releases) : r.Grows (r.carry e) := by
  intro key member generated
  cases e with
  | bind name value type => exact OrderedMap.mem_keys_insert.mpr (.inr member)
  | generate value type => exact OrderedMap.mem_keys_insert.mpr (.inr member)
  | absorb s => exact OrderedMap.mem_keys_merge.mpr (.inl member)
  | unbind name => exact OrderedMap.mem_keys_erase (fun same => kept (same ▸ generated)) member
  | reset => exact absurd trivial kept
  | _ => exact member

theorem carryAll_grows {es : List (Effect Embedded)} (kept : ∀ e ∈ es, ¬ e.Releases) :
    r.Grows (r.carryAll es) := by
  induction es generalizing r with
  | nil => exact .refl r
  | cons e rest ih =>
    exact (r.carry_grows (kept e (List.mem_cons_self ..))).trans
      (ih (r.carry e) fun u member => kept u (List.mem_cons_of_mem _ member))

theorem inlineEach_registry (type : Option ParamType) (vs : List Value) :
    (inlineEach type vs r).2 = r.carryAll (vs.map (.generate · type)) := by
  induction vs generalizing r with
  | nil => rfl
  | cons v rest ih => exact ih _

theorem inline_registry (value : Inline Embedded) : (r.inline value).2 = r.carryAll value.effects := by
  cases value with
  | scalar v type => rfl
  | list vs type => exact inlineEach_registry r type vs
  | statement e => rfl

theorem splice_registry (source : Source Embedded) :
    (r.splice source).2 = r.carryAll source.effects := by
  cases source <;> rfl

theorem effects_of_isEmptyList {value : Inline Embedded} (empty : value.isEmptyList = true) :
    value.effects = [] := by
  unfold Inline.isEmptyList at empty
  split at empty
  · rfl
  · cases empty

theorem extend_registry (fragment : String) (value : Option (Inline Embedded)) :
    (r.extend fragment value).2 = r.carryAll (Inline.effectsOf value) := by
  cases value with
  | none => rfl
  | some value =>
    by_cases empty : value.isEmptyList = true
    · simp [extend, empty, Inline.effectsOf, effects_of_isEmptyList empty]
    · simpa [extend, empty, Inline.effectsOf] using inline_registry r value

theorem criterion_registry (c : Criterion Embedded) :
    (r.criterion c).2 = r.carryAll c.effects := by
  unfold criterion
  split
  · rfl
  · rfl
  · rfl
  · exact inline_registry r _
  · rename_i name value notNull _ _
    have effects : (Criterion.column name value).effects = .text name :: value.effects := by
      unfold Criterion.effects
      split <;> simp_all
    rw [effects]
    exact inline_registry r _

theorem bindAll_registry (entries : List (String × Value)) :
    r.bindAll entries = r.carryAll (entries.map fun (key, value) => .bind key value none) := by
  induction entries generalizing r with
  | nil => rfl
  | cons e rest ih => exact ih _

end Registry

theorem BoundConditions.apply_registry (b : BoundConditions) (call : ConditionCall Embedded) :
    (b.apply call).registry = b.registry.carryAll call.effects := by
  cases call with
  | add connective fragment value => exact b.registry.extend_registry fragment value
  | append text value => exact b.registry.extend_registry text value
  | reset => rfl

theorem BoundConditions.addCriteria_registry (b : BoundConditions)
    (criteria : List (Criterion Embedded)) :
    (b.addCriteria criteria).registry = b.registry.carryAll (criteria.flatMap Criterion.effects) := by
  induction criteria generalizing b with
  | nil => rfl
  | cons c rest ih =>
    have first : (b.addCriterion c).registry = b.registry.carryAll c.effects :=
      b.registry.criterion_registry c
    rw [List.flatMap_cons, Registry.carryAll_append, ← first]
    exact ih (b.addCriterion c)

theorem BoundWith.apply_registry (b : BoundWith) (call : WithCall Embedded) :
    (b.apply call).registry = b.registry.carryAll call.effects := by
  cases call with
  | define name columns body =>
    have texts : b.registry.carryAll (.table name :: columns.map .text) = b.registry :=
      b.registry.carryAll_texts columns
    simp only [WithCall.effects, Registry.carryAll_append, texts]
    exact b.registry.splice_registry body
  | recursive on => rfl
  | reset => rfl

theorem BoundColumns.assignMany_registry (b : BoundColumns) (columns : List Column) :
    (columns.foldl assignColumn b).registry = b.registry.carryAll (columns.flatMap Column.effects) := by
  induction columns generalizing b with
  | nil => rfl
  | cons c rest ih =>
    have first : (b.assignColumn c).registry = b.registry.carryAll c.effects := by cases c <;> rfl
    rw [List.flatMap_cons, Registry.carryAll_append, ← first]
    exact ih (b.assignColumn c)

theorem BoundColumns.apply_registry (b : BoundColumns) (call : ColumnCall) :
    (b.apply call).registry = b.registry.carryAll call.effects := by
  cases call with
  | assign column value => cases value <;> rfl
  | assignMany columns => exact b.assignMany_registry columns
  | literal column text => rfl
  | reset => rfl

namespace Draft

variable (d : Draft)

theorem applyCommon_registry (call : CommonCall Embedded) :
    (d.applyCommon call).registry = d.registry.carryAll call.effects := by
  cases call with
  | bind key value type => rfl
  | bindAll entries => exact d.registry.bindAll_registry entries
  | inline value => exact d.registry.inline_registry value
  | flag call => cases call <;> rfl

theorem applyFilter_registry (call : FilterCall Embedded) :
    (d.applyFilter call).registry = d.registry.carryAll call.effects := by
  cases call with
  | paging call => rfl
  | condition call => exact BoundConditions.apply_registry ⟨d.clauses.conditions, d.registry⟩ call
  | equals criteria =>
    exact BoundConditions.addCriteria_registry ⟨d.clauses.conditions, d.registry⟩ criteria
  | ctes call => exact BoundWith.apply_registry ⟨d.clauses.ctes, d.registry⟩ call

theorem applyReturning_registry (call : ReturningCall) :
    (d.applyReturning call).registry = d.registry.carryAll call.effects := by
  cases call with
  | add columns => exact (d.registry.carryAll_texts columns).symm
  | reset => rfl

end Draft

theorem Select.apply_registry (s : Select) (call : SelectCall Embedded) :
    (s.apply call).registry = s.registry.carryAll call.effects := by
  cases call with
  | common call => exact s.applyCommon_registry call
  | filter call => exact s.applyFilter_registry call
  | having call => exact BoundConditions.apply_registry ⟨s.clauses.having, s.registry⟩ call
  | columns texts => exact (s.registry.carryAll_texts texts).symm
  | columnsAs texts =>
    have same : s.registry.carryAll (texts.flatMap fun (e, name) => [.text e, .text name]) =
        s.registry := by
      induction texts with
      | nil => rfl
      | cons t rest ih => exact ih
    exact same.symm
  | table source => exact s.registry.splice_registry source
  | join kind source condition value =>
    have bound := s.registry.extend_registry (Join.conditionText condition) value
    have split : s.registry.carryAll (SelectCall.join kind source condition value).effects =
        (s.registry.carryAll (Inline.effectsOf value)).carryAll source.effects :=
      s.registry.carryAll_append (Inline.effectsOf value) source.effects
    rw [split, ← bound]
    exact Registry.splice_registry _ source
  | appendJoin text value => exact s.registry.extend_registry text value
  | groupBy texts => exact (s.registry.carryAll_texts texts).symm
  | orderBy texts => exact (s.registry.carryAll_texts texts).symm
  | _ => rfl

theorem Insert.apply_registry (s : Insert) (call : InsertCall Embedded) :
    (s.apply call).registry = s.registry.carryAll call.effects := by
  cases call with
  | common call => exact s.applyCommon_registry call
  | column call => exact BoundColumns.apply_registry ⟨s.assignments, s.registry⟩ call
  | returning call => exact s.applyReturning_registry call
  | _ => rfl

theorem Update.apply_registry (s : Update) (call : UpdateCall Embedded) :
    (s.apply call).registry = s.registry.carryAll call.effects := by
  cases call with
  | common call => exact s.applyCommon_registry call
  | filter call => exact s.applyFilter_registry call
  | column call => exact BoundColumns.apply_registry ⟨s.assignments, s.registry⟩ call
  | returning call => exact s.applyReturning_registry call
  | _ => rfl

theorem Delete.apply_registry (s : Delete) (call : DeleteCall Embedded) :
    (s.apply call).registry = s.registry.carryAll call.effects := by
  cases call with
  | common call => exact s.applyCommon_registry call
  | filter call => exact s.applyFilter_registry call
  | returning call => exact s.applyReturning_registry call
  | _ => rfl

inductive Statement.Composes : Statement → Call Embedded → Statement → Prop where
  | select (s : Select) (call : SelectCall Embedded) :
      Composes (.select s) (.select call) (.select (s.apply call))
  | insert (s : Insert) (call : InsertCall Embedded) :
      Composes (.insert s) (.insert call) (.insert (s.apply call))
  | update (s : Update) (call : UpdateCall Embedded) :
      Composes (.update s) (.update call) (.update (s.apply call))
  | delete (s : Delete) (call : DeleteCall Embedded) :
      Composes (.delete s) (.delete call) (.delete (s.apply call))

theorem Statement.composes_of_compose {s s' : Statement} {call : Call Embedded}
    (composed : s.compose call = some s') : s.Composes call s' := by
  cases s <;> cases call <;> simp only [compose, Option.some.injEq, reduceCtorEq] at composed <;>
    subst composed <;> constructor

theorem Statement.compose_registry {s s' : Statement} {call : Call Embedded}
    (composed : s.compose call = some s') : s'.registry = s.registry.carryAll call.effects := by
  cases composes_of_compose composed with
  | select s call => exact s.apply_registry call
  | insert s call => exact s.apply_registry call
  | update s call => exact s.apply_registry call
  | delete s call => exact s.apply_registry call

theorem Statement.compose_values {s s' : Statement} {call : Call Embedded}
    (composed : s.compose call = some s') : s'.values = (s.registry.carryAll call.effects).values := by
  rw [values, compose_registry composed]

end SqlCompose
