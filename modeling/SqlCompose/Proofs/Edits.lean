import SqlCompose.Proofs.Effects

namespace SqlCompose

inductive Clause where
  | columns
  | tables
  | conditions
  | having
  | group
  | order
  | flags
  | paging
  | ctes
  | aliasName
  | forUpdate
  | returning
  | table
  | assignments
  deriving DecidableEq, Repr

variable {ρ : Type}

def CommonCall.clause? : CommonCall ρ → Option Clause
  | .flag _ => some .flags
  | .bind .. | .bindAll _ | .inline _ => none

def FilterCall.clause : FilterCall ρ → Clause
  | .paging _ => .paging
  | .condition _ | .equals _ => .conditions
  | .ctes _ => .ctes

-- The clause that a call is about. Joins belong to the tables, and DISTINCT is a flag.
def SelectCall.clause? : SelectCall ρ → Option Clause
  | .common call => call.clause?
  | .filter call => some call.clause
  | .having _ => some .having
  | .columns _ | .columnsAs _ | .resetColumns => some .columns
  | .table _ | .join .. | .appendJoin .. | .resetTables => some .tables
  | .groupBy _ | .resetGroupBy => some .group
  | .orderBy _ | .resetOrderBy => some .order
  | .distinct _ => some .flags
  | .forUpdate _ => some .forUpdate
  | .setAlias _ | .resetAlias => some .aliasName
  | .union _ | .reset => none

def InsertCall.clause? : InsertCall ρ → Option Clause
  | .common call => call.clause?
  | .column _ => some .assignments
  | .returning _ => some .returning
  | .table _ => some .table
  | .reset => none

def UpdateCall.clause? : UpdateCall ρ → Option Clause
  | .common call => call.clause?
  | .filter call => some call.clause
  | .column _ => some .assignments
  | .returning _ => some .returning
  | .table _ => some .table
  | .reset => none

def DeleteCall.clause? : DeleteCall ρ → Option Clause
  | .common call => call.clause?
  | .filter call => some call.clause
  | .returning _ => some .returning
  | .table _ => some .table
  | .reset => none

def Call.clause? : Call ρ → Option Clause
  | .select call => call.clause?
  | .insert call => call.clause?
  | .update call => call.clause?
  | .delete call => call.clause?

def Effect.Binds : Effect ρ → Prop
  | .bind .. | .generate .. | .absorb _ => True
  | _ => False

instance : DecidablePred (Effect.Binds (ρ := ρ))
  | .bind .. | .generate .. | .absorb _ => inferInstanceAs (Decidable True)
  | .text _ | .column _ | .table _ | .unbind _ | .handOut | .clear | .reset =>
    inferInstanceAs (Decidable False)

-- A change to one clause. The assignments of a statement come with the registry that binds them.
inductive Edit where
  | columns (f : List String → List String)
  | tables (f : FromClause → FromClause)
  | conditions (f : Conditions → Conditions)
  | having (f : Conditions → Conditions)
  | group (f : List String → List String)
  | order (f : List String → List String)
  | flags (f : Flags → Flags)
  | paging (f : Paging → Paging)
  | ctes (f : With → With)
  | aliasName (f : String → String)
  | forUpdate (f : Bool → Bool)
  | returning (f : List String → List String)
  | table (f : String → String)
  | assignments (f : BoundColumns → BoundColumns)

def Edit.clause : Edit → Clause
  | .columns _ => .columns
  | .tables _ => .tables
  | .conditions _ => .conditions
  | .having _ => .having
  | .group _ => .group
  | .order _ => .order
  | .flags _ => .flags
  | .paging _ => .paging
  | .ctes _ => .ctes
  | .aliasName _ => .aliasName
  | .forUpdate _ => .forUpdate
  | .returning _ => .returning
  | .table _ => .table
  | .assignments _ => .assignments

def Clauses.edit (c : Clauses) : Edit → Clauses
  | .columns f => { c with columns := f c.columns }
  | .tables f => { c with tables := f c.tables }
  | .conditions f => { c with conditions := f c.conditions }
  | .having f => { c with having := f c.having }
  | .group f => { c with group := f c.group }
  | .order f => { c with order := f c.order }
  | .flags f => { c with flags := f c.flags }
  | .paging f => { c with paging := f c.paging }
  | .ctes f => { c with ctes := f c.ctes }
  | .returning f => { c with returning := f c.returning }
  | .aliasName _ | .forUpdate _ | .table _ | .assignments _ => c

namespace Statement

def edit : Statement → Edit → Statement
  | .select s, .aliasName f => .select { s with aliasName := f s.aliasName }
  | .select s, .forUpdate f => .select { s with forUpdate := f s.forUpdate }
  | .insert s, .table f => .insert { s with table := f s.table }
  | .update s, .table f => .update { s with table := f s.table }
  | .delete s, .table f => .delete { s with table := f s.table }
  | .insert s, .assignments f =>
    let b := f ⟨s.assignments, s.registry⟩
    .insert { s with assignments := b.assignments, registry := b.registry }
  | .update s, .assignments f =>
    let b := f ⟨s.assignments, s.registry⟩
    .update { s with assignments := b.assignments, registry := b.registry }
  | .select s, e => .select { s with clauses := s.clauses.edit e }
  | .insert s, e => .insert { s with clauses := s.clauses.edit e }
  | .update s, e => .update { s with clauses := s.clauses.edit e }
  | .delete s, e => .delete { s with clauses := s.clauses.edit e }

theorem edit_comm (s : Statement) {e f : Edit} (apart : e.clause ≠ f.clause) :
    (s.edit e).edit f = (s.edit f).edit e := by
  cases s <;> cases e <;> cases f <;> first | rfl | exact absurd rfl apart

theorem edit_kind (s : Statement) (e : Edit) : (s.edit e).kind = s.kind := by
  cases s <;> cases e <;> rfl

end Statement

section

variable {r : Registry}

theorem Registry.extend_silent {value : Option (Inline Embedded)} (fragment : String)
    (silent : ∀ e ∈ Inline.effectsOf value, ¬ e.Binds) : r.extend fragment value = (fragment, r) := by
  cases value with
  | none => rfl
  | some value =>
    cases value with
    | list vs type =>
      cases vs with
      | nil => rfl
      | cons => exact absurd trivial (silent _ (List.mem_cons_self ..))
    | scalar | statement => exact absurd trivial (silent _ (List.mem_cons_self ..))

theorem Registry.splice_silent {source : Source Embedded} (silent : ∀ e ∈ source.effects, ¬ e.Binds) :
    ∃ text, ∀ r : Registry, r.splice source = (text, r) := by
  cases source with
  | text sql => exact ⟨sql, fun _ => rfl⟩
  | statement => exact absurd trivial (silent _ (List.mem_cons_self ..))

theorem Registry.criterion_silent {c : Criterion Embedded} (silent : ∀ e ∈ c.effects, ¬ e.Binds) :
    ∃ text, ∀ r : Registry, r.criterion c = (text, r) := by
  have refuted {e : Effect Embedded} {rest : List (Effect Embedded)} {t : Effect Embedded}
      (silent : ∀ u ∈ t :: e :: rest, ¬ u.Binds) : ¬ e.Binds :=
    silent e (List.mem_cons_of_mem _ (List.mem_cons_self ..))
  cases c with
  | raw fragment => exact ⟨fragment, fun _ => rfl⟩
  | column name value =>
    cases value with
    | scalar v type =>
      cases v
      case null => exact ⟨name ++ " IS NULL", fun _ => rfl⟩
      all_goals exact absurd trivial (refuted silent)
    | list vs type =>
      cases vs with
      | nil => exact ⟨"FALSE", fun _ => rfl⟩
      | cons => exact absurd trivial (refuted silent)
    | statement => exact absurd trivial (refuted silent)

theorem BoundConditions.apply_silent {call : ConditionCall Embedded} (silent : ∀ e ∈ call.effects, ¬ e.Binds) :
    ∃ f : Conditions → Conditions, ∀ b : BoundConditions, b.apply call = ⟨f b.conditions, b.registry⟩ := by
  cases call with
  | add connective fragment value =>
    refine ⟨(·.add connective fragment), fun b => ?_⟩
    rw [apply, Registry.extend_silent fragment (List.forall_mem_cons.mp silent).2]
  | append text value =>
    refine ⟨(·.append text), fun b => ?_⟩
    rw [apply, Registry.extend_silent text (List.forall_mem_cons.mp silent).2]
  | reset => exact ⟨Conditions.clear, fun _ => rfl⟩

theorem BoundConditions.addCriteria_silent {criteria : List (Criterion Embedded)}
    (silent : ∀ e ∈ criteria.flatMap Criterion.effects, ¬ e.Binds) :
    ∃ f : Conditions → Conditions, ∀ b : BoundConditions, b.addCriteria criteria = ⟨f b.conditions, b.registry⟩ := by
  induction criteria with
  | nil => exact ⟨id, fun _ => rfl⟩
  | cons c rest ih =>
    obtain ⟨here, later⟩ := List.forall_mem_append.mp (List.flatMap_cons ▸ silent)
    obtain ⟨text, first⟩ := Registry.criterion_silent here
    obtain ⟨f, following⟩ := ih later
    refine ⟨fun conditions => f (conditions.add .and text), fun b => ?_⟩
    have added : b.addCriterion c = ⟨b.conditions.add .and text, b.registry⟩ := by
      rw [addCriterion, first]
    rw [addCriteria, List.foldl_cons, ← addCriteria, added, following]

theorem BoundWith.apply_silent {call : WithCall Embedded} (silent : ∀ e ∈ call.effects, ¬ e.Binds) :
    ∃ f : With → With, ∀ b : BoundWith, b.apply call = ⟨f b.ctes, b.registry⟩ := by
  cases call with
  | define name columns body =>
    obtain ⟨text, spliced⟩ := Registry.splice_silent (List.forall_mem_append.mp silent).2
    refine ⟨(·.define name columns text), fun b => ?_⟩
    rw [apply, spliced]
  | recursive on => exact ⟨fun ctes => { ctes with recursive := on }, fun _ => rfl⟩
  | reset => exact ⟨With.clear, fun _ => rfl⟩

end

def Edit.shared : Edit → Prop
  | .aliasName _ | .forUpdate _ | .table _ | .assignments _ => False
  | _ => True

def Statement.mapDraft (change : Draft → Draft) : Statement → Statement
  | .select s => .select { s with toDraft := change s.toDraft }
  | .insert s => .insert { s with toDraft := change s.toDraft }
  | .update s => .update { s with toDraft := change s.toDraft }
  | .delete s => .delete { s with toDraft := change s.toDraft }

namespace Draft

def edit (d : Draft) (e : Edit) : Draft := { d with clauses := d.clauses.edit e }

-- A call that several kinds share changes one clause of theirs.
def Edits (change : Draft → Draft) (k : Clause) : Prop :=
  ∃ e : Edit, e.clause = k ∧ e.shared ∧ ∀ d, change d = d.edit e

theorem Edits.statement {change : Draft → Draft} {k : Clause} (edits : Edits change k) :
    ∃ e : Edit, e.clause = k ∧ ∀ s : Statement, s.mapDraft change = s.edit e := by
  obtain ⟨e, is, shared, same⟩ := edits
  refine ⟨e, is, fun s => ?_⟩
  have changed : s.mapDraft change = s.mapDraft (·.edit e) := congrArg (s.mapDraft ·) (funext same)
  rw [changed]
  cases s <;> cases e <;> first | rfl | cases shared

theorem applyCommon_edits {call : CommonCall Embedded} {k : Clause} (belongs : call.clause? = some k) :
    Edits (·.applyCommon call) k := by
  cases call with
  | flag call =>
    cases belongs
    exact ⟨.flags (·.apply call), rfl, trivial, fun _ => rfl⟩
  | bind | bindAll | inline => cases belongs

theorem applyFilter_edits {call : FilterCall Embedded} (silent : ∀ e ∈ call.effects, ¬ e.Binds) :
    Edits (·.applyFilter call) call.clause := by
  cases call with
  | paging call => exact ⟨.paging (·.apply call), rfl, trivial, fun _ => rfl⟩
  | condition call =>
    obtain ⟨f, same⟩ := BoundConditions.apply_silent silent
    exact ⟨.conditions f, rfl, trivial, fun d => by simp only [applyFilter, changeConditions, same]; rfl⟩
  | equals criteria =>
    obtain ⟨f, same⟩ := BoundConditions.addCriteria_silent silent
    exact ⟨.conditions f, rfl, trivial, fun d => by simp only [applyFilter, changeConditions, same]; rfl⟩
  | ctes call =>
    obtain ⟨f, same⟩ := BoundWith.apply_silent silent
    exact ⟨.ctes f, rfl, trivial, fun d => by simp only [applyFilter, same]; rfl⟩

theorem applyReturning_edits (call : ReturningCall) : Edits (·.applyReturning call) .returning := by
  cases call with
  | add columns => exact ⟨.returning (· ++ columns), rfl, trivial, fun _ => rfl⟩
  | reset => exact ⟨.returning fun _ => [], rfl, trivial, fun _ => rfl⟩

end Draft

theorem Select.apply_edits {call : SelectCall Embedded} {k : Clause} (belongs : call.clause? = some k)
    (silent : ∀ e ∈ call.effects, ¬ e.Binds) :
    ∃ e : Edit, e.clause = k ∧ ∀ s : Select, .select (s.apply call) = Statement.edit (.select s) e := by
  cases call with
  | common call =>
    obtain ⟨e, is, same⟩ := (Draft.applyCommon_edits belongs).statement
    exact ⟨e, is, fun s => same (.select s)⟩
  | filter call =>
    cases belongs
    obtain ⟨e, is, same⟩ := (Draft.applyFilter_edits silent).statement
    exact ⟨e, is, fun s => same (.select s)⟩
  | having call =>
    cases belongs
    obtain ⟨f, same⟩ := BoundConditions.apply_silent silent
    exact ⟨.having f, rfl, fun s => by simp only [apply, Draft.changeHaving, same]; rfl⟩
  | columns texts =>
    cases belongs
    exact ⟨.columns (· ++ texts), rfl, fun _ => rfl⟩
  | columnsAs texts =>
    cases belongs
    exact ⟨.columns (· ++ texts.map fun x => x.1 ++ " AS " ++ x.2), rfl, fun _ => rfl⟩
  | resetColumns =>
    cases belongs
    exact ⟨.columns fun _ => [], rfl, fun _ => rfl⟩
  | table source =>
    cases belongs
    obtain ⟨text, spliced⟩ := Registry.splice_silent silent
    exact ⟨.tables (·.addTable text), rfl, fun s => by simp only [apply, addTable, spliced]; rfl⟩
  | join kind source condition value =>
    cases belongs
    obtain ⟨valueless, sourceless⟩ :=
      List.forall_mem_append.mp (List.forall_mem_cons.mp (List.forall_mem_cons.mp silent).2).2
    obtain ⟨table, spliced⟩ := Registry.splice_silent sourceless
    refine ⟨.tables (·.addJoin (Join.text kind table (Join.conditionText condition))), rfl, fun s => ?_⟩
    simp only [apply, addJoin, Registry.extend_silent _ valueless, spliced]
    rfl
  | appendJoin text value =>
    cases belongs
    have valueless := (List.forall_mem_cons.mp silent).2
    refine ⟨.tables (·.append text), rfl, fun s => ?_⟩
    simp only [apply, appendJoin, Registry.extend_silent _ valueless]
    rfl
  | resetTables =>
    cases belongs
    exact ⟨.tables FromClause.clear, rfl, fun _ => rfl⟩
  | groupBy texts =>
    cases belongs
    exact ⟨.group (· ++ texts), rfl, fun _ => rfl⟩
  | resetGroupBy =>
    cases belongs
    exact ⟨.group fun _ => [], rfl, fun _ => rfl⟩
  | orderBy texts =>
    cases belongs
    exact ⟨.order (· ++ texts), rfl, fun _ => rfl⟩
  | resetOrderBy =>
    cases belongs
    exact ⟨.order fun _ => [], rfl, fun _ => rfl⟩
  | distinct on =>
    cases belongs
    exact ⟨.flags (·.set "DISTINCT" on), rfl, fun _ => rfl⟩
  | forUpdate on =>
    cases belongs
    exact ⟨.forUpdate fun _ => on, rfl, fun _ => rfl⟩
  | setAlias name =>
    cases belongs
    exact ⟨.aliasName fun _ => name, rfl, fun _ => rfl⟩
  | resetAlias =>
    cases belongs
    exact ⟨.aliasName fun _ => "", rfl, fun _ => rfl⟩
  | union | reset => cases belongs

theorem Insert.apply_edits {call : InsertCall Embedded} {k : Clause} (belongs : call.clause? = some k) :
    ∃ e : Edit, e.clause = k ∧ ∀ s : Insert, .insert (s.apply call) = Statement.edit (.insert s) e := by
  cases call with
  | common call =>
    obtain ⟨e, is, same⟩ := (Draft.applyCommon_edits belongs).statement
    exact ⟨e, is, fun s => same (.insert s)⟩
  | column call =>
    cases belongs
    exact ⟨.assignments (·.apply call), rfl, fun _ => rfl⟩
  | returning call =>
    cases belongs
    obtain ⟨e, is, same⟩ := (Draft.applyReturning_edits call).statement
    exact ⟨e, is, fun s => same (.insert s)⟩
  | table name =>
    cases belongs
    exact ⟨.table fun _ => name, rfl, fun _ => rfl⟩
  | reset => cases belongs

theorem Update.apply_edits {call : UpdateCall Embedded} {k : Clause} (belongs : call.clause? = some k)
    (silent : ∀ e ∈ call.effects, ¬ e.Binds) :
    ∃ e : Edit, e.clause = k ∧ ∀ s : Update, .update (s.apply call) = Statement.edit (.update s) e := by
  cases call with
  | common call =>
    obtain ⟨e, is, same⟩ := (Draft.applyCommon_edits belongs).statement
    exact ⟨e, is, fun s => same (.update s)⟩
  | filter call =>
    cases belongs
    obtain ⟨e, is, same⟩ := (Draft.applyFilter_edits silent).statement
    exact ⟨e, is, fun s => same (.update s)⟩
  | column call =>
    cases belongs
    exact ⟨.assignments (·.apply call), rfl, fun _ => rfl⟩
  | returning call =>
    cases belongs
    obtain ⟨e, is, same⟩ := (Draft.applyReturning_edits call).statement
    exact ⟨e, is, fun s => same (.update s)⟩
  | table name =>
    cases belongs
    exact ⟨.table fun _ => name, rfl, fun _ => rfl⟩
  | reset => cases belongs

theorem Delete.apply_edits {call : DeleteCall Embedded} {k : Clause} (belongs : call.clause? = some k)
    (silent : ∀ e ∈ call.effects, ¬ e.Binds) :
    ∃ e : Edit, e.clause = k ∧ ∀ s : Delete, .delete (s.apply call) = Statement.edit (.delete s) e := by
  cases call with
  | common call =>
    obtain ⟨e, is, same⟩ := (Draft.applyCommon_edits belongs).statement
    exact ⟨e, is, fun s => same (.delete s)⟩
  | filter call =>
    cases belongs
    obtain ⟨e, is, same⟩ := (Draft.applyFilter_edits silent).statement
    exact ⟨e, is, fun s => same (.delete s)⟩
  | returning call =>
    cases belongs
    obtain ⟨e, is, same⟩ := (Draft.applyReturning_edits call).statement
    exact ⟨e, is, fun s => same (.delete s)⟩
  | table name =>
    cases belongs
    exact ⟨.table fun _ => name, rfl, fun _ => rfl⟩
  | reset => cases belongs

theorem Call.edits {c : Call Embedded} {k : Clause} (belongs : c.clause? = some k)
    (silent : ∀ e ∈ c.effects, ¬ e.Binds) :
    ∃ e : Edit, e.clause = k ∧ ∀ s : Statement, s.kind = c.kind → s.compose c = some (s.edit e) := by
  cases c with
  | select call =>
    obtain ⟨e, is, same⟩ := Select.apply_edits belongs silent
    refine ⟨e, is, fun s kind => ?_⟩
    cases s <;> cases kind
    exact congrArg some (same _)
  | insert call =>
    obtain ⟨e, is, same⟩ := Insert.apply_edits belongs
    refine ⟨e, is, fun s kind => ?_⟩
    cases s <;> cases kind
    exact congrArg some (same _)
  | update call =>
    obtain ⟨e, is, same⟩ := Update.apply_edits belongs silent
    refine ⟨e, is, fun s kind => ?_⟩
    cases s <;> cases kind
    exact congrArg some (same _)
  | delete call =>
    obtain ⟨e, is, same⟩ := Delete.apply_edits belongs silent
    refine ⟨e, is, fun s kind => ?_⟩
    cases s <;> cases kind
    exact congrArg some (same _)

end SqlCompose
