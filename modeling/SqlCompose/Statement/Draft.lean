import SqlCompose.Clause.Clauses

namespace SqlCompose

structure Draft where
  dialect : Dialect
  registry : Registry
  clauses : Clauses
  deriving DecidableEq, Repr, Inhabited

inductive CommonCall (ρ : Type) where
  | bind (key : String) (value : Value) (type : Option ParamType)
  | bindAll (entries : List (String × Value))
  | inline (value : Inline ρ)
  | flag (call : FlagCall)
  deriving DecidableEq, Repr

inductive FilterCall (ρ : Type) where
  | paging (call : PagingCall)
  | condition (call : ConditionCall ρ)
  | equals (criteria : List (Criterion ρ))
  | ctes (call : WithCall ρ)
  deriving DecidableEq, Repr

inductive ReturningCall where
  | add (columns : List String)
  | reset
  deriving DecidableEq, Repr

namespace Draft

def new (dialect : Dialect) (counter : String) (ordinal : UInt64) : Draft where
  dialect := dialect
  registry := { counter := counter, ordinal := ordinal }
  clauses := .new Paging.standardPerPage

def withDefaultPerPage (d : Draft) (n : UInt64) : Draft :=
  { d with clauses.paging := d.clauses.paging.setDefaultPerPage n }

def renumber (d : Draft) (ordinal : UInt64) : Draft :=
  { d with registry := d.registry.renumber ordinal }

def reset (d : Draft) : Draft :=
  { d with clauses := d.clauses.reset, registry := d.registry.reset }

def applyCommon (d : Draft) : CommonCall Embedded → Draft
  | .bind key value type => { d with registry := d.registry.bind key value type }
  | .bindAll entries => { d with registry := d.registry.bindAll entries }
  | .inline value => { d with registry := (d.registry.inline value).2 }
  | .flag call => { d with clauses.flags := d.clauses.flags.apply call }

def changeConditions (d : Draft) (f : BoundConditions → BoundConditions) : Draft :=
  let b := f ⟨d.clauses.conditions, d.registry⟩
  { d with clauses.conditions := b.conditions, registry := b.registry }

def changeHaving (d : Draft) (f : BoundConditions → BoundConditions) : Draft :=
  let b := f ⟨d.clauses.having, d.registry⟩
  { d with clauses.having := b.conditions, registry := b.registry }

def applyFilter (d : Draft) : FilterCall Embedded → Draft
  | .paging call => { d with clauses.paging := d.clauses.paging.apply call }
  | .condition call => d.changeConditions (·.apply call)
  | .equals criteria => d.changeConditions (·.addCriteria criteria)
  | .ctes call =>
    let b := BoundWith.apply ⟨d.clauses.ctes, d.registry⟩ call
    { d with clauses.ctes := b.ctes, registry := b.registry }

def applyReturning (d : Draft) : ReturningCall → Draft
  | .add columns => { d with clauses.returning := d.clauses.returning ++ columns }
  | .reset => { d with clauses.returning := [] }

def lateWindow (d : Draft) : String :=
  d.dialect.lateWindow d.clauses.paging.limit d.clauses.paging.offset

end Draft

end SqlCompose
