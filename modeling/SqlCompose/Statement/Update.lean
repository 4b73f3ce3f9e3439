import SqlCompose.Clause.Assignments
import SqlCompose.Statement.Draft

namespace SqlCompose

structure Update extends Draft where
  table : String := ""
  assignments : Assignments := .empty
  deriving DecidableEq, Repr, Inhabited

inductive UpdateCall (ρ : Type) where
  | common (call : CommonCall ρ)
  | filter (call : FilterCall ρ)
  | column (call : ColumnCall)
  | returning (call : ReturningCall)
  | table (name : String)
  | reset
  deriving DecidableEq, Repr

namespace Update

def new (dialect : Dialect) (counter : String) (ordinal : UInt64) : Update :=
  { Draft.new dialect counter ordinal with }

def renumber (s : Update) (ordinal : UInt64) : Update :=
  { s with toDraft := s.toDraft.renumber ordinal }

def hasColumns (s : Update) : Bool := !s.assignments.isEmpty

def assignmentText (d : Dialect) (column fragment : String) : String :=
  d.quote column ++ " = " ++ fragment

def sql (s : Update) : String :=
  s.clauses.ctes.render s.dialect ++ "UPDATE" ++ s.clauses.flags.render ++ " " ++ s.table ++
    " SET" ++
    Text.listing "," (s.assignments.entries.map fun (c, f) => assignmentText s.dialect c f) ++
    s.clauses.conditions.render "WHERE" ++ s.lateWindow ++ s.clauses.renderReturning

def reset (s : Update) : Update := { s.toDraft.reset with }

def applyColumn (s : Update) (call : ColumnCall) : Update :=
  let b := BoundColumns.apply ⟨s.assignments, s.registry⟩ call
  { s with assignments := b.assignments, registry := b.registry }

def apply (s : Update) : UpdateCall Embedded → Update
  | .common call => { s with toDraft := s.toDraft.applyCommon call }
  | .filter call => { s with toDraft := s.toDraft.applyFilter call }
  | .column call => s.applyColumn call
  | .returning call => { s with toDraft := s.toDraft.applyReturning call }
  | .table name => { s with table := name }
  | .reset => s.reset

end Update

end SqlCompose
