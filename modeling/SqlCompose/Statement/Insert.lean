import SqlCompose.Clause.Assignments
import SqlCompose.Statement.Draft

namespace SqlCompose

structure Insert extends Draft where
  table : String := ""
  assignments : Assignments := .empty
  deriving DecidableEq, Repr, Inhabited

inductive InsertCall (ρ : Type) where
  | common (call : CommonCall ρ)
  | column (call : ColumnCall)
  | returning (call : ReturningCall)
  | table (name : String)
  | reset
  deriving DecidableEq, Repr

namespace Insert

def new (dialect : Dialect) (counter : String) (ordinal : UInt64) : Insert :=
  { Draft.new dialect counter ordinal with }

def renumber (s : Insert) (ordinal : UInt64) : Insert :=
  { s with toDraft := s.toDraft.renumber ordinal }

def hasColumns (s : Insert) : Bool := !s.assignments.isEmpty

-- Inside the parentheses a list has no leading blank.
def sql (s : Insert) : String :=
  "INSERT" ++ s.clauses.flags.render ++ " INTO " ++ s.dialect.quotePath s.table ++ " (" ++
    Text.trimStart (Text.listing "," (s.assignments.keys.map s.dialect.quote)) ++ ") VALUES (" ++
    Text.trimStart (Text.listing "," s.assignments.values) ++ ")" ++ s.clauses.renderReturning

def reset (s : Insert) : Insert := { s.toDraft.reset with }

def applyColumn (s : Insert) (call : ColumnCall) : Insert :=
  let b := BoundColumns.apply ⟨s.assignments, s.registry⟩ call
  { s with assignments := b.assignments, registry := b.registry }

def apply (s : Insert) : InsertCall Embedded → Insert
  | .common call => { s with toDraft := s.toDraft.applyCommon call }
  | .column call => s.applyColumn call
  | .returning call => { s with toDraft := s.toDraft.applyReturning call }
  | .table name => { s with table := name }
  | .reset => s.reset

end Insert

end SqlCompose
