import SqlCompose.Statement.Draft

namespace SqlCompose

structure Delete extends Draft where
  table : String := ""
  deriving DecidableEq, Repr, Inhabited

inductive DeleteCall (ρ : Type) where
  | common (call : CommonCall ρ)
  | filter (call : FilterCall ρ)
  | returning (call : ReturningCall)
  | table (name : String)
  | reset
  deriving DecidableEq, Repr

namespace Delete

def new (dialect : Dialect) (counter : String) (ordinal : UInt64) : Delete :=
  { Draft.new dialect counter ordinal with }

def renumber (s : Delete) (ordinal : UInt64) : Delete :=
  { s with toDraft := s.toDraft.renumber ordinal }

def sql (s : Delete) : String :=
  s.clauses.ctes.render s.dialect ++ "DELETE" ++ s.clauses.flags.render ++ " FROM " ++ s.table ++
    s.clauses.conditions.render "WHERE" ++ s.lateWindow ++ s.clauses.renderReturning

def reset (s : Delete) : Delete := { s.toDraft.reset with }

def apply (s : Delete) : DeleteCall Embedded → Delete
  | .common call => { s with toDraft := s.toDraft.applyCommon call }
  | .filter call => { s with toDraft := s.toDraft.applyFilter call }
  | .returning call => { s with toDraft := s.toDraft.applyReturning call }
  | .table name => { s with table := name }
  | .reset => s.reset

end Delete

end SqlCompose
