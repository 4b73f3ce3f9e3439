import SqlCompose.Clause.Conditions
import SqlCompose.Clause.Flags
import SqlCompose.Clause.From
import SqlCompose.Clause.Paging
import SqlCompose.Clause.With

namespace SqlCompose

structure Clauses where
  columns : List String := []
  tables : FromClause := {}
  conditions : Conditions := {}
  having : Conditions := {}
  group : List String := []
  order : List String := []
  flags : Flags := {}
  paging : Paging
  ctes : With := {}
  -- Closed members, each rendered with the keyword that follows it.
  union : List String := []
  returning : List String := []
  deriving DecidableEq, Repr, Inhabited

namespace Clauses

def new (perPage : UInt64) : Clauses := { paging := .new perPage }

def resetMember (c : Clauses) : Clauses :=
  { ctes := c.ctes, union := c.union, paging := c.paging.reset }

def reset (c : Clauses) : Clauses := { c.resetMember with ctes := c.ctes.clear, union := [] }

def renderBy (keyword : String) (items : List String) : String :=
  if items.isEmpty then "" else " " ++ keyword ++ " BY" ++ Text.listing "," items

def renderReturning (c : Clauses) : String :=
  if c.returning.isEmpty then "" else " RETURNING" ++ Text.listing "," c.returning

def renderUnion (c : Clauses) : String := Text.joined "" c.union

end Clauses

end SqlCompose
