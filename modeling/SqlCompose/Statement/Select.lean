import SqlCompose.Bind.Counters
import SqlCompose.Statement.Draft

namespace SqlCompose

structure Select extends Draft where
  aliasName : String := ""
  forUpdate : Bool := false
  deriving DecidableEq, Repr, Inhabited

inductive SelectCall (ρ : Type) where
  | common (call : CommonCall ρ)
  | filter (call : FilterCall ρ)
  | having (call : ConditionCall ρ)
  | columns (texts : List String)
  | columnsAs (texts : List (String × String))
  | resetColumns
  | table (source : Source ρ)
  | join (kind : String) (source : Source ρ) (condition : String) (value : Option (Inline ρ))
  | appendJoin (text : String) (value : Option (Inline ρ))
  | resetTables
  | groupBy (texts : List String)
  | resetGroupBy
  | orderBy (texts : List String)
  | resetOrderBy
  | distinct (on : Bool)
  | forUpdate (on : Bool)
  | setAlias (name : String)
  | resetAlias
  | union (all : Bool)
  | reset
  deriving DecidableEq, Repr

namespace Select

def new (dialect : Dialect) (counter : String) (ordinal : UInt64) : Select :=
  { Draft.new dialect counter ordinal with }

def renumber (s : Select) (ordinal : UInt64) : Select :=
  { s with toDraft := s.toDraft.renumber ordinal }

def subSelect (s : Select) (ordinal : UInt64) : Select :=
  { (Draft.new s.dialect s.registry.counter ordinal).withDefaultPerPage
      s.clauses.paging.default with }

def hasColumns (s : Select) : Bool := !s.clauses.columns.isEmpty

def columnsText (s : Select) : String :=
  if s.clauses.columns.isEmpty then " *" else Text.listing "," s.clauses.columns

def body (s : Select) : String :=
  let c := s.clauses
  "SELECT" ++ c.flags.render ++ s.dialect.earlyWindow c.paging.limit c.paging.offset ++
    s.columnsText ++ c.tables.render ++ c.conditions.render "WHERE" ++
    Clauses.renderBy "GROUP" c.group ++ c.having.render "HAVING" ++
    Clauses.renderBy "ORDER" c.order ++ s.lateWindow ++
    if s.forUpdate then " FOR UPDATE" else ""

def member (s : Select) : String :=
  if s.aliasName.isEmpty then s.body else "(" ++ s.body ++ ") AS " ++ s.aliasName

def sql (s : Select) : String :=
  s.clauses.ctes.render s.dialect ++ s.clauses.renderUnion ++ s.member

def embedded (s : Select) : Embedded := ⟨s.sql, s.registry.values⟩

def closeMember (s : Select) (all : Bool) : Select where
  dialect := s.dialect
  registry := s.registry
  clauses :=
    { s.clauses.resetMember with
      union := s.clauses.union ++ [s.member ++ if all then " UNION ALL " else " UNION "] }

def reset (s : Select) : Select := { s.toDraft.reset with }

def addTable (s : Select) (source : Source Embedded) : Select :=
  let (text, registry) := s.registry.splice source
  { s with registry := registry, clauses.tables := s.clauses.tables.addTable text }

-- The condition's value is bound before the table is spliced in.
def addJoin (s : Select) (kind : String) (source : Source Embedded) (condition : String)
    (value : Option (Inline Embedded)) : Select :=
  let (condition, registry) := s.registry.extend (Join.conditionText condition) value
  let (table, registry) := registry.splice source
  { s with
    registry := registry
    clauses.tables := s.clauses.tables.addJoin (Join.text kind table condition) }

def appendJoin (s : Select) (text : String) (value : Option (Inline Embedded)) : Select :=
  let (text, registry) := s.registry.extend text value
  { s with registry := registry, clauses.tables := s.clauses.tables.append text }

def apply (s : Select) : SelectCall Embedded → Select
  | .common call => { s with toDraft := s.toDraft.applyCommon call }
  | .filter call => { s with toDraft := s.toDraft.applyFilter call }
  | .having call => { s with toDraft := s.toDraft.changeHaving (·.apply call) }
  | .columns texts => { s with clauses.columns := s.clauses.columns ++ texts }
  | .columnsAs texts =>
    { s with
      clauses.columns := s.clauses.columns ++ texts.map fun (e, name) => e ++ " AS " ++ name }
  | .resetColumns => { s with clauses.columns := [] }
  | .table source => s.addTable source
  | .join kind source condition value => s.addJoin kind source condition value
  | .appendJoin text value => s.appendJoin text value
  | .resetTables => { s with clauses.tables := s.clauses.tables.clear }
  | .groupBy texts => { s with clauses.group := s.clauses.group ++ texts }
  | .resetGroupBy => { s with clauses.group := [] }
  | .orderBy texts => { s with clauses.order := s.clauses.order ++ texts }
  | .resetOrderBy => { s with clauses.order := [] }
  | .distinct on => { s with clauses.flags := s.clauses.flags.set "DISTINCT" on }
  | .forUpdate on => { s with forUpdate := on }
  | .setAlias name => { s with aliasName := name }
  | .resetAlias => { s with aliasName := "" }
  | .union all => s.closeMember all
  | .reset => s.reset

end Select

end SqlCompose
