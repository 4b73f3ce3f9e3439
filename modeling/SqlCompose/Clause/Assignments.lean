import SqlCompose.Bind.Registry

namespace SqlCompose

abbrev Assignments := OrderedMap String String

inductive Column where
  | name (column : String)
  | value (column : String) (value : Value)
  deriving DecidableEq, Repr

inductive ColumnCall where
  | assign (column : String) (value : Option (Value × Option ParamType))
  | assignMany (columns : List Column)
  | literal (column : String) (text : String)
  | reset
  deriving DecidableEq, Repr

namespace ColumnCall

def setNull (column : String) : ColumnCall := .literal column "NULL"

end ColumnCall

structure BoundColumns where
  assignments : Assignments
  registry : Registry
  deriving DecidableEq, Repr

namespace BoundColumns

def assign (b : BoundColumns) (column : String) (value : Option (Value × Option ParamType)) :
    BoundColumns where
  assignments := b.assignments.insert column (":" ++ column)
  registry :=
    match value with
    | none => b.registry
    | some (v, type) => b.registry.bind column v type

-- A literal takes the place of the placeholder, so the value bound for it goes.
def literal (b : BoundColumns) (column text : String) : BoundColumns where
  assignments := b.assignments.insert column text
  registry := b.registry.unbind column

def assignColumn (b : BoundColumns) : Column → BoundColumns
  | .name column => b.assign column none
  | .value column v => b.assign column (some (v, none))

def apply (b : BoundColumns) : ColumnCall → BoundColumns
  | .assign column value => b.assign column value
  | .assignMany columns => columns.foldl assignColumn b
  | .literal column text => b.literal column text
  | .reset => { b with assignments := .empty }

end BoundColumns

end SqlCompose
