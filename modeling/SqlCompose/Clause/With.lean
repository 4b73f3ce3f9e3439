import SqlCompose.Bind.Registry
import SqlCompose.Dialect

namespace SqlCompose

structure CommonTable where
  columns : List String
  body : String
  deriving DecidableEq, Repr, Inhabited

structure With where
  recursive : Bool := false
  tables : OrderedMap String CommonTable := .empty
  deriving DecidableEq, Repr, Inhabited

namespace With

def define (w : With) (name : String) (columns : List String) (body : String) : With :=
  { w with tables := w.tables.insert name ⟨columns, body⟩ }

def isEmpty (w : With) : Bool := w.tables.isEmpty

def clear (_ : With) : With := {}

def tableText (d : Dialect) (name : String) (t : CommonTable) : String :=
  let columns :=
    if t.columns.isEmpty then "" else " (" ++ Text.joined ", " (t.columns.map d.quote) ++ ")"
  d.quote name ++ columns ++ " AS (" ++ t.body ++ ")"

def render (w : With) (d : Dialect) : String :=
  if w.isEmpty then ""
  else
    (if w.recursive then "WITH RECURSIVE" else "WITH") ++
      Text.listing "," (w.tables.entries.map fun (name, t) => tableText d name t) ++ " "

end With

inductive WithCall (ρ : Type) where
  | define (name : String) (columns : List String) (body : Source ρ)
  | recursive (on : Bool)
  | reset
  deriving DecidableEq, Repr

structure BoundWith where
  ctes : With
  registry : Registry
  deriving DecidableEq, Repr

def BoundWith.apply (b : BoundWith) : WithCall Embedded → BoundWith
  | .define name columns body =>
    let (text, registry) := b.registry.splice body
    ⟨b.ctes.define name columns text, registry⟩
  | .recursive on => { b with ctes := { b.ctes with recursive := on } }
  | .reset => { b with ctes := b.ctes.clear }

end SqlCompose
