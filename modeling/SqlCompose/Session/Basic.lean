import SqlCompose.Query.Factory
import SqlCompose.Statement.Reference

namespace SqlCompose

inductive Slot where
  | plain (s : Statement)
  | query (s : Statement)
  deriving DecidableEq, Repr

namespace Slot

def statement : Slot → Statement
  | plain s => s
  | query s => s

def withStatement (s : Statement) : Slot → Slot
  | plain _ => plain s
  | query _ => query s

end Slot

structure Session where
  slots : OrderedMap String Slot := .empty
  counters : Counters := {}
  factory : Option Factory := none
  driver : String := "sqlite"
  installed : Config := {}
  deriving DecidableEq, Repr

-- What a call may name in place of a statement's text: rendered SQL, a select that it
-- consumes, or a select that is cloned for it.
inductive Reference where
  | rendered (e : Embedded)
  | slot (name : String)
  | cloneOf (name : String)
  deriving DecidableEq, Repr

inductive Maker where
  | standalone (driver counter : String)
  | current
  | connection
  deriving DecidableEq, Repr

inductive Command where
  | create (name : String) (kind : StatementKind) (maker : Maker) (asQuery : Bool)
  | useFactory (f : Factory)
  | call (name : String) (call : Call Reference)
  | subSelect (parent name : String)
  | clone (source name : String)
  | unbind (source name : String)
  | embed (name : String)
  deriving DecidableEq, Repr

inductive Reply where
  | silent
  | text (s : String)
  | embedded (e : Embedded)
  deriving DecidableEq, Repr

inductive Fault where
  | unknownSlot (name : String)
  | wrongKind (name : String)
  | noFactory
  deriving DecidableEq, Repr

end SqlCompose
