import SqlCompose.Statement.Delete
import SqlCompose.Statement.Insert
import SqlCompose.Statement.Select
import SqlCompose.Statement.Update

namespace SqlCompose

inductive StatementKind where
  | select
  | insert
  | update
  | delete
  deriving DecidableEq, Repr

inductive Statement where
  | select (s : Select)
  | insert (s : Insert)
  | update (s : Update)
  | delete (s : Delete)
  deriving DecidableEq, Repr

inductive Call (ρ : Type) where
  | select (call : SelectCall ρ)
  | insert (call : InsertCall ρ)
  | update (call : UpdateCall ρ)
  | delete (call : DeleteCall ρ)
  deriving DecidableEq, Repr

namespace Statement

def new (kind : StatementKind) (dialect : Dialect) (counter : String) (ordinal : UInt64) :
    Statement :=
  match kind with
  | .select => .select (.new dialect counter ordinal)
  | .insert => .insert (.new dialect counter ordinal)
  | .update => .update (.new dialect counter ordinal)
  | .delete => .delete (.new dialect counter ordinal)

def kind : Statement → StatementKind
  | .select _ => .select
  | .insert _ => .insert
  | .update _ => .update
  | .delete _ => .delete

def draft : Statement → Draft
  | .select s => s.toDraft
  | .insert s => s.toDraft
  | .update s => s.toDraft
  | .delete s => s.toDraft

def registry (s : Statement) : Registry := s.draft.registry

def values (s : Statement) : BindMap := s.registry.values

def sql : Statement → String
  | .select s => s.sql
  | .insert s => s.sql
  | .update s => s.sql
  | .delete s => s.sql

def paging? : Statement → Option Paging
  | .insert _ => none
  | s => some s.draft.clauses.paging

def renumber (ordinal : UInt64) : Statement → Statement
  | .select s => .select (s.renumber ordinal)
  | .insert s => .insert (s.renumber ordinal)
  | .update s => .update (s.renumber ordinal)
  | .delete s => .delete (s.renumber ordinal)

def withDefaultPerPage (n : UInt64) : Statement → Statement
  | .select s => .select { s with toDraft := s.toDraft.withDefaultPerPage n }
  | .insert s => .insert s
  | .update s => .update { s with toDraft := s.toDraft.withDefaultPerPage n }
  | .delete s => .delete { s with toDraft := s.toDraft.withDefaultPerPage n }

def compose : Statement → Call Embedded → Option Statement
  | .select s, .select call => some (.select (s.apply call))
  | .insert s, .insert call => some (.insert (s.apply call))
  | .update s, .update call => some (.update (s.apply call))
  | .delete s, .delete call => some (.delete (s.apply call))
  | _, _ => none

end Statement

def Call.kind {ρ : Type} : Call ρ → StatementKind
  | .select _ => .select
  | .insert _ => .insert
  | .update _ => .update
  | .delete _ => .delete

def Call.inlined? {ρ : Type} : Call ρ → Option (Inline ρ)
  | .select (.common (.inline value)) => some value
  | .insert (.common (.inline value)) => some value
  | .update (.common (.inline value)) => some value
  | .delete (.common (.inline value)) => some value
  | _ => none

theorem Statement.compose_isSome (s : Statement) (call : Call Embedded) :
    (s.compose call).isSome ↔ s.kind = call.kind := by
  cases s <;> cases call <;> simp [compose, kind, Call.kind]

end SqlCompose
