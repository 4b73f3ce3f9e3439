import SqlCompose.Query.Factory

namespace SqlCompose

class Executable (σ : Type) where
  sql : σ → String
  values : σ → BindMap

instance : Executable Select := ⟨Select.sql, fun s => s.registry.values⟩

instance : Executable Insert := ⟨Insert.sql, fun s => s.registry.values⟩

instance : Executable Update := ⟨Update.sql, fun s => s.registry.values⟩

instance : Executable Delete := ⟨Delete.sql, fun s => s.registry.values⟩

instance : Executable Statement := ⟨Statement.sql, Statement.values⟩

structure Query (σ α β : Type) where
  statement : σ
  connection : Connection α β

namespace Query

variable {σ α β : Type}

def change (q : Query σ α β) (f : σ → σ) : Query σ α β := { q with statement := f q.statement }

def perform [Executable σ] (q : Query σ α β) : Except QueryError α :=
  q.connection.perform (Executable.sql q.statement) (Executable.values q.statement)

def fetch (q : Query Select α β) (op : Fetch) : Except QueryError β :=
  q.connection.fetch op q.statement.sql q.statement.registry.values

def call (q : Query Select α β) (name : String) : Except QueryError β :=
  match Fetch.ofName? name with
  | some op => q.fetch op
  | none => .error (.unknownOperation name)

def invoke (q : Query Select α β) (method : String) : Option (Except QueryError β) :=
  (Fetch.ofMethod? method).map q.fetch

theorem invoke_method (q : Query Select α β) {m : String × Fetch} (offered : m ∈ Fetch.methods) :
    q.invoke m.1 = some (q.fetch m.2) ∧ q.call m.2.name = q.fetch m.2 := by
  rw [invoke, Fetch.ofMethod?_of_mem m offered, call, Fetch.ofName?_name]
  exact ⟨rfl, rfl⟩

def lastInsertId (q : Query Insert α β) (name : Option String) : Except QueryError String :=
  q.connection.lastInsertId name

end Query

end SqlCompose
