import SqlCompose.Statement.Basic

namespace SqlCompose

variable {m : Type → Type} [Monad m] {ρ σ : Type} (f : ρ → m σ)

def Inline.mapM : Inline ρ → m (Inline σ)
  | .scalar v type => pure (.scalar v type)
  | .list vs type => pure (.list vs type)
  | .statement s => .statement <$> f s

def Source.mapM : Source ρ → m (Source σ)
  | .text sql => pure (.text sql)
  | .statement s => .statement <$> f s

def Criterion.mapM : Criterion ρ → m (Criterion σ)
  | .raw fragment => pure (.raw fragment)
  | .column name value => .column name <$> value.mapM f

def Inline.mapOptionM : Option (Inline ρ) → m (Option (Inline σ))
  | none => pure none
  | some value => some <$> value.mapM f

def ConditionCall.mapM : ConditionCall ρ → m (ConditionCall σ)
  | .add connective fragment value => .add connective fragment <$> Inline.mapOptionM f value
  | .append text value => .append text <$> Inline.mapOptionM f value
  | .reset => pure .reset

def WithCall.mapM : WithCall ρ → m (WithCall σ)
  | .define name columns body => .define name columns <$> body.mapM f
  | .recursive on => pure (.recursive on)
  | .reset => pure .reset

def CommonCall.mapM : CommonCall ρ → m (CommonCall σ)
  | .bind key value type => pure (.bind key value type)
  | .bindAll entries => pure (.bindAll entries)
  | .inline value => .inline <$> value.mapM f
  | .flag call => pure (.flag call)

def FilterCall.mapM : FilterCall ρ → m (FilterCall σ)
  | .paging call => pure (.paging call)
  | .condition call => .condition <$> call.mapM f
  | .equals criteria => .equals <$> criteria.mapM (Criterion.mapM f)
  | .ctes call => .ctes <$> call.mapM f

def SelectCall.mapM : SelectCall ρ → m (SelectCall σ)
  | .common call => .common <$> call.mapM f
  | .filter call => .filter <$> call.mapM f
  | .having call => .having <$> call.mapM f
  | .columns texts => pure (.columns texts)
  | .columnsAs texts => pure (.columnsAs texts)
  | .resetColumns => pure .resetColumns
  | .table source => .table <$> source.mapM f
  | .join kind source condition value => do
    let source ← source.mapM f
    let value ← Inline.mapOptionM f value
    pure (.join kind source condition value)
  | .appendJoin text value => .appendJoin text <$> Inline.mapOptionM f value
  | .resetTables => pure .resetTables
  | .groupBy texts => pure (.groupBy texts)
  | .resetGroupBy => pure .resetGroupBy
  | .orderBy texts => pure (.orderBy texts)
  | .resetOrderBy => pure .resetOrderBy
  | .distinct on => pure (.distinct on)
  | .forUpdate on => pure (.forUpdate on)
  | .setAlias name => pure (.setAlias name)
  | .resetAlias => pure .resetAlias
  | .union all => pure (.union all)
  | .reset => pure .reset

def InsertCall.mapM : InsertCall ρ → m (InsertCall σ)
  | .common call => .common <$> call.mapM f
  | .column call => pure (.column call)
  | .returning call => pure (.returning call)
  | .table name => pure (.table name)
  | .reset => pure .reset

def UpdateCall.mapM : UpdateCall ρ → m (UpdateCall σ)
  | .common call => .common <$> call.mapM f
  | .filter call => .filter <$> call.mapM f
  | .column call => pure (.column call)
  | .returning call => pure (.returning call)
  | .table name => pure (.table name)
  | .reset => pure .reset

def DeleteCall.mapM : DeleteCall ρ → m (DeleteCall σ)
  | .common call => .common <$> call.mapM f
  | .filter call => .filter <$> call.mapM f
  | .returning call => pure (.returning call)
  | .table name => pure (.table name)
  | .reset => pure .reset

def Call.mapM : Call ρ → m (Call σ)
  | .select call => .select <$> call.mapM f
  | .insert call => .insert <$> call.mapM f
  | .update call => .update <$> call.mapM f
  | .delete call => .delete <$> call.mapM f

end SqlCompose
