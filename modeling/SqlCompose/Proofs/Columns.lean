import SqlCompose.Proofs.MapHistories
import SqlCompose.Proofs.Trimming
import SqlCompose.Statement.Insert
import SqlCompose.Statement.Update

namespace SqlCompose

open Log (latest? since)
open OrderedMap (held? stored? erases)

namespace Column

def column : Column → String
  | .name column | .value column _ => column

def binding? : Column → Option (String × Option Param)
  | .name _ => none
  | .value column v => some (column, some ⟨v, ParamType.infer v⟩)

end Column

namespace ColumnCall

def isReset (c : ColumnCall) : Bool := c = .reset

def fragments : ColumnCall → List (String × String)
  | .assign column _ => [(column, ":" ++ column)]
  | .assignMany columns => columns.map fun c => (c.column, ":" ++ c.column)
  | .literal column text => [(column, text)]
  | .reset => []

def bindings : ColumnCall → List (String × Option Param)
  | .assign column (some (v, type)) => [(column, some ⟨v, type.getD (ParamType.infer v)⟩)]
  | .assignMany columns => columns.filterMap Column.binding?
  | .literal column _ => [(column, none)]
  | .assign _ none | .reset => []

def assigned (calls : List ColumnCall) : List (String × String) := (since isReset calls).flatMap fragments

theorem assigned_concat (calls : List ColumnCall) (c : ColumnCall) :
    assigned (calls ++ [c]) = if c.isReset then [] else assigned calls ++ c.fragments := by
  rw [assigned, Log.since_concat]
  cases c.isReset <;> simp [assigned]

end ColumnCall

open ColumnCall

namespace BoundColumns

theorem assignMany_assignments (b : BoundColumns) (columns : List Column) :
    (columns.foldl assignColumn b).assignments =
      b.assignments.insertAll (columns.map fun c => (c.column, ":" ++ c.column)) := by
  induction columns generalizing b with
  | nil => rfl
  | cons c rest ih => cases c <;> exact ih _

theorem assignMany_values (b : BoundColumns) (columns : List Column) :
    (columns.foldl assignColumn b).registry.values =
      b.registry.values.changeAll (columns.filterMap Column.binding?) := by
  induction columns generalizing b with
  | nil => rfl
  | cons c rest ih => cases c <;> exact ih _

theorem apply_assignments (b : BoundColumns) (c : ColumnCall) :
    (b.apply c).assignments = if c.isReset then .empty else b.assignments.insertAll c.fragments := by
  cases c with
  | assignMany columns => exact b.assignMany_assignments columns
  | assign | literal | reset => rfl

theorem apply_values (b : BoundColumns) (c : ColumnCall) :
    (b.apply c).registry.values = b.registry.values.changeAll c.bindings := by
  cases c with
  | assign column value => cases value <;> rfl
  | assignMany columns => exact b.assignMany_values columns
  | literal | reset => rfl

-- Assignments to columns that had none are those since the latest reset, stored one after the other.
theorem run_assignments {b : BoundColumns} (unassigned : b.assignments = .empty) (calls : List ColumnCall) :
    (calls.foldl apply b).assignments = .ofList (assigned calls) := by
  induction calls using List.reverseRecOn with
  | nil => exact unassigned
  | append_singleton earlier c ih =>
    rw [List.foldl_concat, apply_assignments, ih, assigned_concat]
    cases c.isReset with
    | true => rfl
    | false => exact (OrderedMap.ofList_append _ _).symm

theorem run_values (b : BoundColumns) (calls : List ColumnCall) :
    (calls.foldl apply b).registry.values = b.registry.values.changeAll (calls.flatMap bindings) := by
  induction calls using List.reverseRecOn with
  | nil => rfl
  | append_singleton earlier c ih =>
    rw [List.foldl_concat, apply_values, ih, List.flatMap_append, OrderedMap.changeAll_append, List.flatMap_singleton]

end BoundColumns

theorem Insert.run_columns (s : Insert) (calls : List ColumnCall) :
    calls.foldl applyColumn s =
      { s with
        assignments := (calls.foldl BoundColumns.apply ⟨s.assignments, s.registry⟩).assignments
        registry := (calls.foldl BoundColumns.apply ⟨s.assignments, s.registry⟩).registry } := by
  induction calls generalizing s with
  | nil => rfl
  | cons c rest ih => exact ih _

theorem Update.run_columns (s : Update) (calls : List ColumnCall) :
    calls.foldl applyColumn s =
      { s with
        assignments := (calls.foldl BoundColumns.apply ⟨s.assignments, s.registry⟩).assignments
        registry := (calls.foldl BoundColumns.apply ⟨s.assignments, s.registry⟩).registry } := by
  induction calls generalizing s with
  | nil => rfl
  | cons c rest ih => exact ih _

theorem Dialect.trimStart_quote (d : Dialect) (name : String) : Text.trimStart (d.quote name) = d.quote name :=
  Text.trimStart_of_head (c := d.openQuote) (by cases d <;> decide) (by rw [quote, String.toList_ofList]; rfl)

theorem Update.settings (a : Assignments) (d : Dialect) :
    a.entries.map (fun (c, f) => assignmentText d c f) =
      List.zipWith (fun c v => c ++ " = " ++ v) (a.keys.map d.quote) a.values := by
  simp [OrderedMap.keys, OrderedMap.values, assignmentText, List.zipWith_map, List.zipWith_self]

theorem Insert.columnList (columns : List String) (d : Dialect) :
    Text.trimStart (Text.listing "," (columns.map d.quote)) = Text.joined ", " (columns.map d.quote) := by
  rw [Text.trimStart_listing]
  cases columns with
  | nil => rfl
  | cons c rest => rw [List.map_cons, List.modifyHead_cons, d.trimStart_quote]

theorem Insert.sql_columns (d : Dialect) (table counter : String) (n : UInt64) (b : BoundColumns) :
    ({ (Insert.new d counter n).apply (.table table) with assignments := b.assignments, registry := b.registry } :
        Insert).sql =
      "INSERT INTO " ++ d.quotePath table ++ " (" ++ Text.joined ", " (b.assignments.keys.map d.quote) ++
        ") VALUES (" ++ Text.joined ", " (b.assignments.values.modifyHead Text.trimStart) ++ ")" := by
  rw [← columnList, ← Text.trimStart_listing]
  exact String.append_empty

theorem Update.sql_columns (d : Dialect) (table counter : String) (n : UInt64) (b : BoundColumns) :
    ({ (Update.new d counter n).apply (.table table) with assignments := b.assignments, registry := b.registry } :
        Update).sql =
      "UPDATE " ++ table ++ " SET" ++ Text.listing ","
        (List.zipWith (fun c v => c ++ " = " ++ v) (b.assignments.keys.map d.quote) b.assignments.values) := by
  have window : d.lateWindow 0 0 = "" := by cases d <;> rfl
  rw [← settings]
  show "" ++ "UPDATE" ++ "" ++ " " ++ table ++ " SET" ++ Text.listing "," _ ++ "" ++ d.lateWindow 0 0 ++ "" = _
  rw [window]
  simp only [String.append_empty, String.empty_append]
  rfl

-- An INSERT and an UPDATE that take the same calls. INSERT drops the blanks in front of its first value.
theorem columns_keep_step (d : Dialect) (table counter other : String) (m n : UInt64) (calls : List ColumnCall) :
    let i := calls.foldl (fun s c => s.apply (.column c)) ((Insert.new d counter m).apply (.table table))
    let u := calls.foldl (fun s c => s.apply (.column c)) ((Update.new d other n).apply (.table table))
    let columns := i.assignments.keys.map d.quote
    let values := i.assignments.values
    (u.assignments = i.assignments ∧ u.registry.values = i.registry.values) ∧
      (i.assignments.keys.Nodup ∧ i.assignments.keys = ((assigned calls).map Prod.fst).eraseDups ∧
        ∀ c, i.assignments.get? c = latest? (held? c) (assigned calls)) ∧
      (i.registry.values.keys.Nodup ∧
        ∀ c, i.registry.values.get? c = latest? (stored? c) (since (erases c) (calls.flatMap bindings))) ∧
      columns.length = values.length ∧
      i.sql = "INSERT INTO " ++ d.quotePath table ++ " (" ++ Text.joined ", " columns ++ ") VALUES (" ++
        Text.joined ", " (values.modifyHead Text.trimStart) ++ ")" ∧
      u.sql = "UPDATE " ++ table ++ " SET" ++
        Text.listing "," (List.zipWith (fun c v => c ++ " = " ++ v) columns values) := by
  intro i u columns values
  have inserted : i = _ := Insert.run_columns _ calls
  have updated : u = _ := Update.run_columns _ calls
  have listed : i.assignments = .ofList (assigned calls) := by
    rw [inserted]
    exact BoundColumns.run_assignments rfl calls
  have bound : i.registry.values = .changeAll .empty (calls.flatMap bindings) := by
    rw [inserted]
    exact BoundColumns.run_values _ calls
  have agreed : u.assignments = i.assignments := by
    rw [listed, updated]
    exact BoundColumns.run_assignments rfl calls
  refine ⟨⟨agreed, ?registry⟩, ⟨?distinct, ?order, ?fragments⟩, ⟨?keys, ?bound⟩, ?paired, ?insert, ?update⟩
  case registry =>
    rw [bound, updated]
    exact BoundColumns.run_values _ calls
  case distinct =>
    rw [listed]
    exact OrderedMap.nodup_ofList _
  case order =>
    rw [listed]
    exact OrderedMap.keys_ofList _
  case fragments =>
    rw [listed]
    exact OrderedMap.get?_ofList _
  case keys =>
    rw [bound]
    exact OrderedMap.nodup_changeAll (m := .empty) List.nodup_nil _
  case bound =>
    rw [bound]
    exact OrderedMap.get?_changeAll _
  case paired => simp only [columns, values, OrderedMap.keys, OrderedMap.values, List.length_map]
  case insert =>
    simp only [columns, values, inserted]
    exact Insert.sql_columns d table counter m _
  case update =>
    simp only [columns, values]
    rw [← agreed, updated]
    exact Update.sql_columns d table other n _

theorem insert_trims_first_literal :
    let i := ((Insert.new .sqlite "main" 1).apply (.table "t")).apply (.column (.literal "a" " x"))
    let u := ((Update.new .sqlite "main" 2).apply (.table "t")).apply (.column (.literal "a" " x"))
    i.assignments.values = [" x"] ∧ u.assignments.values = [" x"] ∧ u.sql = "UPDATE t SET \"a\" =  x" ∧
      i.sql = "INSERT INTO \"t\" (\"a\") VALUES (x)" ∧ i.sql ≠ "INSERT INTO \"t\" (\"a\") VALUES ( x)" := by
  decide

end SqlCompose
