import SqlCompose.Clause.Flags
import SqlCompose.Clause.With
import SqlCompose.Proofs.Columns

namespace SqlCompose

open Log (latest? since)

inductive MapEvent (κ α : Type) where
  | store (key : κ) (value : α)
  | remove (key : κ)
  | clear
  deriving DecidableEq, Repr

namespace MapEvent

variable {κ α : Type} [DecidableEq κ] {log : List (MapEvent κ α)} {e : MapEvent κ α} {key : κ}

def gives? (key : κ) : MapEvent κ α → Option α
  | .store k value => if k = key then some value else none
  | .remove _ | .clear => none

def ends (key : κ) : MapEvent κ α → Bool
  | .store _ _ => false
  | .remove k => k = key
  | .clear => true

def life (key : κ) (log : List (MapEvent κ α)) : List (MapEvent κ α) := since (ends key) log

def standing? (key : κ) (log : List (MapEvent κ α)) : Option α := latest? (gives? key) (life key log)

-- The place in the log at which a key came: of its first store since it was last taken away.
def arrival (key : κ) (log : List (MapEvent κ α)) : Nat :=
  log.length - (life key log).length + (life key log).findIdx fun e => (e.gives? key).isSome

theorem life_concat (log : List (MapEvent κ α)) (e : MapEvent κ α) (key : κ) :
    life key (log ++ [e]) = if e.ends key then [] else life key log ++ [e] := Log.since_concat ..

theorem life_length_le (key : κ) (log : List (MapEvent κ α)) : (life key log).length ≤ log.length :=
  (List.rtakeWhile_suffix ..).length_le

theorem standing?_concat_kept (kept : e.ends key = false) :
    standing? key (log ++ [e]) = (e.gives? key).or (standing? key log) := by
  rw [standing?, life_concat, kept]
  exact Log.latest?_concat ..

theorem standing?_concat_ended (ended : e.ends key = true) : standing? key (log ++ [e]) = none := by
  rw [standing?, life_concat, if_pos ended]
  rfl

theorem standing?_isSome : (standing? key log).isSome = true ↔ ∃ e ∈ life key log, (e.gives? key).isSome = true := by
  rw [← Option.ne_none_iff_isSome, standing?, Ne, Log.latest?_eq_none]
  simp [Option.isSome_iff_ne_none]

theorem arrival_lt (stands : (standing? key log).isSome = true) : arrival key log < log.length := by
  have found := List.findIdx_lt_length.mpr (standing?_isSome.mp stands)
  have short := life_length_le key log
  rw [arrival]
  omega

theorem arrival_concat_kept (stands : (standing? key log).isSome = true) (kept : e.ends key = false) :
    arrival key (log ++ [e]) = arrival key log := by
  have found := List.findIdx_lt_length.mpr (standing?_isSome.mp stands)
  rw [arrival, arrival, life_concat, kept, if_neg Bool.false_ne_true, List.findIdx_append, if_pos found]
  simp only [List.length_append, List.length_singleton]
  omega

theorem arrival_concat_new (absent : standing? key log = none) (value : α) :
    arrival key (log ++ [.store key value]) = log.length := by
  have never : (life key log).findIdx (fun e => (e.gives? key).isSome) = (life key log).length := by
    rw [List.findIdx_eq_length]
    intro e member
    simp [Log.latest?_eq_none.mp absent e member]
  have here : ((MapEvent.store key value).gives? key).isSome = true := by simp [gives?]
  have short := life_length_le key log
  rw [arrival, life_concat, ends, if_neg Bool.false_ne_true, List.findIdx_append, never, if_neg (Nat.lt_irrefl _)]
  simp only [List.length_append, List.length_singleton, List.findIdx_cons, here, cond_true]
  omega

end MapEvent

open MapEvent (gives? ends standing? arrival)

section

variable {κ α : Type} [DecidableEq κ]

-- What the history of a container says: its keys in the order of iteration, and what it holds for each.
structure Refines (log : List (MapEvent κ α)) (keys : List κ) (get? : κ → Option α) : Prop where
  distinct : keys.Nodup
  latest : ∀ key, get? key = standing? key log
  listed : ∀ key, key ∈ keys ↔ (standing? key log).isSome = true
  ordered : keys.Pairwise fun a b => arrival a log < arrival b log

namespace OrderedMap

def perform (m : OrderedMap κ α) : MapEvent κ α → OrderedMap κ α
  | .store key value => m.insert key value
  | .remove key => m.erase key
  | .clear => .empty

def performAll (m : OrderedMap κ α) (log : List (MapEvent κ α)) : OrderedMap κ α := log.foldl perform m

variable {m : OrderedMap κ α} {log : List (MapEvent κ α)} {key : κ}

theorem performAll_append (m : OrderedMap κ α) (log more : List (MapEvent κ α)) :
    m.performAll (log ++ more) = (m.performAll log).performAll more := List.foldl_append ..

theorem performAll_stores (m : OrderedMap κ α) (es : List (κ × α)) :
    m.performAll (es.map fun e => .store e.1 e.2) = m.insertAll es := List.foldl_map

theorem insert_present (present : key ∈ m.keys) (value : α) :
    (m.insert key value).keys = m.keys ∧ ∀ other, other ≠ key → (m.insert key value).get? other = m.get? other := by
  refine ⟨?_, fun other different => ?_⟩
  · rw [keys_insert, if_pos present]
  · rw [get?_insert, if_neg (Ne.symm different)]

theorem refines_empty :
    Refines ([] : List (MapEvent κ α)) (empty : OrderedMap κ α).keys (empty : OrderedMap κ α).get? where
  distinct := .nil
  latest _ := rfl
  listed key := by simp [keys, empty, standing?, MapEvent.life]
  ordered := .nil

theorem refines_store (refines : Refines log m.keys m.get?) (key : κ) (value : α) :
    Refines (log ++ [.store key value]) (m.insert key value).keys (m.insert key value).get? := by
  have now (other : κ) : standing? other (log ++ [.store key value]) =
      if key = other then some value else standing? other log := by
    rw [MapEvent.standing?_concat_kept rfl, gives?]
    split <;> rfl
  -- Keys that stood before keep the places at which they came.
  have old : m.keys.Pairwise fun a b =>
      arrival a (log ++ [.store key value]) < arrival b (log ++ [.store key value]) := by
    refine refines.ordered.imp_of_mem fun {a b} first second earlier => ?_
    rw [MapEvent.arrival_concat_kept ((refines.listed a).mp first) rfl,
      MapEvent.arrival_concat_kept ((refines.listed b).mp second) rfl]
    exact earlier
  refine ⟨nodup_insert refines.distinct, fun other => ?_, fun other => ?_, ?_⟩
  · rw [get?_insert, now, refines.latest]
  · rw [mem_keys_insert, now, refines.listed]
    by_cases same : key = other
    · simp [same]
    · simp [same, Ne.symm same]
  · rw [keys_insert]
    split
    · exact old
    · rename_i absent
      have unheld : standing? key log = none := by
        rw [← Option.not_isSome_iff_eq_none, ← refines.listed]
        exact absent
      refine List.pairwise_append.mpr ⟨old, List.pairwise_singleton .., ?_⟩
      intro a there b here
      have stands := (refines.listed a).mp there
      rw [List.mem_singleton.mp here, MapEvent.arrival_concat_new unheld, MapEvent.arrival_concat_kept stands rfl]
      exact MapEvent.arrival_lt stands

theorem refines_remove (refines : Refines log m.keys m.get?) (key : κ) :
    Refines (log ++ [.remove key]) (m.erase key).keys (m.erase key).get? := by
  have spares {other : κ} (different : other ≠ key) : (MapEvent.remove (α := α) key).ends other = false := by
    simp [ends, Ne.symm different]
  have now (other : κ) :
      standing? other (log ++ [.remove key]) = if other = key then none else standing? other log := by
    by_cases same : other = key
    · rw [if_pos same]
      exact MapEvent.standing?_concat_ended (by simp [ends, same])
    · rw [if_neg same, MapEvent.standing?_concat_kept (spares same)]
      rfl
  have members (other : κ) : other ∈ m.keys.erase key ↔ other ≠ key ∧ other ∈ m.keys := refines.distinct.mem_erase_iff
  refine ⟨nodup_erase refines.distinct, fun other => ?_, fun other => ?_, ?_⟩
  · rw [now]
    by_cases same : other = key
    · rw [if_pos same, same]
      exact get?_erase_self refines.distinct
    · rw [if_neg same, get?_erase_of_ne m (Ne.symm same), refines.latest]
  · rw [keys_erase, members, now, refines.listed]
    by_cases same : other = key <;> simp [same]
  · rw [keys_erase]
    refine (refines.ordered.sublist List.erase_sublist).imp_of_mem fun {a b} first second earlier => ?_
    obtain ⟨otherA, standsA⟩ := (members a).mp first
    obtain ⟨otherB, standsB⟩ := (members b).mp second
    rw [MapEvent.arrival_concat_kept ((refines.listed a).mp standsA) (spares otherA),
      MapEvent.arrival_concat_kept ((refines.listed b).mp standsB) (spares otherB)]
    exact earlier

theorem refines_clear (log : List (MapEvent κ α)) :
    Refines (log ++ [.clear]) (empty : OrderedMap κ α).keys (empty : OrderedMap κ α).get? := by
  have now (other : κ) : standing? other (log ++ [.clear]) = none := MapEvent.standing?_concat_ended rfl
  refine ⟨.nil, fun other => (now other).symm, fun other => ?_, .nil⟩
  simp [now, keys, empty]

theorem refines_performAll (log : List (MapEvent κ α)) :
    Refines log ((empty : OrderedMap κ α).performAll log).keys ((empty : OrderedMap κ α).performAll log).get? := by
  induction log using List.reverseRecOn with
  | nil => exact refines_empty
  | append_singleton log e ih =>
    rw [performAll_append]
    cases e with
    | store key value => exact refines_store ih key value
    | remove key => exact refines_remove ih key
    | clear => exact refines_clear log

theorem entries_shown {β : Type} (nodup : m.keys.Nodup) (text : κ → α → β) :
    m.entries.map (fun e => text e.1 e.2) = m.keys.filterMap fun key => (m.get? key).map (text key) := by
  rw [keys, List.filterMap_map, ← List.filterMap_eq_map]
  refine List.filterMap_congr fun e member => ?_
  simp [get?_of_mem nodup member]

end OrderedMap

structure Keeps {σ ω : Type} (empty : σ) (apply : σ → ω → σ) (events : ω → List (MapEvent κ α)) (keys : σ → List κ)
    (get? : σ → κ → Option α) : Prop where
  refines : ∀ calls : List ω,
    Refines (calls.flatMap events) (keys (calls.foldl apply empty)) (get? (calls.foldl apply empty))
  overwrites : ∀ (calls : List ω) call key value,
    events call = [.store key value] → key ∈ keys (calls.foldl apply empty) →
    keys ((calls ++ [call]).foldl apply empty) = keys (calls.foldl apply empty) ∧
      ∀ other, other ≠ key → get? ((calls ++ [call]).foldl apply empty) other = get? (calls.foldl apply empty) other

-- It is enough that the container is an ordered map to whoever looks at it, with distinct keys as they are kept.
theorem Keeps.of_view {σ ω : Type} {empty : σ} {apply : σ → ω → σ} {events : ω → List (MapEvent κ α)}
    (view : σ → OrderedMap κ α) (start : view empty = .empty)
    (step : ∀ s call, (view s).keys.Nodup → view (apply s call) = (view s).performAll (events call)) :
    Keeps empty apply events (fun s => (view s).keys) (fun s => (view s).get?) := by
  have viewed (calls : List ω) : view (calls.foldl apply empty) = .performAll .empty (calls.flatMap events) := by
    induction calls using List.reverseRecOn with
    | nil => exact start
    | append_singleton calls call ih =>
      have distinct := (OrderedMap.refines_performAll (calls.flatMap events)).distinct
      rw [List.foldl_concat, step _ _ (ih ▸ distinct), ih, List.flatMap_append, List.flatMap_singleton,
        OrderedMap.performAll_append]
  constructor
  · intro calls
    simp only [viewed]
    exact OrderedMap.refines_performAll _
  · intro calls call key value stores present
    simp only [viewed] at present ⊢
    rw [List.flatMap_append, List.flatMap_singleton, stores, OrderedMap.performAll_append]
    exact OrderedMap.insert_present present value

end

namespace BindMap

inductive Call where
  | insert (key : String) (param : Param)
  | remove (key : String)
  | clear
  | collect (entries : List (String × Param))
  deriving DecidableEq, Repr

def apply (m : BindMap) : Call → BindMap
  | .insert key param => m.insert key param
  | .remove key => m.erase key
  | .clear => .empty
  | .collect entries => .ofList entries

def Call.events : Call → List (MapEvent String Param)
  | .insert key param => [.store key param]
  | .remove key => [.remove key]
  | .clear => [.clear]
  | .collect entries => .clear :: entries.map fun e => .store e.1 e.2

theorem apply_events (m : BindMap) (c : Call) : m.apply c = m.performAll c.events := by
  cases c with
  | insert | remove | clear => rfl
  | collect entries => exact (OrderedMap.performAll_stores .empty entries).symm

end BindMap

def ColumnCall.events (c : ColumnCall) : List (MapEvent String String) :=
  if c.isReset then [.clear] else c.fragments.map fun f => .store f.1 f.2

theorem BoundColumns.apply_events (b : BoundColumns) (c : ColumnCall) :
    (b.apply c).assignments = b.assignments.performAll c.events := by
  rw [apply_assignments, ColumnCall.events]
  cases c.isReset with
  | true => rfl
  | false => exact (OrderedMap.performAll_stores b.assignments c.fragments).symm

def Source.inSql : Source Embedded → String
  | .text sql => sql
  | .statement e => e.sql

def WithCall.events : WithCall Embedded → List (MapEvent String CommonTable)
  | .define name columns body => [.store name ⟨columns, body.inSql⟩]
  | .recursive _ => []
  | .reset => [.clear]

theorem BoundWith.apply_events (b : BoundWith) (c : WithCall Embedded) :
    (b.apply c).ctes.tables = b.ctes.tables.performAll c.events := by
  cases c with
  | define name columns body => cases body <;> rfl
  | recursive | reset => rfl

def FlagCall.events : FlagCall → List (MapEvent String Unit)
  | .set name on => if on then [.store name ()] else [.remove name]
  | .reset => [.clear]

namespace Flags

def held? (f : Flags) (name : String) : Option Unit := if f.contains name then some () else none

def table (f : Flags) : OrderedMap String Unit := ⟨f.names.map fun name => (name, ())⟩

theorem table_keys (f : Flags) : f.table.keys = f.names := by
  simp only [table, OrderedMap.keys, List.map_map, Function.comp_def, List.map_id']

theorem table_ext {m n : OrderedMap String Unit} (same : m.keys = n.keys) : m = n := by
  have injective : Function.Injective (Prod.fst : String × Unit → String) := fun _ _ first => Prod.ext first rfl
  obtain ⟨es⟩ := m
  obtain ⟨es'⟩ := n
  exact congrArg OrderedMap.mk (List.map_injective_iff.mpr injective same)

theorem table_get? (f : Flags) : f.table.get? = f.held? := by
  funext name
  have present : (f.table.get? name).isSome = f.contains name := by
    rw [Bool.eq_iff_iff, OrderedMap.get?_isSome, table_keys, contains, List.contains_iff_mem]
  rw [held?, ← present]
  cases f.table.get? name <;> rfl

theorem apply_events (f : Flags) (c : FlagCall) (nodup : f.table.keys.Nodup) :
    (f.apply c).table = f.table.performAll c.events := by
  apply table_ext
  rw [table_keys]
  rw [table_keys] at nodup
  cases c with
  | reset => rfl
  | set name on =>
    cases on with
    | true =>
      show (f.set name true).names = (f.table.insert name ()).keys
      rw [OrderedMap.keys_insert, table_keys]
      by_cases there : name ∈ f.names <;> simp [set, contains, there]
    | false =>
      show f.names.filter (· != name) = (f.table.erase name).keys
      rw [OrderedMap.keys_erase, table_keys, nodup.erase_eq_filter]

end Flags

theorem With.render_shown (w : With) (d : Dialect) (nodup : w.tables.keys.Nodup) :
    w.render d =
      if w.tables.keys = [] then ""
      else (if w.recursive then "WITH RECURSIVE" else "WITH") ++
        Text.listing "," (w.tables.keys.filterMap fun name => (w.tables.get? name).map (tableText d name)) ++ " " := by
  have tableless : w.isEmpty = true ↔ w.tables.keys = [] := by
    rw [isEmpty, OrderedMap.isEmpty, List.isEmpty_iff, OrderedMap.keys, List.map_eq_nil_iff]
  rw [render, ← OrderedMap.entries_shown nodup (tableText d)]
  simp only [tableless]

theorem Update.sql_shown (s : Update) (nodup : s.assignments.keys.Nodup) :
    s.sql = s.clauses.ctes.render s.dialect ++ "UPDATE" ++ s.clauses.flags.render ++ " " ++ s.table ++ " SET" ++
      Text.listing "," (s.assignments.keys.filterMap fun column =>
        (s.assignments.get? column).map (assignmentText s.dialect column)) ++
      s.clauses.conditions.render "WHERE" ++ s.lateWindow ++ s.clauses.renderReturning := by
  rw [← OrderedMap.entries_shown nodup (assignmentText s.dialect)]
  rfl

theorem Insert.sql_shown (s : Insert) (nodup : s.assignments.keys.Nodup) :
    s.sql = "INSERT" ++ s.clauses.flags.render ++ " INTO " ++ s.dialect.quotePath s.table ++ " (" ++
      Text.joined ", " (s.assignments.keys.map s.dialect.quote) ++ ") VALUES (" ++
      Text.trimStart (Text.listing "," (s.assignments.keys.filterMap s.assignments.get?)) ++ ")" ++
      s.clauses.renderReturning := by
  have values : s.assignments.values = s.assignments.keys.filterMap s.assignments.get? := by
    simpa [OrderedMap.values] using OrderedMap.entries_shown nodup fun _ fragment => fragment
  rw [← columnList, ← values]
  rfl

-- All four containers follow one model, which is read off the history of their calls, and the texts that show them
-- list each of its keys once and in its order, with what it holds for the key.
theorem containers_follow_history :
    (Keeps .empty BindMap.apply BindMap.Call.events OrderedMap.keys OrderedMap.get? ∧
      (∀ m entries, BindMap.apply m (.collect entries) =
        (entries.map fun e => BindMap.Call.insert e.1 e.2).foldl BindMap.apply .empty) ∧
      ∀ calls : List BindMap.Call,
        let m := calls.foldl BindMap.apply .empty
        m.entries = m.keys.filterMap fun key => (m.get? key).map (Prod.mk key)) ∧
    (∀ r : Registry, Keeps ⟨.empty, r⟩ BoundColumns.apply ColumnCall.events
      (fun b => b.assignments.keys) (fun b => b.assignments.get?)) ∧
    (∀ r : Registry, Keeps ⟨{}, r⟩ BoundWith.apply WithCall.events
      (fun b => b.ctes.tables.keys) (fun b => b.ctes.tables.get?)) ∧
    Keeps {} Flags.apply FlagCall.events Flags.names Flags.held? ∧
    (∀ (calls : List ColumnCall) r (u : Update) (i : Insert),
      let a := (calls.foldl BoundColumns.apply ⟨.empty, r⟩).assignments
      ({ u with assignments := a } : Update).sql =
        u.clauses.ctes.render u.dialect ++ "UPDATE" ++ u.clauses.flags.render ++ " " ++ u.table ++ " SET" ++
          Text.listing "," (a.keys.filterMap fun c => (a.get? c).map (Update.assignmentText u.dialect c)) ++
          u.clauses.conditions.render "WHERE" ++ u.lateWindow ++ u.clauses.renderReturning ∧
      ({ i with assignments := a } : Insert).sql =
        "INSERT" ++ i.clauses.flags.render ++ " INTO " ++ i.dialect.quotePath i.table ++ " (" ++
          Text.joined ", " (a.keys.map i.dialect.quote) ++ ") VALUES (" ++
          Text.trimStart (Text.listing "," (a.keys.filterMap a.get?)) ++ ")" ++ i.clauses.renderReturning) ∧
    (∀ (calls : List (WithCall Embedded)) r d,
      let w := (calls.foldl BoundWith.apply ⟨{}, r⟩).ctes
      w.render d =
        if w.tables.keys = [] then ""
        else (if w.recursive then "WITH RECURSIVE" else "WITH") ++
          Text.listing "," (w.tables.keys.filterMap fun name => (w.tables.get? name).map (With.tableText d name)) ++
          " ") ∧
    ∀ calls : List FlagCall,
      (calls.foldl Flags.apply {}).render = Text.listing "" (calls.foldl Flags.apply {}).names := by
  have bound : Keeps .empty BindMap.apply BindMap.Call.events OrderedMap.keys OrderedMap.get? :=
    .of_view id rfl fun m call _ => BindMap.apply_events m call
  have assigned (r : Registry) : Keeps ⟨.empty, r⟩ BoundColumns.apply ColumnCall.events
      (fun b => b.assignments.keys) (fun b => b.assignments.get?) :=
    .of_view BoundColumns.assignments rfl fun b call _ => b.apply_events call
  have tables (r : Registry) : Keeps ⟨{}, r⟩ BoundWith.apply WithCall.events
      (fun b => b.ctes.tables.keys) (fun b => b.ctes.tables.get?) :=
    .of_view (fun b : BoundWith => b.ctes.tables) rfl fun b call _ => b.apply_events call
  have flags : Keeps {} Flags.apply FlagCall.events (fun f => f.table.keys) (fun f => f.table.get?) :=
    .of_view Flags.table rfl Flags.apply_events
  simp only [Flags.table_keys, Flags.table_get?] at flags
  refine ⟨⟨bound, fun m entries => ?collect, fun calls => ?entries⟩, assigned, tables, flags,
    fun calls r u i => ⟨?update, ?insert⟩, fun calls r d => ?tables, fun calls => rfl⟩
  case collect =>
    rw [List.foldl_map]
    rfl
  case entries => simpa using OrderedMap.entries_shown (bound.refines calls).distinct Prod.mk
  case update => exact Update.sql_shown _ ((assigned r).refines calls).distinct
  case insert => exact Insert.sql_shown _ ((assigned r).refines calls).distinct
  case tables => exact With.render_shown _ d ((tables r).refines calls).distinct

example : (([.set "IGNORE" true, .set "DISTINCT" true, .set "IGNORE" false, .set "DISTINCT" true, .set "IGNORE" true] :
    List FlagCall).foldl Flags.apply {}).render = " DISTINCT IGNORE" := by decide

end SqlCompose
