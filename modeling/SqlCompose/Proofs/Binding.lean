import SqlCompose.Proofs.Coverage

namespace SqlCompose

open Placeholder (isGenerated Occurs Closed Guarded)
open Text (Plain)

variable {keys more : List String}

structure Clauses.Covered (keys : List String) (c : Clauses) : Prop where
  columns : ∀ t ∈ c.columns, Closed keys t
  tables : c.tables.Covered keys
  conditions : c.conditions.Covered keys
  having : c.having.Covered keys
  group : ∀ t ∈ c.group, Closed keys t
  order : ∀ t ∈ c.order, Closed keys t
  flags : ∀ t ∈ c.flags.names, Closed keys t
  ctes : c.ctes.Covered keys
  union : ∀ t ∈ c.union, Closed keys t
  returning : ∀ t ∈ c.returning, Closed keys t

namespace Clauses.Covered

variable {c : Clauses}

theorem mono (grows : ∀ key ∈ keys, isGenerated key = true → key ∈ more) (covered : c.Covered keys) :
    c.Covered more where
  columns t member := (covered.columns t member).mono grows
  tables := covered.tables.mono grows
  conditions t member := (covered.conditions t member).mono grows
  having t member := (covered.having t member).mono grows
  group t member := (covered.group t member).mono grows
  order t member := (covered.order t member).mono grows
  flags t member := (covered.flags t member).mono grows
  ctes := covered.ctes.mono grows
  union t member := (covered.union t member).mono grows
  returning t member := (covered.returning t member).mono grows

theorem bare {ctes : With} {union : List String} {paging : Paging} (tables : ctes.Covered keys)
    (members : ∀ t ∈ union, Closed keys t) :
    Clauses.Covered keys { ctes := ctes, union := union, paging := paging } where
  columns _ member := by cases member
  tables _ member := by cases member
  conditions _ member := by cases member
  having _ member := by cases member
  group _ member := by cases member
  order _ member := by cases member
  flags _ member := by cases member
  ctes := tables
  union := members
  returning _ member := by cases member

theorem empty {paging : Paging} : Clauses.Covered keys { paging := paging } :=
  bare (fun _ member => by cases member) fun _ member => by cases member

theorem renderReturning (covered : c.Covered keys) : Closed keys c.renderReturning := by
  unfold Clauses.renderReturning
  split
  · exact .plain keys Text.plain_empty
  · exact (Closed.plain keys (by decide)).append (.listing (by decide) covered.returning)

end Clauses.Covered

theorem renderBy_closed {keyword : String} (plain : Plain keyword) {items : List String}
    (each : ∀ t ∈ items, Closed keys t) : Closed keys (Clauses.renderBy keyword items) := by
  unfold Clauses.renderBy
  split
  · exact .plain keys Text.plain_empty
  · exact (Closed.plain keys ((Text.Plain.append (by decide) plain).append (by decide))).append
      (.listing (by decide) each)

theorem set_closed {f : Flags} {name : String} {on : Bool} (plain : Plain name)
    (each : ∀ t ∈ f.names, Closed keys t) : ∀ t ∈ (f.set name on).names, Closed keys t := by
  intro t member
  have known : t ∈ f.names ∨ t = name := by
    unfold Flags.set at member
    grind
  rcases known with old | rfl
  · exact each t old
  · exact .plain _ plain

namespace Draft

variable {d : Draft}

abbrev Covered (d : Draft) : Prop := d.clauses.Covered d.registry.values.keys

theorem applyCommon_grows (d : Draft) (call : CommonCall Embedded) :
    d.registry.Grows (d.applyCommon call).registry := by
  cases call with
  | bind key value type => exact d.registry.carry_grows (e := .bind key value type) id
  | bindAll entries => exact d.registry.bindAll_grows entries
  | inline value => exact d.registry.inline_grows value
  | flag call => exact .refl _

theorem applyFilter_grows (d : Draft) (call : FilterCall Embedded) :
    d.registry.Grows (d.applyFilter call).registry := by
  cases call with
  | paging call => exact .refl _
  | condition call => exact BoundConditions.apply_grows ⟨d.clauses.conditions, d.registry⟩ call
  | equals criteria => exact BoundConditions.addCriteria_grows ⟨d.clauses.conditions, d.registry⟩ criteria
  | ctes call => exact BoundWith.apply_grows ⟨d.clauses.ctes, d.registry⟩ call

theorem applyCommon_covered {call : CommonCall Embedded} (covered : d.Covered)
    (sound : ∀ e ∈ call.effects, e.Sound) : (d.applyCommon call).Covered := by
  have kept := Clauses.Covered.mono (d.applyCommon_grows call) covered
  cases call with
  | flag call =>
    cases call with
    | set name on => exact { kept with flags := set_closed (sound _ (List.mem_cons_self ..)) covered.flags }
    | reset => exact { kept with flags := fun _ member => by cases member }
  | _ => exact kept

theorem applyFilter_covered {call : FilterCall Embedded} (covered : d.Covered)
    (sound : ∀ e ∈ call.effects, e.Sound) : (d.applyFilter call).Covered := by
  have kept := Clauses.Covered.mono (d.applyFilter_grows call) covered
  cases call with
  | paging call => exact { covered with }
  | condition call =>
    exact { kept with conditions := BoundConditions.apply_covered covered.conditions sound }
  | equals criteria =>
    exact { kept with conditions := BoundConditions.addCriteria_covered covered.conditions sound }
  | ctes call => exact { kept with ctes := BoundWith.apply_covered covered.ctes sound }

theorem applyReturning_covered {call : ReturningCall} (covered : d.Covered)
    (sound : ∀ e ∈ call.effects, Effect.Sound e) : (d.applyReturning call).Covered := by
  cases call with
  | add columns =>
    refine { covered with returning := List.forall_mem_append.mpr ⟨covered.returning, fun t member => ?_⟩ }
    exact .plain _ (sound (.text t) (List.mem_map_of_mem member))
  | reset => exact { covered with returning := fun _ member => by cases member }

end Draft

namespace Select

variable {s : Select}

def Covered (s : Select) : Prop := s.toDraft.Covered ∧ Closed s.registry.values.keys s.aliasName

theorem member_closed (covered : s.Covered) : Closed s.registry.values.keys s.member := by
  obtain ⟨clauses, named⟩ := covered
  have columns : Closed s.registry.values.keys s.columnsText := by
    unfold columnsText
    split
    · exact .plain _ (by decide)
    · exact .listing (by decide) clauses.columns
  have locked : Plain (if s.forUpdate then " FOR UPDATE" else "") := by split <;> decide
  have body : Closed s.registry.values.keys s.body :=
    ((((((((((Closed.plain _ (by decide)).append (.listing Text.plain_empty clauses.flags)).append
      (.plain _ (s.dialect.earlyWindow_plain _ _))).append columns).append clauses.tables.render).append
      (clauses.conditions.render (by decide))).append (renderBy_closed (by decide) clauses.group)).append
      (clauses.having.render (by decide))).append (renderBy_closed (by decide) clauses.order)).append
      (.plain _ (s.dialect.lateWindow_plain _ _))).append (.plain _ locked)
  unfold member
  split
  · exact body
  · exact (((Closed.plain _ (by decide)).append body).append (.plain _ (by decide))).append named

theorem sql_closed (covered : s.Covered) : Closed s.registry.values.keys s.sql :=
  ((covered.1.ctes.render s.dialect).append (.joined Text.plain_empty covered.1.union)).append
    (member_closed covered)

theorem columnsAs_closed {keys : List String} {texts : List (String × String)}
    (sound : ∀ e ∈ texts.flatMap fun (e, name) => [Effect.text e, .text name], Effect.Sound e) :
    ∀ t ∈ texts.map fun (e, name) => e ++ " AS " ++ name, Closed keys t := by
  intro t member
  obtain ⟨⟨e, name⟩, there, rfl⟩ := List.mem_map.mp member
  have plain : Plain e := sound (.text e) (List.mem_flatMap.mpr ⟨_, there, List.mem_cons_self ..⟩)
  have named : Plain name :=
    sound (.text name) (List.mem_flatMap.mpr ⟨_, there, List.mem_cons_of_mem _ (List.mem_cons_self ..)⟩)
  exact .plain _ ((plain.append (by decide)).append named)

theorem texts_closed {keys : List String} {texts : List String}
    (sound : ∀ e ∈ texts.map Effect.text, Effect.Sound e) : ∀ t ∈ texts, Closed keys t :=
  fun t member => .plain _ (sound (.text t) (List.mem_map_of_mem member))

theorem joinText_closed {keys : List String} {kind table condition : String} (plain : Plain kind)
    (named : Closed keys table) (on : Closed keys condition) : Closed keys (Join.text kind table condition) := by
  have kinds : Plain (Join.kindText kind) :=
    Text.plain_iff.mpr (Join.kindText_without Text.colon_reserved (Text.plain_iff.mp plain))
  have head : Closed keys (Join.kindText kind ++ " " ++ table) :=
    (Closed.plain _ (kinds.append (by decide))).append named
  unfold Join.text
  split
  · exact head
  · exact (head.append (.plain _ (by decide))).append on

theorem conditionText_plain {condition : String} (plain : Plain condition) :
    Plain (Join.conditionText condition) :=
  Text.plain_iff.mpr (Join.conditionText_without Text.colon_reserved (Text.plain_iff.mp plain))

theorem addJoin_covered {kind condition : String} {source : Source Embedded} {value : Option (Inline Embedded)}
    (covered : s.Covered) (sound : ∀ e ∈ (SelectCall.join kind source condition value).effects, e.Sound) :
    (s.addJoin kind source condition value).Covered := by
  obtain ⟨texts, tables⟩ := List.forall_mem_append.mp sound
  obtain ⟨plain, rest⟩ := List.forall_mem_cons.mp texts
  obtain ⟨condition_plain, inside⟩ := List.forall_mem_cons.mp rest
  have bound := s.registry.extend_covers (conditionText_plain condition_plain) inside
  have first := s.registry.extend_grows (Join.conditionText condition) value
  have second := (s.registry.extend (Join.conditionText condition) value).2.splice_grows source
  have spliced := (s.registry.extend (Join.conditionText condition) value).2.splice_covers tables
  have kept := covered.1.mono (first.trans second)
  exact ⟨{ kept with tables := kept.tables.addJoin (joinText_closed plain spliced (bound.mono second)) },
    covered.2.mono (first.trans second)⟩

theorem closeMember_covered (covered : s.Covered) (all : Bool) : (s.closeMember all).Covered := by
  refine ⟨.bare covered.1.ctes ?_, .plain _ Text.plain_empty⟩
  refine List.forall_mem_append.mpr ⟨covered.1.union, List.forall_mem_singleton.mpr ?_⟩
  refine (member_closed covered).append (.plain _ ?_)
  split <;> decide

theorem apply_covered {call : SelectCall Embedded} (covered : s.Covered)
    (sound : ∀ e ∈ call.effects, e.Sound) : (s.apply call).Covered := by
  obtain ⟨clauses, named⟩ := covered
  cases call with
  | common call =>
    exact ⟨Draft.applyCommon_covered clauses sound, named.mono (s.toDraft.applyCommon_grows call)⟩
  | filter call =>
    exact ⟨Draft.applyFilter_covered clauses sound, named.mono (s.toDraft.applyFilter_grows call)⟩
  | having call =>
    have grows := BoundConditions.apply_grows ⟨s.clauses.having, s.registry⟩ call
    exact ⟨{ Clauses.Covered.mono grows clauses with
      having := BoundConditions.apply_covered clauses.having sound }, named.mono grows⟩
  | columns texts =>
    exact ⟨{ clauses with columns := List.forall_mem_append.mpr ⟨clauses.columns, texts_closed sound⟩ }, named⟩
  | columnsAs texts =>
    exact ⟨{ clauses with
      columns := List.forall_mem_append.mpr ⟨clauses.columns, columnsAs_closed sound⟩ }, named⟩
  | resetColumns => exact ⟨{ clauses with columns := fun _ member => by cases member }, named⟩
  | table source =>
    have grows := s.registry.splice_grows source
    have kept := clauses.mono grows
    exact ⟨{ kept with tables := kept.tables.addTable (s.registry.splice_covers sound) }, named.mono grows⟩
  | join kind source condition value => exact addJoin_covered ⟨clauses, named⟩ sound
  | appendJoin text value =>
    obtain ⟨plain, inside⟩ := List.forall_mem_cons.mp sound
    have grows := s.registry.extend_grows text value
    have kept := clauses.mono grows
    exact ⟨{ kept with tables := kept.tables.append (s.registry.extend_covers plain inside) },
      named.mono grows⟩
  | resetTables => exact ⟨{ clauses with tables := fun _ member => by cases member }, named⟩
  | groupBy texts =>
    exact ⟨{ clauses with group := List.forall_mem_append.mpr ⟨clauses.group, texts_closed sound⟩ }, named⟩
  | resetGroupBy => exact ⟨{ clauses with group := fun _ member => by cases member }, named⟩
  | orderBy texts =>
    exact ⟨{ clauses with order := List.forall_mem_append.mpr ⟨clauses.order, texts_closed sound⟩ }, named⟩
  | resetOrderBy => exact ⟨{ clauses with order := fun _ member => by cases member }, named⟩
  | distinct on => exact ⟨{ clauses with flags := set_closed (by decide) clauses.flags }, named⟩
  | forUpdate on => exact ⟨clauses, named⟩
  | setAlias name => exact ⟨clauses, .plain _ (sound (.text name) (List.mem_cons_self ..))⟩
  | resetAlias => exact ⟨clauses, .plain _ Text.plain_empty⟩
  | union all => exact closeMember_covered ⟨clauses, named⟩ all
  | reset => exact ⟨.empty, .plain _ Text.plain_empty⟩

end Select

-- The fragments of the assignments are read in front of a comma, a blank or a parenthesis.
def Assigned (keys : List String) (a : Assignments) : Prop :=
  ∀ x ∈ a.entries, Plain x.1 ∧ Guarded keys x.2

namespace Assigned

variable {a : Assignments}

theorem mono (grows : ∀ key ∈ keys, isGenerated key = true → key ∈ more) (assigned : Assigned keys a) :
    Assigned more a := fun x member => (assigned x member).imp_right (Guarded.mono grows)

theorem insert (assigned : Assigned keys a) {column fragment : String} (plain : Plain column)
    (guarded : Guarded keys fragment) : Assigned keys (OrderedMap.insert a column fragment) := by
  intro x member
  rcases OrderedMap.mem_insert member with rfl | old
  · exact ⟨plain, guarded⟩
  · exact assigned x old

end Assigned

namespace BoundColumns

theorem assign_grows (b : BoundColumns) (column : String) (value : Option (Value × Option ParamType)) :
    b.registry.Grows (b.assign column value).registry := by
  cases value with
  | none => exact .refl _
  | some value => exact b.registry.carry_grows (e := .bind column value.1 value.2) id

theorem assign_assigned {b : BoundColumns} {column : String} (value : Option (Value × Option ParamType))
    (assigned : Assigned b.registry.values.keys b.assignments) (ordinary : Ordinary column) :
    Assigned (b.assign column value).registry.values.keys (b.assign column value).assignments :=
  (assigned.mono (b.assign_grows column value)).insert ordinary.1 (.column ordinary.1 ordinary.2)

theorem assignMany_kept {b : BoundColumns} {columns : List Column}
    (assigned : Assigned b.registry.values.keys b.assignments)
    (ordinary : ∀ e ∈ columns.flatMap Column.effects, Effect.Sound e) :
    b.registry.Grows (columns.foldl assignColumn b).registry ∧
      Assigned (columns.foldl assignColumn b).registry.values.keys
        (columns.foldl assignColumn b).assignments := by
  induction columns generalizing b with
  | nil => exact ⟨.refl _, assigned⟩
  | cons c rest ih =>
    obtain ⟨here, later⟩ := List.forall_mem_append.mp (List.flatMap_cons ▸ ordinary)
    cases c with
    | name column =>
      obtain ⟨grows, done⟩ := ih (b.assign_assigned none assigned (here _ (List.mem_cons_self ..))) later
      exact ⟨(b.assign_grows column none).trans grows, done⟩
    | value column v =>
      obtain ⟨grows, done⟩ :=
        ih (b.assign_assigned (some (v, none)) assigned (here _ (List.mem_cons_self ..))) later
      exact ⟨(b.assign_grows column (some (v, none))).trans grows, done⟩

theorem apply_kept {b : BoundColumns} {call : ColumnCall}
    (assigned : Assigned b.registry.values.keys b.assignments)
    (ordinary : ∀ e ∈ call.effects, Effect.Sound e) :
    b.registry.Grows (b.apply call).registry ∧
      Assigned (b.apply call).registry.values.keys (b.apply call).assignments := by
  cases call with
  | assign column value =>
    have named : Ordinary column := by
      cases value <;> exact ordinary (.column column) (List.mem_cons_self ..)
    exact ⟨b.assign_grows column value, b.assign_assigned value assigned named⟩
  | assignMany columns => exact assignMany_kept assigned ordinary
  | literal column text =>
    obtain ⟨named, rest⟩ := List.forall_mem_cons.mp ordinary
    have plain : Plain text := rest _ (List.mem_cons_self ..)
    have grows : b.registry.Grows (b.registry.unbind column) :=
      b.registry.carry_grows (e := .unbind column) (Ordinary.not_generated named)
    exact ⟨grows, (assigned.mono grows).insert named.1 (Closed.plain _ plain).guarded⟩
  | reset => exact ⟨.refl _, fun _ member => by cases member⟩

end BoundColumns

namespace Insert

variable {s : Insert}

def Covered (s : Insert) : Prop :=
  s.toDraft.Covered ∧ Plain s.table ∧ Assigned s.registry.values.keys s.assignments

theorem sql_closed (covered : s.Covered) : Closed s.registry.values.keys s.sql := by
  obtain ⟨clauses, plain, assigned⟩ := covered
  have columns : Plain (Text.trimStart (Text.listing "," (s.assignments.keys.map s.dialect.quote))) := by
    refine (Text.Plain.listing (by decide) fun t member => ?_).trimStart
    obtain ⟨column, there, rfl⟩ := List.mem_map.mp member
    obtain ⟨x, entry, rfl⟩ := List.mem_map.mp there
    exact s.dialect.quote_plain (assigned x entry).1
  have values : Guarded s.registry.values.keys (Text.trimStart (Text.listing "," s.assignments.values)) := by
    refine (Guarded.listing fun t member => ?_).trimStart
    obtain ⟨x, there, rfl⟩ := List.mem_map.mp member
    exact (assigned x there).2
  have front : Closed s.registry.values.keys ("INSERT" ++ s.clauses.flags.render ++ " INTO " ++
      s.dialect.quotePath s.table ++ " (" ++
      Text.trimStart (Text.listing "," (s.assignments.keys.map s.dialect.quote)) ++ ") VALUES (") :=
    ((((((Closed.plain _ (by decide)).append (.listing Text.plain_empty clauses.flags)).append
      (.plain _ (by decide))).append (.plain _ (s.dialect.quotePath_plain plain))).append
      (.plain _ (by decide))).append (.plain _ columns)).append (.plain _ (by decide))
  exact ((front.append_guarded values).followed (.plain _ (by decide)) rfl (by decide)).append
    clauses.renderReturning

theorem applyColumn_covered {call : ColumnCall} (covered : s.Covered)
    (ordinary : ∀ e ∈ call.effects, Effect.Sound e) : (s.applyColumn call).Covered := by
  obtain ⟨clauses, plain, assigned⟩ := covered
  obtain ⟨grows, done⟩ := BoundColumns.apply_kept (b := ⟨s.assignments, s.registry⟩) assigned ordinary
  exact ⟨Clauses.Covered.mono grows clauses, plain, done⟩

theorem apply_covered {call : InsertCall Embedded} (covered : s.Covered)
    (sound : ∀ e ∈ call.effects, e.Sound) : (s.apply call).Covered := by
  obtain ⟨clauses, plain, assigned⟩ := covered
  cases call with
  | common call =>
    exact ⟨Draft.applyCommon_covered clauses sound, plain, assigned.mono (s.toDraft.applyCommon_grows call)⟩
  | column call => exact applyColumn_covered ⟨clauses, plain, assigned⟩ sound
  | returning call =>
    have kept : (s.toDraft.applyReturning call).registry = s.registry := by cases call <;> rfl
    exact ⟨Draft.applyReturning_covered clauses sound, plain, kept ▸ assigned⟩
  | table name => exact ⟨clauses, sound (.text name) (List.mem_cons_self ..), assigned⟩
  | reset => exact ⟨.empty, Text.plain_empty, fun _ member => by cases member⟩

end Insert

open Placeholder (head_append head_of_blank head_ne)

theorem conditions_head (c : Conditions) (keyword : String) : (c.render keyword).toList.head? ≠ some '_' := by
  unfold Conditions.render
  split
  · decide
  · exact head_ne (head_of_blank _ (head_of_blank _ rfl))

theorem lateWindow_head (d : Draft) : d.lateWindow.toList.head? ≠ some '_' := by
  unfold Draft.lateWindow Dialect.lateWindow
  split
  · split
    · exact head_ne (head_of_blank _ (head_of_blank _ (head_of_blank _ (head_of_blank _ rfl))))
    · decide
  · refine head_append ?_ ?_ <;> split
    · decide
    · exact head_ne (head_of_blank _ rfl)
    · decide
    · exact head_ne (head_of_blank _ rfl)

theorem returning_head (c : Clauses) : c.renderReturning.toList.head? ≠ some '_' := by
  unfold Clauses.renderReturning
  split
  · decide
  · exact head_ne (head_of_blank _ rfl)

namespace Update

variable {s : Update}

def Covered (s : Update) : Prop :=
  s.toDraft.Covered ∧ Plain s.table ∧ Assigned s.registry.values.keys s.assignments

theorem sql_guarded (covered : s.Covered) : Guarded s.registry.values.keys s.sql := by
  obtain ⟨clauses, plain, assigned⟩ := covered
  have front : Closed s.registry.values.keys (s.clauses.ctes.render s.dialect ++ "UPDATE" ++
      s.clauses.flags.render ++ " " ++ s.table ++ " SET") :=
    (((((clauses.ctes.render s.dialect).append (.plain _ (by decide))).append
      (.listing Text.plain_empty clauses.flags)).append (.plain _ (by decide))).append
      (.plain _ plain)).append (.plain _ (by decide))
  have list : Guarded s.registry.values.keys
      (Text.listing "," (s.assignments.entries.map fun (c, f) => assignmentText s.dialect c f)) := by
    refine .listing fun t member => ?_
    obtain ⟨x, there, rfl⟩ := List.mem_map.mp member
    have column : Plain (s.dialect.quote x.1 ++ " = ") :=
      (s.dialect.quote_plain (assigned x there).1).append (by decide)
    exact (Closed.plain _ column).append_guarded (assigned x there).2
  exact (((front.append_guarded list).append (clauses.conditions.render (by decide)).guarded
    (conditions_head _ _)).append (Closed.plain _ (s.dialect.lateWindow_plain _ _)).guarded
    (lateWindow_head _)).append clauses.renderReturning.guarded (returning_head _)

theorem apply_covered {call : UpdateCall Embedded} (covered : s.Covered)
    (sound : ∀ e ∈ call.effects, e.Sound) : (s.apply call).Covered := by
  obtain ⟨clauses, plain, assigned⟩ := covered
  cases call with
  | common call =>
    exact ⟨Draft.applyCommon_covered clauses sound, plain, assigned.mono (s.toDraft.applyCommon_grows call)⟩
  | filter call =>
    exact ⟨Draft.applyFilter_covered clauses sound, plain, assigned.mono (s.toDraft.applyFilter_grows call)⟩
  | column call =>
    obtain ⟨grows, done⟩ := BoundColumns.apply_kept (b := ⟨s.assignments, s.registry⟩) assigned sound
    exact ⟨Clauses.Covered.mono grows clauses, plain, done⟩
  | returning call =>
    have kept : (s.toDraft.applyReturning call).registry = s.registry := by cases call <;> rfl
    exact ⟨Draft.applyReturning_covered clauses sound, plain, kept ▸ assigned⟩
  | table name => exact ⟨clauses, sound (.text name) (List.mem_cons_self ..), assigned⟩
  | reset => exact ⟨.empty, Text.plain_empty, fun _ member => by cases member⟩

end Update

namespace Delete

variable {s : Delete}

def Covered (s : Delete) : Prop := s.toDraft.Covered ∧ Plain s.table

theorem sql_closed (covered : s.Covered) : Closed s.registry.values.keys s.sql := by
  obtain ⟨clauses, plain⟩ := covered
  exact (((((((clauses.ctes.render s.dialect).append (.plain _ (by decide))).append
    (.listing Text.plain_empty clauses.flags)).append (.plain _ (by decide))).append
    (.plain _ plain)).append (clauses.conditions.render (by decide))).append
    (.plain _ (s.dialect.lateWindow_plain _ _))).append clauses.renderReturning

theorem apply_covered {call : DeleteCall Embedded} (covered : s.Covered)
    (sound : ∀ e ∈ call.effects, e.Sound) : (s.apply call).Covered := by
  obtain ⟨clauses, plain⟩ := covered
  cases call with
  | common call => exact ⟨Draft.applyCommon_covered clauses sound, plain⟩
  | filter call => exact ⟨Draft.applyFilter_covered clauses sound, plain⟩
  | returning call => exact ⟨Draft.applyReturning_covered clauses sound, plain⟩
  | table name => exact ⟨clauses, sound (.text name) (List.mem_cons_self ..)⟩
  | reset => exact ⟨.empty, Text.plain_empty⟩

end Delete

def Statement.Covered : Statement → Prop
  | .select s => s.Covered
  | .insert s => s.Covered
  | .update s => s.Covered
  | .delete s => s.Covered

theorem Statement.sql_guarded {st : Statement} (covered : st.Covered) :
    Guarded st.values.keys st.sql := by
  cases st with
  | select s => exact (Select.sql_closed covered).guarded
  | insert s => exact (Insert.sql_closed covered).guarded
  | update s => exact Update.sql_guarded covered
  | delete s => exact (Delete.sql_closed covered).guarded

theorem Statement.compose_covered {st st' : Statement} {call : Call Embedded} (covered : st.Covered)
    (sound : ∀ e ∈ call.effects, e.Sound) (composed : st.compose call = some st') : st'.Covered := by
  cases composes_of_compose composed with
  | select => exact Select.apply_covered covered sound
  | insert => exact Insert.apply_covered covered sound
  | update => exact Update.apply_covered covered sound
  | delete => exact Delete.apply_covered covered sound

-- Pieces of the callers' own without colons, and columns that look like no generated key.
def Effect.Colonless : Effect Unit → Prop
  | .text s | .table s => Plain s
  | .column name | .unbind name => Ordinary name
  | .bind .. | .generate .. | .absorb _ | .handOut | .clear | .reset => True

instance : DecidablePred Effect.Colonless
  | .text s | .table s => inferInstanceAs (Decidable (Plain s))
  | .column name | .unbind name => inferInstanceAs (Decidable (Ordinary name))
  | .bind .. | .generate .. | .absorb _ | .handOut | .clear | .reset => inferInstanceAs (Decidable True)

def Usage.colonless : Usage where
  counter _ := True
  brings e := Plain e.sql
  hands _ e := e.Colonless

theorem Effect.Colonless.sound {e : Effect Embedded} (colonless : e.bare.Colonless)
    (absorbed : ∀ s, e = .absorb s → s.Covered) : e.Sound := by
  cases e with
  | absorb s => exact absorbed s rfl
  | _ => exact colonless

theorem covered_hereditary : Hereditary .colonless Statement.Covered Embedded.Covered where
  created f kind ordinal := by
    cases kind
    · exact ⟨.empty, .plain _ Text.plain_empty⟩
    · exact ⟨.empty, Text.plain_empty, fun _ member => by cases member⟩
    · exact ⟨.empty, Text.plain_empty, fun _ member => by cases member⟩
    · exact ⟨.empty, Text.plain_empty⟩
  subSelect sel ordinal := ⟨.empty, .plain _ Text.plain_empty⟩
  clone st ordinal covered := by cases st <;> exact covered
  embedded sel covered := Select.sql_closed covered
  brought e plain := .plain _ plain
  composed st st' call covered absorbed handed composed :=
    Statement.compose_covered covered
      (fun e member => Effect.Colonless.sound (handed e member) fun s same => absorbed s (same ▸ member))
      composed

-- While the callers write no colons of their own, every generated placeholder of a statement, in whatever
-- clause it stands, has its value in the registry.
theorem generated_placeholder_bound {s : Session} {commands : List Command} {h : History}
    (empty : s.slots = .empty) (runs : Runs .colonless (.start s) commands h) :
    ∀ st ∈ h.statements, ∀ key, isGenerated key = true → Occurs key st.sql → st.values.contains key = true := by
  intro st stands key generated occurs
  have covered := (covered_hereditary.runs (start_named empty) (.start empty) runs).1 st stands
  exact OrderedMap.contains_iff.mpr ((Statement.sql_guarded covered).covers generated occurs)

def tableAndUpdate : List Command := [
  .create "s" .select (.standalone "sqlite" "main") false,
  .subSelect "s" "b",
  .call "b" (.select (.filter (.equals [.column "id" (.scalar (.int 1) none)]))),
  .call "s" (.select (.filter (.ctes (.define "x" [] (.statement (.slot "b")))))),
  .call "s" (.select (.filter (.equals [.column "id" (.list [.int 2, .int 3] none)]))),
  .call "s" (.select (.union true)),
  .create "u" .update (.standalone "mysql" "main") false,
  .call "u" (.update (.table "t")),
  .call "u" (.update (.column (.assign "n" (some (.int 7, none))))),
  .call "u" (.update (.filter (.equals [.column "id" (.scalar (.int 4) none)])))]

theorem generated_placeholder_bound_tableAndUpdate :
    ∃ h, Runs .colonless (.start {}) tableAndUpdate h ∧ (∃ st ∈ h.statements,
        st.sql = "WITH \"x\" AS (SELECT * WHERE id = :_2_1_) " ++
          "SELECT * WHERE id IN (:_1_1_, :_1_2_) UNION ALL SELECT *") ∧
      ∀ st ∈ h.statements, ∀ key, isGenerated key = true → Occurs key st.sql →
        st.values.contains key = true := by
  have run : ∃ h, Runs .colonless (.start {}) tableAndUpdate h ∧ ∃ st ∈ h.statements,
      st.sql = "WITH \"x\" AS (SELECT * WHERE id = :_2_1_) " ++
        "SELECT * WHERE id IN (:_1_1_, :_1_2_) UNION ALL SELECT *" := by
    refine exists_run (· = "main") (fun _ e => e.Colonless) ?_ (fun _ _ => trivial) fun _ _ => id
    decide +kernel
  obtain ⟨h, runs, shown⟩ := run
  exact ⟨h, runs, shown, generated_placeholder_bound rfl runs⟩

end SqlCompose
