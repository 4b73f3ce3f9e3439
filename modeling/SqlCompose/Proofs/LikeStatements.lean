import SqlCompose.Proofs.LikeClauses

namespace SqlCompose

variable {L : Likeness}

-- Columns and their fragments are callers' texts, so they are the same on both sides.
structure Assignments.Alike (L : Likeness) (a a' : Assignments) : Prop where
  same : a = a'
  given : ∀ x ∈ a.entries, Text.Without L.marks x.1 ∧ L.fragment x.2 x.2

namespace Assignments.Alike

variable {a a' : Assignments}

theorem empty : Assignments.Alike L .empty .empty := ⟨rfl, fun _ member => by cases member⟩

theorem insert (alike : a.Alike L a') {column fragment : String} (named : Text.Without L.marks column)
    (text : L.fragment fragment fragment) :
    Assignments.Alike L (a.insert column fragment) (a'.insert column fragment) := by
  refine ⟨by rw [alike.same], fun x member => ?_⟩
  rcases OrderedMap.mem_insert member with rfl | old
  · exact ⟨named, text⟩
  · exact alike.given x old

theorem columns (alike : a.Alike L a') {d d' : Dialect} (dialect : L.dialect d d') :
    List.Forall₂ L.text (a.keys.map d.quote) (a'.keys.map d'.quote) := by
  rw [← alike.same]
  refine L.quotes dialect fun c member => ?_
  obtain ⟨x, there, rfl⟩ := List.mem_map.mp member
  exact (alike.given x there).1

theorem fragments (alike : a.Alike L a') {f g : String → String → String}
    (each : ∀ c t, Text.Without L.marks c → L.fragment t t → L.fragment (f c t) (g c t)) :
    L.fragment (Text.listing "," (a.entries.map fun x => f x.1 x.2))
      (Text.listing "," (a'.entries.map fun x => g x.1 x.2)) := by
  rw [← alike.same]
  refine L.fragments ?_
  rw [List.forall₂_map_left_iff, List.forall₂_map_right_iff]
  exact List.forall₂_same.mpr fun x member => each x.1 x.2 (alike.given x member).1 (alike.given x member).2

end Assignments.Alike

def Likeness.Assignable (L : Likeness) (column : String) : Prop :=
  Text.Without L.marks column ∧ L.bound column

def Column.Given (L : Likeness) : Column → Prop
  | .name column | .value column _ => L.Assignable column

def ColumnCall.Given (L : Likeness) : ColumnCall → Prop
  | .assign column _ => L.Assignable column
  | .assignMany columns => ∀ c ∈ columns, c.Given L
  | .literal column text => L.Assignable column ∧ Text.Without L.marks text
  | .reset => True

structure BoundColumns.Alike (L : Likeness) (b b' : BoundColumns) : Prop where
  assignments : b.assignments.Alike L b'.assignments
  registry : b.registry.Alike L b'.registry

namespace BoundColumns.Alike

variable {b b' : BoundColumns}

theorem assign (alike : b.Alike L b') {column : String} (given : L.Assignable column)
    (value : Option (Value × Option ParamType)) :
    (b.assign column value).Alike L (b'.assign column value) where
  assignments := alike.assignments.insert given.1 (L.column given.1 given.2)
  registry := by
    cases value with
    | none => exact alike.registry
    | some value => exact alike.registry.bind given.2 value.1 value.2

theorem assignMany (alike : b.Alike L b') {columns : List Column} (given : ∀ c ∈ columns, c.Given L) :
    (columns.foldl BoundColumns.assignColumn b).Alike L (columns.foldl BoundColumns.assignColumn b') := by
  induction columns generalizing b b' with
  | nil => exact alike
  | cons c rest ih =>
    obtain ⟨here, later⟩ := List.forall_mem_cons.mp given
    cases c with
    | name column => exact ih (alike.assign here none) later
    | value column v => exact ih (alike.assign here (some (v, none))) later

theorem apply (alike : b.Alike L b') {call : ColumnCall} (given : call.Given L) :
    (b.apply call).Alike L (b'.apply call) := by
  cases call with
  | assign column value => exact alike.assign given value
  | assignMany columns => exact alike.assignMany given
  | literal column text =>
    exact ⟨alike.assignments.insert given.1.1 (L.whole (L.same given.2)), alike.registry.unbind given.1.2⟩
  | reset => exact ⟨.empty, alike.registry⟩

end BoundColumns.Alike

-- A call that has the open member rendered.
def SelectCall.closes {ρ : Type} : SelectCall ρ → Bool
  | .union _ => true
  | _ => false

inductive SelectCall.Alike (L : Likeness) : SelectCall Embedded → SelectCall Embedded → Prop where
  | common (call : CommonCall.Alike L c c') : SelectCall.Alike L (.common c) (.common c')
  | filter (call : FilterCall.Alike L c c') : SelectCall.Alike L (.filter c) (.filter c')
  | having (call : ConditionCall.Alike L c c') : SelectCall.Alike L (.having c) (.having c')
  | columns (given : ∀ t ∈ texts, Text.Without L.marks t) : SelectCall.Alike L (.columns texts) (.columns texts)
  | columnsAs (given : ∀ x ∈ texts, Text.Without L.marks x.1 ∧ Text.Without L.marks x.2) :
      SelectCall.Alike L (.columnsAs texts) (.columnsAs texts)
  | resetColumns : SelectCall.Alike L .resetColumns .resetColumns
  | table (source : Source.Alike L x x') : SelectCall.Alike L (.table x) (.table x')
  | join (given : Text.Without L.marks kind) (source : Source.Alike L x x')
      (on : Text.Without L.marks condition) (value : Option.Rel (Inline.Alike L) v v') :
      SelectCall.Alike L (.join kind x condition v) (.join kind x' condition v')
  | appendJoin (given : Text.Without L.marks text) (value : Option.Rel (Inline.Alike L) v v') :
      SelectCall.Alike L (.appendJoin text v) (.appendJoin text v')
  | resetTables : SelectCall.Alike L .resetTables .resetTables
  | groupBy (given : ∀ t ∈ texts, Text.Without L.marks t) : SelectCall.Alike L (.groupBy texts) (.groupBy texts)
  | resetGroupBy : SelectCall.Alike L .resetGroupBy .resetGroupBy
  | orderBy (given : ∀ t ∈ texts, Text.Without L.marks t) : SelectCall.Alike L (.orderBy texts) (.orderBy texts)
  | resetOrderBy : SelectCall.Alike L .resetOrderBy .resetOrderBy
  | distinct : SelectCall.Alike L (.distinct on) (.distinct on)
  | forUpdate : SelectCall.Alike L (.forUpdate on) (.forUpdate on)
  | setAlias (given : Text.Without L.marks name) : SelectCall.Alike L (.setAlias name) (.setAlias name)
  | resetAlias : SelectCall.Alike L .resetAlias .resetAlias
  | union : SelectCall.Alike L (.union all) (.union all)
  | reset : SelectCall.Alike L .reset .reset

structure Select.Alike (L : Likeness) (s s' : Select) : Prop where
  draft : s.toDraft.Alike L s'.toDraft
  aliasName : s.aliasName = s'.aliasName
  named : L.text s.aliasName s.aliasName
  forUpdate : s.forUpdate = s'.forUpdate

namespace Select.Alike

variable {s s' : Select}

theorem member (alike : s.Alike L s') (within : s.toDraft.Within L) : L.text s.member s'.member := by
  obtain ⟨⟨dialect, registry, clauses⟩, aliasName, named, forUpdate⟩ := alike
  have columns : L.text s.columnsText s'.columnsText := by
    unfold columnsText
    rw [← List.isEmpty_alike clauses.columns]
    split
    · exact L.literal (by decide)
    · exact L.listing (by decide) clauses.columns
  have early : L.text (s.dialect.earlyWindow s.clauses.paging.limit s.clauses.paging.offset)
      (s'.dialect.earlyWindow s'.clauses.paging.limit s'.clauses.paging.offset) := by
    rw [← clauses.paging]
    exact L.early dialect within
  have late : L.text s.lateWindow s'.lateWindow := Draft.Alike.lateWindow ⟨dialect, registry, clauses⟩ within
  have locked : L.text (if s.forUpdate then " FOR UPDATE" else "")
      (if s'.forUpdate then " FOR UPDATE" else "") := by
    rw [← forUpdate]
    exact L.literal (by split <;> decide)
  have keyword : L.text "SELECT" "SELECT" := L.literal (by decide)
  have body : L.text s.body s'.body :=
    L.append (L.append (L.append (L.append (L.append (L.append (L.append (L.append (L.append (L.append
      keyword clauses.flags.render) early) columns) clauses.tables.render)
      (clauses.conditions.render (by decide))) (L.renderBy (by decide) clauses.group))
      (clauses.having.render (by decide))) (L.renderBy (by decide) clauses.order)) late) locked
  have opened : L.text "(" "(" := L.literal (by decide)
  have as : L.text ") AS " ") AS " := L.literal (by decide)
  unfold Select.member
  rw [← aliasName]
  split
  · exact body
  · exact L.append (L.append (L.append opened body) as) named

theorem sql (alike : s.Alike L s') (within : s.toDraft.Within L) : L.text s.sql s'.sql :=
  L.append (L.append (alike.draft.clauses.ctes.render alike.draft.dialect)
    (L.joined (Text.without_empty _) alike.draft.clauses.union)) (alike.member within)

theorem embedded (alike : s.Alike L s') (within : s.toDraft.Within L) :
    s.embedded.Alike L s'.embedded :=
  ⟨alike.sql within, alike.draft.registry.values⟩

theorem closeMember (alike : s.Alike L s') (within : s.toDraft.Within L) (all : Bool) :
    (s.closeMember all).Alike L (s'.closeMember all) where
  draft := by
    have keyword : L.text (if all then " UNION ALL " else " UNION ") (if all then " UNION ALL " else " UNION ") :=
      L.literal (by cases all <;> decide)
    have closed := L.append (alike.member within) keyword
    refine ⟨alike.draft.dialect, alike.draft.registry, ?_⟩
    exact .bare alike.draft.clauses.ctes (List.rel_append alike.draft.clauses.union (.cons closed .nil))
      (congrArg Paging.reset alike.draft.clauses.paging)
  aliasName := rfl
  named := L.literal (Text.without_empty _)
  forUpdate := rfl

theorem changeTables (alike : s.Alike L s') {r r' : Registry} (registry : r.Alike L r')
    {c c' : FromClause} (tables : c.Alike L c') :
    Select.Alike L { s with registry := r, clauses.tables := c } { s' with registry := r', clauses.tables := c' } :=
  { alike with draft := ⟨alike.draft.dialect, registry, { alike.draft.clauses with tables := tables }⟩ }

theorem addJoin (alike : s.Alike L s') {kind condition : String} {source source' : Source Embedded}
    {value value' : Option (Inline Embedded)} (given : Text.Without L.marks kind)
    (like : source.Alike L source') (on : Text.Without L.marks condition)
    (values : Option.Rel (Inline.Alike L) value value') :
    (s.addJoin kind source condition value).Alike L (s'.addJoin kind source' condition value') := by
  obtain ⟨condition, bound⟩ := alike.draft.registry.extend (Join.conditionText_without L.reserved on) values
  obtain ⟨table, spliced⟩ := bound.splice like
  exact alike.changeTables spliced (alike.draft.clauses.tables.addJoin (L.join given table condition))

theorem addColumns (alike : s.Alike L s') {texts : List String} (given : ∀ t ∈ texts, Text.Without L.marks t) :
    Select.Alike L { s with clauses.columns := s.clauses.columns ++ texts }
      { s' with clauses.columns := s'.clauses.columns ++ texts } := by
  have columns := List.rel_append alike.draft.clauses.columns (L.same_each given)
  exact { alike with draft := { alike.draft with clauses := { alike.draft.clauses with columns := columns } } }

theorem columnsAs_without {texts : List (String × String)}
    (given : ∀ x ∈ texts, Text.Without L.marks x.1 ∧ Text.Without L.marks x.2) :
    ∀ t ∈ texts.map fun x => x.1 ++ " AS " ++ x.2, Text.Without L.marks t := by
  intro t member
  obtain ⟨x, there, rfl⟩ := List.mem_map.mp member
  have as : Text.Without L.marks " AS " := Text.Without.mono L.reserved (by decide)
  exact ((given x there).1.append as).append (given x there).2

theorem apply (alike : s.Alike L s') {call call' : SelectCall Embedded} (like : call.Alike L call')
    (within : call.closes = true → s.toDraft.Within L) :
    (s.apply call).Alike L (s'.apply call') := by
  have draft := alike.draft
  have clauses := draft.clauses
  cases like with
  | common like => exact { alike with draft := draft.applyCommon like }
  | filter like => exact { alike with draft := draft.applyFilter like }
  | having like => exact { alike with draft := draft.changeHaving fun _ _ bound => bound.apply like }
  | columns given => exact alike.addColumns given
  | columnsAs given => exact alike.addColumns (columnsAs_without given)
  | resetColumns => exact { alike with draft := { draft with clauses := { clauses with columns := .nil } } }
  | table like =>
    obtain ⟨text, spliced⟩ := draft.registry.splice like
    exact alike.changeTables spliced (clauses.tables.addTable text)
  | join given like on values => exact alike.addJoin given like on values
  | appendJoin given values =>
    obtain ⟨text, bound⟩ := draft.registry.extend given values
    exact alike.changeTables bound (clauses.tables.append text)
  | resetTables => exact alike.changeTables draft.registry .nil
  | groupBy given =>
    have group := List.rel_append clauses.group (L.same_each given)
    exact { alike with draft := { draft with clauses := { clauses with group := group } } }
  | resetGroupBy => exact { alike with draft := { draft with clauses := { clauses with group := .nil } } }
  | orderBy given =>
    have order := List.rel_append clauses.order (L.same_each given)
    exact { alike with draft := { draft with clauses := { clauses with order := order } } }
  | resetOrderBy => exact { alike with draft := { draft with clauses := { clauses with order := .nil } } }
  | @distinct on =>
    have distinct : FlagCall.Given L (.set "DISTINCT" on) := Text.Without.mono L.reserved (by decide)
    have flags := clauses.flags.apply distinct
    exact { alike with draft := { draft with clauses := { clauses with flags := flags } } }
  | forUpdate => exact { alike with forUpdate := rfl }
  | setAlias given => exact { alike with aliasName := rfl, named := L.same given }
  | resetAlias => exact { alike with aliasName := rfl, named := L.literal (Text.without_empty _) }
  | union => exact alike.closeMember (within rfl) _
  | reset =>
    exact ⟨draft.reset, rfl, L.literal (Text.without_empty _), rfl⟩

theorem subSelect (alike : s.Alike L s') {o o' : UInt64} (ordinal : L.ordinal o o') :
    (s.subSelect o).Alike L (s'.subSelect o') := by
  have draft : (Draft.new s.dialect s.registry.counter o).Alike L (Draft.new s'.dialect s'.registry.counter o') :=
    alike.draft.registry.counter ▸ .new alike.draft.dialect alike.draft.registry.drawn ordinal
  have sized : (s.subSelect o).toDraft.Alike L (s'.subSelect o').toDraft := by
    change Draft.Alike L (Draft.withDefaultPerPage _ _) (Draft.withDefaultPerPage _ s'.clauses.paging.default)
    rw [← alike.draft.clauses.paging]
    exact draft.withDefaultPerPage s.clauses.paging.default
  exact ⟨sized, rfl, L.literal (Text.without_empty _), rfl⟩

end Select.Alike

inductive InsertCall.Alike (L : Likeness) : InsertCall Embedded → InsertCall Embedded → Prop where
  | common (call : CommonCall.Alike L c c') : InsertCall.Alike L (.common c) (.common c')
  | column (given : call.Given L) : InsertCall.Alike L (.column call) (.column call)
  | returning (given : call.Given L) : InsertCall.Alike L (.returning call) (.returning call)
  | table (given : Text.Without L.marks name) : InsertCall.Alike L (.table name) (.table name)
  | reset : InsertCall.Alike L .reset .reset

structure Insert.Alike (L : Likeness) (s s' : Insert) : Prop where
  draft : s.toDraft.Alike L s'.toDraft
  table : s.table = s'.table
  named : Text.Without L.marks s.table
  assignments : s.assignments.Alike L s'.assignments

namespace Insert.Alike

variable {s s' : Insert}

theorem path {d d' : Dialect} (dialect : L.dialect d d') {name : String} (given : Text.Without L.marks name) :
    L.text (d.quotePath name) (d'.quotePath name) := by
  refine L.joined (by decide) ?_
  rw [List.forall₂_map_left_iff, List.forall₂_map_right_iff]
  refine List.forall₂_same.mpr fun part member => L.quoted dialect fun c marked inside => ?_
  rw [String.toList_ofList] at inside
  exact given c marked (Dialect.pathParts_chars _ part member inside)

theorem sql (alike : s.Alike L s') : L.fragment s.sql s'.sql := by
  obtain ⟨⟨dialect, registry, clauses⟩, table, named, assignments⟩ := alike
  have keyword : L.text "INSERT" "INSERT" := L.literal (by decide)
  have into : L.text " INTO " " INTO " := L.literal (by decide)
  have target : L.text (s.dialect.quotePath s.table) (s'.dialect.quotePath s'.table) :=
    table ▸ path dialect named
  have opened : L.text " (" " (" := L.literal (by decide)
  have columns := L.trimStart (L.listing (by decide : Text.Without Text.reserved ",") (assignments.columns dialect))
  have between : L.text ") VALUES (" ") VALUES (" := L.literal (by decide)
  have values : L.fragment (Text.trimStart (Text.listing "," s.assignments.values))
      (Text.trimStart (Text.listing "," s'.assignments.values)) :=
    L.trimFragment (assignments.fragments fun _ _ _ text => text)
  have closed : L.text ")" ")" := L.literal (by decide)
  have front := L.append (L.append (L.append (L.append (L.append (L.append keyword clauses.flags.render) into)
    target) opened) columns) between
  exact L.glue (L.glue (L.lead front values) (L.whole closed) (by decide))
    (L.whole clauses.renderReturning) (returning_head _)

theorem apply (alike : s.Alike L s') {call call' : InsertCall Embedded} (like : call.Alike L call') :
    (s.apply call).Alike L (s'.apply call') := by
  have draft := alike.draft
  cases like with
  | common like => exact { alike with draft := draft.applyCommon like }
  | column given =>
    have bound := BoundColumns.Alike.apply
      (⟨alike.assignments, draft.registry⟩ : BoundColumns.Alike L ⟨_, _⟩ ⟨_, _⟩) given
    exact { alike with draft := { draft with registry := bound.registry }, assignments := bound.assignments }
  | returning given => exact { alike with draft := draft.applyReturning given }
  | table given => exact { alike with table := rfl, named := given }
  | reset => exact ⟨draft.reset, rfl, Text.without_empty _, .empty⟩

end Insert.Alike

inductive UpdateCall.Alike (L : Likeness) : UpdateCall Embedded → UpdateCall Embedded → Prop where
  | common (call : CommonCall.Alike L c c') : UpdateCall.Alike L (.common c) (.common c')
  | filter (call : FilterCall.Alike L c c') : UpdateCall.Alike L (.filter c) (.filter c')
  | column (given : call.Given L) : UpdateCall.Alike L (.column call) (.column call)
  | returning (given : call.Given L) : UpdateCall.Alike L (.returning call) (.returning call)
  | table (given : Text.Without L.marks name) : UpdateCall.Alike L (.table name) (.table name)
  | reset : UpdateCall.Alike L .reset .reset

structure Update.Alike (L : Likeness) (s s' : Update) : Prop where
  draft : s.toDraft.Alike L s'.toDraft
  table : s.table = s'.table
  named : Text.Without L.marks s.table
  assignments : s.assignments.Alike L s'.assignments

namespace Update.Alike

variable {s s' : Update}

theorem sql (alike : s.Alike L s') (within : s.toDraft.Within L) : L.fragment s.sql s'.sql := by
  have late := alike.draft.lateWindow within
  obtain ⟨⟨dialect, registry, clauses⟩, table, named, assignments⟩ := alike
  have keyword : L.text "UPDATE" "UPDATE" := L.literal (by decide)
  have blank : L.text " " " " := L.literal (by decide)
  have target : L.text s.table s'.table := table ▸ L.same named
  have set : L.text " SET" " SET" := L.literal (by decide)
  have equals : L.text " = " " = " := L.literal (by decide)
  have front := L.append (L.append (L.append (L.append (L.append (clauses.ctes.render dialect) keyword)
    clauses.flags.render) blank) target) set
  have list : L.fragment
      (Text.listing "," (s.assignments.entries.map fun x => assignmentText s.dialect x.1 x.2))
      (Text.listing "," (s'.assignments.entries.map fun x => assignmentText s'.dialect x.1 x.2)) :=
    assignments.fragments fun _ _ named text => L.lead (L.append (L.quoted dialect named) equals) text
  exact L.glue (L.glue (L.glue (L.lead front list) (L.whole (clauses.conditions.render (by decide)))
    (conditions_head _ _)) (L.whole late) (lateWindow_head _)) (L.whole clauses.renderReturning)
    (returning_head _)

theorem apply (alike : s.Alike L s') {call call' : UpdateCall Embedded} (like : call.Alike L call') :
    (s.apply call).Alike L (s'.apply call') := by
  have draft := alike.draft
  cases like with
  | common like => exact { alike with draft := draft.applyCommon like }
  | filter like => exact { alike with draft := draft.applyFilter like }
  | column given =>
    have bound := BoundColumns.Alike.apply
      (⟨alike.assignments, draft.registry⟩ : BoundColumns.Alike L ⟨_, _⟩ ⟨_, _⟩) given
    exact { alike with draft := { draft with registry := bound.registry }, assignments := bound.assignments }
  | returning given => exact { alike with draft := draft.applyReturning given }
  | table given => exact { alike with table := rfl, named := given }
  | reset => exact ⟨draft.reset, rfl, Text.without_empty _, .empty⟩

end Update.Alike

inductive DeleteCall.Alike (L : Likeness) : DeleteCall Embedded → DeleteCall Embedded → Prop where
  | common (call : CommonCall.Alike L c c') : DeleteCall.Alike L (.common c) (.common c')
  | filter (call : FilterCall.Alike L c c') : DeleteCall.Alike L (.filter c) (.filter c')
  | returning (given : call.Given L) : DeleteCall.Alike L (.returning call) (.returning call)
  | table (given : Text.Without L.marks name) : DeleteCall.Alike L (.table name) (.table name)
  | reset : DeleteCall.Alike L .reset .reset

structure Delete.Alike (L : Likeness) (s s' : Delete) : Prop where
  draft : s.toDraft.Alike L s'.toDraft
  table : s.table = s'.table
  named : Text.Without L.marks s.table

namespace Delete.Alike

variable {s s' : Delete}

theorem sql (alike : s.Alike L s') (within : s.toDraft.Within L) : L.text s.sql s'.sql := by
  have late := alike.draft.lateWindow within
  obtain ⟨⟨dialect, registry, clauses⟩, table, named⟩ := alike
  have keyword : L.text "DELETE" "DELETE" := L.literal (by decide)
  have source : L.text " FROM " " FROM " := L.literal (by decide)
  have target : L.text s.table s'.table := table ▸ L.same named
  exact L.append (L.append (L.append (L.append (L.append (L.append (L.append (clauses.ctes.render dialect) keyword)
    clauses.flags.render) source) target) (clauses.conditions.render (by decide))) late) clauses.renderReturning

theorem apply (alike : s.Alike L s') {call call' : DeleteCall Embedded} (like : call.Alike L call') :
    (s.apply call).Alike L (s'.apply call') := by
  have draft := alike.draft
  cases like with
  | common like => exact { alike with draft := draft.applyCommon like }
  | filter like => exact { alike with draft := draft.applyFilter like }
  | returning given => exact { alike with draft := draft.applyReturning given }
  | table given => exact { alike with table := rfl, named := given }
  | reset => exact ⟨draft.reset, rfl, Text.without_empty _⟩

end Delete.Alike

inductive Statement.Alike (L : Likeness) : Statement → Statement → Prop where
  | select (alike : Select.Alike L s s') : Statement.Alike L (.select s) (.select s')
  | insert (alike : Insert.Alike L s s') : Statement.Alike L (.insert s) (.insert s')
  | update (alike : Update.Alike L s s') : Statement.Alike L (.update s) (.update s')
  | delete (alike : Delete.Alike L s s') : Statement.Alike L (.delete s) (.delete s')

def Call.closes {ρ : Type} : Call ρ → Bool
  | .select call => call.closes
  | _ => false

inductive Call.Alike (L : Likeness) : Call Embedded → Call Embedded → Prop where
  | select (call : SelectCall.Alike L c c') : Call.Alike L (.select c) (.select c')
  | insert (call : InsertCall.Alike L c c') : Call.Alike L (.insert c) (.insert c')
  | update (call : UpdateCall.Alike L c c') : Call.Alike L (.update c) (.update c')
  | delete (call : DeleteCall.Alike L c c') : Call.Alike L (.delete c) (.delete c')

namespace Statement.Alike

variable {s s' : Statement}

theorem kind (alike : s.Alike L s') : s.kind = s'.kind := by
  cases alike <;> rfl

theorem draft (alike : s.Alike L s') : s.draft.Alike L s'.draft := by
  cases alike with
  | select alike => exact alike.draft
  | insert alike => exact alike.draft
  | update alike => exact alike.draft
  | delete alike => exact alike.draft

theorem registry (alike : s.Alike L s') : s.registry.Alike L s'.registry := alike.draft.registry

theorem paging (alike : s.Alike L s') : s.paging? = s'.paging? := by
  cases alike with
  | insert alike => rfl
  | select alike => exact congrArg some alike.draft.clauses.paging
  | update alike => exact congrArg some alike.draft.clauses.paging
  | delete alike => exact congrArg some alike.draft.clauses.paging

theorem sql (alike : s.Alike L s') (within : s.paging? = none ∨ s.draft.Within L) :
    L.fragment s.sql s'.sql := by
  cases alike with
  | select alike => exact L.whole (alike.sql (within.resolve_left nofun))
  | insert alike => exact alike.sql
  | update alike => exact alike.sql (within.resolve_left nofun)
  | delete alike => exact L.whole (alike.sql (within.resolve_left nofun))

theorem renumber (alike : s.Alike L s') {o o' : UInt64} (ordinal : L.ordinal o o') :
    (s.renumber o).Alike L (s'.renumber o') := by
  cases alike with
  | select alike => exact .select { alike with draft := alike.draft.renumber ordinal }
  | insert alike => exact .insert { alike with draft := alike.draft.renumber ordinal }
  | update alike => exact .update { alike with draft := alike.draft.renumber ordinal }
  | delete alike => exact .delete { alike with draft := alike.draft.renumber ordinal }

theorem new (kind : StatementKind) {d d' : Dialect} (dialect : L.dialect d d') {counter : String}
    (drawn : L.counter counter) {o o' : UInt64} (ordinal : L.ordinal o o') :
    (Statement.new kind d counter o).Alike L (Statement.new kind d' counter o') := by
  have draft := Draft.Alike.new dialect drawn ordinal
  cases kind with
  | select => exact .select ⟨draft, rfl, L.literal (Text.without_empty _), rfl⟩
  | insert => exact .insert ⟨draft, rfl, Text.without_empty _, .empty⟩
  | update => exact .update ⟨draft, rfl, Text.without_empty _, .empty⟩
  | delete => exact .delete ⟨draft, rfl, Text.without_empty _⟩

theorem withDefaultPerPage (alike : s.Alike L s') (n : UInt64) :
    (s.withDefaultPerPage n).Alike L (s'.withDefaultPerPage n) := by
  cases alike with
  | select alike => exact .select { alike with draft := alike.draft.withDefaultPerPage n }
  | insert alike => exact .insert alike
  | update alike => exact .update { alike with draft := alike.draft.withDefaultPerPage n }
  | delete alike => exact .delete { alike with draft := alike.draft.withDefaultPerPage n }

theorem compose (alike : s.Alike L s') {call call' : Call Embedded} (like : call.Alike L call')
    (within : call.closes = true → ∀ sel, s = .select sel → sel.toDraft.Within L) :
    Option.Rel (Statement.Alike L) (s.compose call) (s'.compose call') := by
  cases alike <;> cases like
  case select.select alike _ _ like =>
    exact .some (.select (alike.apply like fun closes => within closes _ rfl))
  case insert.insert alike _ _ like => exact .some (.insert (alike.apply like))
  case update.update alike _ _ like => exact .some (.update (alike.apply like))
  case delete.delete alike _ _ like => exact .some (.delete (alike.apply like))
  all_goals exact .none

end Statement.Alike

end SqlCompose
