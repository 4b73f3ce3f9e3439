import SqlCompose.Proofs.Tidiness

namespace SqlCompose

open Text (Spaced Part)

theorem Conditions.render_part {c : Conditions} {keyword : String} (each : ∀ t ∈ c.fragments, Text.Tidy t)
    (word : Text.Tidy keyword) : Part true false (c.render keyword) := by
  unfold render
  split
  · exact .missing
  · exact ((Text.space_spaced.append word rfl).tail (Text.listing_part (by decide) each)).part

theorem FromEntry.render_tidy {e : FromEntry} (tidy : e.Tidy) : Text.Tidy e.render := by
  obtain ⟨table, joins⟩ := tidy
  have listed : Part true false (Text.listing "" e.joins) := Text.listing_part (by decide) joins
  rcases table with table | ⟨unnamed, joined⟩
  · exact (Spaced.tail table listed).trimStart
  · rw [render, unnamed, String.empty_append]
    exact (Text.listing_spaced (by decide) joins joined).trimStart

theorem FromClause.render_part {c : FromClause} (each : ∀ e ∈ c.entries, e.Tidy) : Part true false c.render := by
  have lead : Spaced true false " FROM" := by decide
  unfold render
  split
  · exact .missing
  · refine (lead.tail (Text.listing_part (by decide) fun t member => ?_)).part
    obtain ⟨e, there, rfl⟩ := List.mem_map.mp member
    exact FromEntry.render_tidy (each e there)

theorem With.render_part {w : With} (each : ∀ x ∈ w.tables.entries, Text.Tidy x.1 ∧ x.2.Tidy) (d : Dialect) :
    Part false true (w.render d) := by
  have opens : Spaced true false " (" := by decide
  have closes : Text.Tidy ")" := by decide
  have asBody : Spaced true false " AS (" := by decide
  have head : Text.Tidy (if w.recursive then "WITH RECURSIVE" else "WITH") := by split <;> decide
  have table : ∀ x ∈ w.tables.entries, Text.Tidy (tableText d x.1 x.2) := by
    intro x member
    obtain ⟨named, columns, body⟩ := each x member
    have list : Part true false
        (if x.2.columns.isEmpty then "" else " (" ++ Text.joined ", " (x.2.columns.map d.quote) ++ ")") := by
      split
      · exact .missing
      · refine ((opens.tail (Text.joined_part (by decide) fun t member => ?_)).append closes rfl).part
        obtain ⟨column, there, rfl⟩ := List.mem_map.mp member
        exact d.quote_tidy (columns column there).single
    exact ((((d.quote_tidy named.single).tail list).append asBody rfl).append body rfl).append closes rfl
  unfold render
  split
  · exact .missing
  · refine ((head.tail (Text.listing_part (by decide) fun t member => ?_)).append Text.space_spaced rfl).part
    obtain ⟨x, there, rfl⟩ := List.mem_map.mp member
    exact table x there

theorem Clauses.renderBy_part {keyword : String} {items : List String} (word : Text.Tidy keyword)
    (each : ∀ t ∈ items, Text.Tidy t) : Part true false (renderBy keyword items) := by
  have by_ : Spaced true false " BY" := by decide
  unfold renderBy
  split
  · exact .missing
  · exact (((Text.space_spaced.append word rfl).append by_ rfl).tail (Text.listing_part (by decide) each)).part

namespace Clauses.Tidy

variable {c : Clauses}

theorem renderReturning (tidy : c.Tidy) : Part true false c.renderReturning := by
  have lead : Spaced true false " RETURNING" := by decide
  unfold Clauses.renderReturning
  split
  · exact .missing
  · exact (lead.tail (Text.listing_part (by decide) tidy.returning)).part

theorem renderUnion (tidy : c.Tidy) : Part false true c.renderUnion :=
  Text.joined_lead fun t member => (tidy.union t member).part

theorem renderFlags (tidy : c.Tidy) : Part true false c.flags.render := Text.listing_part (by decide) tidy.flags

theorem renderConditions (tidy : c.Tidy) : Part true false (c.conditions.render "WHERE") :=
  Conditions.render_part tidy.conditions (by decide)

theorem renderHaving (tidy : c.Tidy) : Part true false (c.having.render "HAVING") :=
  Conditions.render_part tidy.having (by decide)

theorem renderGroup (tidy : c.Tidy) : Part true false (renderBy "GROUP" c.group) :=
  renderBy_part (by decide) tidy.group

theorem renderOrder (tidy : c.Tidy) : Part true false (renderBy "ORDER" c.order) :=
  renderBy_part (by decide) tidy.order

end Clauses.Tidy

theorem Draft.lateWindow_part (d : Draft) : Part true false d.lateWindow := d.dialect.lateWindow_part _ _

namespace Select

variable {s : Select}

-- Every clause brings the space in front of it, or nothing at all, so a select reads
-- well whichever of its clauses are empty.
theorem body_tidy (tidy : s.clauses.Tidy) : Text.Tidy s.body := by
  have select : Text.Tidy "SELECT" := by decide
  have columns : Part true false s.columnsText := by
    unfold columnsText
    split
    · exact .inr (by decide)
    · exact Text.listing_part (by decide) tidy.columns
  have forUpdate : Part true false (if s.forUpdate then " FOR UPDATE" else "") := by
    split
    · exact .inr (by decide)
    · exact .missing
  have window := s.dialect.earlyWindow_part s.clauses.paging.limit s.clauses.paging.offset
  have front := ((select.tail tidy.renderFlags).tail window).tail columns
  have rows := (front.tail (FromClause.render_part tidy.tables)).tail tidy.renderConditions
  have groups := ((rows.tail tidy.renderGroup).tail tidy.renderHaving).tail tidy.renderOrder
  exact (groups.tail s.lateWindow_part).tail forUpdate

theorem member_tidy (tidy : s.clauses.Tidy) (name : Part false false s.aliasName) : Text.Tidy s.member := by
  have opens : Text.Tidy "(" := by decide
  have named : Spaced false true ") AS " := by decide
  unfold member
  split
  · exact body_tidy tidy
  · rename_i aliased
    have name := name.resolve_left fun missing => aliased (by simp [missing])
    exact ((opens.append (body_tidy tidy) rfl).append named rfl).append name rfl

theorem sql_tidy (tidy : s.clauses.Tidy) (name : Part false false s.aliasName) : Text.Tidy s.sql :=
  ((With.render_part tidy.ctes s.dialect).append tidy.renderUnion rfl).lead (member_tidy tidy name)

end Select

theorem Insert.sql_tidy {s : Insert} (tidy : s.clauses.Tidy) (table : Part false false s.table)
    (assigned : s.assignments.Tidy) : Text.Tidy s.sql := by
  have insert : Text.Tidy "INSERT" := by decide
  have into : Spaced true true " INTO " := by decide
  have opens : Spaced true false " (" := by decide
  have values : Text.Tidy ") VALUES (" := by decide
  have closes : Text.Tidy ")" := by decide
  have name : Text.Single s.table.toList := by
    rcases table with unnamed | spaced
    · rw [unnamed]
      exact .nil
    · exact spaced.single
  have columns : ∀ t ∈ s.assignments.keys.map s.dialect.quote, Text.Tidy t := by
    intro t member
    obtain ⟨column, there, rfl⟩ := List.mem_map.mp member
    obtain ⟨x, stored, rfl⟩ := List.mem_map.mp there
    exact s.dialect.quote_tidy (assigned x stored).1.single
  have fragments : ∀ t ∈ s.assignments.values, Text.Tidy t := by
    intro t member
    obtain ⟨x, stored, rfl⟩ := List.mem_map.mp member
    exact (assigned x stored).2
  have list {items : List String} (each : ∀ t ∈ items, Text.Tidy t) :
      Part false false (Text.trimStart (Text.listing "," items)) := (Text.listing_part (by decide) each).trimStart
  have target := ((insert.tail tidy.renderFlags).append into rfl).append (s.dialect.quotePath_tidy name) rfl
  have named := ((target.append opens rfl).tail (list columns)).append values rfl
  exact ((named.tail (list fragments)).append closes rfl).tail tidy.renderReturning

theorem Update.sql_tidy {s : Update} (tidy : s.clauses.Tidy) (table : Text.Tidy s.table)
    (assigned : s.assignments.Tidy) : Text.Tidy s.sql := by
  have update : Text.Tidy "UPDATE" := by decide
  have set : Spaced true false " SET" := by decide
  have equals : Spaced true true " = " := by decide
  have list : Part true false
      (Text.listing "," (s.assignments.entries.map fun x => assignmentText s.dialect x.1 x.2)) := by
    refine Text.listing_part (by decide) fun t member => ?_
    obtain ⟨x, stored, rfl⟩ := List.mem_map.mp member
    obtain ⟨column, fragment⟩ := assigned x stored
    exact ((s.dialect.quote_tidy column.single).append equals rfl).append fragment rfl
  have front := (With.render_part tidy.ctes s.dialect).lead update
  have target := (((front.tail tidy.renderFlags).append Text.space_spaced rfl).append table rfl).append set rfl
  have rows := (target.tail list).tail tidy.renderConditions
  exact (rows.tail s.lateWindow_part).tail tidy.renderReturning

theorem Delete.sql_tidy {s : Delete} (tidy : s.clauses.Tidy) (table : Text.Tidy s.table) : Text.Tidy s.sql := by
  have delete : Text.Tidy "DELETE" := by decide
  have lead : Spaced true true " FROM " := by decide
  have front := (With.render_part tidy.ctes s.dialect).lead delete
  have target := ((front.tail tidy.renderFlags).append lead rfl).append table rfl
  exact ((target.tail tidy.renderConditions).tail s.lateWindow_part).tail tidy.renderReturning

theorem Select.addJoin_tidy {s : Select} {kind condition : String} {source : Source Embedded}
    {value : Option (Inline Embedded)} (each : s.clauses.Tidy)
    (tidy : (SelectCall.join kind source condition value).Tidy s.clauses)
    (embedded : ∀ e, .absorb e ∈ (SelectCall.join kind source condition value).effects → Text.Tidy e.sql) :
    (s.addJoin kind source condition value).clauses.Tidy := by
  obtain ⟨joins, table, follows⟩ := tidy
  have bound : ∀ e, .absorb e ∈ Inline.effectsOf value → Text.Tidy e.sql := fun e member =>
    embedded e (List.mem_append_left _ (List.mem_cons_of_mem _ (List.mem_cons_of_mem _ member)))
  have spliced : ∀ e, .absorb e ∈ source.effects → Text.Tidy e.sql := fun e member =>
    embedded e (List.mem_append_right _ member)
  have on : Part false false (s.registry.extend (Join.conditionText condition) value).1 := by
    rcases follows with ⟨rfl, valueless⟩ | follows
    · rw [Option.isNone_iff_eq_none.mp valueless]
      have blank : Join.conditionText "" = "" := by decide
      exact .inl blank
    · have whole : Inline.Follows false (Join.conditionText condition) value := by
        cases value with
        | none => exact Join.conditionText_spaced follows
        | some value => exact ⟨Join.conditionText_spaced follows.1, follows.2⟩
      exact (s.registry.extend_spaced whole bound).part
  exact { each with
    tables := FromClause.addJoin_tidy each.tables (Join.text_tidy joins (Registry.splice_tidy _ table spliced) on) }

theorem Select.apply_tidy {s : Select} {call : SelectCall Embedded} (each : (Statement.select s).Tidy)
    (tidy : call.Tidy s.clauses) (embedded : ∀ e, .absorb e ∈ call.effects → Text.Tidy e.sql) :
    (Statement.select (s.apply call)).Tidy := by
  obtain ⟨each, name⟩ := each
  have vacuous {P : String → Prop} : ∀ t ∈ ([] : List String), P t := fun _ member => absurd member List.not_mem_nil
  have added {old new : List String} (olds : ∀ t ∈ old, Text.Tidy t) (news : ∀ t ∈ new, Text.Tidy t) :
      ∀ t ∈ old ++ new, Text.Tidy t := List.forall_mem_append.mpr ⟨olds, news⟩
  cases call with
  | common call => exact ⟨Draft.applyCommon_tidy each tidy, name⟩
  | filter call => exact ⟨Draft.applyFilter_tidy each tidy embedded, name⟩
  | having call =>
    have having := BoundConditions.apply_tidy (b := ⟨s.clauses.having, s.registry⟩) each.having tidy embedded
    exact ⟨{ each with having := having }, name⟩
  | columns texts => exact ⟨{ each with columns := added each.columns tidy }, name⟩
  | columnsAs texts =>
    have asWord : Spaced true true " AS " := by decide
    refine ⟨{ each with columns := added each.columns fun t member => ?_ }, name⟩
    obtain ⟨x, there, rfl⟩ := List.mem_map.mp member
    obtain ⟨expression, called⟩ := tidy x there
    exact (Spaced.append expression asWord rfl).append called rfl
  | table source =>
    have text := s.registry.splice_tidy tidy embedded
    exact ⟨{ each with tables := FromClause.addTable_tidy each.tables text }, name⟩
  | join kind source condition value => exact ⟨addJoin_tidy each tidy embedded, name⟩
  | appendJoin text value =>
    have spaced := s.registry.extend_spaced tidy.2 fun e member => embedded e (List.mem_cons_of_mem _ member)
    exact ⟨{ each with tables := FromClause.append_tidy each.tables tidy.1 spaced }, name⟩
  | groupBy texts => exact ⟨{ each with group := added each.group tidy }, name⟩
  | orderBy texts => exact ⟨{ each with order := added each.order tidy }, name⟩
  | resetColumns => exact ⟨{ each with columns := vacuous }, name⟩
  | resetTables => exact ⟨{ each with tables := fun _ member => absurd member List.not_mem_nil }, name⟩
  | resetGroupBy => exact ⟨{ each with group := vacuous }, name⟩
  | resetOrderBy => exact ⟨{ each with order := vacuous }, name⟩
  | distinct on => exact ⟨{ each with flags := Flags.set_tidy each.flags (by decide) on }, name⟩
  | forUpdate on => exact ⟨{ each with }, name⟩
  | setAlias other => exact ⟨each, .inr tidy⟩
  | resetAlias => exact ⟨each, .missing⟩
  | union all =>
    have keyword : Spaced true true (if all then " UNION ALL " else " UNION ") := by cases all <;> decide
    have closed := (member_tidy each name).append keyword rfl
    exact ⟨{ each.resetMember with
      union := List.forall_mem_append.mpr ⟨each.union, List.forall_mem_singleton.mpr closed⟩ }, .missing⟩
  | reset => exact ⟨.reset, .missing⟩

theorem Insert.apply_tidy {s : Insert} {call : InsertCall Embedded} (each : (Statement.insert s).Tidy)
    (tidy : call.Tidy) : (Statement.insert (s.apply call)).Tidy := by
  obtain ⟨each, table, assigned⟩ := each
  cases call with
  | common call => exact ⟨Draft.applyCommon_tidy each tidy, table, assigned⟩
  | column call => exact ⟨each, table, BoundColumns.apply_tidy (b := ⟨s.assignments, s.registry⟩) assigned tidy⟩
  | returning call => exact ⟨Draft.applyReturning_tidy each tidy, table, assigned⟩
  | table name => exact ⟨each, .inr tidy, assigned⟩
  | reset => exact ⟨.reset, .missing, fun _ member => absurd member List.not_mem_nil⟩

theorem Update.apply_tidy {s : Update} {call : UpdateCall Embedded} (each : (Statement.update s).Tidy)
    (tidy : call.Tidy s.clauses) (embedded : ∀ e, .absorb e ∈ call.effects → Text.Tidy e.sql) :
    (Statement.update (s.apply call)).Tidy := by
  obtain ⟨each, table, assigned⟩ := each
  cases call with
  | common call => exact ⟨Draft.applyCommon_tidy each tidy, table, assigned⟩
  | filter call => exact ⟨Draft.applyFilter_tidy each tidy embedded, table, assigned⟩
  | column call => exact ⟨each, table, BoundColumns.apply_tidy (b := ⟨s.assignments, s.registry⟩) assigned tidy⟩
  | returning call => exact ⟨Draft.applyReturning_tidy each tidy, table, assigned⟩
  | table name => exact ⟨each, .inr tidy, assigned⟩
  | reset => exact ⟨.reset, .missing, fun _ member => absurd member List.not_mem_nil⟩

theorem Delete.apply_tidy {s : Delete} {call : DeleteCall Embedded} (each : (Statement.delete s).Tidy)
    (tidy : call.Tidy s.clauses) (embedded : ∀ e, .absorb e ∈ call.effects → Text.Tidy e.sql) :
    (Statement.delete (s.apply call)).Tidy := by
  obtain ⟨each, table⟩ := each
  cases call with
  | common call => exact ⟨Draft.applyCommon_tidy each tidy, table⟩
  | filter call => exact ⟨Draft.applyFilter_tidy each tidy embedded, table⟩
  | returning call => exact ⟨Draft.applyReturning_tidy each tidy, table⟩
  | table name => exact ⟨each, .inr tidy⟩
  | reset => exact ⟨.reset, .missing⟩

namespace Statement

theorem compose_tidy {st st' : Statement} {call : Call Embedded} (each : st.Tidy) (tidy : call.Tidy st.draft.clauses)
    (embedded : ∀ e, .absorb e ∈ call.effects → Text.Tidy e.sql) (composed : st.compose call = some st') :
    st'.Tidy := by
  cases composes_of_compose composed with
  | select s call => exact s.apply_tidy each tidy embedded
  | insert s call => exact s.apply_tidy each tidy
  | update s call => exact s.apply_tidy each tidy embedded
  | delete s call => exact s.apply_tidy each tidy embedded

def HasTable : Statement → Prop
  | .update s => s.table ≠ ""
  | .delete s => s.table ≠ ""
  | .select _ | .insert _ => True

instance : DecidablePred HasTable
  | .update s => inferInstanceAs (Decidable (s.table ≠ ""))
  | .delete s => inferInstanceAs (Decidable (s.table ≠ ""))
  | .select _ | .insert _ => inferInstanceAs (Decidable True)

theorem sql_tidy {st : Statement} (tidy : st.Tidy) (has : st.HasTable) : Text.Tidy st.sql := by
  cases st with
  | select s => exact Select.sql_tidy tidy.1 tidy.2
  | insert s => exact Insert.sql_tidy tidy.1 tidy.2.1 tidy.2.2
  | update s => exact Update.sql_tidy tidy.1 (tidy.2.1.resolve_left has) tidy.2.2
  | delete s => exact Delete.sql_tidy tidy.1 (tidy.2.resolve_left has)

theorem new_tidy (kind : StatementKind) (dialect : Dialect) (counter : String) (ordinal : UInt64) :
    (new kind dialect counter ordinal).Tidy := by
  have empty : Assignments.Tidy .empty := fun _ member => absurd member List.not_mem_nil
  cases kind with
  | select => exact ⟨.new _, .missing⟩
  | insert => exact ⟨.new _, .missing, empty⟩
  | update => exact ⟨.new _, .missing, empty⟩
  | delete => exact ⟨.new _, .missing⟩

theorem withDefaultPerPage_tidy {st : Statement} (tidy : st.Tidy) (n : UInt64) : (st.withDefaultPerPage n).Tidy := by
  cases st with
  | select s => exact ⟨{ tidy.1 with }, tidy.2⟩
  | insert s => exact tidy
  | update s => exact ⟨{ tidy.1 with }, tidy.2⟩
  | delete s => exact ⟨{ tidy.1 with }, tidy.2⟩

theorem renumber_tidy {st : Statement} (tidy : st.Tidy) (ordinal : UInt64) : (st.renumber ordinal).Tidy := by
  cases st <;> exact tidy

end Statement

end SqlCompose
