import SqlCompose.Proofs.Printing

namespace SqlCompose

open Placeholder (isGenerated Occurs)

-- A piece that leaves the text in place, names no generated key, and hands no text to the caller alone.
def Effect.Lasting : Effect Unit → Prop
  | .bind key .. | .unbind key | .column key => isGenerated key = false
  | .text _ | .table _ | .generate .. | .absorb _ => True
  | .handOut | .clear | .reset => False

instance : DecidablePred Effect.Lasting
  | .bind .. | .unbind _ | .column _ => inferInstanceAs (Decidable (_ = false))
  | .text _ | .table _ | .generate .. | .absorb _ => inferInstanceAs (Decidable True)
  | .handOut | .clear | .reset => inferInstanceAs (Decidable False)

def Effect.NewTable (st : Statement) : Effect Unit → Prop
  | .table name => name ∉ st.draft.clauses.ctes.tables.keys
  | _ => True

instance (st : Statement) : DecidablePred (Effect.NewTable st)
  | .table name => inferInstanceAs (Decidable (name ∉ st.draft.clauses.ctes.tables.keys))
  | .text _ | .column _ | .bind .. | .unbind _ | .generate .. | .absorb _ | .handOut | .clear | .reset =>
    inferInstanceAs (Decidable True)

def Effect.Gains : Effect Embedded → Prop
  | .generate .. | .absorb _ => True
  | _ => False

-- How a call treats one key: what printed it still does, and where it is new it is printed.
structure Carries (key : String) (r r' : Registry) (before after : Prop) : Prop where
  keeps : before → after
  shows : key ∈ r'.values.keys → key ∈ r.values.keys ∨ after

namespace Carries

variable {key : String} {r r' r'' : Registry} {before middle after other : Prop}

theorem refl (key : String) (r : Registry) (before : Prop) : Carries key r r before before := ⟨id, .inl⟩

theorem trans (first : Carries key r r' before middle) (second : Carries key r' r'' middle after) :
    Carries key r r'' before after where
  keeps := second.keeps ∘ first.keeps
  shows member := by
    rcases second.shows member with earlier | printed
    · exact (first.shows earlier).imp_right second.keeps
    · exact .inr printed

theorem left (carries : Carries key r r' before after) :
    Carries key r r' (before ∨ other) (after ∨ other) :=
  ⟨Or.imp_left carries.keeps, fun member => (carries.shows member).imp_right .inl⟩

theorem right (carries : Carries key r r' before after) :
    Carries key r r' (other ∨ before) (other ∨ after) :=
  ⟨Or.imp_right carries.keeps, fun member => (carries.shows member).imp_right .inr⟩

theorem added {text : String} (generated : isGenerated key = true) (shows : r.Shows r' text)
    (prints : before ∨ Occurs key text → after) : Carries key r r' before after :=
  ⟨fun old => prints (.inl old), fun member => (shows key member generated).imp_right (prints ∘ .inr)⟩

end Carries

variable {key : String}

theorem carryAll_gains {r : Registry} {es : List (Effect Embedded)} (generated : isGenerated key = true)
    (lasting : ∀ e ∈ es, e.bare.Lasting) (quiet : ∀ e ∈ es, ¬ e.Gains)
    (member : key ∈ (r.carryAll es).values.keys) : key ∈ r.values.keys := by
  induction es generalizing r with
  | nil => exact member
  | cons e rest ih =>
    have here := lasting e (List.mem_cons_self ..)
    have earlier := ih (fun u there => lasting u (List.mem_cons_of_mem _ there))
      (fun u there => quiet u (List.mem_cons_of_mem _ there)) member
    cases e with
    | bind name value type =>
      refine (OrderedMap.mem_keys_insert.mp earlier).resolve_left fun same => ?_
      rw [same, show isGenerated name = false from here] at generated
      cases generated
    | unbind name =>
      have erased : key ∈ (r.values.erase name).keys := earlier
      rw [OrderedMap.keys_erase] at erased
      exact List.mem_of_mem_erase erased
    | generate => exact absurd trivial (quiet _ (List.mem_cons_self ..))
    | absorb => exact absurd trivial (quiet _ (List.mem_cons_self ..))
    | reset => cases here
    | _ => exact earlier

theorem BoundConditions.apply_carries {b : BoundConditions} {call : ConditionCall Embedded}
    (generated : isGenerated key = true) (lasting : ∀ e ∈ call.effects, e.bare.Lasting)
    (shown : ∀ e, .absorb e ∈ call.effects → e.Shown) :
    Carries key b.registry (b.apply call).registry (b.conditions.Prints key)
      ((b.apply call).conditions.Prints key) := by
  cases call with
  | add connective fragment value =>
    have shows := b.registry.extend_shows fragment value
      fun e there => shown e (List.mem_cons_of_mem _ there)
    exact .added generated shows Conditions.Prints.add
  | append text value =>
    have shows := b.registry.extend_shows text value fun e there => shown e (List.mem_cons_of_mem _ there)
    exact .added generated shows Conditions.Prints.append
  | reset => exact (lasting _ (List.mem_cons_self ..)).elim

theorem BoundConditions.addCriteria_carries {b : BoundConditions} {criteria : List (Criterion Embedded)}
    (generated : isGenerated key = true)
    (shown : ∀ e, .absorb e ∈ criteria.flatMap Criterion.effects → e.Shown) :
    Carries key b.registry (b.addCriteria criteria).registry (b.conditions.Prints key)
      ((b.addCriteria criteria).conditions.Prints key) := by
  induction criteria generalizing b with
  | nil => exact .refl key _ _
  | cons c rest ih =>
    have first : Carries key b.registry (b.addCriterion c).registry (b.conditions.Prints key)
        ((b.addCriterion c).conditions.Prints key) :=
      .added generated (b.registry.criterion_shows fun e there => shown e (List.mem_append_left _ there))
        Conditions.Prints.add
    exact first.trans (ih fun e there => shown e (List.mem_append_right _ there))

theorem BoundWith.apply_carries {b : BoundWith} {call : WithCall Embedded}
    (generated : isGenerated key = true) (lasting : ∀ e ∈ call.effects, e.bare.Lasting)
    (shown : ∀ e, .absorb e ∈ call.effects → e.Shown)
    (fresh : ∀ name, .table name ∈ call.effects → name ∉ b.ctes.tables.keys) :
    Carries key b.registry (b.apply call).registry (b.ctes.Prints key) ((b.apply call).ctes.Prints key) := by
  cases call with
  | define name columns body =>
    have shows := b.registry.splice_shows body fun e there => shown e (List.mem_append_right _ there)
    exact .added generated shows (With.Prints.define (fresh name (List.mem_cons_self ..)))
  | recursive on => exact .refl key _ _
  | reset => exact (lasting _ (List.mem_cons_self ..)).elim

namespace Draft

variable {d : Draft}

def Prints (key : String) (d : Draft) : Prop := d.clauses.conditions.Prints key ∨ d.clauses.ctes.Prints key

theorem applyFilter_carries {call : FilterCall Embedded} (generated : isGenerated key = true)
    (lasting : ∀ e ∈ call.effects, e.bare.Lasting) (shown : ∀ e, .absorb e ∈ call.effects → e.Shown)
    (fresh : ∀ name, .table name ∈ call.effects → name ∉ d.clauses.ctes.tables.keys) :
    Carries key d.registry (d.applyFilter call).registry (d.Prints key) ((d.applyFilter call).Prints key) := by
  cases call with
  | paging call => exact .refl key _ _
  | condition call =>
    exact (BoundConditions.apply_carries (b := ⟨d.clauses.conditions, d.registry⟩) generated lasting shown).left
  | equals criteria =>
    exact (BoundConditions.addCriteria_carries (b := ⟨d.clauses.conditions, d.registry⟩) generated shown).left
  | ctes call =>
    exact (BoundWith.apply_carries (b := ⟨d.clauses.ctes, d.registry⟩) generated lasting shown fresh).right

theorem applyCommon_gains {call : CommonCall Embedded} (generated : isGenerated key = true)
    (lasting : ∀ e ∈ call.effects, e.bare.Lasting)
    (member : key ∈ (d.applyCommon call).registry.values.keys) : key ∈ d.registry.values.keys := by
  rw [applyCommon_registry] at member
  refine carryAll_gains generated lasting (fun e there => ?_) member
  cases call with
  | bind name value type =>
    rw [List.mem_singleton.mp there]
    exact id
  | bindAll entries =>
    obtain ⟨entry, _, rfl⟩ := List.mem_map.mp there
    exact id
  | inline value => exact (lasting _ (List.mem_cons_self ..)).elim
  | flag call =>
    cases call with
    | set name on =>
      rw [List.mem_singleton.mp there]
      exact id
    | reset => cases there

theorem applyCommon_carries {call : CommonCall Embedded} (generated : isGenerated key = true)
    (lasting : ∀ e ∈ call.effects, e.bare.Lasting) :
    Carries key d.registry (d.applyCommon call).registry (d.Prints key) ((d.applyCommon call).Prints key) :=
  ⟨fun old => by cases call <;> exact old, fun member => .inl (applyCommon_gains generated lasting member)⟩

end Draft

theorem columns_gain {r : Registry} {call : ColumnCall} (generated : isGenerated key = true)
    (lasting : ∀ e : Effect Embedded, e ∈ call.effects → e.bare.Lasting)
    (member : key ∈ (r.carryAll call.effects).values.keys) : key ∈ r.values.keys := by
  have quiet : ∀ e : Effect Embedded, e ∈ call.effects → ¬ e.Gains := by
    intro e there gains
    cases call with
    | assign column value =>
      cases value <;> simp only [ColumnCall.effects, List.mem_cons, List.not_mem_nil, or_false] at there
      · cases there
        exact gains
      · rcases there with rfl | rfl <;> exact gains
    | assignMany columns =>
      obtain ⟨c, _, inside⟩ := List.mem_flatMap.mp there
      cases c <;> simp only [Column.effects, List.mem_cons, List.not_mem_nil, or_false] at inside
      · cases inside
        exact gains
      · rcases inside with rfl | rfl <;> exact gains
    | literal column text =>
      simp only [ColumnCall.effects, List.mem_cons, List.not_mem_nil, or_false] at there
      rcases there with rfl | rfl | rfl <;> exact gains
    | reset => cases there
  exact carryAll_gains generated lasting quiet member

theorem returning_registry (d : Draft) (call : ReturningCall) :
    (d.applyReturning call).registry = d.registry := by cases call <;> rfl

namespace Select

variable {s : Select}

inductive Prints (key : String) (s : Select) : Prop where
  | draft (printed : s.toDraft.Prints key)
  | having (printed : s.clauses.having.Prints key)
  | table (printed : s.clauses.tables.Prints key)
  | closed (printed : ∃ t ∈ s.clauses.union, Occurs key t)

theorem body_occurs (printed : s.clauses.conditions.Prints key ∨ s.clauses.having.Prints key ∨
    s.clauses.tables.Prints key) : Occurs key s.body := by
  unfold body
  rcases printed with condition | having | table
  · exact ((((((condition.render "WHERE").right _).left _).left _).left _).left _).left _
  · exact ((((having.render "HAVING").right _).left _).left _).left _
  · exact (((((((table.render).right _).left _).left _).left _).left _).left _).left _

theorem member_occurs (printed : s.clauses.conditions.Prints key ∨ s.clauses.having.Prints key ∨
    s.clauses.tables.Prints key) : Occurs key s.member := by
  unfold member
  split
  · exact body_occurs printed
  · exact (((body_occurs printed).right _).left _).left _

theorem sql_occurs (printed : s.Prints key) : Occurs key s.sql := by
  unfold sql
  cases printed with
  | draft printed =>
    rcases printed with condition | cte
    · exact (member_occurs (.inl condition)).right _
    · exact ((cte.render s.dialect).left _).left _
  | having printed => exact (member_occurs (.inr (.inl printed))).right _
  | table printed => exact (member_occurs (.inr (.inr printed))).right _
  | closed printed =>
    obtain ⟨t, member, occurs⟩ := printed
    exact ((occurs.joined "" member).right _).left _

theorem closeMember_prints (printed : s.Prints key) (all : Bool) : (s.closeMember all).Prints key := by
  have closed (occurs : Occurs key s.member) : (s.closeMember all).Prints key :=
    .closed ⟨_, List.mem_append_right _ (List.mem_cons_self ..), occurs.left _⟩
  cases printed with
  | draft printed =>
    rcases printed with condition | cte
    · exact closed (member_occurs (.inl condition))
    · exact .draft (.inr cte)
  | having printed => exact closed (member_occurs (.inr (.inl printed)))
  | table printed => exact closed (member_occurs (.inr (.inr printed)))
  | closed printed =>
    obtain ⟨t, member, occurs⟩ := printed
    exact .closed ⟨t, List.mem_append_left _ member, occurs⟩

theorem joinText_occurs (kind table condition : String) (occurs : Occurs key table ∨ Occurs key condition) :
    Occurs key (Join.text kind table condition) := by
  unfold Join.text
  dsimp only
  split
  · rename_i empty
    rcases occurs with there | there
    · exact there.right _
    · have blank : condition = "" := by simpa using empty
      subst blank
      cases List.infix_nil.mp there
  · rcases occurs with there | there
    · exact (((there.right _).left _).left _)
    · exact there.right _

theorem addJoin_shows {kind condition : String} {source : Source Embedded} {value : Option (Inline Embedded)}
    (shown : ∀ e, .absorb e ∈ (SelectCall.join kind source condition value).effects → e.Shown) :
    ∀ key ∈ (s.addJoin kind source condition value).registry.values.keys, isGenerated key = true →
      key ∈ s.registry.values.keys ∨ (s.addJoin kind source condition value).clauses.tables.Prints key := by
  intro key member generated
  have bound := s.registry.extend_shows (Join.conditionText condition) value
    fun e there => shown e (List.mem_append_left _ (List.mem_cons_of_mem _ (List.mem_cons_of_mem _ there)))
  have spliced := (s.registry.extend (Join.conditionText condition) value).2.splice_shows source
    fun e there => shown e (List.mem_append_right _ there)
  rcases spliced key member generated with earlier | table
  · refine (bound key earlier generated).imp_right fun occurs => ?_
    exact FromClause.Prints.addJoin (.inr (joinText_occurs _ _ _ (.inr occurs)))
  · exact .inr (FromClause.Prints.addJoin (.inr (joinText_occurs _ _ _ (.inl table))))

theorem prints_tables {s s' : Select} (draft : s.toDraft.Prints key → s'.toDraft.Prints key)
    (having : s'.clauses.having = s.clauses.having) (union : s'.clauses.union = s.clauses.union)
    (table : s.clauses.tables.Prints key → s'.clauses.tables.Prints key) (printed : s.Prints key) :
    s'.Prints key := by
  cases printed with
  | draft printed => exact .draft (draft printed)
  | having printed => exact .having (having ▸ printed)
  | table printed => exact .table (table printed)
  | closed printed => exact .closed (union ▸ printed)

theorem prints_same {s s' : Select} (draft : s.toDraft.Prints key → s'.toDraft.Prints key)
    (having : s'.clauses.having = s.clauses.having) (union : s'.clauses.union = s.clauses.union)
    (tables : s'.clauses.tables = s.clauses.tables) (printed : s.Prints key) : s'.Prints key :=
  prints_tables draft having union (fun old => tables ▸ old) printed

theorem apply_carries {call : SelectCall Embedded} (generated : isGenerated key = true)
    (lasting : ∀ e ∈ call.effects, e.bare.Lasting) (shown : ∀ e, .absorb e ∈ call.effects → e.Shown)
    (fresh : ∀ name, .table name ∈ call.effects → name ∉ s.clauses.ctes.tables.keys) :
    Carries key s.registry (s.apply call).registry (s.Prints key) ((s.apply call).Prints key) := by
  cases call with
  | common call =>
    have carries := Draft.applyCommon_carries (d := s.toDraft) generated lasting
    refine ⟨prints_same carries.keeps ?_ ?_ ?_, fun member => (carries.shows member).imp_right .draft⟩ <;>
      cases call <;> rfl
  | filter call =>
    have carries := Draft.applyFilter_carries (d := s.toDraft) generated lasting shown fresh
    refine ⟨prints_same carries.keeps ?_ ?_ ?_, fun member => (carries.shows member).imp_right .draft⟩ <;>
      cases call <;> rfl
  | having call =>
    have carries := BoundConditions.apply_carries (b := ⟨s.clauses.having, s.registry⟩) generated lasting shown
    refine ⟨fun printed => ?_, fun member => (carries.shows member).imp_right .having⟩
    cases printed with
    | draft printed => exact .draft printed
    | having printed => exact .having (carries.keeps printed)
    | table printed => exact .table printed
    | closed printed => exact .closed printed
  | table source =>
    have shows := s.registry.splice_shows source shown
    exact ⟨prints_tables id rfl rfl fun old => FromClause.Prints.addTable (.inl old),
      fun member => (shows key member generated).imp_right fun occurs =>
        .table (FromClause.Prints.addTable (.inr occurs))⟩
  | join kind source condition value =>
    exact ⟨prints_tables id rfl rfl fun old => FromClause.Prints.addJoin (.inl old),
      fun member => (addJoin_shows shown key member generated).imp_right .table⟩
  | appendJoin text value =>
    have shows := s.registry.extend_shows text value
      fun e there => shown e (List.mem_cons_of_mem _ there)
    exact ⟨prints_tables id rfl rfl fun old => FromClause.Prints.append (.inl old),
      fun member => (shows key member generated).imp_right fun occurs =>
        .table (FromClause.Prints.append (.inr occurs))⟩
  | resetTables => exact (lasting _ (List.mem_cons_self ..)).elim
  | reset => exact (lasting _ (List.mem_cons_self ..)).elim
  | union all => exact ⟨fun printed => closeMember_prints printed all, .inl⟩
  | _ => exact ⟨prints_same id rfl rfl rfl, .inl⟩

end Select

def Statement.Prints (key : String) : Statement → Prop
  | .select s => s.Prints key
  | .insert _ => False
  | .update s => s.toDraft.Prints key
  | .delete s => s.toDraft.Prints key

theorem Insert.apply_carries {s : Insert} {call : InsertCall Embedded} (generated : isGenerated key = true)
    (lasting : ∀ e ∈ call.effects, e.bare.Lasting) :
    Carries key s.registry (s.apply call).registry False False := by
  refine ⟨id, fun member => .inl ?_⟩
  cases call with
  | common call => exact Draft.applyCommon_gains generated lasting member
  | column call =>
    rw [Insert.apply_registry] at member
    exact columns_gain generated lasting member
  | returning call => exact returning_registry s.toDraft call ▸ member
  | table name => exact member
  | reset => exact (lasting _ (List.mem_cons_self ..)).elim

theorem Update.apply_carries {s : Update} {call : UpdateCall Embedded} (generated : isGenerated key = true)
    (lasting : ∀ e ∈ call.effects, e.bare.Lasting) (shown : ∀ e, .absorb e ∈ call.effects → e.Shown)
    (fresh : ∀ name, .table name ∈ call.effects → name ∉ s.clauses.ctes.tables.keys) :
    Carries key s.registry (s.apply call).registry (s.toDraft.Prints key)
      ((s.apply call).toDraft.Prints key) := by
  cases call with
  | common call => exact Draft.applyCommon_carries generated lasting
  | filter call => exact Draft.applyFilter_carries generated lasting shown fresh
  | column call =>
    refine ⟨id, fun member => .inl ?_⟩
    rw [Update.apply_registry] at member
    exact columns_gain generated lasting member
  | returning call =>
    exact ⟨fun old => by cases call <;> exact old,
      fun member => .inl (returning_registry s.toDraft call ▸ member)⟩
  | table name => exact .refl key _ _
  | reset => exact (lasting _ (List.mem_cons_self ..)).elim

theorem Delete.apply_carries {s : Delete} {call : DeleteCall Embedded} (generated : isGenerated key = true)
    (lasting : ∀ e ∈ call.effects, e.bare.Lasting) (shown : ∀ e, .absorb e ∈ call.effects → e.Shown)
    (fresh : ∀ name, .table name ∈ call.effects → name ∉ s.clauses.ctes.tables.keys) :
    Carries key s.registry (s.apply call).registry (s.toDraft.Prints key)
      ((s.apply call).toDraft.Prints key) := by
  cases call with
  | common call => exact Draft.applyCommon_carries generated lasting
  | filter call => exact Draft.applyFilter_carries generated lasting shown fresh
  | returning call =>
    exact ⟨fun old => by cases call <;> exact old,
      fun member => .inl (returning_registry s.toDraft call ▸ member)⟩
  | table name => exact .refl key _ _
  | reset => exact (lasting _ (List.mem_cons_self ..)).elim

theorem Statement.compose_carries {st st' : Statement} {call : Call Embedded}
    (generated : isGenerated key = true) (lasting : ∀ e ∈ call.effects, e.bare.Lasting)
    (shown : ∀ e, .absorb e ∈ call.effects → e.Shown)
    (fresh : ∀ name, .table name ∈ call.effects → name ∉ st.draft.clauses.ctes.tables.keys)
    (composed : st.compose call = some st') :
    Carries key st.registry st'.registry (st.Prints key) (st'.Prints key) := by
  cases composes_of_compose composed with
  | select => exact Select.apply_carries generated lasting shown fresh
  | insert => exact Insert.apply_carries generated lasting
  | update => exact Update.apply_carries generated lasting shown fresh
  | delete => exact Delete.apply_carries generated lasting shown fresh

theorem Draft.Prints.filter_occurs {d : Draft} (printed : d.Prints key) :
    Occurs key (d.clauses.ctes.render d.dialect) ∨ Occurs key (d.clauses.conditions.render "WHERE") :=
  printed.symm.imp (fun cte => cte.render d.dialect) fun condition => condition.render "WHERE"

theorem Statement.sql_occurs {st : Statement} (printed : st.Prints key) : Occurs key st.sql := by
  cases st with
  | select s => exact Select.sql_occurs printed
  | insert s => cases printed
  | update s =>
    unfold Statement.sql Update.sql
    rcases Draft.Prints.filter_occurs printed with cte | condition
    · exact ((((((((cte.left _).left _).left _).left _).left _).left _).left _).left _).left _
    · exact ((condition.right _).left _).left _
  | delete s =>
    unfold Statement.sql Delete.sql
    rcases Draft.Prints.filter_occurs printed with cte | condition
    · exact ((((((cte.left _).left _).left _).left _).left _).left _).left _
    · exact ((condition.right _).left _).left _

namespace Usage

def lasting : Usage where
  counter _ := True
  brings e := ∀ key ∈ e.binds.keys, isGenerated key = false
  hands _ e := e.Lasting

def printing : Usage where
  counter _ := True
  brings e := ∀ key ∈ e.binds.keys, isGenerated key = false
  hands st e := e.Lasting ∧ e.NewTable st

end Usage

def Statement.Complete (st : Statement) : Prop :=
  ∀ key ∈ st.values.keys, isGenerated key = true → st.Prints key

theorem renumber_prints {st : Statement} {ordinal : UInt64} (printed : st.Prints key) :
    (st.renumber ordinal).Prints key := by
  cases st with
  | select s => exact Select.prints_same (s := s) id rfl rfl rfl printed
  | insert s => exact printed
  | update s => exact printed
  | delete s => exact printed

theorem complete_hereditary : Hereditary .printing Statement.Complete Embedded.Shown where
  created f kind ordinal := by
    intro key member
    rw [Factory.create_values] at member
    cases member
  subSelect sel ordinal := fun key member => by cases member
  clone st ordinal complete := by
    intro key member generated
    rw [Statement.renumber_values] at member
    exact renumber_prints (complete key member generated)
  embedded sel complete := fun key member generated =>
    Select.sql_occurs (complete key member generated)
  brought e plain := by
    intro key member generated
    rw [plain key member] at generated
    cases generated
  composed st st' call complete shown handed composed := by
    intro key member generated
    have carries := Statement.compose_carries generated (fun e there => (handed e there).1) shown
      (fun name there => (handed _ there).2) composed
    exact (carries.shows member).elim (fun old => carries.keeps (complete key old generated)) id

-- While nothing is reset and no common table is defined again, every value that a statement binds under a
-- generated key is read by a placeholder in its text.
theorem generated_value_printed {s : Session} {commands : List Command} {h : History}
    (empty : s.slots = .empty) (runs : Runs .printing (.start s) commands h) :
    ∀ st ∈ h.statements, ∀ key, isGenerated key = true → st.values.contains key = true → Occurs key st.sql := by
  intro st stands key generated bound
  have complete := (complete_hereditary.runs (start_named empty) (.start empty) runs).1 st stands
  exact Statement.sql_occurs (complete key (OrderedMap.contains_iff.mp bound) generated)

def joinedUnion : List Command := [
  .create "s" .select (.standalone "pgsql" "main") false,
  .subSelect "s" "b",
  .call "b" (.select (.filter (.condition (.add .and "id = " (some (.scalar (.int 1) none)))))),
  .call "b" (.select (.union false)),
  .call "b" (.select (.having (.add .or "n > " (some (.list [.int 2, .int 3] none))))),
  .create "d" .delete (.standalone "pgsql" "main") false,
  .call "d" (.delete (.filter (.ctes (.define "x" ["id"] (.statement (.cloneOf "b")))))),
  .call "s" (.select (.filter (.ctes (.define "x" [] (.text "SELECT 1"))))),
  .call "s" (.select (.join "LEFT" (.statement (.slot "b")) "x.id = " (some (.scalar (.int 4) none))))]

theorem generated_value_printed_joinedUnion :
    ∃ h, Runs .printing (.start {}) joinedUnion h ∧
      (h.statements.map fun st => st.values.keys) =
        [["_1_1_", "_2_1_", "_2_2_", "_2_3_"], ["_2_1_", "_2_2_", "_2_3_"]] ∧
      ∀ st ∈ h.statements, ∀ key, isGenerated key = true → st.values.contains key = true →
        Occurs key st.sql := by
  have run : ∃ h, Runs .printing (.start {}) joinedUnion h ∧
      (h.statements.map fun st => st.values.keys) =
        [["_1_1_", "_2_1_", "_2_2_", "_2_3_"], ["_2_1_", "_2_2_", "_2_3_"]] := by
    refine exists_run (· = "main") (fun st e => e.Lasting ∧ e.NewTable st) ?_ (fun _ _ => trivial)
      fun _ _ => id
    decide +kernel
  obtain ⟨h, runs, keys⟩ := run
  exact ⟨h, runs, keys, generated_value_printed rfl runs⟩

def Command.defines : Command → Option (String × String)
  | .call slot (.select (.filter (.ctes (.define name _ _)))) => some (slot, name)
  | .call slot (.update (.filter (.ctes (.define name _ _)))) => some (slot, name)
  | .call slot (.delete (.filter (.ctes (.define name _ _)))) => some (slot, name)
  | _ => none

def clonedTable : List Command := [
  .create "s" .select (.standalone "sqlite" "main") false,
  .create "b" .select (.standalone "sqlite" "main") false,
  .call "b" (.select (.filter (.condition (.add .and "id = " (some (.scalar (.int 1) none)))))),
  .call "s" (.select (.filter (.ctes (.define "x" [] (.statement (.slot "b")))))),
  .clone "s" "c",
  .call "c" (.select (.filter (.ctes (.define "x" [] (.text "SELECT 1")))))]

-- The value of the old table is bound by the clone, and no placeholder of the clone reads it.
theorem generated_value_unprinted :
    (clonedTable.filterMap Command.defines).Nodup ∧ isGenerated "_2_1_" = true ∧
      ∃ h st, Runs .lasting (.start {}) clonedTable h ∧ st ∈ h.statements ∧
        st.values.contains "_2_1_" = true ∧ ¬ Occurs "_2_1_" st.sql := by
  have run : ∃ h, Runs .lasting (.start {}) clonedTable h ∧
      ∃ st ∈ h.statements, st.values.contains "_2_1_" = true ∧ ¬ Occurs "_2_1_" st.sql := by
    refine exists_run (· = "main") (fun _ e => e.Lasting) ?_ (fun _ _ => trivial) fun _ _ => id
    decide +kernel
  obtain ⟨h, runs, st, stands, bound, hidden⟩ := run
  exact ⟨by decide, by decide, h, st, runs, stands, bound, hidden⟩

end SqlCompose
