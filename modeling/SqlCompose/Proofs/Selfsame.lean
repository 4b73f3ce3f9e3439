import SqlCompose.Proofs.Binding
import SqlCompose.Proofs.Interleaving
import SqlCompose.Proofs.Renaming

namespace SqlCompose

namespace Placeholder

variable {f : Key → Key} {keys : List String} {t : String}

theorem readGenerated_plain {s key : List Char} (read : readGenerated s = some key) : ':' ∉ key := by
  obtain ⟨o, q, _, ordinal, sequence, rfl, _⟩ := readGenerated_parts read
  have digits {ds : List Char} (each : Text.Digits ds) : ':' ∉ ds := fun colon => absurd (each.2 _ colon) (by decide)
  simp [form, digits ordinal, digits sequence]

-- A text in which only placeholders of fixed keys begin is not changed. After a key that was read the rest of it is
-- skipped, into what follows if it reaches that far.
theorem renameFrom_fixed {cs rest : List Char}
    (fixed : ∀ front inside key, front ++ ':' :: inside = cs → readGenerated (inside ++ rest) = some key →
      Key.rename f (String.ofList key) = String.ofList key) (skip : Nat) :
    renameFrom f skip (cs ++ rest) = cs.drop skip ++ renameFrom f (skip - cs.length) rest := by
  induction cs generalizing skip with
  | nil => simp
  | cons c cs ih =>
    have later := ih fun front inside key split => fixed (c :: front) inside key (congrArg (c :: ·) split)
    cases skip with
    | succ skip =>
      rw [List.cons_append, renameFrom, later, List.drop_succ_cons, List.length_cons, Nat.add_sub_add_right]
    | zero =>
      rw [List.drop_zero, Nat.zero_sub, List.cons_append, renameFrom]
      split
      case h_2 none => rw [later, List.drop_zero, Nat.zero_sub, List.cons_append]
      case h_1 key read =>
        split at read
        case isFalse => cases read
        case isTrue colon =>
          obtain ⟨_, tail, whole⟩ := readGenerated_iff.mp read
          rw [fixed [] cs key (by rw [colon]; rfl) read, String.toList_ofList, later, List.cons_append]
          refine congrArg (c :: ·) ?_
          rcases List.append_eq_append_iff.mp whole with ⟨more, rfl, _⟩ | ⟨taken, rfl, rfl⟩
          · simp
          · have plain : ':' ∉ taken := fun inside => readGenerated_plain read (List.mem_append_right _ inside)
            rw [renameFrom_plain plain, renameFrom_drop]
            simp

theorem readGenerated_reach {inside rest key : List Char} (read : readGenerated (inside ++ rest) = some key) :
    ∃ taken more, rest = taken ++ more ∧ key <+: inside ++ taken ∧ ':' ∉ taken := by
  obtain ⟨_, tail, whole⟩ := readGenerated_iff.mp read
  rcases List.append_eq_append_iff.mp whole with ⟨more, rfl, _⟩ | ⟨taken, rfl, rfl⟩
  · exact ⟨[], rest, rfl, by simp, List.not_mem_nil⟩
  · exact ⟨taken, tail, rfl, List.prefix_rfl, fun colon => readGenerated_plain read (List.mem_append_right _ colon)⟩

theorem renames_self {after : List Char → Prop} (sooner : ∀ taken more, after (taken ++ more) → after taken)
    (bound : ∀ rest key, after rest.toList → isGenerated key = true → Occurs key (t ++ rest) →
      key ∈ keys ∨ Occurs key rest)
    (fixed : ∀ key ∈ keys, Key.rename f key = key) : Renames f after t t := by
  intro rest follows
  refine (renameFrom_fixed (fun front inside key split read => ?_) 0).trans (by simp)
  obtain ⟨taken, more, rfl, reach, plain⟩ := readGenerated_reach read
  have generated : isGenerated (String.ofList key) = true := by
    rw [isGenerated_iff, String.toList_ofList]
    exact (readGenerated_iff.mp read).1
  have occurs : Occurs (String.ofList key) (t ++ String.ofList taken) := by
    rw [Occurs, String.toList_append, String.toList_ofList, String.toList_ofList, ← split, List.append_assoc]
    exact (List.prefix_cons_inj ':' |>.mpr reach).isInfix.trans (List.suffix_append front _).isInfix
  refine fixed _ ((bound _ _ ?_ generated occurs).resolve_right fun later => plain ?_)
  · rw [String.toList_ofList]
    exact sooner taken more follows
  · rw [Occurs, String.toList_ofList, String.toList_ofList] at later
    exact later.subset (List.mem_cons_self ..)

theorem Closed.renames (closed : Closed keys t) (fixed : ∀ key ∈ keys, Key.rename f key = key) :
    Renames f Anything t t :=
  renames_self (fun _ _ _ => trivial) (fun rest key _ => closed rest key) fixed

theorem Guarded.renames (guarded : Guarded keys t) (fixed : ∀ key ∈ keys, Key.rename f key = key) :
    Renames f NoUnderscore t t := by
  refine renames_self (fun taken more follows => ?_) guarded fixed
  cases taken with
  | nil => simp
  | cons => exact follows

end Placeholder

section Calls

variable {L : Likeness}

abbrev Effect.Selfsame (L : Likeness) : Effect Embedded → Prop :=
  Effect.Given L.marks L.bound fun e => e.Alike L e

theorem Inline.selfsame {value : Inline Embedded} (same : ∀ u ∈ value.effects, u.Selfsame L) :
    value.Alike L value := by
  cases value with
  | scalar v type => exact .scalar
  | list vs type => exact .list
  | statement e => exact .statement (same (.absorb e) (List.mem_cons_self ..))

theorem Inline.selfsame_option {value : Option (Inline Embedded)} (same : ∀ u ∈ Inline.effectsOf value, u.Selfsame L) :
    Option.Rel (Inline.Alike L) value value := by
  cases value with
  | none => exact .none
  | some value => exact .some (Inline.selfsame same)

theorem Source.selfsame {source : Source Embedded} (same : ∀ u ∈ source.effects, u.Selfsame L) :
    source.Alike L source := by
  cases source with
  | text sql => exact .text (same (.text sql) (List.mem_cons_self ..))
  | statement e => exact .statement (same (.absorb e) (List.mem_cons_self ..))

theorem Criterion.selfsame {c : Criterion Embedded} (same : ∀ u ∈ c.effects, u.Selfsame L) : c.Alike L c := by
  cases c with
  | raw fragment => exact .raw (same (.text fragment) (List.mem_cons_self ..))
  | column name value =>
    obtain ⟨named, inside⟩ := Criterion.column_given same
    exact .column named (Inline.selfsame inside)

theorem ConditionCall.selfsame {call : ConditionCall Embedded} (same : ∀ u ∈ call.effects, u.Selfsame L) :
    call.Alike L call := by
  cases call with
  | add connective fragment value =>
    obtain ⟨text, values⟩ := List.forall_mem_cons.mp same
    exact .add text (Inline.selfsame_option values)
  | append text value =>
    obtain ⟨given, values⟩ := List.forall_mem_cons.mp same
    exact .append given (Inline.selfsame_option values)
  | reset => exact .reset

theorem WithCall.selfsame {call : WithCall Embedded} (same : ∀ u ∈ call.effects, u.Selfsame L) :
    call.Alike L call := by
  cases call with
  | define name columns body =>
    obtain ⟨front, source⟩ := List.forall_mem_append.mp same
    obtain ⟨named, texts⟩ := List.forall_mem_cons.mp front
    exact .define named (texts_given texts) (Source.selfsame source)
  | recursive on => exact .recursive
  | reset => exact .reset

theorem CommonCall.selfsame {call : CommonCall Embedded} (same : ∀ u ∈ call.effects, u.Selfsame L) :
    call.Alike L call := by
  cases call with
  | bind key value type => exact .bind (same (.bind key value type) (List.mem_cons_self ..))
  | bindAll entries => exact .bindAll fun x member => same (.bind x.1 x.2 none) (List.mem_map_of_mem member)
  | inline value => exact .inline (Inline.selfsame (List.forall_mem_cons.mp same).2)
  | flag call => exact .flag (FlagCall.given_of_effects same)

theorem FilterCall.selfsame {call : FilterCall Embedded} (same : ∀ u ∈ call.effects, u.Selfsame L) :
    call.Alike L call := by
  cases call with
  | paging call => exact .paging
  | condition call => exact .condition (ConditionCall.selfsame same)
  | equals criteria =>
    refine .equals (List.forall₂_same.mpr fun c member => Criterion.selfsame fun u there => ?_)
    exact same u (List.mem_flatMap.mpr ⟨c, member, there⟩)
  | ctes call => exact .ctes (WithCall.selfsame same)

theorem SelectCall.selfsame {call : SelectCall Embedded} (same : ∀ u ∈ call.effects, u.Selfsame L) :
    call.Alike L call := by
  cases call with
  | common call => exact .common (CommonCall.selfsame same)
  | filter call => exact .filter (FilterCall.selfsame same)
  | having call => exact .having (ConditionCall.selfsame same)
  | columns texts => exact .columns (texts_given same)
  | columnsAs texts => exact .columnsAs (columnsAs_given same)
  | resetColumns => exact .resetColumns
  | table source => exact .table (Source.selfsame same)
  | join kind source condition value =>
    obtain ⟨front, sources⟩ := List.forall_mem_append.mp same
    obtain ⟨kinds, rest⟩ := List.forall_mem_cons.mp front
    obtain ⟨on, values⟩ := List.forall_mem_cons.mp rest
    exact .join kinds (Source.selfsame sources) on (Inline.selfsame_option values)
  | appendJoin text value =>
    obtain ⟨given, values⟩ := List.forall_mem_cons.mp same
    exact .appendJoin given (Inline.selfsame_option values)
  | resetTables => exact .resetTables
  | groupBy texts => exact .groupBy (texts_given same)
  | resetGroupBy => exact .resetGroupBy
  | orderBy texts => exact .orderBy (texts_given same)
  | resetOrderBy => exact .resetOrderBy
  | distinct on => exact .distinct
  | forUpdate on => exact .forUpdate
  | setAlias name => exact .setAlias (same (.text name) (List.mem_cons_self ..))
  | resetAlias => exact .resetAlias
  | union all => exact .union
  | reset => exact .reset

theorem Call.selfsame {call : Call Embedded} (same : ∀ u ∈ call.effects, u.Selfsame L) : call.Alike L call := by
  cases call with
  | select call => exact .select (SelectCall.selfsame same)
  | insert call =>
    cases call with
    | common call => exact .insert (.common (CommonCall.selfsame same))
    | column call => exact .insert (.column (ColumnCall.given_of_effects same))
    | returning call => exact .insert (.returning (ReturningCall.given_of_effects same))
    | table name => exact .insert (.table (same (.text name) (List.mem_cons_self ..)))
    | reset => exact .insert .reset
  | update call =>
    cases call with
    | common call => exact .update (.common (CommonCall.selfsame same))
    | filter call => exact .update (.filter (FilterCall.selfsame same))
    | column call => exact .update (.column (ColumnCall.given_of_effects same))
    | returning call => exact .update (.returning (ReturningCall.given_of_effects same))
    | table name => exact .update (.table (same (.text name) (List.mem_cons_self ..)))
    | reset => exact .update .reset
  | delete call =>
    cases call with
    | common call => exact .delete (.common (CommonCall.selfsame same))
    | filter call => exact .delete (.filter (FilterCall.selfsame same))
    | returning call => exact .delete (.returning (ReturningCall.given_of_effects same))
    | table name => exact .delete (.table (same (.text name) (List.mem_cons_self ..)))
    | reset => exact .delete .reset

theorem Statement.Alike.composeAll {s s' : Statement} (alike : s.Alike L s')
    (shown : ∀ limit offset, L.window limit offset) {calls calls' : List (Call Embedded)}
    (like : List.Forall₂ (Call.Alike L) calls calls') :
    Option.Rel (Statement.Alike L) (s.composeAll calls) (s'.composeAll calls') := by
  induction like generalizing s s' with
  | nil => exact .some alike
  | @cons call call' _ _ head _ ih =>
    have composed := alike.compose head fun _ _ _ => shown _ _
    unfold Statement.composeAll
    rw [List.foldlM_cons, List.foldlM_cons]
    generalize s.compose call = x, s'.compose call' = y at composed
    cases composed with
    | none => exact .none
    | some next => exact ih next

end Calls

section Statements

open Placeholder (Closed)

variable {r : Renumbering} {keys : List String} (fixed : ∀ key ∈ keys, Key.rename r.rename key = key)

include fixed

theorem Placeholder.Closed.selfsame_each {texts : List String} (closed : ∀ t ∈ texts, Closed keys t) :
    List.Forall₂ (Likeness.renaming r).text texts texts :=
  List.forall₂_same.mpr fun t member => (closed t member).renames fixed

theorem Clauses.Covered.selfsame {c : Clauses} (covered : c.Covered keys) : c.Alike (.renaming r) c where
  columns := Closed.selfsame_each fixed covered.columns
  tables := List.forall₂_same.mpr fun e member =>
    have ⟨table, joins⟩ := covered.tables e member
    ⟨table.renames fixed, Closed.selfsame_each fixed joins⟩
  conditions := Closed.selfsame_each fixed covered.conditions
  having := Closed.selfsame_each fixed covered.having
  group := Closed.selfsame_each fixed covered.group
  order := Closed.selfsame_each fixed covered.order
  flags := ⟨rfl, fun t member => (covered.flags t member).renames fixed⟩
  paging := rfl
  ctes := ⟨rfl, List.forall₂_same.mpr fun x member =>
    have ⟨name, columns, body⟩ := covered.ctes x member
    ⟨⟨rfl, Text.plain_iff.mp name⟩, rfl, fun n there => Text.plain_iff.mp (columns n there), body.renames fixed⟩⟩
  union := Closed.selfsame_each fixed covered.union
  returning := Closed.selfsame_each fixed covered.returning

theorem Assigned.selfsame {a : Assignments} (assigned : Assigned keys a) : a.Alike (.renaming r) a :=
  ⟨rfl, fun x member =>
    have ⟨column, fragment⟩ := assigned x member
    ⟨Text.plain_iff.mp column, fragment.renames fixed⟩⟩

end Statements

-- Under another ordinal a statement is as it was, as long as what it binds is not looked at.
theorem Statement.Covered.selfsame {r : Renumbering} {st : Statement} (covered : st.Covered)
    (fixed : ∀ key ∈ st.values.keys, Key.rename r.rename key = key) {own : UInt64}
    (ordinal : r.ordinal own st.registry.ordinal) (counter : r.counter st.registry.counter)
    (binds : r.binds st.values st.values) : (st.renumber own).Alike (.renaming r) st := by
  have draft {d : Draft} (clauses : d.Covered) (fixed : ∀ key ∈ d.registry.values.keys, Key.rename r.rename key = key)
      (ordinal : r.ordinal own d.registry.ordinal) (counter : r.counter d.registry.counter)
      (binds : r.binds d.registry.values d.registry.values) : (d.renumber own).Alike (.renaming r) d :=
    ⟨rfl, ⟨rfl, counter, ordinal, rfl, binds⟩, Clauses.Covered.selfsame fixed clauses⟩
  cases st with
  | select s =>
    obtain ⟨clauses, named⟩ := covered
    exact .select ⟨draft clauses fixed ordinal counter binds, rfl, named.renames fixed, rfl⟩
  | insert s =>
    obtain ⟨clauses, table, assigned⟩ := covered
    exact .insert ⟨draft clauses fixed ordinal counter binds, rfl, Text.plain_iff.mp table, assigned.selfsame fixed⟩
  | update s =>
    obtain ⟨clauses, table, assigned⟩ := covered
    exact .update ⟨draft clauses fixed ordinal counter binds, rfl, Text.plain_iff.mp table, assigned.selfsame fixed⟩
  | delete s =>
    obtain ⟨clauses, table⟩ := covered
    exact .delete ⟨draft clauses fixed ordinal counter binds, rfl, Text.plain_iff.mp table⟩

end SqlCompose
