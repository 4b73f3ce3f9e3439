import SqlCompose.Proofs.Occurrences
import SqlCompose.Proofs.Runs

namespace SqlCompose

open Placeholder (isGenerated Occurs Closed Guarded)
open Text (Plain)

def Ordinary (column : String) : Prop := Plain column ∧ column.toList.head? ≠ some '_'

instance : DecidablePred Ordinary := fun column =>
  inferInstanceAs (Decidable (Plain column ∧ column.toList.head? ≠ some '_'))

theorem Ordinary.not_generated {column : String} (ordinary : Ordinary column) :
    ¬ isGenerated column = true := by
  intro generated
  obtain ⟨rest, starts⟩ := Placeholder.isGenerated_starts generated
  exact ordinary.2 (by rw [starts]; rfl)

-- The statement binds the placeholders in its text, and no text after it changes that.
def Embedded.Covered (e : Embedded) : Prop := Closed e.binds.keys e.sql

-- A piece of a call that brings no placeholder without its value.
def Effect.Sound : Effect Embedded → Prop
  | .text s | .table s => Plain s
  | .column name | .unbind name => Ordinary name
  | .absorb e => e.Covered
  | .bind .. | .generate .. | .handOut | .clear | .reset => True

abbrev Registry.Covers (r : Registry) (text : String) : Prop := Closed r.values.keys text

namespace Registry

variable (r : Registry)

theorem inlineScalar_covers (v : Value) (type : Option ParamType) :
    (r.inlineScalar v type).2.Covers (r.inlineScalar v type).1 :=
  Closed.placeholder _ (OrderedMap.mem_keys_insert.mpr (.inl rfl))

theorem inlineEach_grows (type : Option ParamType) (vs : List Value) :
    r.Grows (inlineEach type vs r).2 := by
  rw [inlineEach_registry]
  exact r.carryAll_grows (Inline.effects_keep (.list vs type))

theorem inlineEach_covers (type : Option ParamType) (vs : List Value) :
    ∀ t ∈ (inlineEach type vs r).1, (inlineEach type vs r).2.Covers t := by
  induction vs generalizing r with
  | nil => exact fun _ member => by cases member
  | cons v rest ih =>
    refine List.forall_mem_cons.mpr ⟨?_, ih _⟩
    exact (r.inlineScalar_covers v type).mono (inlineEach_grows _ type rest)

theorem inline_grows (value : Inline Embedded) : r.Grows (r.inline value).2 := by
  rw [inline_registry]
  exact r.carryAll_grows value.effects_keep

theorem inline_covers {value : Inline Embedded} (sound : ∀ e ∈ value.effects, e.Sound) :
    (r.inline value).2.Covers (r.inline value).1 := by
  have parenthesised {keys : List String} {t : String} (closed : Closed keys t) :
      Closed keys ("(" ++ t ++ ")") :=
    ((Closed.plain keys (by decide)).append closed).append (.plain keys (by decide))
  cases value with
  | scalar v type => exact r.inlineScalar_covers v type
  | list vs type => exact parenthesised (Closed.joined (by decide) (r.inlineEach_covers type vs))
  | statement e =>
    have covered : e.Covered := sound _ (List.mem_cons_self ..)
    exact parenthesised (covered.mono fun key member _ => OrderedMap.mem_keys_merge.mpr (.inr member))

theorem splice_covers {source : Source Embedded} (sound : ∀ e ∈ source.effects, e.Sound) :
    (r.splice source).2.Covers (r.splice source).1 := by
  cases source with
  | text sql => exact .plain _ (sound _ (List.mem_cons_self ..))
  | statement e =>
    have covered : e.Covered := sound _ (List.mem_cons_self ..)
    exact covered.mono fun key member _ => OrderedMap.mem_keys_merge.mpr (.inr member)

theorem splice_grows (source : Source Embedded) : r.Grows (r.splice source).2 := by
  rw [splice_registry]
  refine r.carryAll_grows fun e member => ?_
  cases source <;> rw [List.mem_singleton.mp member] <;> exact id

theorem extend_covers {fragment : String} {value : Option (Inline Embedded)} (plain : Plain fragment)
    (sound : ∀ e ∈ Inline.effectsOf value, e.Sound) :
    (r.extend fragment value).2.Covers (r.extend fragment value).1 := by
  cases value with
  | none => exact .plain _ plain
  | some value =>
    by_cases empty : value.isEmptyList = true
    · simp only [extend, empty, if_true]
      exact .plain _ plain
    · simp only [extend, empty]
      exact (Closed.plain _ plain).append (r.inline_covers sound)

theorem extend_grows (fragment : String) (value : Option (Inline Embedded)) :
    r.Grows (r.extend fragment value).2 := by
  rw [extend_registry]
  cases value with
  | none => exact .refl r
  | some value => exact r.carryAll_grows value.effects_keep

theorem column_sound {name : String} {value : Inline Embedded}
    (sound : ∀ e ∈ (Criterion.column name value).effects, e.Sound) :
    Plain name ∧ ∀ e ∈ value.effects, e.Sound := by
  constructor
  · refine sound (.text name) ?_
    cases value with
    | scalar v type => cases v <;> exact List.mem_cons_self ..
    | _ => exact List.mem_cons_self ..
  · intro e member
    cases value with
    | scalar v type => rw [List.mem_singleton.mp member]; trivial
    | list vs type =>
      obtain ⟨v, _, rfl⟩ := List.mem_map.mp member
      trivial
    | statement s => exact sound e (List.mem_cons_of_mem _ member)

theorem criterion_covers {c : Criterion Embedded} (sound : ∀ e ∈ c.effects, e.Sound) :
    (r.criterion c).2.Covers (r.criterion c).1 := by
  have compared {name operator : String} {value : Inline Embedded} (plain : Plain operator)
      (sound : ∀ e ∈ (Criterion.column name value).effects, e.Sound) :
      (r.inline value).2.Covers (name ++ operator ++ (r.inline value).1) := by
    obtain ⟨named, inside⟩ := column_sound sound
    exact (Closed.plain _ (named.append plain)).append (r.inline_covers inside)
  unfold criterion
  split
  · exact .plain _ (sound _ (List.mem_cons_self ..))
  · exact .plain _ ((column_sound sound).1.append (by decide))
  · exact .plain _ (show Plain "FALSE" by decide)
  · exact compared (by decide) sound
  · exact compared (by decide) sound

theorem criterion_grows (c : Criterion Embedded) : r.Grows (r.criterion c).2 := by
  rw [criterion_registry]
  refine r.carryAll_grows fun e member => ?_
  unfold Criterion.effects at member
  split at member
  · rw [List.mem_singleton.mp member]
    exact id
  · rw [List.mem_singleton.mp member]
    exact id
  · rcases List.mem_cons.mp member with rfl | inside
    · exact id
    · exact Inline.effects_keep _ e inside

theorem bindAll_grows (entries : List (String × Value)) : r.Grows (r.bindAll entries) := by
  rw [bindAll_registry]
  refine r.carryAll_grows fun e member => ?_
  obtain ⟨entry, _, rfl⟩ := List.mem_map.mp member
  exact id

end Registry

variable {keys more : List String}

theorem lengthenLast_all {P : String → Prop} {text : String} {items : List String}
    (change : ∀ s, P s → P (s ++ text)) (each : ∀ t ∈ items, P t) (new : items = [] → P text) :
    ∀ t ∈ Text.lengthenLast text items, P t := by
  rcases List.eq_nil_or_concat' items with rfl | ⟨front, last, rfl⟩
  · exact List.forall_mem_singleton.mpr (new rfl)
  · obtain ⟨earlier, final⟩ := List.forall_mem_append.mp each
    rw [Text.lengthenLast_concat]
    have lengthened := change last (final last (List.mem_cons_self ..))
    exact List.forall_mem_append.mpr ⟨earlier, List.forall_mem_singleton.mpr lengthened⟩

theorem changeLast_all {P : FromEntry → Prop} {f : FromEntry → FromEntry} {entries : List FromEntry}
    (change : ∀ e, P e → P (f e)) (each : ∀ e ∈ entries, P e) (new : entries = [] → P (f ⟨"", []⟩)) :
    ∀ e ∈ FromClause.changeLast f entries, P e := by
  rcases List.eq_nil_or_concat' entries with rfl | ⟨front, last, rfl⟩
  · exact List.forall_mem_singleton.mpr (new rfl)
  · obtain ⟨earlier, final⟩ := List.forall_mem_append.mp each
    rw [FromClause.changeLast_concat]
    have changed := change last (final last (List.mem_cons_self ..))
    exact List.forall_mem_append.mpr ⟨earlier, List.forall_mem_singleton.mpr changed⟩

def Conditions.Covered (keys : List String) (c : Conditions) : Prop := ∀ t ∈ c.fragments, Closed keys t

def FromEntry.Covered (keys : List String) (e : FromEntry) : Prop :=
  Closed keys e.table ∧ ∀ j ∈ e.joins, Closed keys j

def FromClause.Covered (keys : List String) (c : FromClause) : Prop := ∀ e ∈ c.entries, e.Covered keys

def With.Covered (keys : List String) (w : With) : Prop :=
  ∀ x ∈ w.tables.entries, Plain x.1 ∧ (∀ n ∈ x.2.columns, Plain n) ∧ Closed keys x.2.body

namespace Conditions.Covered

variable {c : Conditions}

theorem add (covered : c.Covered keys) (connective : Connective) {fragment : String}
    (new : Closed keys fragment) : (c.add connective fragment).Covered keys := by
  refine List.forall_mem_append.mpr ⟨covered, List.forall_mem_singleton.mpr ?_⟩
  split
  · exact new
  · cases connective <;> exact (Closed.plain keys (by decide)).append new

theorem append (covered : c.Covered keys) {text : String} (new : Closed keys text) :
    (c.append text).Covered keys :=
  lengthenLast_all (P := Closed keys) (fun _ old => old.append new) covered fun _ => new

theorem render (covered : c.Covered keys) {keyword : String} (plain : Plain keyword) :
    Closed keys (c.render keyword) := by
  unfold Conditions.render
  split
  · exact .plain keys Text.plain_empty
  · exact ((Closed.plain keys (by decide)).append (.plain keys plain)).append
      (.listing Text.plain_empty covered)

end Conditions.Covered

theorem BoundConditions.apply_covered {b : BoundConditions} {call : ConditionCall Embedded}
    (covered : b.conditions.Covered b.registry.values.keys) (sound : ∀ e ∈ call.effects, e.Sound) :
    (b.apply call).conditions.Covered (b.apply call).registry.values.keys := by
  cases call with
  | add connective fragment value =>
    obtain ⟨plain, inside⟩ := List.forall_mem_cons.mp sound
    exact Conditions.Covered.add
      (fun t member => (covered t member).mono (b.registry.extend_grows fragment value)) connective
      (b.registry.extend_covers plain inside)
  | append text value =>
    obtain ⟨plain, inside⟩ := List.forall_mem_cons.mp sound
    exact Conditions.Covered.append
      (fun t member => (covered t member).mono (b.registry.extend_grows text value))
      (b.registry.extend_covers plain inside)
  | reset => exact fun _ member => by cases member

theorem BoundConditions.apply_grows (b : BoundConditions) (call : ConditionCall Embedded) :
    b.registry.Grows (b.apply call).registry := by
  cases call with
  | add connective fragment value => exact b.registry.extend_grows fragment value
  | append text value => exact b.registry.extend_grows text value
  | reset => exact .refl _

theorem BoundConditions.addCriteria_grows (b : BoundConditions) (criteria : List (Criterion Embedded)) :
    b.registry.Grows (b.addCriteria criteria).registry := by
  induction criteria generalizing b with
  | nil => exact .refl _
  | cons c rest ih => exact Registry.Grows.trans (b.registry.criterion_grows c) (ih (b.addCriterion c))

theorem BoundConditions.addCriteria_covered {b : BoundConditions} {criteria : List (Criterion Embedded)}
    (covered : b.conditions.Covered b.registry.values.keys)
    (sound : ∀ e ∈ criteria.flatMap Criterion.effects, e.Sound) :
    (b.addCriteria criteria).conditions.Covered (b.addCriteria criteria).registry.values.keys := by
  induction criteria generalizing b with
  | nil => exact covered
  | cons c rest ih =>
    obtain ⟨here, later⟩ := List.forall_mem_append.mp (List.flatMap_cons ▸ sound)
    have added : (b.addCriterion c).conditions.Covered (b.addCriterion c).registry.values.keys :=
      Conditions.Covered.add
        (fun t member => (covered t member).mono (b.registry.criterion_grows c)) .and
        (b.registry.criterion_covers here)
    exact ih added later

namespace With.Covered

variable {w : With}

theorem mono (grows : ∀ key ∈ keys, isGenerated key = true → key ∈ more) (covered : w.Covered keys) :
    w.Covered more := fun x member =>
  have ⟨name, columns, body⟩ := covered x member
  ⟨name, columns, body.mono grows⟩

theorem tableText (d : Dialect) {name : String} {t : CommonTable} (plain : Plain name)
    (columns : ∀ n ∈ t.columns, Plain n) (body : Closed keys t.body) :
    Closed keys (With.tableText d name t) := by
  have list : Plain (if t.columns.isEmpty then "" else
      " (" ++ Text.joined ", " (t.columns.map d.quote) ++ ")") := by
    split
    · exact Text.plain_empty
    · refine (Text.Plain.append (by decide) (.joined (by decide) fun n member => ?_)).append (by decide)
      obtain ⟨column, there, rfl⟩ := List.mem_map.mp member
      exact d.quote_plain (columns column there)
  exact (((Closed.plain keys (((d.quote_plain plain).append list).append (by decide))).append body).append
    (.plain keys (by decide)))

theorem render (covered : w.Covered keys) (d : Dialect) : Closed keys (w.render d) := by
  unfold With.render
  split
  · exact .plain keys Text.plain_empty
  · refine ((Closed.plain keys ?_).append (.listing (by decide) fun t member => ?_)).append
      (.plain keys (by decide))
    · split <;> decide
    · obtain ⟨x, there, rfl⟩ := List.mem_map.mp member
      have ⟨name, columns, body⟩ := covered x there
      exact tableText d name columns body

end With.Covered

theorem BoundWith.apply_covered {b : BoundWith} {call : WithCall Embedded}
    (covered : b.ctes.Covered b.registry.values.keys) (sound : ∀ e ∈ call.effects, e.Sound) :
    (b.apply call).ctes.Covered (b.apply call).registry.values.keys := by
  cases call with
  | define name columns body =>
    obtain ⟨texts, inside⟩ := List.forall_mem_append.mp sound
    obtain ⟨plain, columns⟩ := List.forall_mem_cons.mp texts
    intro x member
    rcases OrderedMap.mem_insert member with rfl | old
    · refine ⟨plain, fun n there => ?_, b.registry.splice_covers inside⟩
      exact columns (.text n) (List.mem_map_of_mem there)
    · exact covered.mono (b.registry.splice_grows body) x old
  | recursive on => exact covered
  | reset => exact fun _ member => by cases member

theorem BoundWith.apply_grows (b : BoundWith) (call : WithCall Embedded) :
    b.registry.Grows (b.apply call).registry := by
  cases call with
  | define name columns body => exact b.registry.splice_grows body
  | recursive on => exact .refl _
  | reset => exact .refl _

namespace FromClause.Covered

variable {c : FromClause}

theorem mono (grows : ∀ key ∈ keys, isGenerated key = true → key ∈ more) (covered : c.Covered keys) :
    c.Covered more := fun e member =>
  have ⟨table, joins⟩ := covered e member
  ⟨table.mono grows, fun j there => (joins j there).mono grows⟩

theorem addTable (covered : c.Covered keys) {table : String} (new : Closed keys table) :
    (c.addTable table).Covered keys :=
  List.forall_mem_append.mpr ⟨covered, List.forall_mem_singleton.mpr ⟨new, fun _ member => by cases member⟩⟩

theorem blank : FromEntry.Covered keys ⟨"", []⟩ :=
  ⟨.plain keys Text.plain_empty, fun _ member => by cases member⟩

theorem addJoin (covered : c.Covered keys) {join : String} (new : Closed keys join) :
    (c.addJoin join).Covered keys := by
  have change (e : FromEntry) (each : e.Covered keys) : FromEntry.Covered keys { e with joins := e.joins ++ [join] } :=
    ⟨each.1, List.forall_mem_append.mpr ⟨each.2, List.forall_mem_singleton.mpr new⟩⟩
  exact changeLast_all change covered fun _ => change _ blank

theorem append (covered : c.Covered keys) {text : String} (new : Closed keys text) :
    (c.append text).Covered keys := by
  have change (e : FromEntry) (each : e.Covered keys) : (e.lengthen text).Covered keys := by
    unfold FromEntry.lengthen
    split
    · exact ⟨each.1.append new, each.2⟩
    · exact ⟨each.1, lengthenLast_all (P := Closed keys) (fun _ old => old.append new) each.2 fun _ => new⟩
  exact changeLast_all change covered fun _ => change _ blank

theorem render (covered : c.Covered keys) : Closed keys c.render := by
  unfold FromClause.render
  split
  · exact .plain keys Text.plain_empty
  · refine (Closed.plain keys (by decide)).append (.listing (by decide) fun t member => ?_)
    obtain ⟨e, there, rfl⟩ := List.mem_map.mp member
    have ⟨table, joins⟩ := covered e there
    exact (table.append (.listing Text.plain_empty joins)).trimStart

end FromClause.Covered

end SqlCompose
