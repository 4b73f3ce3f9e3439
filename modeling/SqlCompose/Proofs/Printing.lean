import SqlCompose.Proofs.Occurrences
import SqlCompose.Proofs.Runs

namespace SqlCompose

open Placeholder (isGenerated Occurs)

def Embedded.Shown (e : Embedded) : Prop :=
  ∀ key ∈ e.binds.keys, isGenerated key = true → Occurs key e.sql

namespace Registry

-- The generated keys that a registry has gained stand in a text.
def Shows (r r' : Registry) (text : String) : Prop :=
  ∀ key ∈ r'.values.keys, isGenerated key = true → key ∈ r.values.keys ∨ Occurs key text

variable (r : Registry)

theorem inlineScalar_shows (v : Value) (type : Option ParamType) :
    r.Shows (r.inlineScalar v type).2 (r.inlineScalar v type).1 := by
  intro key member _
  rcases OrderedMap.mem_keys_insert.mp member with rfl | old
  · exact .inr (Occurs.placeholder _)
  · exact .inl old

theorem inlineEach_shows (type : Option ParamType) (vs : List Value) :
    ∀ key ∈ (inlineEach type vs r).2.values.keys, isGenerated key = true →
      key ∈ r.values.keys ∨ ∃ t ∈ (inlineEach type vs r).1, Occurs key t := by
  induction vs generalizing r with
  | nil => exact fun key member _ => .inl member
  | cons v rest ih =>
    intro key member generated
    rcases ih (r.inlineScalar v type).2 key member generated with earlier | ⟨t, there, occurs⟩
    · rcases r.inlineScalar_shows v type key earlier generated with old | occurs
      · exact .inl old
      · exact .inr ⟨_, List.mem_cons_self .., occurs⟩
    · exact .inr ⟨t, List.mem_cons_of_mem _ there, occurs⟩

theorem absorb_shows {e : Embedded} (shown : e.Shown) : r.Shows (r.absorb e.binds) e.sql := by
  intro key member generated
  exact (OrderedMap.mem_keys_merge.mp member).imp_right fun incoming => shown key incoming generated

theorem Shows.around {r r' : Registry} {text : String} (shows : r.Shows r' text) (before after : String) :
    r.Shows r' (before ++ text ++ after) :=
  fun key member generated => (shows key member generated).imp_right fun occurs => (occurs.right _).left _

theorem Shows.after {r r' : Registry} {text : String} (shows : r.Shows r' text) (before : String) :
    r.Shows r' (before ++ text) :=
  fun key member generated => (shows key member generated).imp_right fun occurs => occurs.right _

theorem inline_shows {value : Inline Embedded} (shown : ∀ e, .absorb e ∈ value.effects → e.Shown) :
    r.Shows (r.inline value).2 (r.inline value).1 := by
  cases value with
  | scalar v type => exact r.inlineScalar_shows v type
  | list vs type =>
    refine Shows.around (fun key member generated => ?_) _ _
    refine (r.inlineEach_shows type vs key member generated).imp_right ?_
    rintro ⟨t, there, occurs⟩
    exact occurs.joined _ there
  | statement e => exact (r.absorb_shows (shown e (List.mem_cons_self ..))).around _ _

theorem splice_shows (source : Source Embedded) (shown : ∀ e, .absorb e ∈ source.effects → e.Shown) :
    r.Shows (r.splice source).2 (r.splice source).1 := by
  cases source with
  | text sql => exact fun key member _ => .inl member
  | statement e => exact r.absorb_shows (shown e (List.mem_cons_self ..))

theorem extend_shows (fragment : String) (value : Option (Inline Embedded))
    (shown : ∀ e, .absorb e ∈ Inline.effectsOf value → e.Shown) :
    r.Shows (r.extend fragment value).2 (r.extend fragment value).1 := by
  cases value with
  | none => exact fun key member _ => .inl member
  | some value =>
    by_cases empty : value.isEmptyList = true
    · simp only [extend, empty, if_true]
      exact fun key member _ => .inl member
    · simp only [extend, empty]
      exact (r.inline_shows shown).after fragment

theorem absorb_mem_column {name : String} {value : Inline Embedded} {e : Embedded}
    (member : .absorb e ∈ value.effects) : .absorb e ∈ (Criterion.column name value).effects := by
  cases value with
  | scalar v type => simp [Inline.effects] at member
  | list vs type => simp [Inline.effects] at member
  | statement s => exact List.mem_cons_of_mem _ member

theorem criterion_shows {c : Criterion Embedded} (shown : ∀ e, .absorb e ∈ c.effects → e.Shown) :
    r.Shows (r.criterion c).2 (r.criterion c).1 := by
  unfold criterion
  split
  · exact fun key member _ => .inl member
  · exact fun key member _ => .inl member
  · exact fun key member _ => .inl member
  · exact (r.inline_shows fun e member => shown e (absorb_mem_column member)).after _
  · exact (r.inline_shows fun e member => shown e (absorb_mem_column member)).after _

end Registry

variable {key : String}

theorem exists_mem_concat {α : Type} {P : α → Prop} {new : Prop} {front : List α} {last last' : α}
    (keeps : P last → P last') (gives : new → P last') (shown : (∃ x ∈ front ++ [last], P x) ∨ new) :
    ∃ x ∈ front ++ [last'], P x := by
  have final : last' ∈ front ++ [last'] := List.mem_append_right _ (List.mem_cons_self ..)
  rcases shown with ⟨x, member, old⟩ | new
  · rcases List.mem_append.mp member with earlier | here
    · exact ⟨x, List.mem_append_left _ earlier, old⟩
    · exact ⟨last', final, keeps (List.mem_singleton.mp here ▸ old)⟩
  · exact ⟨last', final, gives new⟩

theorem lengthenLast_any {P : String → Prop} {text : String} {items : List String}
    (left : ∀ s, P s → P (s ++ text)) (right : ∀ s, P text → P (s ++ text))
    (shown : (∃ t ∈ items, P t) ∨ P text) : ∃ t ∈ Text.lengthenLast text items, P t := by
  rcases List.eq_nil_or_concat' items with rfl | ⟨front, last, rfl⟩
  · exact ⟨text, List.mem_cons_self .., shown.resolve_left (by simp)⟩
  · rw [Text.lengthenLast_concat]
    exact exists_mem_concat (left last) (right last) shown

theorem changeLast_any {P : FromEntry → Prop} {f : FromEntry → FromEntry} {entries : List FromEntry}
    {new : Prop} (keeps : ∀ e, P e → P (f e)) (gives : ∀ e, new → P (f e))
    (shown : (∃ e ∈ entries, P e) ∨ new) : ∃ e ∈ FromClause.changeLast f entries, P e := by
  rcases List.eq_nil_or_concat' entries with rfl | ⟨front, last, rfl⟩
  · exact ⟨_, List.mem_cons_self .., gives _ (shown.resolve_left (by simp))⟩
  · rw [FromClause.changeLast_concat]
    exact exists_mem_concat (keeps last) (gives last) shown

def FromEntry.Any (P : String → Prop) (e : FromEntry) : Prop := P e.table ∨ ∃ j ∈ e.joins, P j

theorem FromClause.addJoin_any {P : String → Prop} {c : FromClause} {join : String}
    (shown : (∃ e ∈ c.entries, e.Any P) ∨ P join) : ∃ e ∈ (c.addJoin join).entries, e.Any P := by
  refine changeLast_any (P := FromEntry.Any P) (f := fun e => { e with joins := e.joins ++ [join] })
    (fun e old => ?_) (fun e new => ?_) shown
  · exact old.imp_right fun ⟨j, member, holds⟩ => ⟨j, List.mem_append_left _ member, holds⟩
  · exact .inr ⟨join, List.mem_append_right _ (List.mem_cons_self ..), new⟩

theorem FromClause.append_any {P : String → Prop} {c : FromClause} {text : String}
    (left : ∀ s, P s → P (s ++ text)) (right : ∀ s, P text → P (s ++ text))
    (shown : (∃ e ∈ c.entries, e.Any P) ∨ P text) : ∃ e ∈ (c.append text).entries, e.Any P := by
  have joined {joins : List String} (shown : (∃ j ∈ joins, P j) ∨ P text) :
      ∃ j ∈ Text.lengthenLast text joins, P j := lengthenLast_any left right shown
  refine changeLast_any (P := FromEntry.Any P) (f := (·.lengthen text)) (fun e old => ?_)
    (fun e new => ?_) shown <;> unfold FromEntry.lengthen <;> split
  · exact old.imp_left (left _)
  · exact old.imp_right fun shown => joined (.inl shown)
  · exact .inl (right _ new)
  · exact .inr (joined (.inr new))

def Conditions.Prints (key : String) (c : Conditions) : Prop := ∃ t ∈ c.fragments, Occurs key t

def FromEntry.Prints (key : String) (e : FromEntry) : Prop :=
  Occurs key e.table ∨ ∃ j ∈ e.joins, Occurs key j

def FromClause.Prints (key : String) (c : FromClause) : Prop := ∃ e ∈ c.entries, e.Prints key

def With.Prints (key : String) (w : With) : Prop := ∃ x ∈ w.tables.entries, Occurs key x.2.body

namespace Conditions.Prints

variable {c : Conditions}

theorem add {connective : Connective} {fragment : String}
    (prints : c.Prints key ∨ Occurs key fragment) : (c.add connective fragment).Prints key := by
  rcases prints with ⟨t, member, occurs⟩ | new
  · exact ⟨t, List.mem_append_left _ member, occurs⟩
  · refine ⟨_, List.mem_append_right _ (List.mem_cons_self ..), ?_⟩
    split
    · exact new
    · exact new.right _

theorem append {text : String} (prints : c.Prints key ∨ Occurs key text) :
    (c.append text).Prints key :=
  lengthenLast_any (P := Occurs key) (fun _ old => old.left _) (fun _ new => new.right _) prints

theorem render (prints : c.Prints key) (keyword : String) : Occurs key (c.render keyword) := by
  obtain ⟨t, member, occurs⟩ := prints
  have filled : c.isEmpty = false := by
    unfold Conditions.isEmpty
    cases there : c.fragments with
    | nil => simp [there] at member
    | cons => rfl
  unfold Conditions.render
  rw [filled]
  exact (occurs.listing "" member).right _

end Conditions.Prints

namespace With.Prints

variable {w : With}

theorem define {name : String} {columns : List String} {body : String} (fresh : name ∉ w.tables.keys)
    (prints : w.Prints key ∨ Occurs key body) : (w.define name columns body).Prints key := by
  have entries : (w.define name columns body).tables.entries =
      w.tables.entries ++ [(name, ⟨columns, body⟩)] := OrderedMap.entries_insert fresh
  unfold With.Prints
  rw [entries]
  rcases prints with ⟨x, member, occurs⟩ | new
  · exact ⟨x, List.mem_append_left _ member, occurs⟩
  · exact ⟨_, List.mem_append_right _ (List.mem_cons_self ..), new⟩

theorem render (prints : w.Prints key) (d : Dialect) : Occurs key (w.render d) := by
  obtain ⟨x, member, occurs⟩ := prints
  have filled : w.isEmpty = false := by
    unfold With.isEmpty OrderedMap.isEmpty
    cases there : w.tables.entries with
    | nil => simp [there] at member
    | cons => rfl
  have table : Occurs key (With.tableText d x.1 x.2) := (occurs.right _).left _
  have listed : Occurs key
      (Text.listing "," (w.tables.entries.map fun x => With.tableText d x.1 x.2)) :=
    table.listing "," (List.mem_map_of_mem member)
  unfold With.render
  rw [filled]
  exact (listed.right _).left _

end With.Prints

namespace FromClause.Prints

variable {c : FromClause}

theorem addTable {table : String} (prints : c.Prints key ∨ Occurs key table) :
    (c.addTable table).Prints key := by
  rcases prints with ⟨e, member, shown⟩ | new
  · exact ⟨e, List.mem_append_left _ member, shown⟩
  · exact ⟨_, List.mem_append_right _ (List.mem_cons_self ..), .inl new⟩

theorem addJoin {join : String} (prints : c.Prints key ∨ Occurs key join) :
    (c.addJoin join).Prints key := addJoin_any (P := Occurs key) prints

theorem append {text : String} (prints : c.Prints key ∨ Occurs key text) :
    (c.append text).Prints key :=
  append_any (P := Occurs key) (fun _ old => old.left _) (fun _ new => new.right _) prints

theorem render (prints : c.Prints key) : Occurs key c.render := by
  obtain ⟨e, member, shown⟩ := prints
  have entry : Occurs key e.render := by
    refine Occurs.trimStart ?_
    rcases shown with table | ⟨j, there, occurs⟩
    · exact table.left _
    · exact (occurs.listing "" there).right _
  unfold FromClause.render
  split
  · rename_i tableless
    rw [tableless] at member
    cases member
  · exact (entry.listing "," (List.mem_map_of_mem member)).right _

end FromClause.Prints

end SqlCompose
