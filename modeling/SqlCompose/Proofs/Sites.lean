import SqlCompose.Proofs.Printing

namespace SqlCompose

variable {ρ : Type}

inductive Site (ρ : Type) where
  | source (s : ρ)
  | value (s : ρ)
  deriving DecidableEq, Repr

namespace Site

def statement : Site ρ → ρ
  | source s => s
  | value s => s

def text : Site Embedded → String
  | source e => e.sql
  | value e => "(" ++ e.sql ++ ")"

end Site

def Inline.sites : Inline ρ → List (Site ρ)
  | .scalar .. | .list .. => []
  | .statement s => [.value s]

def Inline.sitesOf : Option (Inline ρ) → List (Site ρ)
  | none => []
  | some value => value.sites

def Source.sites : Source ρ → List (Site ρ)
  | .text _ => []
  | .statement s => [.source s]

def Criterion.sites : Criterion ρ → List (Site ρ)
  | .raw _ => []
  | .column _ value => value.sites

def ConditionCall.sites : ConditionCall ρ → List (Site ρ)
  | .add _ _ value => Inline.sitesOf value
  | .append _ value => Inline.sitesOf value
  | .reset => []

def WithCall.sites : WithCall ρ → List (Site ρ)
  | .define _ _ body => body.sites
  | .recursive _ | .reset => []

def CommonCall.sites : CommonCall ρ → List (Site ρ)
  | .inline value => value.sites
  | .bind .. | .bindAll _ | .flag _ => []

def FilterCall.sites : FilterCall ρ → List (Site ρ)
  | .paging _ => []
  | .condition call => call.sites
  | .equals criteria => criteria.flatMap Criterion.sites
  | .ctes call => call.sites

def SelectCall.sites : SelectCall ρ → List (Site ρ)
  | .common call => call.sites
  | .filter call => call.sites
  | .having call => call.sites
  | .table source => source.sites
  | .join _ source _ value => Inline.sitesOf value ++ source.sites
  | .appendJoin _ value => Inline.sitesOf value
  | _ => []

def InsertCall.sites : InsertCall ρ → List (Site ρ)
  | .common call => call.sites
  | _ => []

def UpdateCall.sites : UpdateCall ρ → List (Site ρ)
  | .common call => call.sites
  | .filter call => call.sites
  | _ => []

def DeleteCall.sites : DeleteCall ρ → List (Site ρ)
  | .common call => call.sites
  | .filter call => call.sites
  | _ => []

def Call.sites : Call ρ → List (Site ρ)
  | .select call => call.sites
  | .insert call => call.sites
  | .update call => call.sites
  | .delete call => call.sites

def Effect.Splices : Effect ρ → Prop
  | .text _ | .table _ | .handOut | .generate .. | .absorb _ => True
  | _ => False

open Effect (references)

-- The pieces of a call with sites: they refer to the statements there in this order.
structure Sited (sites : List (Site ρ)) (pieces : List (Effect ρ)) : Prop where
  refer : references pieces = sites.map Site.statement
  splice : ∀ e ∈ pieces, e.Splices

namespace Sited

variable {sites more : List (Site ρ)} {pieces rest : List (Effect ρ)}

theorem nil : Sited ([] : List (Site ρ)) [] := ⟨rfl, fun _ member => absurd member List.not_mem_nil⟩

theorem cons {e : Effect ρ} (plain : e.reference? = none) (splices : e.Splices) (sited : Sited sites pieces) :
    Sited sites (e :: pieces) where
  refer := (List.filterMap_cons_none plain).trans sited.refer
  splice := List.forall_mem_cons.mpr ⟨splices, sited.splice⟩

theorem append (first : Sited sites pieces) (second : Sited more rest) : Sited (sites ++ more) (pieces ++ rest) where
  refer := by rw [Effect.references_append, first.refer, second.refer, List.map_append]
  splice := List.forall_mem_append.mpr ⟨first.splice, second.splice⟩

theorem plain {α : Type} {f : α → Effect ρ} (plain : ∀ a, (f a).reference? = none) (splices : ∀ a, (f a).Splices)
    (items : List α) : Sited [] (items.map f) := by
  induction items with
  | nil => exact .nil
  | cons a rest ih => exact ih.cons (plain a) (splices a)

theorem reference (site : Site ρ) : Sited [site] [.absorb site.statement] where
  refer := rfl
  splice := List.forall_mem_singleton.mpr trivial

end Sited

theorem Inline.sited (value : Inline ρ) : Sited value.sites value.effects := by
  cases value with
  | scalar v type => exact .cons rfl trivial .nil
  | list vs type => exact .plain (f := (.generate · type)) (fun _ => rfl) (fun _ => trivial) vs
  | statement s => exact .reference (.value s)

theorem Inline.sitedOf (value : Option (Inline ρ)) : Sited (sitesOf value) (effectsOf value) := by
  cases value with
  | none => exact .nil
  | some value => exact value.sited

theorem Source.sited (source : Source ρ) : Sited source.sites source.effects := by
  cases source with
  | text sql => exact .cons rfl trivial .nil
  | statement s => exact .reference (.source s)

theorem Criterion.sited (c : Criterion ρ) : Sited c.sites c.effects := by
  cases c with
  | raw fragment => exact .cons rfl trivial .nil
  | column name value =>
    unfold effects
    split
    · cases ‹Criterion.column name value = _›
    · cases ‹Criterion.column name value = _›
      exact .cons rfl trivial .nil
    · cases ‹Criterion.column name value = _›
      exact .cons rfl trivial value.sited

theorem Criterion.sited_list (criteria : List (Criterion ρ)) :
    Sited (criteria.flatMap sites) (criteria.flatMap effects) := by
  induction criteria with
  | nil => exact .nil
  | cons c rest ih => exact c.sited.append ih

-- The pieces of a call go with its sites, or it has none and refers to nothing.
def Placed (sites : List (Site ρ)) (pieces : List (Effect ρ)) : Prop :=
  Sited sites pieces ∨ sites = [] ∧ references pieces = []

theorem Placed.refer {sites : List (Site ρ)} {pieces : List (Effect ρ)} (placed : Placed sites pieces) :
    references pieces = sites.map Site.statement := by
  rcases placed with sited | ⟨rfl, siteless⟩
  · exact sited.refer
  · exact siteless

theorem ConditionCall.placed (c : ConditionCall ρ) : Placed c.sites c.effects := by
  cases c with
  | add _ _ value => exact .inl ((Inline.sitedOf value).cons rfl trivial)
  | append _ value => exact .inl ((Inline.sitedOf value).cons rfl trivial)
  | reset => exact .inr ⟨rfl, rfl⟩

theorem WithCall.placed (c : WithCall ρ) : Placed c.sites c.effects := by
  cases c with
  | define name columns body =>
    have texts := Sited.plain (f := Effect.text (ρ := ρ)) (fun _ => rfl) (fun _ => trivial) columns
    have lead : Sited [] (.table name :: columns.map Effect.text) := texts.cons rfl trivial
    exact .inl (lead.append body.sited)
  | recursive | reset => exact .inr ⟨rfl, rfl⟩

theorem references_none {α : Type} {f : α → Effect ρ} (plain : ∀ a, (f a).reference? = none) (items : List α) :
    references (items.map f) = [] := by
  rw [references, List.filterMap_map]
  exact List.filterMap_eq_nil_iff.mpr fun a _ => plain a

theorem CommonCall.placed (c : CommonCall ρ) : Placed c.sites c.effects := by
  cases c with
  | inline value => exact .inl (value.sited.cons rfl trivial)
  | bind => exact .inr ⟨rfl, rfl⟩
  | bindAll entries => exact .inr ⟨rfl, references_none (fun _ => rfl) entries⟩
  | flag call => cases call <;> exact .inr ⟨rfl, rfl⟩

theorem FilterCall.placed (c : FilterCall ρ) : Placed c.sites c.effects := by
  cases c with
  | paging => exact .inr ⟨rfl, rfl⟩
  | condition call => exact call.placed
  | equals criteria => exact .inl (Criterion.sited_list criteria)
  | ctes call => exact call.placed

theorem ReturningCall.refers (c : ReturningCall) : references (c.effects (ρ := ρ)) = [] := by
  cases c with
  | add columns => exact references_none (fun _ => rfl) columns
  | reset => rfl

theorem ColumnCall.refers (c : ColumnCall) : references (c.effects (ρ := ρ)) = [] := by
  cases c with
  | assign column value => cases value <;> rfl
  | assignMany columns =>
    rw [ColumnCall.effects]
    induction columns with
    | nil => rfl
    | cons column rest ih =>
      rw [List.flatMap_cons, Effect.references_append, ih]
      cases column <;> rfl
  | literal | reset => rfl

theorem SelectCall.placed (c : SelectCall ρ) : Placed c.sites c.effects := by
  cases c with
  | common call => exact call.placed
  | filter call => exact call.placed
  | having call => exact call.placed
  | table source => exact .inl source.sited
  | join kind source condition value =>
    have lead : Sited (Inline.sitesOf value) (.text kind :: .text condition :: Inline.effectsOf value) :=
      ((Inline.sitedOf value).cons (e := .text condition) rfl trivial).cons rfl trivial
    exact .inl (lead.append source.sited)
  | appendJoin text value => exact .inl ((Inline.sitedOf value).cons rfl trivial)
  | columns texts | groupBy texts | orderBy texts => exact .inr ⟨rfl, references_none (fun _ => rfl) texts⟩
  | columnsAs texts =>
    refine .inr ⟨rfl, ?_⟩
    rw [SelectCall.effects]
    induction texts with
    | nil => rfl
    | cons text rest ih => rw [List.flatMap_cons, Effect.references_append, ih]; rfl
  | _ => exact .inr ⟨rfl, rfl⟩

theorem InsertCall.placed (c : InsertCall ρ) : Placed c.sites c.effects := by
  cases c with
  | common call => exact call.placed
  | column call => exact .inr ⟨rfl, call.refers⟩
  | returning call => exact .inr ⟨rfl, call.refers⟩
  | table | reset => exact .inr ⟨rfl, rfl⟩

theorem UpdateCall.placed (c : UpdateCall ρ) : Placed c.sites c.effects := by
  cases c with
  | common call => exact call.placed
  | filter call => exact call.placed
  | column call => exact .inr ⟨rfl, call.refers⟩
  | returning call => exact .inr ⟨rfl, call.refers⟩
  | table | reset => exact .inr ⟨rfl, rfl⟩

theorem DeleteCall.placed (c : DeleteCall ρ) : Placed c.sites c.effects := by
  cases c with
  | common call => exact call.placed
  | filter call => exact call.placed
  | returning call => exact .inr ⟨rfl, call.refers⟩
  | table | reset => exact .inr ⟨rfl, rfl⟩

theorem Call.placed (c : Call ρ) : Placed c.sites c.effects := by
  cases c with
  | select call => exact call.placed
  | insert call => exact call.placed
  | update call => exact call.placed
  | delete call => exact call.placed

def Text.Within (part whole : String) : Prop := part.toList <:+: whole.toList

instance (part whole : String) : Decidable (Text.Within part whole) :=
  inferInstanceAs (Decidable (part.toList <:+: whole.toList))

open Text (Within)

namespace Text.Within

variable {part whole : String}

theorem refl (s : String) : Within s s := List.infix_refl _

theorem left (within : Within part whole) (t : String) : Within part (whole ++ t) := by
  rw [Within, String.toList_append]
  exact within.trans (List.prefix_append ..).isInfix

theorem right (s : String) (within : Within part whole) : Within part (s ++ whole) := by
  rw [Within, String.toList_append]
  exact within.trans (List.suffix_append ..).isInfix

end Text.Within

def FromClause.Shows (part : String) (c : FromClause) : Prop := ∃ e ∈ c.entries, e.Any (Within part)

def Conditions.Shows (part : String) (c : Conditions) : Prop := ∃ t ∈ c.fragments, Within part t

def With.Shows (part : String) (w : With) : Prop := ∃ x ∈ w.tables.entries, Within part x.2.body

def Clauses.Shows (part : String) (c : Clauses) : Prop :=
  c.tables.Shows part ∨ c.conditions.Shows part ∨ c.having.Shows part ∨ c.ctes.Shows part

namespace Registry

variable (r : Registry)

theorem inline_sites (value : Inline Embedded) : ∀ site ∈ value.sites, Within site.text (r.inline value).1 := by
  cases value with
  | scalar | list => exact fun _ member => absurd member List.not_mem_nil
  | statement e => exact List.forall_mem_singleton.mpr (.refl _)

theorem splice_sites (source : Source Embedded) :
    ∀ site ∈ source.sites, Within site.text (r.splice source).1 := by
  cases source with
  | text => exact fun _ member => absurd member List.not_mem_nil
  | statement e => exact List.forall_mem_singleton.mpr (.refl _)

theorem sites_of_isEmptyList {value : Inline Embedded} (empty : value.isEmptyList = true) : value.sites = [] := by
  cases value with
  | scalar | list => rfl
  | statement => cases empty

theorem extend_sites (fragment : String) (value : Option (Inline Embedded)) :
    ∀ site ∈ Inline.sitesOf value, Within site.text (r.extend fragment value).1 := by
  cases value with
  | none => exact fun _ member => absurd member List.not_mem_nil
  | some value =>
    intro site member
    by_cases empty : value.isEmptyList = true
    · rw [Inline.sitesOf, sites_of_isEmptyList empty] at member
      cases member
    · simp only [extend, empty]
      exact (r.inline_sites value site member).right fragment

theorem criterion_sites (c : Criterion Embedded) : ∀ site ∈ c.sites, Within site.text (r.criterion c).1 := by
  cases c with
  | raw => exact fun _ member => absurd member List.not_mem_nil
  | column name value =>
    cases value with
    | scalar | list => exact fun _ member => absurd member List.not_mem_nil
    | statement e => exact List.forall_mem_singleton.mpr ((Within.refl _).right _)

end Registry

theorem Conditions.add_shows {part fragment : String} {c : Conditions} {connective : Connective}
    (within : Within part fragment) : (c.add connective fragment).Shows part := by
  refine ⟨_, List.mem_append_right _ (List.mem_cons_self ..), ?_⟩
  split
  · exact within
  · exact within.right _

theorem BoundConditions.apply_shows (b : BoundConditions) (call : ConditionCall Embedded) :
    ∀ site ∈ call.sites, (b.apply call).conditions.Shows site.text := by
  intro site member
  cases call with
  | add connective fragment value => exact Conditions.add_shows (b.registry.extend_sites fragment value site member)
  | append text value =>
    exact lengthenLast_any (fun _ old => old.left _) (fun _ new => new.right _)
      (.inr (b.registry.extend_sites text value site member))
  | reset => cases member

theorem BoundConditions.addCriteria_grows_fragments (b : BoundConditions) (criteria : List (Criterion Embedded)) :
    b.conditions.fragments <+: (b.addCriteria criteria).conditions.fragments := by
  induction criteria generalizing b with
  | nil => exact List.prefix_rfl
  | cons c rest ih => exact (List.prefix_append ..).trans (ih (b.addCriterion c))

theorem BoundConditions.addCriteria_shows (b : BoundConditions) (criteria : List (Criterion Embedded)) :
    ∀ site ∈ criteria.flatMap Criterion.sites, (b.addCriteria criteria).conditions.Shows site.text := by
  induction criteria generalizing b with
  | nil => exact fun _ member => absurd member List.not_mem_nil
  | cons c rest ih =>
    intro site member
    rcases List.mem_append.mp member with here | later
    · have shown : (b.addCriterion c).conditions.Shows site.text :=
        Conditions.add_shows (b.registry.criterion_sites c site here)
      obtain ⟨t, there, within⟩ := shown
      exact ⟨t, ((b.addCriterion c).addCriteria_grows_fragments rest).subset there, within⟩
    · exact ih (b.addCriterion c) site later

theorem BoundWith.apply_shows (b : BoundWith) (call : WithCall Embedded) :
    ∀ site ∈ call.sites, (b.apply call).ctes.Shows site.text := by
  intro site member
  cases call with
  | define name columns body =>
    have stored : (b.apply (.define name columns body)).ctes.tables.get? name =
        some ⟨columns, (b.registry.splice body).1⟩ := by
      simp [apply, With.define, OrderedMap.get?_insert]
    exact ⟨_, OrderedMap.mem_of_get? stored, b.registry.splice_sites body site member⟩
  | recursive | reset => cases member

namespace Draft

variable (d : Draft)

theorem applyFilter_shows (call : FilterCall Embedded) :
    ∀ site ∈ call.sites, (d.applyFilter call).clauses.Shows site.text := by
  intro site member
  cases call with
  | paging => cases member
  | condition call =>
    exact .inr (.inl (BoundConditions.apply_shows ⟨d.clauses.conditions, d.registry⟩ call site member))
  | equals criteria =>
    exact .inr (.inl (BoundConditions.addCriteria_shows ⟨d.clauses.conditions, d.registry⟩ criteria site member))
  | ctes call =>
    exact .inr (.inr (.inr (BoundWith.apply_shows ⟨d.clauses.ctes, d.registry⟩ call site member)))

end Draft

theorem Join.text_shows {part table condition : String} (kind : String)
    (within : Within part table ∨ Within part condition) : Within part (text kind table condition) := by
  unfold text
  dsimp only
  split
  · rename_i blank
    rcases within with there | there
    · exact there.right _
    · have unconditional : condition = "" := by simpa using blank
      exact (unconditional ▸ there : Within part "").trans (List.nil_prefix.isInfix)
  · rcases within with there | there
    · exact ((there.right _).left _).left _
    · exact there.right _

namespace Select

variable (s : Select)

theorem addTable_shows (source : Source Embedded) :
    ∀ site ∈ source.sites, (s.addTable source).clauses.Shows site.text := fun site member =>
  .inl ⟨_, List.mem_append_right _ (List.mem_cons_self ..), .inl (s.registry.splice_sites source site member)⟩

theorem addJoin_shows_sites (kind : String) (source : Source Embedded) (condition : String)
    (value : Option (Inline Embedded)) : ∀ site ∈ Inline.sitesOf value ++ source.sites,
      (s.addJoin kind source condition value).clauses.Shows site.text := by
  intro site member
  refine .inl (FromClause.addJoin_any (.inr (Join.text_shows kind ?_)))
  rcases List.mem_append.mp member with here | there
  · exact .inr (s.registry.extend_sites _ value site here)
  · exact .inl (Registry.splice_sites _ source site there)

theorem appendJoin_shows (text : String) (value : Option (Inline Embedded)) :
    ∀ site ∈ Inline.sitesOf value, (s.appendJoin text value).clauses.Shows site.text := fun site member =>
  .inl (FromClause.append_any (fun _ old => old.left _) (fun _ new => new.right _)
    (.inr (s.registry.extend_sites text value site member)))

end Select

end SqlCompose
