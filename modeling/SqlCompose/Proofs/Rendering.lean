import Mathlib.Data.List.Forall2
import SqlCompose.Proofs.History

namespace SqlCompose

variable {α β : Type}

namespace Effect

def reference? {ρ : Type} : Effect ρ → Option ρ
  | .absorb s => some s
  | _ => none

def references {ρ : Type} (us : List (Effect ρ)) : List ρ := us.filterMap reference?

-- A piece before and after rendering: only a reference changes, and its statement was noted.
inductive Becomes (held : List Embedded) : Effect Reference → Effect Embedded → Prop where
  | text : Becomes held (.text s) (.text s)
  | column : Becomes held (.column name) (.column name)
  | table : Becomes held (.table name) (.table name)
  | bind : Becomes held (.bind key value type) (.bind key value type)
  | unbind : Becomes held (.unbind key) (.unbind key)
  | generate : Becomes held (.generate value type) (.generate value type)
  | absorb (noted : e ∈ held) : Becomes held (.absorb ref) (.absorb e)
  | handOut : Becomes held .handOut .handOut
  | clear : Becomes held .clear .clear
  | reset : Becomes held .reset .reset

theorem Becomes.mono {held more : List Embedded} (grows : held ⊆ more) {u : Effect Reference}
    {v : Effect Embedded} (becomes : Becomes held u v) : Becomes more u v := by
  cases becomes
  case absorb noted => exact .absorb (grows noted)
  all_goals constructor

theorem Becomes.bare {u : Effect Reference} {v : Effect Embedded} (becomes : Becomes held u v) :
    v.bare = u.bare := by
  cases becomes <;> rfl

theorem becomes_texts (held : List Embedded) (texts : List String) :
    List.Forall₂ (Becomes held) (texts.map .text) (texts.map .text) := by
  induction texts with
  | nil => exact .nil
  | cons t rest ih => exact .cons .text ih

theorem references_append {ρ : Type} (us vs : List (Effect ρ)) :
    references (us ++ vs) = references us ++ references vs := List.filterMap_append

theorem references_plain {us : List (Effect Reference)} {vs : List (Effect Embedded)}
    (plain : List.Forall₂ (Becomes []) us vs) : references us = [] := by
  induction plain with
  | nil => rfl
  | cons head _ ih =>
    cases head
    case absorb noted => cases noted
    all_goals exact ih

end Effect

open Effect (Becomes references)

inductive Renders : History → List Reference → History → Prop where
  | nil : Renders h [] h
  | cons (rendered : History.render ref h = .ok (e, middle)) (rest : Renders middle refs next) :
      Renders h (ref :: refs) next

theorem Renders.append (left : Renders h refs middle) (right : Renders middle more next) :
    Renders h (refs ++ more) next := by
  induction left with
  | nil => exact right
  | cons rendered _ ih => exact .cons rendered (ih right)

theorem render_held (rendered : History.render ref h = .ok (e, next)) : next.held = e :: h.held := by
  unfold History.render at rendered
  split at rendered
  · cases rendered
  · cases rendered; rfl

theorem Renders.held (renders : Renders h refs next) : h.held ⊆ next.held := by
  induction renders with
  | nil => exact fun _ member => member
  | cons rendered _ ih =>
    intro e member
    exact ih (by rw [render_held rendered]; exact List.mem_cons_of_mem _ member)

structure Rendered (us : List (Effect Reference)) (vs : List (Effect Embedded))
    (h next : History) : Prop where
  path : ∃ refs, Renders h refs next ∧ refs.Perm (references us)
  pieces : List.Forall₂ (Becomes next.held) us vs

theorem becomes_source {held : List Embedded} {us : List (Effect Reference)}
    {vs : List (Effect Embedded)} (pieces : List.Forall₂ (Becomes held) us vs) {v : Effect Embedded}
    (member : v ∈ vs) : ∃ u ∈ us, Becomes held u v := by
  induction pieces with
  | nil => cases member
  | cons head _ ih =>
    rcases List.mem_cons.mp member with rfl | later
    · exact ⟨_, List.mem_cons_self .., head⟩
    · obtain ⟨u, there, becomes⟩ := ih later
      exact ⟨u, List.mem_cons_of_mem _ there, becomes⟩

-- The rendering of some syntax goes the same way with and without history.
def Follows (us : List (Effect Reference)) (effects : α → List (Effect Embedded))
    (x : Recorded α) (y : Action α) : Prop :=
  ∀ h, match x h with
    | .error fault => y h.session = .error fault
    | .ok (a, next) => y h.session = .ok (a, next.session) ∧ Rendered us (effects a) h next

namespace Follows

variable {us ws zs : List (Effect Reference)}

theorem error {effects : α → List (Effect Embedded)} {x : Recorded α} {y : Action α}
    (follows : Follows us effects x y) {h : History} {fault : Fault} (failed : x h = .error fault) :
    y h.session = .error fault := by
  have := follows h
  rwa [failed] at this

theorem ok {effects : α → List (Effect Embedded)} {x : Recorded α} {y : Action α}
    (follows : Follows us effects x y) {h next : History} {a : α} (done : x h = .ok (a, next)) :
    y h.session = .ok (a, next.session) ∧ Rendered us (effects a) h next := by
  have := follows h
  rwa [done] at this

theorem pure {effects : α → List (Effect Embedded)} {a : α}
    (plain : List.Forall₂ (Becomes []) us (effects a)) :
    Follows us effects (Pure.pure a) (Pure.pure a) := by
  intro h
  refine ⟨rfl, ⟨[], .nil, ?_⟩, plain.imp fun _ _ => Becomes.mono (List.nil_subset _)⟩
  rw [Effect.references_plain plain]

theorem both {first : α → List (Effect Embedded)} {second : β → List (Effect Embedded)}
    {γ : Type} {whole : γ → List (Effect Embedded)} {f : α → β → γ}
    {x : Recorded α} {y : Action α} {k : Recorded β} {l : Action β}
    (left : Follows us first x y) (right : Follows ws second k l)
    (joined : ∀ held a b, List.Forall₂ (Becomes held) us (first a) →
      List.Forall₂ (Becomes held) ws (second b) → List.Forall₂ (Becomes held) zs (whole (f a b)))
    (perm : (references us ++ references ws).Perm (references zs)) :
    Follows zs whole (do let a ← x; let b ← k; Pure.pure (f a b))
      (do let a ← y; let b ← l; Pure.pure (f a b)) := by
  intro h
  cases ran : x h with
  | error fault =>
    have failed := left.error ran
    simp [bind, StateT.bind, Except.bind, ran, failed]
  | ok result =>
    obtain ⟨a, middle⟩ := result
    obtain ⟨same, ⟨refs, path, permLeft⟩, pieces⟩ := left.ok ran
    cases ran' : k middle with
    | error fault =>
      have failed := right.error ran'
      simp [bind, StateT.bind, Except.bind, ran, ran', same, failed]
    | ok result =>
      obtain ⟨b, next⟩ := result
      obtain ⟨same', ⟨more, path', permRight⟩, pieces'⟩ := right.ok ran'
      have grown := pieces.imp fun _ _ => Becomes.mono path'.held
      have rendered : Rendered zs (whole (f a b)) h next :=
        ⟨⟨refs ++ more, path.append path', (permLeft.append permRight).trans perm⟩,
          joined _ _ _ grown pieces'⟩
      simp only [bind, StateT.bind, Except.bind, ran, ran', same, same']
      exact ⟨rfl, rendered⟩

theorem map {effects : α → List (Effect Embedded)} {whole : β → List (Effect Embedded)} {f : α → β}
    {x : Recorded α} {y : Action α} (follows : Follows us effects x y)
    (pre : List (Effect Reference)) (post : List (Effect Embedded))
    (plain : List.Forall₂ (Becomes []) pre post) (same : ∀ a, whole (f a) = post ++ effects a) :
    Follows (pre ++ us) whole (f <$> x) (f <$> y) := by
  intro h
  cases ran : x h with
  | error fault =>
    have failed := follows.error ran
    simp [Functor.map, StateT.map, bind, Except.bind, ran, failed]
  | ok result =>
    obtain ⟨a, next⟩ := result
    obtain ⟨there, ⟨refs, path, perm⟩, pieces⟩ := follows.ok ran
    have front := plain.imp fun _ _ => Becomes.mono (List.nil_subset next.held)
    have rendered : Rendered (pre ++ us) (whole (f a)) h next := by
      refine ⟨⟨refs, path, ?_⟩, ?_⟩
      · rwa [Effect.references_append, Effect.references_plain plain]
      · rw [same]; exact List.rel_append front pieces
    simpa [Functor.map, StateT.map, bind, Except.bind, Pure.pure, Except.pure, ran, there] using rendered

theorem map_same {effects : α → List (Effect Embedded)} {whole : β → List (Effect Embedded)}
    {f : α → β} {x : Recorded α} {y : Action α} (follows : Follows us effects x y)
    (same : ∀ a, whole (f a) = effects a) : Follows us whole (f <$> x) (f <$> y) :=
  follows.map [] [] .nil same

theorem map_text {effects : α → List (Effect Embedded)} {whole : β → List (Effect Embedded)}
    {f : α → β} {x : Recorded α} {y : Action α} (text : String) (follows : Follows us effects x y)
    (same : ∀ a, whole (f a) = .text text :: effects a) :
    Follows (.text text :: us) whole (f <$> x) (f <$> y) :=
  follows.map [.text text] [.text text] (.cons .text .nil) same

end Follows

theorem render_follows (ref : Reference) :
    Follows [.absorb ref] (fun e => [.absorb e]) (History.render ref) (Session.render ref) := by
  intro h
  cases ran : Session.render ref h.session with
  | error fault => simp [History.render, ran]
  | ok result =>
    obtain ⟨e, s⟩ := result
    have rendered : History.render ref h = .ok (e, ⟨s, h.clonedFor ref ++ h.past, e :: h.held⟩) := by
      simp [History.render, ran]
    rw [rendered]
    exact ⟨rfl, ⟨[ref], .cons rendered .nil, .refl _⟩, .cons (.absorb (List.mem_cons_self ..)) .nil⟩

open History (render)

theorem Inline.mapM_follows (value : Inline Reference) :
    Follows value.effects Inline.effects (value.mapM render) (value.mapM Session.render) := by
  cases value with
  | scalar v type => exact .pure (.cons .generate .nil)
  | list vs type =>
    refine .pure ?_
    induction vs with
    | nil => exact .nil
    | cons v rest ih => exact .cons .generate ih
  | statement ref => exact (render_follows ref).map_same fun _ => rfl

theorem Inline.mapOptionM_follows (value : Option (Inline Reference)) :
    Follows (Inline.effectsOf value) Inline.effectsOf (Inline.mapOptionM render value)
      (Inline.mapOptionM Session.render value) := by
  cases value with
  | none => exact .pure .nil
  | some value => exact value.mapM_follows.map_same fun _ => rfl

theorem Source.mapM_follows (source : Source Reference) :
    Follows source.effects Source.effects (source.mapM render) (source.mapM Session.render) := by
  cases source with
  | text sql => exact .pure (.cons .text .nil)
  | statement ref => exact (render_follows ref).map_same fun _ => rfl

theorem Criterion.mapM_follows (c : Criterion Reference) :
    Follows c.effects Criterion.effects (c.mapM render) (c.mapM Session.render) := by
  cases c with
  | raw fragment => exact .pure (.cons .text .nil)
  | column name value =>
    cases value with
    | scalar v type =>
      refine Follows.pure ?_
      cases v
      case null => exact .cons .text .nil
      all_goals exact .cons .text (.cons .generate .nil)
    | list vs type =>
      refine Follows.pure (.cons .text ?_)
      induction vs with
      | nil => exact .nil
      | cons v rest ih => exact .cons .generate ih
    | statement ref =>
      simp only [Criterion.mapM, Inline.mapM, ← comp_map]
      exact (render_follows ref).map_text name fun _ => rfl

theorem ConditionCall.mapM_follows (call : ConditionCall Reference) :
    Follows call.effects ConditionCall.effects (call.mapM render) (call.mapM Session.render) := by
  cases call with
  | add connective fragment value =>
    exact (Inline.mapOptionM_follows value).map_text fragment fun _ => rfl
  | append text value => exact (Inline.mapOptionM_follows value).map_text text fun _ => rfl
  | reset => exact .pure (.cons .clear .nil)

theorem WithCall.mapM_follows (call : WithCall Reference) :
    Follows call.effects WithCall.effects (call.mapM render) (call.mapM Session.render) := by
  cases call with
  | define name columns body =>
    exact body.mapM_follows.map (.table name :: columns.map .text) (.table name :: columns.map .text)
      (.cons .table (Effect.becomes_texts [] columns)) fun _ => rfl
  | recursive on => exact .pure .nil
  | reset => exact .pure (.cons .clear .nil)

theorem FlagCall.effects_plain (call : FlagCall) :
    List.Forall₂ (Becomes []) call.effects call.effects := by
  cases call with
  | set name on => exact .cons .text .nil
  | reset => exact .nil

theorem CommonCall.mapM_follows (call : CommonCall Reference) :
    Follows call.effects CommonCall.effects (call.mapM render) (call.mapM Session.render) := by
  cases call with
  | bind key value type => exact .pure (.cons .bind .nil)
  | bindAll entries =>
    refine .pure ?_
    induction entries with
    | nil => exact .nil
    | cons e rest ih => exact .cons .bind ih
  | inline value =>
    exact value.mapM_follows.map [.handOut] [.handOut] (.cons .handOut .nil) fun _ => rfl
  | flag call => exact .pure call.effects_plain

theorem Criterion.mapM_list_follows (criteria : List (Criterion Reference)) :
    Follows (criteria.flatMap Criterion.effects) (List.flatMap Criterion.effects)
      (criteria.mapM (Criterion.mapM render)) (criteria.mapM (Criterion.mapM Session.render)) := by
  induction criteria with
  | nil => exact .pure .nil
  | cons c rest ih =>
    rw [List.mapM_cons, List.mapM_cons]
    refine c.mapM_follows.both ih (fun held a b first second => ?_) ?_
    · simpa using List.rel_append first second
    · rw [List.flatMap_cons, Effect.references_append]

theorem FilterCall.mapM_follows (call : FilterCall Reference) :
    Follows call.effects FilterCall.effects (call.mapM render) (call.mapM Session.render) := by
  cases call with
  | paging call => exact .pure .nil
  | condition call => exact call.mapM_follows.map_same fun _ => rfl
  | equals criteria => exact (Criterion.mapM_list_follows criteria).map_same fun _ => rfl
  | ctes call => exact call.mapM_follows.map_same fun _ => rfl

theorem ReturningCall.effects_plain (call : ReturningCall) :
    List.Forall₂ (Becomes []) call.effects call.effects := by
  cases call with
  | add columns => exact Effect.becomes_texts [] columns
  | reset => exact .nil

theorem Column.effects_plain (column : Column) :
    List.Forall₂ (Becomes []) column.effects column.effects := by
  cases column with
  | name column => exact .cons .column .nil
  | value column v => exact .cons .column (.cons .bind .nil)

theorem ColumnCall.effects_plain (call : ColumnCall) :
    List.Forall₂ (Becomes []) call.effects call.effects := by
  cases call with
  | assign column value =>
    cases value with
    | none => exact .cons .column .nil
    | some value => exact .cons .column (.cons .bind .nil)
  | assignMany columns =>
    induction columns with
    | nil => exact .nil
    | cons c rest ih => exact List.rel_append c.effects_plain ih
  | literal column text => exact .cons .column (.cons .text (.cons .unbind .nil))
  | reset => exact .nil

theorem SelectCall.mapM_follows (call : SelectCall Reference) :
    Follows call.effects SelectCall.effects (call.mapM render) (call.mapM Session.render) := by
  cases call with
  | common call => exact call.mapM_follows.map_same fun _ => rfl
  | filter call => exact call.mapM_follows.map_same fun _ => rfl
  | having call => exact call.mapM_follows.map_same fun _ => rfl
  | columns texts => exact .pure (Effect.becomes_texts [] texts)
  | columnsAs texts =>
    refine .pure ?_
    induction texts with
    | nil => exact .nil
    | cons t rest ih => exact .cons .text (.cons .text ih)
  | table source => exact source.mapM_follows.map_same fun _ => rfl
  | join kind source condition value =>
    -- The table is rendered first, but the value takes effect before it.
    refine source.mapM_follows.both (Inline.mapOptionM_follows value)
      (fun held table bound first second => ?_) ?_
    · exact .cons .text (.cons .text (List.rel_append second first))
    · have split : references (SelectCall.join kind source condition value).effects =
          references (Inline.effectsOf value) ++ references source.effects :=
        Effect.references_append (Inline.effectsOf value) source.effects
      rw [split]
      exact List.perm_append_comm
  | appendJoin text value => exact (Inline.mapOptionM_follows value).map_text text fun _ => rfl
  | resetTables => exact .pure (.cons .clear .nil)
  | groupBy texts => exact .pure (Effect.becomes_texts [] texts)
  | orderBy texts => exact .pure (Effect.becomes_texts [] texts)
  | setAlias name => exact .pure (.cons .text .nil)
  | reset => exact .pure (.cons .reset .nil)
  | _ => exact .pure .nil

theorem InsertCall.mapM_follows (call : InsertCall Reference) :
    Follows call.effects InsertCall.effects (call.mapM render) (call.mapM Session.render) := by
  cases call with
  | common call => exact call.mapM_follows.map_same fun _ => rfl
  | column call => exact .pure call.effects_plain
  | returning call => exact .pure call.effects_plain
  | table name => exact .pure (.cons .text .nil)
  | reset => exact .pure (.cons .reset .nil)

theorem UpdateCall.mapM_follows (call : UpdateCall Reference) :
    Follows call.effects UpdateCall.effects (call.mapM render) (call.mapM Session.render) := by
  cases call with
  | common call => exact call.mapM_follows.map_same fun _ => rfl
  | filter call => exact call.mapM_follows.map_same fun _ => rfl
  | column call => exact .pure call.effects_plain
  | returning call => exact .pure call.effects_plain
  | table name => exact .pure (.cons .text .nil)
  | reset => exact .pure (.cons .reset .nil)

theorem DeleteCall.mapM_follows (call : DeleteCall Reference) :
    Follows call.effects DeleteCall.effects (call.mapM render) (call.mapM Session.render) := by
  cases call with
  | common call => exact call.mapM_follows.map_same fun _ => rfl
  | filter call => exact call.mapM_follows.map_same fun _ => rfl
  | returning call => exact .pure call.effects_plain
  | table name => exact .pure (.cons .text .nil)
  | reset => exact .pure (.cons .reset .nil)

theorem Call.mapM_follows (call : Call Reference) :
    Follows call.effects Call.effects (call.mapM render) (call.mapM Session.render) := by
  cases call with
  | select call => exact call.mapM_follows.map_same fun _ => rfl
  | insert call => exact call.mapM_follows.map_same fun _ => rfl
  | update call => exact call.mapM_follows.map_same fun _ => rfl
  | delete call => exact call.mapM_follows.map_same fun _ => rfl

end SqlCompose
