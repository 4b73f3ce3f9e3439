import SqlCompose.Statement.Reference

namespace SqlCompose

variable {m n : Type → Type} [Monad m] [Monad n] [LawfulMonad m] [LawfulMonad n] {ρ σ α β : Type}

-- A relation between actions that holds where both only return a result, and is kept as actions follow each other.
structure Parallel (R : (α : Type) → m α → n α → Prop) : Prop where
  pure : ∀ {α : Type} (a : α), R _ (pure a) (pure a)
  bind : ∀ {α β : Type} {x : m α} {y : n α} {f : α → m β} {g : α → n β}, R _ x y → (∀ a, R _ (f a) (g a)) →
    R _ (x >>= f) (y >>= g)

variable {R : (α : Type) → m α → n α → Prop}

theorem Parallel.map (parallel : Parallel R) {x : m α} {y : n α} (related : R _ x y) (f : α → β) :
    R _ (f <$> x) (f <$> y) := by
  rw [← bind_pure_comp, ← bind_pure_comp]
  exact parallel.bind related fun a => parallel.pure (f a)

section

variable {f : ρ → m σ} {g : ρ → n σ} (parallel : Parallel R) (each : ∀ ref, R _ (f ref) (g ref))

include parallel each

theorem Inline.mapM_parallel (value : Inline ρ) : R _ (value.mapM f) (value.mapM g) := by
  cases value with
  | scalar | list => exact parallel.pure _
  | statement ref => exact parallel.map (each ref) _

theorem Inline.mapOptionM_parallel (value : Option (Inline ρ)) :
    R _ (Inline.mapOptionM f value) (Inline.mapOptionM g value) := by
  cases value with
  | none => exact parallel.pure _
  | some value => exact parallel.map (value.mapM_parallel parallel each) _

theorem Source.mapM_parallel (source : Source ρ) : R _ (source.mapM f) (source.mapM g) := by
  cases source with
  | text => exact parallel.pure _
  | statement ref => exact parallel.map (each ref) _

theorem Criterion.mapM_parallel (c : Criterion ρ) : R _ (c.mapM f) (c.mapM g) := by
  cases c with
  | raw => exact parallel.pure _
  | column _ value => exact parallel.map (value.mapM_parallel parallel each) _

theorem Criterion.mapM_list_parallel (criteria : List (Criterion ρ)) :
    R _ (criteria.mapM (Criterion.mapM f)) (criteria.mapM (Criterion.mapM g)) := by
  induction criteria with
  | nil => exact parallel.pure _
  | cons c rest ih =>
    rw [List.mapM_cons, List.mapM_cons]
    exact parallel.bind (c.mapM_parallel parallel each) fun _ => parallel.bind ih fun _ => parallel.pure _

theorem ConditionCall.mapM_parallel (call : ConditionCall ρ) : R _ (call.mapM f) (call.mapM g) := by
  cases call with
  | add _ _ value => exact parallel.map (Inline.mapOptionM_parallel parallel each value) _
  | append _ value => exact parallel.map (Inline.mapOptionM_parallel parallel each value) _
  | reset => exact parallel.pure _

theorem WithCall.mapM_parallel (call : WithCall ρ) : R _ (call.mapM f) (call.mapM g) := by
  cases call with
  | define _ _ body => exact parallel.map (body.mapM_parallel parallel each) _
  | recursive | reset => exact parallel.pure _

theorem CommonCall.mapM_parallel (call : CommonCall ρ) : R _ (call.mapM f) (call.mapM g) := by
  cases call with
  | inline value => exact parallel.map (value.mapM_parallel parallel each) _
  | bind | bindAll | flag => exact parallel.pure _

theorem FilterCall.mapM_parallel (call : FilterCall ρ) : R _ (call.mapM f) (call.mapM g) := by
  cases call with
  | paging => exact parallel.pure _
  | condition call => exact parallel.map (call.mapM_parallel parallel each) _
  | equals criteria => exact parallel.map (Criterion.mapM_list_parallel parallel each criteria) _
  | ctes call => exact parallel.map (call.mapM_parallel parallel each) _

theorem SelectCall.mapM_parallel (call : SelectCall ρ) : R _ (call.mapM f) (call.mapM g) := by
  cases call with
  | common call => exact parallel.map (call.mapM_parallel parallel each) _
  | filter call => exact parallel.map (call.mapM_parallel parallel each) _
  | having call => exact parallel.map (call.mapM_parallel parallel each) _
  | table source => exact parallel.map (source.mapM_parallel parallel each) _
  | join _ source _ value =>
    exact parallel.bind (source.mapM_parallel parallel each) fun _ =>
      parallel.bind (Inline.mapOptionM_parallel parallel each value) fun _ => parallel.pure _
  | appendJoin _ value => exact parallel.map (Inline.mapOptionM_parallel parallel each value) _
  | _ => exact parallel.pure _

theorem InsertCall.mapM_parallel (call : InsertCall ρ) : R _ (call.mapM f) (call.mapM g) := by
  cases call with
  | common call => exact parallel.map (call.mapM_parallel parallel each) _
  | _ => exact parallel.pure _

theorem UpdateCall.mapM_parallel (call : UpdateCall ρ) : R _ (call.mapM f) (call.mapM g) := by
  cases call with
  | common call => exact parallel.map (call.mapM_parallel parallel each) _
  | filter call => exact parallel.map (call.mapM_parallel parallel each) _
  | _ => exact parallel.pure _

theorem DeleteCall.mapM_parallel (call : DeleteCall ρ) : R _ (call.mapM f) (call.mapM g) := by
  cases call with
  | common call => exact parallel.map (call.mapM_parallel parallel each) _
  | filter call => exact parallel.map (call.mapM_parallel parallel each) _
  | _ => exact parallel.pure _

theorem Call.mapM_parallel (call : Call ρ) : R _ (call.mapM f) (call.mapM g) := by
  cases call with
  | select call => exact parallel.map (call.mapM_parallel parallel each) _
  | insert call => exact parallel.map (call.mapM_parallel parallel each) _
  | update call => exact parallel.map (call.mapM_parallel parallel each) _
  | delete call => exact parallel.map (call.mapM_parallel parallel each) _

end

end SqlCompose
