import SqlCompose.Proofs.Reach
import SqlCompose.Proofs.Traversals

namespace SqlCompose

variable {ρ σ α β γ : Type}

section

variable (f : ρ → σ)

def Inline.mapOption (v : Option (Inline ρ)) : Option (Inline σ) := Inline.mapOptionM (m := Id) f v

def Source.map (s : Source ρ) : Source σ := s.mapM (m := Id) f

def Criterion.map (c : Criterion ρ) : Criterion σ := c.mapM (m := Id) f

def ConditionCall.map (c : ConditionCall ρ) : ConditionCall σ := c.mapM (m := Id) f

def WithCall.map (c : WithCall ρ) : WithCall σ := c.mapM (m := Id) f

def CommonCall.map (c : CommonCall ρ) : CommonCall σ := c.mapM (m := Id) f

def FilterCall.map (c : FilterCall ρ) : FilterCall σ := c.mapM (m := Id) f

def SelectCall.map (c : SelectCall ρ) : SelectCall σ := c.mapM (m := Id) f

def InsertCall.map (c : InsertCall ρ) : InsertCall σ := c.mapM (m := Id) f

def UpdateCall.map (c : UpdateCall ρ) : UpdateCall σ := c.mapM (m := Id) f

def DeleteCall.map (c : DeleteCall ρ) : DeleteCall σ := c.mapM (m := Id) f

def Call.map (c : Call ρ) : Call σ := c.mapM (m := Id) f

end

namespace Session

variable {s t next : Session}

def select? (s : Session) (name : String) : Option Select := (s.slots.get? name).bind (·.statement.select?)

-- The statement that a reference would be rendered to. A clone has the text and values of its source.
def referent (s : Session) : Reference → Embedded
  | .rendered e => e
  | .slot name | .cloneOf name => ((s.select? name).map Select.embedded).getD ⟨"", .empty⟩

structure LeftOf (s t : Session) : Prop where
  named : s.slots.keys.Nodup
  stood : ∀ name slot, s.slots.get? name = some slot → t.slots.get? name = some slot

theorem LeftOf.refl (named : s.slots.keys.Nodup) : s.LeftOf s := ⟨named, fun _ _ => id⟩

theorem LeftOf.remove (left : s.LeftOf t) (name : String) : (s.remove name).LeftOf t where
  named := OrderedMap.nodup_erase left.named
  stood other slot found := by
    refine left.stood other slot ?_
    have kept : (s.slots.erase name).get? other = some slot := found
    by_cases same : name = other
    · subst same
      rw [OrderedMap.get?_erase_self left.named] at kept
      cases kept
    · rwa [OrderedMap.get?_erase_of_ne _ same] at kept

def Resolves (t : Session) (x : Action α) (a : α) : Prop :=
  ∀ s result next, s.LeftOf t → x s = .ok (result, next) → result = a ∧ next.LeftOf t

theorem resolves_parallel (t : Session) : Parallel (m := Action) (n := Id) fun _ => t.Resolves where
  pure a := by
    intro s result next left ran
    cases ran
    exact ⟨rfl, left⟩
  bind first second := by
    intro s result next left ran
    obtain ⟨a, middle, there, later⟩ := bind_ok.mp ran
    obtain ⟨rfl, kept⟩ := first s a middle left there
    exact second a middle result next kept later

theorem render_resolves (t : Session) (ref : Reference) : t.Resolves (render ref) (t.referent ref) := by
  intro s e next left ran
  cases ref with
  | rendered =>
    cases ran
    exact ⟨rfl, left⟩
  | slot name =>
    obtain ⟨slot, sel, found, is, rfl, rfl⟩ := takeSelect_ok ran
    refine ⟨?_, left.remove name⟩
    simp [referent, select?, left.stood name slot found, is, Statement.select?]
  | cloneOf name =>
    obtain ⟨st, sel, found, clone, rfl, rfl⟩ := render_cloneOf_ok ran
    refine ⟨?_, left.named, left.stood⟩
    cases st with
    | select source =>
      cases clone
      simp only [referent, select?, left.stood name _ found, Option.bind, Slot.statement, Statement.select?]
      rfl
    | insert | update | delete => cases clone

end Session

theorem FilterCall.map_equals {ρ σ : Type} (f : ρ → σ) (criteria : List (Criterion ρ)) :
    (FilterCall.equals criteria).map f = .equals (criteria.map (·.map f)) :=
  congrArg FilterCall.equals (List.idRun_mapM (f := Criterion.mapM (m := Id) f))

theorem Call.mapM_resolves (t : Session) (c : Call Reference) :
    t.Resolves (c.mapM Session.render) (c.map t.referent) :=
  c.mapM_parallel t.resolves_parallel t.render_resolves

def Statement.answer (st : Statement) (call : Call Embedded) : Reply :=
  match call.inlined? with
  | some value => .text (st.registry.inline value).1
  | none => .silent

namespace Session

variable {s next : Session}

theorem named_of_run {start : Session} {commands : List Command} (empty : start.slots = .empty)
    (ran : run start commands = .ok s) : s.slots.keys.Nodup := by
  obtain ⟨h, runs, rfl⟩ := runs_of_run (h := .start start) ran
  exact (runs_shifts (start_named empty) runs).2

theorem call_ok {name : String} {call : Call Reference} {reply : Reply} (named : s.slots.keys.Nodup)
    (ran : step (.call name call) s = .ok (reply, next)) :
    ∃ (middle : Session) (slot : Slot) (st' : Statement), call.mapM render s = .ok (call.map s.referent, middle) ∧
      middle.LeftOf s ∧ s.slots.get? name = some slot ∧
      slot.statement.compose (call.map s.referent) = some st' ∧
      reply = slot.statement.answer (call.map s.referent) ∧
      next = middle.store name (slot.withStatement st') := by
  obtain ⟨d, middle, there, performed⟩ := bind_ok.mp ran
  obtain ⟨rfl, left⟩ := call.mapM_resolves s s d middle (.refl named) there
  obtain ⟨slot, st', found, composed, rfl⟩ := perform_ok performed
  have answered : reply = slot.statement.answer (call.map s.referent) := by
    simp only [perform, find, found, composed, bind, Except.bind, Except.ok.injEq, Prod.mk.injEq] at performed
    exact performed.1.symm
  exact ⟨middle, slot, st', there, left, left.stood name slot found, composed, answered, rfl⟩

end Session

end SqlCompose
