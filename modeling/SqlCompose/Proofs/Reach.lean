import SqlCompose.Proofs.Runs

namespace SqlCompose

def Statement.select? : Statement → Option Select
  | .select s => some s
  | _ => none

namespace Session

def statements (s : Session) : List Statement := s.slots.values.map Slot.statement

def selects (s : Session) : List Select := s.statements.filterMap Statement.select?

theorem mem_selects {s : Session} {sel : Select} : sel ∈ s.selects ↔ .select sel ∈ s.statements := by
  rw [selects, List.mem_filterMap]
  constructor
  · rintro ⟨st, stands, is⟩
    cases st <;> cases is
    exact stands
  · exact fun stands => ⟨_, stands, rfl⟩

def Reaches (s : Session) (commands : List Command) (P : Session → Prop) : Prop :=
  match run s commands with
  | .ok next => P next
  | .error _ => False

instance {s : Session} {commands : List Command} {P : Session → Prop} [DecidablePred P] :
    Decidable (Reaches s commands P) :=
  have : Decidable (match run s commands with
      | .ok next => P next
      | .error _ => False) :=
    match run s commands with
    | .ok next => inferInstanceAs (Decidable (P next))
    | .error _ => inferInstanceAs (Decidable False)
  inferInstanceAs (Decidable (match run s commands with
    | .ok next => P next
    | .error _ => False))

theorem Reaches.exists {s : Session} {commands : List Command} {P : Session → Prop}
    (reaches : Reaches s commands P) : ∃ next, run s commands = .ok next ∧ P next := by
  unfold Reaches at reaches
  split at reaches
  · exact ⟨_, ‹_›, reaches⟩
  · cases reaches

end Session

def Usage.free : Usage where
  counter _ := True
  brings _ := True
  hands _ _ := True

theorem runs_of_run {h : History} {commands : List Command} {next : Session}
    (ran : Session.run h.session commands = .ok next) :
    ∃ h', Runs .free h commands h' ∧ h'.session = next := by
  induction commands generalizing h with
  | nil =>
    cases ran
    exact ⟨h, .nil, rfl⟩
  | cons c rest ih =>
    have stepped := History.step_session c h
    cases taken : History.step c h with
    | error fault =>
      rw [taken] at stepped
      simp [Session.run, ← stepped, Except.map, bind, Except.bind] at ran
    | ok result =>
      obtain ⟨reply, middle⟩ := result
      rw [taken] at stepped
      have later : Session.run middle.session rest = .ok next := by
        simpa [Session.run, ← stepped, Except.map, bind, Except.bind] using ran
      obtain ⟨h', runs, is⟩ := ih later
      have keeps : Usage.free.Keeps h c := by
        cases c with
        | create => exact fun _ _ => trivial
        | call => exact ⟨fun _ _ _ _ => trivial, fun _ _ => .inr trivial⟩
        | _ => trivial
      exact ⟨h', .cons keeps taken runs, is⟩

-- What new statements have, and what clones and composing keep, holds of every statement reached.
theorem Hereditary.reached {S : Statement → Prop} {E : Embedded → Prop} {s next : Session}
    {commands : List Command} (hereditary : Hereditary .free S E) (empty : s.slots = .empty)
    (ran : Session.run s commands = .ok next) : ∀ st ∈ next.statements, S st := by
  obtain ⟨h, runs, rfl⟩ := runs_of_run (h := .start s) ran
  exact (hereditary.runs (start_named empty) (.start empty) runs).1

end SqlCompose
