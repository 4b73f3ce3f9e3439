import SqlCompose.Proofs.Shifts

namespace SqlCompose

variable {usage : Usage}

theorem Runs.mono {wider : Usage} {start h : History} {commands : List Command}
    (counter : ∀ c, usage.counter c → wider.counter c) (brings : ∀ e, usage.brings e → wider.brings e)
    (hands : ∀ st e, usage.hands st e → wider.hands st e) (runs : Runs usage start commands h) :
    Runs wider start commands h := by
  induction runs with
  | nil => exact .nil
  | @snoc _ h c _ _ _ keeps taken ih =>
    refine ih.snoc ?_ taken
    cases c with
    | create name kind maker asQuery => exact fun f made => counter _ (keeps f made)
    | call name call =>
      exact ⟨fun st stands e member => hands st _ (keeps.1 st stands e member),
        fun e member => (keeps.2 e member).imp_right (brings e)⟩
    | _ => trivial

theorem Session.run_append (s : Session) (commands more : List Command) :
    run s (commands ++ more) = run s commands >>= fun s => run s more := by
  induction commands generalizing s with
  | nil => rfl
  | cons c rest ih =>
    simp only [List.cons_append, run, ih]
    cases step c s <;> rfl

theorem Runs.session {start h : History} {commands : List Command}
    (runs : Runs usage start commands h) : Session.run start.session commands = .ok h.session := by
  induction runs with
  | nil => rfl
  | @snoc _ h c _ _ _ _ taken ih =>
    have stepped := History.step_session c h
    rw [taken] at stepped
    simp only [Session.run_append, ih, bind, Except.bind, Session.run, ← stepped, Except.map]

theorem runs_shifts {start h : History} {commands : List Command} (named : start.Named)
    (runs : Runs usage start commands h) : Shifts usage start h ∧ h.Named := by
  induction runs with
  | nil => exact ⟨.refl, named⟩
  | snoc _ keeps taken ih =>
    obtain ⟨shifts, stays⟩ := History.step_shifts ih.2 keeps taken
    exact ⟨ih.1.trans shifts, stays⟩

def Reference.inside : Reference → Bool
  | .slot _ | .cloneOf _ => true
  | .rendered _ => false

-- A command that can be seen to keep to a usage: it brings no statement from outside.
def Command.Plain (counter : String → Prop) (hands : Statement → Effect Unit → Prop) (h : History) :
    Command → Prop
  | .create _ _ (.standalone _ name) _ => counter name
  | .create _ _ .current _ | .create _ _ .connection _ => False
  | .call name c =>
    (∀ st ∈ h.statement? name, ∀ e ∈ c.effects, hands st e.bare) ∧
      ∀ ref ∈ Effect.references c.effects, ref.inside = true
  | .useFactory _ | .subSelect .. | .clone .. | .unbind .. | .embed _ => True

def History.Ends (counter : String → Prop) (hands : Statement → Effect Unit → Prop) (P : History → Prop)
    (h : History) : List Command → Prop
  | [] => P h
  | c :: rest =>
    c.Plain counter hands h ∧
      match History.step c h with
      | .ok (_, next) => next.Ends counter hands P rest
      | .error _ => False

section

variable {counter : String → Prop} {hands : Statement → Effect Unit → Prop} {P : History → Prop}

instance [DecidablePred counter] [∀ st, DecidablePred (hands st)] (h : History) :
    DecidablePred (Command.Plain counter hands h)
  | .create _ _ (.standalone _ name) _ => inferInstanceAs (Decidable (counter name))
  | .create _ _ .current _ | .create _ _ .connection _ => inferInstanceAs (Decidable False)
  | .call name c =>
    inferInstanceAs (Decidable ((∀ st ∈ h.statement? name, ∀ e ∈ c.effects, hands st e.bare) ∧
      ∀ ref ∈ Effect.references c.effects, ref.inside = true))
  | .useFactory _ | .subSelect .. | .clone .. | .unbind .. | .embed _ =>
    inferInstanceAs (Decidable True)

instance decidableEnds [DecidablePred counter] [∀ st, DecidablePred (hands st)] [DecidablePred P]
    (h : History) : (commands : List Command) → Decidable (h.Ends counter hands P commands)
  | [] => inferInstanceAs (Decidable (P h))
  | c :: rest =>
    have : Decidable (match History.step c h with
        | .ok (_, next) => next.Ends counter hands P rest
        | .error _ => False) :=
      match History.step c h with
      | .ok (_, next) => decidableEnds next rest
      | .error _ => inferInstanceAs (Decidable False)
    inferInstanceAs (Decidable (_ ∧ _))

theorem Command.Plain.keeps {c : Command} {h : History} (plain : c.Plain counter hands h)
    (counters : ∀ name, counter name → usage.counter name)
    (hand : ∀ st e, hands st e → usage.hands st e) : usage.Keeps h c := by
  cases c with
  | create name kind maker asQuery =>
    cases maker with
    | standalone driver name =>
      intro f made
      have maker := Except.ok.inj made
      exact maker ▸ counters name plain
    | current => cases plain
    | connection => cases plain
  | call name call =>
    refine ⟨fun st stands e member => hand st _ (plain.1 st stands e member), fun e member => ?_⟩
    have inside := plain.2 _ (History.mem_references.mpr member)
    cases inside
  | _ => trivial

theorem Runs.cons {start middle h : History} {c : Command} {rest : List Command} {reply : Reply}
    (keeps : usage.Keeps start c) (taken : History.step c start = .ok (reply, middle))
    (later : Runs usage middle rest h) : Runs usage start (c :: rest) h := by
  induction later with
  | nil => exact .snoc .nil keeps taken
  | snoc _ keeps' taken' ih => exact .snoc ih keeps' taken'

theorem exists_run (counter : String → Prop) (hands : Statement → Effect Unit → Prop) {start : History}
    {commands : List Command} (ends : start.Ends counter hands P commands)
    (counters : ∀ name, counter name → usage.counter name)
    (hand : ∀ st e, hands st e → usage.hands st e) : ∃ h, Runs usage start commands h ∧ P h := by
  induction commands generalizing start with
  | nil => exact ⟨start, .nil, ends⟩
  | cons c rest ih =>
    obtain ⟨plain, ends⟩ := ends
    split at ends
    · rename_i next taken
      obtain ⟨h, runs, holds⟩ := ih ends
      exact ⟨h, .cons (plain.keeps counters hand) taken runs, holds⟩
    · cases ends

end

theorem start_named {s : Session} (empty : s.slots = .empty) : (History.start s).Named := by
  rw [History.Named, History.start, empty]
  exact List.nodup_nil

theorem start_statements {s : Session} (empty : s.slots = .empty) : (History.start s).statements = [] := by
  rw [History.statements, History.start, empty]
  rfl

-- What new statements have, and what clones and composing keep. It then holds of every statement of a run,
-- together with its counterpart for embedded statements.
structure Hereditary (usage : Usage) (S : Statement → Prop) (E : Embedded → Prop) : Prop where
  created : ∀ (f : Factory) kind ordinal, S (f.create kind ordinal)
  subSelect : ∀ (sel : Select) ordinal, S (.select (sel.subSelect ordinal))
  clone : ∀ st ordinal, S st → S (st.renumber ordinal)
  embedded : ∀ sel, S (.select sel) → E sel.embedded
  brought : ∀ e, usage.brings e → E e
  composed : ∀ st st' call, S st → (∀ e, .absorb e ∈ call.effects → E e) →
    (∀ e ∈ call.effects, usage.hands st e.bare) → st.compose call = some st' → S st'

namespace Hereditary

variable {S : Statement → Prop} {E : Embedded → Prop}

def Throughout (S : Statement → Prop) (E : Embedded → Prop) (h : History) : Prop :=
  (∀ st ∈ h.statements, S st) ∧ ∀ e ∈ h.held, E e

theorem Throughout.start {s : Session} (empty : s.slots = .empty) : Throughout S E (.start s) := by
  constructor
  · simp [start_statements empty]
  · simp [History.start]

theorem newborn {h : History} {st : Statement} (hereditary : Hereditary usage S E)
    (old : ∀ st ∈ h.statements, S st) (new : Newborn usage h st) : S st := by
  cases new with
  | created => exact hereditary.created _ _ _
  | subSelect => exact hereditary.subSelect _ _
  | clone stands => exact hereditary.clone _ _ (old _ stands)

theorem shift {h next : History} (hereditary : Hereditary usage S E) (old : Throughout S E h)
    (shift : Shift usage h next) : Throughout S E next := by
  obtain ⟨slots, held⟩ := old
  have holds {e : Embedded} (there : E e) (same : next.held = e :: h.held) : ∀ e ∈ next.held, E e := by
    rw [same]
    exact List.forall_mem_cons.mpr ⟨there, held⟩
  cases shift with
  | make st new sub _ _ same =>
    refine ⟨fun st' member => ?_, same ▸ held⟩
    rcases List.mem_cons.mp (sub.subset member) with rfl | stood
    · exact hereditary.newborn slots new
    · exact slots st' stood
  | renderClone sel new sub _ _ same =>
    exact ⟨fun st member => slots st (sub.subset member),
      holds (hereditary.embedded sel (hereditary.newborn slots new)) same⟩
  | render sel stands sub _ _ same =>
    exact ⟨fun st member => slots st (sub.subset member),
      holds (hereditary.embedded sel (slots _ stands)) same⟩
  | bring e allowed sub _ _ same =>
    exact ⟨fun st member => slots st (sub.subset member),
      holds (allowed.elim (held e) (hereditary.brought e)) same⟩
  | compose st st' rest call before after composed handed absorbed _ _ same =>
    refine ⟨fun other member => ?_, same ▸ held⟩
    rcases List.mem_cons.mp (after.mem_iff.mp member) with rfl | stood
    · exact hereditary.composed st _ call (slots st (before.mem_iff.mpr (List.mem_cons_self ..)))
        (fun e there => held e (absorbed e there)) handed composed
    · exact slots other (before.mem_iff.mpr (List.mem_cons_of_mem _ stood))
  | leave sub _ _ same =>
    exact ⟨fun st member => slots st (sub.subset member), same ▸ held⟩

theorem shifts {start h : History} (hereditary : Hereditary usage S E) (old : Throughout S E start)
    (path : Shifts usage start h) : Throughout S E h := by
  induction path with
  | refl => exact old
  | tail _ step ih => exact hereditary.shift ih step

theorem runs {start h : History} {commands : List Command} (hereditary : Hereditary usage S E)
    (named : start.Named) (old : Throughout S E start) (runs : Runs usage start commands h) :
    Throughout S E h :=
  hereditary.shifts old (runs_shifts named runs).1

end Hereditary

end SqlCompose
