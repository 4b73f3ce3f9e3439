import Mathlib.Data.List.Perm.Subperm
import Mathlib.Logic.Relation
import SqlCompose.Proofs.Maps
import SqlCompose.Proofs.Rendering

namespace SqlCompose

variable {usage : Usage}

theorem History.step_session (c : Command) (h : History) :
    (History.step c h).map (fun result => (result.1, result.2.session)) = Session.step c h.session := by
  cases c with
  | call name call =>
    cases ran : call.mapM History.render h with
    | error fault =>
      have failed := call.mapM_follows.error ran
      simp [History.step, Session.step, bind, StateT.bind, Except.bind, ran, failed, Except.map]
    | ok result =>
      obtain ⟨d, middle⟩ := result
      have there := (call.mapM_follows.ok ran).1
      simp only [History.step, Session.step, bind, StateT.bind, Except.bind, ran, there]
      cases performed : Session.perform name d middle.session <;>
        simp [History.perform, performed, Except.map]
  | _ =>
    simp only [History.step]
    cases stepped : Session.step _ h.session <;> simp [Except.map, History.after]

-- A statement that is about to draw an ordinal, and has it already.
inductive Newborn (usage : Usage) (h : History) : Statement → Prop where
  | created {f : Factory} (onCounter : usage.counter f.counter) :
      Newborn usage h (f.create kind (h.session.drawFrom f.counter).1)
  | subSelect {sel : Select} (stands : .select sel ∈ h.statements) :
      Newborn usage h (.select (sel.subSelect (h.session.drawFrom sel.registry.counter).1))
  | clone (stands : st ∈ h.statements) :
      Newborn usage h (st.renumber (h.session.drawFrom st.registry.counter).1)

def History.drawn (h : History) (st : Statement) : Counters :=
  (h.session.counters.draw st.registry.counter).2

-- Each shift makes a statement, renders one, composes one, or leaves all of them
-- alone; one command is a chain of them.
inductive Shift (usage : Usage) (h next : History) : Prop where
  | make (st : Statement) (new : Newborn usage h st) (slots : next.statements.Subperm (st :: h.statements))
      (counters : next.session.counters = h.drawn st)
      (past : next.past = .registered st.registry.ordinal :: h.past) (held : next.held = h.held)
  | renderClone (sel : Select) (new : Newborn usage h (.select sel))
      (slots : next.statements.Subperm h.statements) (counters : next.session.counters = h.drawn (.select sel))
      (past : next.past = .registered sel.registry.ordinal :: h.past)
      (held : next.held = sel.embedded :: h.held)
  | render (sel : Select) (stands : .select sel ∈ h.statements) (slots : next.statements.Subperm h.statements)
      (counters : next.session.counters = h.session.counters) (past : next.past = h.past)
      (held : next.held = sel.embedded :: h.held)
  | bring (e : Embedded) (allowed : e ∈ h.held ∨ usage.brings e)
      (slots : next.statements.Subperm h.statements)
      (counters : next.session.counters = h.session.counters) (past : next.past = h.past)
      (held : next.held = e :: h.held)
  | compose (st st' : Statement) (rest : List Statement) (call : Call Embedded)
      (before : h.statements.Perm (st :: rest)) (after : next.statements.Perm (st' :: rest))
      (composed : st.compose call = some st')
      (handed : ∀ e ∈ call.effects, usage.hands st e.bare)
      (absorbed : ∀ e, .absorb e ∈ call.effects → e ∈ h.held)
      (counters : next.session.counters = h.session.counters)
      (past : next.past = st.registry.recount
        (rest.map Statement.values ++ h.held.map Embedded.binds) h.past call.effects)
      (held : next.held = h.held)
  | leave (slots : next.statements.Subperm h.statements)
      (counters : next.session.counters = h.session.counters) (past : next.past = h.past)
      (held : next.held = h.held)

abbrev Shifts (usage : Usage) : History → History → Prop := Relation.ReflTransGen (Shift usage)

namespace Session

variable {s next : Session}

theorem bind_ok {α β : Type} {x : Action α} {f : α → Action β} {b : β} :
    (x >>= f) s = .ok (b, next) ↔ ∃ a middle, x s = .ok (a, middle) ∧ f a middle = .ok (b, next) := by
  cases there : x s with
  | error fault => simp [bind, StateT.bind, Except.bind, there]
  | ok result =>
    obtain ⟨a, middle⟩ := result
    simp [bind, StateT.bind, Except.bind, there]

theorem store_statements (s : Session) (name : String) (slot : Slot) :
    ((s.store name slot).slots.values.map Slot.statement).Perm
      (slot.statement :: (s.slots.erase name).values.map Slot.statement) :=
  (OrderedMap.perm_put name slot s.slots.entries).map Slot.statement

theorem erase_statements (s : Session) (name : String) :
    ((s.slots.erase name).values.map Slot.statement).Sublist (s.slots.values.map Slot.statement) :=
  ((OrderedMap.drop_sublist name s.slots.entries).map Prod.snd).map Slot.statement

theorem found_statements {name : String} {slot : Slot} (found : s.slots.get? name = some slot) :
    (s.slots.values.map Slot.statement).Perm
      (slot.statement :: (s.slots.erase name).values.map Slot.statement) :=
  (OrderedMap.perm_drop found).map Slot.statement

theorem find_ok {name : String} {slot : Slot} (found : s.find name = .ok slot) :
    s.slots.get? name = some slot := by
  unfold find at found
  split at found
  · cases found; assumption
  · cases found

theorem takeSelect_ok {name : String} {e : Embedded} (taken : takeSelect name s = .ok (e, next)) :
    ∃ slot sel, s.slots.get? name = some slot ∧ slot.statement = .select sel ∧ e = sel.embedded ∧
      next = s.remove name := by
  unfold takeSelect at taken
  split at taken
  · cases taken
  · rename_i slot found
    split at taken
    · rename_i sel is
      cases taken
      exact ⟨slot, sel, find_ok found, is, rfl, rfl⟩
    · cases taken

theorem cloneStatement_ok {name : String} {st' : Statement}
    (cloned : cloneStatement name s = .ok (st', next)) :
    ∃ st, s.slots.get? name = some (.plain st) ∧
      st' = st.renumber (s.drawFrom st.registry.counter).1 ∧
      next = (s.drawFrom st.registry.counter).2 := by
  unfold cloneStatement at cloned
  split at cloned
  · cases cloned
  · cases cloned
  · rename_i st found
    cases cloned
    exact ⟨st, find_ok found, rfl, rfl⟩

theorem create_ok {name : String} {kind : StatementKind} {maker : Maker} {asQuery : Bool}
    (created : create name kind maker asQuery s = .ok ((), next)) :
    ∃ f slot, s.makerFactory maker = .ok f ∧
      slot.statement = f.create kind (s.drawFrom f.counter).1 ∧
      next = (s.drawFrom f.counter).2.store name slot := by
  unfold create at created
  cases made : s.makerFactory maker with
  | error fault => simp [made, bind, Except.bind] at created
  | ok f =>
    simp only [made, bind, Except.bind, Except.ok.injEq, Prod.mk.injEq, true_and] at created
    exact ⟨f, _, rfl, by cases asQuery <;> rfl, created.symm⟩

theorem subSelect_ok {parent name : String} (made : subSelect parent name s = .ok ((), next)) :
    ∃ slot sel, s.slots.get? parent = some slot ∧ slot.statement = .select sel ∧
      next = (s.drawFrom sel.registry.counter).2.store name
        (.plain (.select (sel.subSelect (s.drawFrom sel.registry.counter).1))) := by
  unfold subSelect at made
  cases found : s.find parent with
  | error fault => simp [found, bind, Except.bind] at made
  | ok slot =>
    simp only [found, bind, Except.bind] at made
    split at made
    · rename_i sel is
      simp only [Except.ok.injEq, Prod.mk.injEq, true_and] at made
      exact ⟨slot, sel, find_ok found, is, made.symm⟩
    · cases made

theorem perform_ok {name : String} {call : Call Embedded} {reply : Reply}
    (performed : perform name call s = .ok (reply, next)) :
    ∃ slot st', s.slots.get? name = some slot ∧ slot.statement.compose call = some st' ∧
      next = s.store name (slot.withStatement st') := by
  unfold perform at performed
  cases found : s.find name with
  | error fault => simp [found, bind, Except.bind] at performed
  | ok slot =>
    simp only [found, bind, Except.bind] at performed
    split at performed
    · rename_i st' composed
      simp only [Except.ok.injEq, Prod.mk.injEq] at performed
      exact ⟨slot, st', find_ok found, composed, performed.2.symm⟩
    · cases performed

theorem render_cloneOf_ok {name : String} {e : Embedded}
    (rendered : render (.cloneOf name) s = .ok (e, next)) :
    ∃ st sel, s.slots.get? name = some (.plain st) ∧
      st.renumber (s.drawFrom st.registry.counter).1 = .select sel ∧ e = sel.embedded ∧
      next = (s.drawFrom st.registry.counter).2 := by
  obtain ⟨st', middle, cloned, later⟩ := bind_ok.mp rendered
  obtain ⟨st, found, clone, rest⟩ := cloneStatement_ok cloned
  cases st' with
  | select sel =>
    cases later
    exact ⟨st, sel, found, clone.symm, rfl, rest⟩
  | insert | update | delete => cases later

theorem silent_ok {x : Action Unit} {s s' : Session} {reply : Reply}
    (ran : (do x; pure Reply.silent : Action Reply) s = .ok (reply, s')) :
    x s = .ok ((), s') ∧ reply = .silent := by
  obtain ⟨_, _, there, later⟩ := bind_ok.mp ran
  cases later
  exact ⟨there, rfl⟩

theorem clone_ok {source name : String} {s s' : Session} {reply : Reply}
    (ran : step (.clone source name) s = .ok (reply, s')) :
    ∃ st, s.slots.get? source = some (.plain st) ∧ reply = .silent ∧
      s' = (s.drawFrom st.registry.counter).2.store name
        (.plain (st.renumber (s.drawFrom st.registry.counter).1)) := by
  obtain ⟨st', middle, cloned, stored⟩ := bind_ok.mp ran
  obtain ⟨st, found, rfl, rfl⟩ := cloneStatement_ok cloned
  cases stored
  exact ⟨st, found, rfl, rfl⟩

theorem clone_of_found {source : String} (name : String) {s : Session} {st : Statement}
    (found : s.slots.get? source = some (.plain st)) :
    step (.clone source name) s = .ok (.silent, (s.drawFrom st.registry.counter).2.store name
      (.plain (st.renumber (s.drawFrom st.registry.counter).1))) := by
  simp only [step, cloneStatement, find, found, bind, StateT.bind, Except.bind]
  rfl

theorem unbind_ok {source name : String} {s s' : Session} {reply : Reply}
    (ran : step (.unbind source name) s = .ok (reply, s')) :
    ∃ st, s.slots.get? source = some (.query st) ∧ reply = .silent ∧
      s' = (s.remove source).store name (.plain st) := by
  cases found : s.find source with
  | error fault => simp [step, bind, Except.bind, found] at ran
  | ok slot =>
    cases slot with
    | plain st => simp [step, bind, Except.bind, found] at ran
    | query st =>
      simp only [step, bind, Except.bind, found, Except.ok.injEq, Prod.mk.injEq] at ran
      exact ⟨st, find_ok found, ran.1.symm, ran.2.symm⟩

theorem embed_ok {name : String} {s s' : Session} {reply : Reply}
    (ran : step (.embed name) s = .ok (reply, s')) :
    ∃ slot sel, s.slots.get? name = some slot ∧ slot.statement = .select sel ∧
      reply = .embedded sel.embedded ∧ s' = s.remove name := by
  cases taken : takeSelect name s with
  | error fault =>
    simp [step, Functor.map, StateT.map, bind, Except.bind, taken] at ran
  | ok result =>
    obtain ⟨e, middle⟩ := result
    obtain ⟨slot, sel, found, is, rfl, rfl⟩ := takeSelect_ok taken
    simp only [step, Functor.map, StateT.map, bind, Except.bind, taken, pure, Except.pure,
      Except.ok.injEq, Prod.mk.injEq] at ran
    exact ⟨slot, sel, found, is, ran.1.symm, ran.2.symm⟩

inductive Changes (s : Session) : Command → Reply → Session → Prop where
  | create {f : Factory} {slot : Slot} (made : s.makerFactory maker = .ok f)
      (is : slot.statement = f.create kind (s.drawFrom f.counter).1) :
      Changes s (.create name kind maker asQuery) .silent ((s.drawFrom f.counter).2.store name slot)
  | useFactory : Changes s (.useFactory f) .silent { s with factory := some f }
  | subSelect {sel : Select} (found : s.slots.get? parent = some slot) (is : slot.statement = .select sel) :
      Changes s (.subSelect parent name) .silent ((s.drawFrom sel.registry.counter).2.store name
        (.plain (.select (sel.subSelect (s.drawFrom sel.registry.counter).1))))
  | clone {st : Statement} (found : s.slots.get? source = some (.plain st)) :
      Changes s (.clone source name) .silent ((s.drawFrom st.registry.counter).2.store name
        (.plain (st.renumber (s.drawFrom st.registry.counter).1)))
  | unbind {st : Statement} (found : s.slots.get? source = some (.query st)) :
      Changes s (.unbind source name) .silent ((s.remove source).store name (.plain st))
  | embed {sel : Select} (found : s.slots.get? name = some slot) (is : slot.statement = .select sel) :
      Changes s (.embed name) (.embedded sel.embedded) (s.remove name)

theorem changes_of_step {c : Command} {reply : Reply} (other : ∀ name call, c ≠ .call name call)
    (ran : step c s = .ok (reply, next)) : Changes s c reply next := by
  cases c with
  | call name call => exact absurd rfl (other name call)
  | create name kind maker asQuery =>
    obtain ⟨created, rfl⟩ := silent_ok ran
    obtain ⟨f, slot, made, is, rfl⟩ := create_ok created
    exact .create made is
  | useFactory f =>
    cases ran
    exact .useFactory
  | subSelect parent name =>
    obtain ⟨made, rfl⟩ := silent_ok ran
    obtain ⟨slot, sel, found, is, rfl⟩ := subSelect_ok made
    exact .subSelect found is
  | clone source name =>
    obtain ⟨st, found, rfl, rfl⟩ := clone_ok ran
    exact .clone found
  | unbind source name =>
    obtain ⟨st, found, rfl, rfl⟩ := unbind_ok ran
    exact .unbind found
  | embed name =>
    obtain ⟨slot, sel, found, is, rfl, rfl⟩ := embed_ok ran
    exact .embed found is

end Session

theorem Factory.create_registry (f : Factory) (kind : StatementKind) (ordinal : UInt64) :
    (f.create kind ordinal).registry = { counter := f.counter, ordinal := ordinal } := by
  cases kind <;> rfl

theorem Factory.create_values (f : Factory) (kind : StatementKind) (ordinal : UInt64) :
    (f.create kind ordinal).values = .empty := by
  rw [Statement.values, create_registry]

theorem Statement.renumber_registry (st : Statement) (ordinal : UInt64) :
    (st.renumber ordinal).registry = st.registry.renumber ordinal := by
  cases st <;> rfl

theorem Statement.renumber_values (st : Statement) (ordinal : UInt64) :
    (st.renumber ordinal).values = st.values := by
  rw [values, renumber_registry]
  rfl

namespace History

variable {h next : History}

theorem found_member {name : String} {slot : Slot} (found : h.session.slots.get? name = some slot) :
    slot.statement ∈ h.statements :=
  (Session.found_statements found).mem_iff.mpr (List.mem_cons_self ..)

theorem statement?_member {name : String} {st : Statement} (found : h.statement? name = some st) :
    st ∈ h.statements := by
  obtain ⟨slot, stands, rfl⟩ := Option.map_eq_some_iff.mp found
  exact found_member stands

theorem newborn_ordinal {st : Statement} (new : Newborn usage h st) :
    st.registry.ordinal = (h.session.drawFrom st.registry.counter).1 := by
  cases new with
  | created => simp [Factory.create_registry]
  | subSelect => rfl
  | clone => simp [Statement.renumber_registry, Registry.renumber]

theorem render_shift {ref : Reference} {e : Embedded} (rendered : render ref h = .ok (e, next))
    (allowed : ∀ e, ref = .rendered e → e ∈ h.held ∨ usage.brings e) : Shift usage h next := by
  unfold render at rendered
  split at rendered
  · cases rendered
  · rename_i e' s ran
    cases rendered
    cases ref with
    | rendered e' =>
      cases ran
      exact .bring e (allowed e rfl) (List.Subperm.refl _) rfl rfl rfl
    | slot name =>
      obtain ⟨slot, sel, found, is, rfl, rfl⟩ := Session.takeSelect_ok ran
      have stands := found_member found
      rw [is] at stands
      exact .render sel stands (Session.erase_statements _ _).subperm rfl rfl rfl
    | cloneOf name =>
      obtain ⟨st, sel, found, clone, rfl, rfl⟩ := Session.render_cloneOf_ok ran
      have new : Newborn usage h (.select sel) := clone ▸ .clone (found_member found)
      have counter : (Statement.select sel).registry.counter = st.registry.counter := by
        rw [← clone, Statement.renumber_registry]; rfl
      have ordinal : sel.registry.ordinal = (h.session.drawFrom st.registry.counter).1 := by
        rw [← counter]; exact newborn_ordinal new
      refine .renderClone sel new (List.Subperm.refl _) ?_ ?_ rfl
      · simp [drawn, counter, Session.drawFrom]
      · simp [clonedFor, statement?, found, Slot.statement, ordinal]

theorem renders_shifts {refs : List Reference} (path : Renders h refs next)
    (allowed : ∀ e, .rendered e ∈ refs → e ∈ h.held ∨ usage.brings e) : Shifts usage h next := by
  induction path with
  | nil => exact .refl
  | cons rendered _ ih =>
    have first : Shift usage _ _ :=
      render_shift rendered fun e same => allowed e (same ▸ List.mem_cons_self ..)
    refine .head first (ih fun e member => ?_)
    rw [render_held rendered]
    exact (allowed e (List.mem_cons_of_mem _ member)).imp_left (List.mem_cons_of_mem _)

def Named (h : History) : Prop := h.session.slots.keys.Nodup

theorem render_slots {ref : Reference} {e : Embedded} (rendered : render ref h = .ok (e, next)) :
    next.session.slots = h.session.slots ∨
      ∃ other, ref = .slot other ∧ next.session.slots = h.session.slots.erase other := by
  unfold render at rendered
  split at rendered
  · cases rendered
  · rename_i ran
    cases rendered
    cases ref with
    | rendered => cases ran; exact .inl rfl
    | slot other =>
      obtain ⟨_, _, _, _, _, rfl⟩ := Session.takeSelect_ok ran
      exact .inr ⟨other, rfl, rfl⟩
    | cloneOf =>
      obtain ⟨_, _, _, _, _, rfl⟩ := Session.render_cloneOf_ok ran
      exact .inl rfl

-- Rendering takes statements out of their slots, so what still stands stood there before.
theorem renders_statement {refs : List Reference} (path : Renders h refs next) (named : Named h) :
    Named next ∧ ∀ name st, next.statement? name = some st → h.statement? name = some st := by
  induction path with
  | nil => exact ⟨named, fun _ _ => id⟩
  | cons rendered _ ih =>
    rcases render_slots rendered with same | ⟨other, _, erased⟩
    · obtain ⟨stays, back⟩ := ih (by rwa [Named, same])
      exact ⟨stays, fun name st found => by simpa [statement?, same] using back name st found⟩
    · obtain ⟨stays, back⟩ := ih (by rw [Named, erased]; exact OrderedMap.nodup_erase named)
      refine ⟨stays, fun name st found => ?_⟩
      have stood := back name st found
      rw [statement?, erased] at stood
      by_cases same : other = name
      · subst same
        simp [OrderedMap.get?_erase_self named] at stood
      · rwa [OrderedMap.get?_erase_of_ne _ same] at stood

theorem perform_parts {name : String} {call : Call Embedded} {reply : Reply}
    (performed : perform name call h = .ok (reply, next)) :
    ∃ slot st', h.session.slots.get? name = some slot ∧
      slot.statement.compose call = some st' ∧
      next = ⟨h.session.store name (slot.withStatement st'),
        slot.statement.registry.recount (h.elsewhere name) h.past call.effects, h.held⟩ := by
  unfold perform at performed
  split at performed
  · cases performed
  · rename_i ran
    cases performed
    obtain ⟨slot, st', found, composed, rfl⟩ := Session.perform_ok ran
    exact ⟨slot, st', found, composed, by simp [statement?, found]⟩

theorem withStatement_statement (slot : Slot) (st : Statement) :
    (slot.withStatement st).statement = st := by cases slot <;> rfl

inductive Steps (h : History) : Command → Reply → History → Prop where
  | call {d : Call Embedded} {middle : History} {slot : Slot} {st' : Statement}
      (rendered : Rendered call.effects d.effects h middle)
      (stood : middle.session.slots.get? name = some slot)
      (composed : slot.statement.compose d = some st') :
      Steps h (.call name call) reply ⟨middle.session.store name (slot.withStatement st'),
        slot.statement.registry.recount (middle.elsewhere name) middle.past d.effects, middle.held⟩
  | other {s : Session} (changes : h.session.Changes c reply s) : Steps h c reply (h.after c reply s)

theorem steps_of_step {c : Command} {reply : Reply} (taken : step c h = .ok (reply, next)) :
    Steps h c reply next := by
  cases c with
  | call name call =>
    cases ran : call.mapM render h with
    | error fault => simp [step, bind, StateT.bind, Except.bind, ran] at taken
    | ok result =>
      obtain ⟨d, middle⟩ := result
      have performed : perform name d middle = .ok (reply, next) := by
        simpa [step, bind, StateT.bind, Except.bind, ran] using taken
      obtain ⟨slot, st', stood, composed, rfl⟩ := perform_parts performed
      exact .call (call.mapM_follows.ok ran).2 stood composed
  | _ =>
    simp only [step] at taken
    split at taken
    · cases taken
    · rename_i ran
      cases taken
      exact .other (Session.changes_of_step (by simp) ran)

theorem mem_references {ρ : Type} {us : List (Effect ρ)} {ref : ρ} :
    ref ∈ Effect.references us ↔ .absorb ref ∈ us := by
  constructor
  · intro member
    obtain ⟨u, there, same⟩ := List.mem_filterMap.mp member
    cases u <;> cases same
    exact there
  · exact fun there => List.mem_filterMap.mpr ⟨_, there, rfl⟩

theorem call_shifts {name : String} {call : Call Reference} {d : Call Embedded} {middle : History}
    {slot : Slot} {st' : Statement} (named : Named h) (keeps : usage.Keeps h (.call name call))
    (rendered : Rendered call.effects d.effects h middle)
    (stood : middle.session.slots.get? name = some slot)
    (composed : slot.statement.compose d = some st') :
    Shifts usage h ⟨middle.session.store name (slot.withStatement st'),
      slot.statement.registry.recount (middle.elsewhere name) middle.past d.effects, middle.held⟩ := by
  obtain ⟨handed, brought⟩ := keeps
  obtain ⟨⟨refs, path, perm⟩, pieces⟩ := rendered
  have rendering : Shifts usage h middle :=
    renders_shifts path fun e member => brought e (mem_references.mp (perm.mem_iff.mp member))
  have standing : middle.statement? name = some slot.statement := by simp [statement?, stood]
  have before := (renders_statement path named).2 name _ standing
  refine rendering.tail (.compose slot.statement st' _ d (Session.found_statements stood) ?_ composed
    (fun v member => ?_) (fun e member => ?_) rfl rfl rfl)
  · simpa [statements, withStatement_statement] using
      Session.store_statements middle.session name (slot.withStatement st')
  · obtain ⟨u, there, becomes⟩ := becomes_source pieces member
    rw [becomes.bare]
    exact handed _ before u there
  · obtain ⟨u, _, becomes⟩ := becomes_source pieces member
    cases becomes
    assumption

theorem after_made {name : String} {c : Command} (made : madeBy c = some name) (h : History)
    (reply : Reply) (s : Session) (slot : Slot) :
    (h.after c reply (s.store name slot)).past =
      .registered slot.statement.registry.ordinal :: h.past := by
  simp [after, made, Session.store, OrderedMap.get?_insert]

theorem make_shift {name : String} {slot : Slot} {st : Statement} {counter : String} {c : Command}
    (new : Newborn usage h st) (is : slot.statement = st) (drawsFrom : st.registry.counter = counter)
    (made : madeBy c = some name) :
    Shift usage h (h.after c .silent ((h.session.drawFrom counter).2.store name slot)) := by
  subst is drawsFrom
  refine .make slot.statement new ?_ rfl (after_made made h _ _ slot) rfl
  exact (Session.store_statements _ name slot).subperm.trans
    ((List.subperm_cons _).mpr (Session.erase_statements _ name).subperm)

theorem step_shifts {c : Command} {reply : Reply} (named : Named h) (keeps : usage.Keeps h c)
    (taken : step c h = .ok (reply, next)) : Shifts usage h next ∧ Named next := by
  cases steps_of_step taken with
  | call rendered stood composed =>
    obtain ⟨refs, path, _⟩ := rendered.path
    exact ⟨call_shifts named keeps rendered stood composed,
      OrderedMap.nodup_insert (renders_statement path named).1⟩
  | other changes =>
    cases changes with
    | @create _ kind _ _ f _ made is =>
      have new : Newborn usage h (f.create kind (h.session.drawFrom f.counter).1) :=
        .created (keeps f made)
      exact ⟨.single (make_shift new is (by rw [Factory.create_registry]) rfl),
        OrderedMap.nodup_insert named⟩
    | useFactory => exact ⟨.single (.leave (List.Subperm.refl _) rfl rfl rfl), named⟩
    | subSelect found is =>
      have stands := is ▸ found_member found
      exact ⟨.single (make_shift (.subSelect stands) rfl rfl rfl), OrderedMap.nodup_insert named⟩
    | clone found =>
      have drawsFrom (st : Statement) (ordinal : UInt64) :
          (st.renumber ordinal).registry.counter = st.registry.counter := by
        rw [Statement.renumber_registry]
        rfl
      exact ⟨.single (make_shift (.clone (found_member found)) rfl (drawsFrom _ _) rfl),
        OrderedMap.nodup_insert named⟩
    | @unbind source name st found =>
      refine ⟨.single (.leave ?_ rfl rfl rfl), OrderedMap.nodup_insert (OrderedMap.nodup_erase named)⟩
      -- The statement leaves one slot for another, whose own statement goes.
      exact ((Session.store_statements _ name (.plain st)).subperm.trans
        ((List.subperm_cons _).mpr (Session.erase_statements (h.session.remove source) name).subperm)).trans
        (Session.found_statements found).symm.subperm
    | embed found is =>
      have stands := is ▸ found_member found
      exact ⟨.single (.render _ stands (Session.erase_statements _ _).subperm rfl rfl rfl),
        OrderedMap.nodup_erase named⟩

end History

end SqlCompose
