import SqlCompose.Proofs.Embedding
import SqlCompose.Proofs.Referents
import SqlCompose.Proofs.Restart

namespace SqlCompose

variable {ρ : Type}

def ColumnCall.literal? : ColumnCall → Option String
  | .literal column _ => some column
  | _ => none

def Call.literal? : Call ρ → Option String
  | .insert (.column call) | .update (.column call) => call.literal?
  | _ => none

namespace Registry

variable (r : Registry)

def generates : Effect Embedded → List Key
  | .generate .. => [r.nextKey]
  | _ => []

def generatesAll (r : Registry) : List (Effect Embedded) → List Key
  | [] => []
  | e :: rest => r.generates e ++ (r.carry e).generatesAll rest

-- Where a key that a call stores under comes from: the caller names it, the registry generates it, or a
-- statement that the call takes in holds it.
inductive Sources (es : List (Effect Embedded)) (key : String) : Prop where
  | given (named : .bind key value type ∈ es)
  | generated (handed : k ∈ r.generatesAll es) (is : key = k.text)
  | absorbed (taken : .absorb e ∈ es) (held : key ∈ e.binds.keys)

variable {r} {es : List (Effect Embedded)} {e : Effect Embedded} {key : String}

theorem Sources.later (sources : (r.carry e).Sources es key) : r.Sources (e :: es) key := by
  cases sources with
  | given named => exact .given (List.mem_cons_of_mem _ named)
  | generated handed is => exact .generated (List.mem_append_right _ handed) is
  | absorbed taken held => exact .absorbed (List.mem_cons_of_mem _ taken) held

theorem sources_of_stores (stored : key ∈ r.stores e) : r.Sources (e :: es) key := by
  cases e with
  | bind name value type =>
    cases List.mem_singleton.mp stored
    exact .given (List.mem_cons_self ..)
  | generate value type => exact .generated (List.mem_cons_self ..) (List.mem_singleton.mp stored)
  | absorb e => exact .absorbed (List.mem_cons_self ..) stored
  | _ => cases stored

theorem sources_of_storesAll (stored : key ∈ r.storesAll es) : r.Sources es key := by
  induction es generalizing r with
  | nil => cases stored
  | cons e rest ih =>
    rcases List.mem_append.mp stored with here | later
    · exact sources_of_stores here
    · exact (ih later).later

end Registry

theorem Inline.effects_additive (value : Option (Inline ρ)) : ∀ e ∈ effectsOf value, e.Additive :=
  fun e member => ((sitedOf value).splice e member).additive

theorem Source.effects_additive (source : Source ρ) : ∀ e ∈ source.effects, e.Additive :=
  fun e member => (source.sited.splice e member).additive

theorem texts_additive (texts : List String) : ∀ e ∈ texts.map (Effect.text (ρ := ρ)), e.Additive :=
  List.forall_mem_map.mpr fun _ _ => trivial

theorem ConditionCall.effects_additive (c : ConditionCall ρ) : ∀ e ∈ c.effects, e.Additive := by
  cases c with
  | add _ _ value => exact List.forall_mem_cons.mpr ⟨trivial, Inline.effects_additive value⟩
  | append _ value => exact List.forall_mem_cons.mpr ⟨trivial, Inline.effects_additive value⟩
  | reset => exact List.forall_mem_singleton.mpr trivial

theorem WithCall.effects_additive (c : WithCall ρ) : ∀ e ∈ c.effects, e.Additive := by
  cases c with
  | define name columns body =>
    refine List.forall_mem_cons.mpr ⟨trivial, ?_⟩
    exact List.forall_mem_append.mpr ⟨texts_additive columns, body.effects_additive⟩
  | recursive => exact List.forall_mem_nil _
  | reset => exact List.forall_mem_singleton.mpr trivial

theorem CommonCall.effects_additive (c : CommonCall ρ) : ∀ e ∈ c.effects, e.Additive := by
  cases c with
  | bind => exact List.forall_mem_singleton.mpr trivial
  | bindAll entries => exact List.forall_mem_map.mpr fun _ _ => trivial
  | inline value => exact List.forall_mem_cons.mpr ⟨trivial, Inline.effects_additive (some value)⟩
  | flag call =>
    cases call with
    | set => exact List.forall_mem_singleton.mpr trivial
    | reset => exact List.forall_mem_nil _

theorem FilterCall.effects_additive (c : FilterCall ρ) : ∀ e ∈ c.effects, e.Additive := by
  cases c with
  | paging => exact List.forall_mem_nil _
  | condition call => exact call.effects_additive
  | equals criteria => exact fun e member => ((Criterion.sited_list criteria).splice e member).additive
  | ctes call => exact call.effects_additive

theorem ReturningCall.effects_additive (c : ReturningCall) : ∀ e ∈ c.effects (ρ := ρ), e.Additive := by
  cases c with
  | add columns => exact texts_additive columns
  | reset => exact List.forall_mem_nil _

theorem ColumnCall.effects_additive {c : ColumnCall} (spared : c.literal? = none) :
    ∀ e ∈ c.effects (ρ := ρ), e.Additive := by
  have column (c : Column) : ∀ e ∈ c.effects (ρ := ρ), e.Additive := by
    cases c <;> simp [Column.effects, Effect.Additive]
  cases c with
  | assign column value => cases value <;> simp [effects, Effect.Additive]
  | assignMany columns => exact List.forall_mem_flatMap.mpr fun c _ => column c
  | literal => cases spared
  | reset => exact List.forall_mem_nil _

theorem SelectCall.effects_additive {c : SelectCall ρ} (goes : c ≠ .reset) : ∀ e ∈ c.effects, e.Additive := by
  cases c with
  | common call => exact call.effects_additive
  | filter call => exact call.effects_additive
  | having call => exact call.effects_additive
  | columns texts | groupBy texts | orderBy texts => exact texts_additive texts
  | columnsAs texts =>
    refine List.forall_mem_flatMap.mpr fun _ _ => ?_
    exact List.forall_mem_cons.mpr ⟨trivial, List.forall_mem_singleton.mpr trivial⟩
  | table source => exact source.effects_additive
  | join kind source condition value =>
    have first := List.forall_mem_append.mpr ⟨Inline.effects_additive value, source.effects_additive⟩
    exact List.forall_mem_cons.mpr ⟨trivial, List.forall_mem_cons.mpr ⟨trivial, first⟩⟩
  | appendJoin text value => exact List.forall_mem_cons.mpr ⟨trivial, Inline.effects_additive value⟩
  | resetTables | setAlias => exact List.forall_mem_singleton.mpr trivial
  | reset => exact absurd rfl goes
  | _ => exact List.forall_mem_nil _

theorem Call.effects_additive {c : Call ρ} (goes : c ≠ .reset c.kind) (spared : c.literal? = none) :
    ∀ e ∈ c.effects, e.Additive := by
  cases c with
  | select call => exact SelectCall.effects_additive fun is => goes (congrArg Call.select is)
  | insert call =>
    cases call with
    | common call => exact call.effects_additive
    | column call => exact ColumnCall.effects_additive spared
    | returning call => exact call.effects_additive
    | table => exact List.forall_mem_singleton.mpr trivial
    | reset => exact absurd rfl goes
  | update call =>
    cases call with
    | common call => exact call.effects_additive
    | filter call => exact call.effects_additive
    | column call => exact ColumnCall.effects_additive spared
    | returning call => exact call.effects_additive
    | table => exact List.forall_mem_singleton.mpr trivial
    | reset => exact absurd rfl goes
  | delete call =>
    cases call with
    | common call => exact call.effects_additive
    | filter call => exact call.effects_additive
    | returning call => exact call.effects_additive
    | table => exact List.forall_mem_singleton.mpr trivial
    | reset => exact absurd rfl goes

theorem Call.carry_literal {c : Call Embedded} {column : String} (literal : c.literal? = some column) (r : Registry) :
    r.carryAll c.effects = r.unbind column := by
  have carried {c : ColumnCall} (literal : c.literal? = some column) : r.carryAll c.effects = r.unbind column := by
    cases c with
    | literal name text =>
      cases literal
      rfl
    | assign | assignMany | reset => cases literal
  cases c with
  | select | delete => cases literal
  | insert call | update call =>
    cases call with
    | column call => exact carried literal
    | _ => cases literal

namespace Statement

structure Grows (st : Statement) (call : Call Embedded) (next : Statement) : Prop where
  order : st.values.keys <+: next.values.keys
  sources : ∀ key, next.values.get? key ≠ st.values.get? key → st.registry.Sources call.effects key

structure Sheds (st : Statement) (column : String) (next : Statement) : Prop where
  order : next.values.keys = st.values.keys.erase column
  gone : column ∉ next.values.keys
  kept : ∀ key, key ≠ column → next.values.get? key = st.values.get? key

variable {st next : Statement} {call : Call Embedded}

theorem compose_grows (composed : st.compose call = some next) (additive : ∀ e ∈ call.effects, e.Additive) :
    st.Grows call next := by
  have extends' := st.registry.carryAll_extends additive
  rw [← compose_registry composed] at extends'
  refine ⟨extends'.order, fun key changed => ?_⟩
  exact Registry.sources_of_storesAll (by_contra fun absent => changed (extends'.kept key absent))

theorem compose_sheds {column : String} (composed : st.compose call = some next) (once : st.values.keys.Nodup)
    (literal : call.literal? = some column) : st.Sheds column next := by
  have values : next.values = st.values.erase column := by
    rw [compose_values composed, call.carry_literal literal]
    rfl
  have order : next.values.keys = st.values.keys.erase column := by rw [values, OrderedMap.keys_erase]
  refine ⟨order, order ▸ once.not_mem_erase, fun key other => ?_⟩
  rw [values, OrderedMap.get?_erase_of_ne _ other.symm]

end Statement

namespace Session

variable {s next : Session}

-- How the statement under a name came there by one command: it stood there, and maybe was called, or it was made
-- with nothing bound, or it is a copy of another or that statement itself.
inductive Yields (s : Session) (name : String) : Command → Statement → Prop where
  | stood (found : s.slots.get? name = some slot) : Yields s name c slot.statement
  | called (found : s.slots.get? name = some slot)
      (composed : slot.statement.compose (call.map s.referent) = some st) : Yields s name (.call name call) st
  | created (bare : st.values = .empty) : Yields s name (.create name kind maker asQuery) st
  | subSelected (bare : st.values = .empty) : Yields s name (.subSelect parent name) st
  | cloned (found : s.slots.get? source = some (.plain st)) (copy : st'.values = st.values) :
      Yields s name (.clone source name) st'
  | moved (found : s.slots.get? source = some (.query st)) : Yields s name (.unbind source name) st

theorem step_yields {c : Command} {reply : Reply} {name : String} {slot : Slot} (named : s.slots.keys.Nodup)
    (ran : step c s = .ok (reply, next)) (found : next.slots.get? name = some slot) :
    s.Yields name c slot.statement := by
  have stored {t : Session} {other : String} {new : Slot} (left : t.LeftOf s)
      (found : (t.slots.insert other new).get? name = some slot)
      (yields : other = name → s.Yields name c new.statement) : s.Yields name c slot.statement := by
    rw [OrderedMap.get?_insert] at found
    split at found
    · cases found
      exact yields ‹_›
    · exact .stood (left.stood name slot found)
  have still : s.LeftOf s := .refl named
  by_cases call : ∃ other d, c = .call other d
  · obtain ⟨other, d, rfl⟩ := call
    obtain ⟨middle, old, st', _, left, stood, composed, _, rfl⟩ := call_ok named ran
    refine stored left found fun same => ?_
    subst same
    rw [History.withStatement_statement]
    exact .called stood composed
  · cases changes_of_step (fun other d is => call ⟨other, d, is⟩) ran with
    | create made is =>
      refine stored still found fun same => ?_
      subst same
      exact .created (by rw [is, Factory.create_values])
    | useFactory => exact .stood found
    | subSelect =>
      refine stored still found fun same => ?_
      subst same
      exact .subSelected rfl
    | clone stood =>
      refine stored still found fun same => ?_
      subst same
      exact .cloned stood (Statement.renumber_values ..)
    | @unbind source _ _ stood =>
      refine stored (still.remove source) found fun same => ?_
      subst same
      exact .moved stood
    | embed => exact .stood ((still.remove _).stood name slot found)

end Session

-- A call binds new keys after those that were bound and gives a value to no key but those it brings; a literal takes
-- its column away and nothing else; and a command reaches the statements that stand in no other way.
theorem bindings_only_grow {start s : Session} {commands : List Command} (empty : start.slots = .empty)
    (ran : Session.run start commands = .ok s) :
    (∀ st ∈ s.statements, ∀ call : Call Embedded, call.kind = st.kind → ∃ next, st.compose call = some next ∧
      (call ≠ .reset st.kind → call.literal? = none → st.Grows call next) ∧
      ∀ column, call.literal? = some column → st.Sheds column next) ∧
    ∀ c reply next, Session.step c s = .ok (reply, next) → ∀ name slot, next.slots.get? name = some slot →
      s.Yields name c slot.statement := by
  refine ⟨fun st stands call kind => ?_, fun c reply next stepped name slot found => ?_⟩
  · obtain ⟨next, composed⟩ := Option.isSome_iff_exists.mp ((st.compose_isSome call).mpr kind.symm)
    refine ⟨next, composed, fun goes spared => ?_, fun column literal => ?_⟩
    · exact Statement.compose_grows composed (Call.effects_additive (kind ▸ goes) spared)
    · exact Statement.compose_sheds composed (valuesOnce_hereditary.reached empty ran st stands) literal
  · exact Session.step_yields (Session.named_of_run empty ran) stepped found

def assigned : Update :=
  ((Update.new .sqlite "main" 2).apply (.common (.bind "k" (.int 1) none))).apply
    (.column (.assign "a" (some (.int 2, none))))

def assignedBeside : List Command := [
  .create "q" .select (.standalone "sqlite" "main") false,
  .call "q" (.select (.common (.bind "k" (.int 3) none))),
  .create "u" .update (.standalone "sqlite" "main") false,
  .call "u" (.update (.common (.bind "k" (.int 1) none))),
  .call "u" (.update (.column (.assign "a" (some (.int 2, none)))))]

theorem bindings_only_grow_assigned :
    let takes : Call Embedded := .update (.filter (.equals [
      .column "x" (.statement ⟨"SELECT :k", .ofList [("k", ⟨.int 3, .int⟩)]⟩), .column "y" (.list [.int 4] none)]))
    let nulls : Call Embedded := .update (.column (.setNull "k"))
    ∃ s, Session.run {} assignedBeside = .ok s ∧ .update assigned ∈ s.statements ∧
      (takes ≠ .reset .update ∧ takes.literal? = none ∧ ∃ next, (Statement.update assigned).compose takes = some next ∧
        (Statement.update assigned).Grows takes next ∧ next.values.entries =
          [("k", ⟨.int 3, .int⟩), ("a", ⟨.int 2, .int⟩), ("_2_1_", ⟨.int 4, .int⟩)]) ∧
      (nulls.literal? = some "k" ∧ ∃ next, (Statement.update assigned).compose nulls = some next ∧
        (Statement.update assigned).Sheds "k" next ∧ next.values.entries = [("a", ⟨.int 2, .int⟩)]) ∧
      ∃ reply next slot, Session.step (.clone "u" "v") s = .ok (reply, next) ∧ next.slots.get? "v" = some slot ∧
        s.Yields "v" (.clone "u" "v") slot.statement := by
  intro takes nulls
  have reached : Session.Reaches {} assignedBeside fun s => .update assigned ∈ s.statements ∧
      s.slots.get? "u" = some (.plain (.update assigned)) := by
    decide +kernel
  obtain ⟨s, ran, stands, found⟩ := reached.exists
  obtain ⟨calls, steps⟩ := bindings_only_grow rfl ran
  obtain ⟨next, composed, grows, _⟩ := calls _ stands takes rfl
  obtain ⟨next', composed', _, sheds⟩ := calls _ stands nulls rfl
  have values : ((Statement.update assigned).compose takes).map (·.values.entries) =
      some [("k", ⟨.int 3, .int⟩), ("a", ⟨.int 2, .int⟩), ("_2_1_", ⟨.int 4, .int⟩)] := by decide +kernel
  have values' : ((Statement.update assigned).compose nulls).map (·.values.entries) =
      some [("a", ⟨.int 2, .int⟩)] := by decide +kernel
  rw [composed] at values
  rw [composed'] at values'
  have copied : Session.step (.clone "u" "v") s = .ok (.silent, (s.drawFrom "main").2.store "v"
      (.plain ((Statement.update assigned).renumber (s.drawFrom "main").1))) := Session.clone_of_found "v" found
  have stored := OrderedMap.get?_insert s.slots "v" "v"
    (.plain ((Statement.update assigned).renumber (s.drawFrom "main").1))
  rw [if_pos rfl] at stored
  exact ⟨s, ran, stands, ⟨by decide, rfl, next, composed, grows (by decide) rfl, Option.some.inj values⟩,
    ⟨rfl, next', composed', sheds "k" rfl, Option.some.inj values'⟩,
    _, _, _, copied, stored, steps _ _ _ copied _ _ stored⟩

end SqlCompose
