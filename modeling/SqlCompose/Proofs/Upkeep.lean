import SqlCompose.Proofs.LikeRuns
import SqlCompose.Proofs.Referents

namespace SqlCompose

open Effect (references)

-- What a call keeps may depend on what it brings to the statement that it finds.
structure Upkeep (C : Statement → Call Embedded → Prop) (S : Statement → Prop) (E : Embedded → Prop) : Prop where
  created : ∀ (f : Factory) kind ordinal, S (f.create kind ordinal)
  subSelect : ∀ (sel : Select) ordinal, S (.select (sel.subSelect ordinal))
  clone : ∀ st ordinal, S st → S (st.renumber ordinal)
  embedded : ∀ sel, S (.select sel) → E sel.embedded
  composed : ∀ st st' call, S st → C st call → (∀ e, .absorb e ∈ call.effects → E e) →
    st.compose call = some st' → S st'

def Command.Meets (C : Statement → Call Embedded → Prop) (E : Embedded → Prop) (s : Session) : Command → Prop
  | .call name c =>
    (∀ e, .rendered e ∈ references c.effects → E e) ∧
      ∀ slot, s.slots.get? name = some slot → C slot.statement (c.map s.referent)
  | _ => True

namespace Session

variable {s t next : Session} {E : Embedded → Prop}

theorem found_statement {name : String} {slot : Slot} (found : s.slots.get? name = some slot) :
    slot.statement ∈ s.statements := (found_statements found).mem_iff.mpr (List.mem_cons_self ..)

theorem LeftOf.statements (left : s.LeftOf t) : ∀ st ∈ s.statements, st ∈ t.statements := by
  intro st member
  obtain ⟨slot, there, rfl⟩ := List.mem_map.mp member
  obtain ⟨x, stored, rfl⟩ := List.mem_map.mp there
  exact found_statement (left.stood x.1 x.2 (OrderedMap.get?_of_mem left.named stored))

theorem render_brings {ref : Reference} {e : Embedded} (left : s.LeftOf t)
    (slots : ∀ sel, .select sel ∈ t.statements → E sel.embedded) (given : ∀ e, ref = .rendered e → E e)
    (ran : render ref s = .ok (e, next)) : E e := by
  cases ref with
  | rendered e' =>
    cases ran
    exact given e rfl
  | slot name =>
    obtain ⟨slot, sel, found, is, rfl, rfl⟩ := takeSelect_ok ran
    exact slots sel (is ▸ found_statement (left.stood name slot found))
  | cloneOf name =>
    obtain ⟨st, sel, found, clone, rfl, rfl⟩ := render_cloneOf_ok ran
    cases st with
    | select source =>
      cases clone
      exact slots source (found_statement (left.stood name _ found))
    | insert | update | delete => cases clone

end Session

theorem History.renders_bring {t : Session} {E : Embedded → Prop} {h last : History} {refs : List Reference}
    (path : Renders h refs last) (left : h.session.LeftOf t)
    (slots : ∀ sel, .select sel ∈ t.statements → E sel.embedded)
    (given : ∀ e, .rendered e ∈ refs → E e) (held : ∀ e ∈ h.held, E e) : ∀ e ∈ last.held, E e := by
  induction path with
  | nil => exact held
  | @cons ref h e middle refs last rendered rest ih =>
    unfold History.render at rendered
    split at rendered
    · cases rendered
    · rename_i ran
      cases rendered
      refine ih ((t.render_resolves ref _ _ _ left ran).2) (fun e later => given e (List.mem_cons_of_mem _ later)) ?_
      exact List.forall_mem_cons.mpr
        ⟨Session.render_brings left slots (fun e same => given e (same ▸ List.mem_cons_self ..)) ran, held⟩

namespace Session

variable {s next : Session} {E : Embedded → Prop}

theorem absorbed_of_render {call : Call Reference} {d : Call Embedded} (named : s.slots.keys.Nodup)
    (slots : ∀ sel, .select sel ∈ s.statements → E sel.embedded)
    (given : ∀ e, .rendered e ∈ references call.effects → E e) (rendered : call.mapM render s = .ok (d, next)) :
    ∀ e, .absorb e ∈ d.effects → E e := by
  cases ran : call.mapM History.render (.start s) with
  | error fault =>
    have failed := call.mapM_follows.error ran
    rw [show call.mapM render (History.start s).session = .ok (d, next) from rendered] at failed
    cases failed
  | ok result =>
    obtain ⟨d', last⟩ := result
    obtain ⟨same, ⟨refs, path, perm⟩, pieces⟩ := call.mapM_follows.ok ran
    cases rendered.symm.trans same
    intro e member
    obtain ⟨u, there, becomes⟩ := becomes_source pieces member
    cases becomes
    case absorb noted =>
      refine History.renders_bring path (.refl named) slots (fun e there => given e (perm.mem_iff.mp there)) ?_ e noted
      exact fun _ listed => absurd listed List.not_mem_nil

end Session

namespace Upkeep

variable {C : Statement → Call Embedded → Prop} {S : Statement → Prop} {E : Embedded → Prop} {s next : Session}

theorem store {name : String} {slot : Slot} (old : ∀ st ∈ s.statements, S st) (new : S slot.statement) :
    ∀ st ∈ (s.store name slot).statements, S st := by
  intro st member
  rcases List.mem_cons.mp ((Session.store_statements s name slot).mem_iff.mp member) with rfl | stood
  · exact new
  · exact old st ((Session.erase_statements s name).subset stood)

theorem step {c : Command} {reply : Reply} (upkeep : Upkeep C S E) (named : s.slots.keys.Nodup)
    (old : ∀ st ∈ s.statements, S st) (meets : c.Meets C E s) (ran : Session.step c s = .ok (reply, next)) :
    next.slots.keys.Nodup ∧ ∀ st ∈ next.statements, S st := by
  by_cases isCall : ∃ name call, c = .call name call
  · obtain ⟨name, call, rfl⟩ := isCall
    obtain ⟨given, goes⟩ := meets
    obtain ⟨middle, slot, st', rendered, left, found, composed, rfl, rfl⟩ := Session.call_ok named ran
    have embedded := Session.absorbed_of_render (E := E) named
      (fun sel stands => upkeep.embedded sel (old _ stands)) given rendered
    have kept := upkeep.composed _ _ _ (old _ (Session.found_statement found)) (goes slot found) embedded composed
    refine ⟨OrderedMap.nodup_insert left.named, store (fun st member => old st (left.statements st member)) ?_⟩
    rwa [History.withStatement_statement]
  · have other : ∀ name call, c ≠ .call name call := fun name call same => isCall ⟨name, call, same⟩
    cases Session.changes_of_step other ran with
    | create made is => exact ⟨OrderedMap.nodup_insert named, store old (is ▸ upkeep.created _ _ _)⟩
    | useFactory => exact ⟨named, old⟩
    | subSelect => exact ⟨OrderedMap.nodup_insert named, store old (upkeep.subSelect _ _)⟩
    | clone found =>
      exact ⟨OrderedMap.nodup_insert named, store old (upkeep.clone _ _ (old _ (Session.found_statement found)))⟩
    | @unbind source name st found =>
      have rest : ∀ st ∈ (s.remove source).statements, S st :=
        fun st member => old st ((Session.erase_statements s source).subset member)
      have stood : S st := old _ (Session.found_statement found)
      exact ⟨OrderedMap.nodup_insert (OrderedMap.nodup_erase named), store rest stood⟩
    | embed =>
      exact ⟨OrderedMap.nodup_erase named, fun st member => old st ((Session.erase_statements s _).subset member)⟩

theorem run {commands : List Command} (upkeep : Upkeep C S E) (named : s.slots.keys.Nodup)
    (old : ∀ st ∈ s.statements, S st) (meets : s.Throughout (Command.Meets C E) commands)
    (ran : Session.run s commands = .ok next) : ∀ st ∈ next.statements, S st := by
  induction commands generalizing s with
  | nil =>
    cases ran
    exact old
  | cons c rest ih =>
    obtain ⟨here, later⟩ := meets
    cases stepped : Session.step c s with
    | error fault => simp [Session.run, stepped, bind, Except.bind] at ran
    | ok result =>
      obtain ⟨reply, middle⟩ := result
      rw [stepped] at later
      obtain ⟨named', new⟩ := upkeep.step named old here stepped
      exact ih named' new later (by simpa [Session.run, stepped, bind, Except.bind] using ran)

theorem run_start {commands : List Command} (upkeep : Upkeep C S E) (empty : s.slots = .empty)
    (meets : s.Throughout (Command.Meets C E) commands) (ran : Session.run s commands = .ok next) :
    ∀ st ∈ next.statements, S st := by
  refine upkeep.run (by rw [empty]; exact List.nodup_nil) (fun st member => ?_) meets ran
  rw [Session.statements, empty] at member
  cases member

end Upkeep

end SqlCompose
