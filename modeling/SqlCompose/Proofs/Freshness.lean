import Mathlib.Algebra.GroupWithZero.Nat
import Mathlib.Data.List.Nodup
import SqlCompose.Proofs.Provenance

namespace SqlCompose

open Event (births Unwrapped Unreset)
open Placeholder (isGenerated)

def Reference.draws : Reference → Nat
  | .cloneOf _ => 1
  | .rendered _ | .slot _ => 0

def Command.draws : Command → Nat
  | .create .. | .subSelect .. | .clone .. => 1
  | .call _ c => ((Effect.references c.effects).map Reference.draws).sum
  | .useFactory _ | .unbind .. | .embed _ => 0

namespace History

variable {h next : History}

theorem recount_ordinals (r : Registry) (around : List BindMap) (past : List Event)
    (es : List (Effect Embedded)) : Event.ordinals (r.recount around past es) = Event.ordinals past := by
  induction es generalizing r past with
  | nil => rfl
  | cons e rest ih =>
    rw [Registry.recount, ih]
    cases e <;> rfl

theorem render_draws {ref : Reference} {e : Embedded} (rendered : render ref h = .ok (e, next)) :
    next.ordinals.length = h.ordinals.length + ref.draws := by
  unfold render at rendered
  split at rendered
  · cases rendered
  · rename_i ran
    cases rendered
    cases ref with
    | rendered => rfl
    | slot => rfl
    | cloneOf name =>
      obtain ⟨st, _, found, _, _, _⟩ := Session.render_cloneOf_ok ran
      simp [ordinals, clonedFor, statement?, found, Slot.statement, Event.ordinal?, Reference.draws]

theorem renders_draws {refs : List Reference} (path : Renders h refs next) :
    next.ordinals.length = h.ordinals.length + (refs.map Reference.draws).sum := by
  induction path with
  | nil => rfl
  | cons rendered _ ih =>
    rw [ih, render_draws rendered, List.map_cons, List.sum_cons, Nat.add_assoc]

theorem step_draws {c : Command} {reply : Reply} (taken : step c h = .ok (reply, next)) :
    next.ordinals.length = h.ordinals.length + c.draws := by
  have made {c : Command} {name : String} {slot : Slot} {s : Session} (is : madeBy c = some name) :
      (h.after c .silent (s.store name slot)).ordinals.length = h.ordinals.length + 1 := by
    rw [ordinals, after_made is]
    rfl
  cases steps_of_step taken with
  | call rendered stood composed =>
    obtain ⟨refs, path, perm⟩ := rendered.path
    have drawn := renders_draws path
    rw [(perm.map Reference.draws).sum_nat] at drawn
    exact (congrArg List.length (recount_ordinals ..)).trans drawn
  | other changes =>
    cases changes with
    | create | subSelect | clone => exact made rfl
    | useFactory | unbind | embed => rfl

end History

theorem Runs.draws {usage : Usage} {s : Session} {commands : List Command} {h : History}
    (runs : Runs usage (.start s) commands h) :
    h.ordinals.length = (commands.map Command.draws).sum := by
  induction runs with
  | nil => rfl
  | snoc _ _ taken ih => simp [History.step_draws taken, ih]

theorem Runs.sharing {counter : String} {start h : History} {commands : List Command}
    (runs : Runs (.unreset counter) start commands h) : Runs (.sharing counter) start commands h := by
  refine Runs.mono ?_ ?_ ?_ runs
  · exact fun _ => id
  · exact fun _ => id
  · exact fun _ _ => And.left

theorem recount_unreset {r : Registry} {around : List BindMap} {past : List Event}
    {es : List (Effect Embedded)} (kept : ∀ e ∈ es, e.bare ≠ .reset) (unreset : Unreset past) :
    Unreset (r.recount around past es) := by
  induction es generalizing r past with
  | nil => exact unreset
  | cons e rest ih =>
    refine ih (fun u there => kept u (List.mem_cons_of_mem _ there)) fun o member => ?_
    rcases List.mem_append.mp member with noted | earlier
    · cases e <;> simp [Registry.note] at noted
      exact kept _ (List.mem_cons_self ..) rfl
    · exact unreset o earlier

theorem Shift.unreset {counter : String} {h next : History}
    (shift : Shift (.unreset counter) h next) (unreset : Unreset h.past) : Unreset next.past := by
  cases shift with
  | make _ _ _ _ past | renderClone _ _ _ _ past =>
    intro o member
    rw [past] at member
    rcases List.mem_cons.mp member with same | earlier
    · cases same
    · exact unreset o earlier
  | render _ _ _ _ past | bring _ _ _ _ past | leave _ _ past => rwa [past]
  | compose _ _ _ _ _ _ _ handed _ _ past =>
    rw [past]
    exact recount_unreset (fun e there => (handed e there).2) unreset

theorem Shifts.unreset {counter : String} {s : Session} {h : History}
    (path : Shifts (.unreset counter) (.start s) h) : Unreset h.past := by
  induction path with
  | refl => exact fun _ member => by cases member
  | tail _ step ih => exact step.unreset ih

-- How a run on one counter ends that found it at first and made that many draws.
structure FreshlyKeyed (counter : String) (first draws : Nat) (h : History) : Prop where
  ordinals : h.ordinals.Nodup
  drawn : h.ordinals.length = draws
  counted : (h.session.counters.current counter).toNat = first + draws
  owned : ∀ st ∈ h.statements, st.registry.ordinal ∈ h.ordinals
  apart : (h.statements.map fun st => st.registry.ordinal).Nodup
  unheld : ∀ b ∈ h.births, ∀ m ∈ b.around, b.key.text ∉ m.keys
  distinct : (h.births.map fun b => b.key.text).Nodup
  agree : ∀ m ∈ h.maps, ∀ n ∈ h.maps, ∀ key p q, isGenerated key = true →
    m.get? key = some p → n.get? key = some q → p = q

theorem Accounted.traced_maps {counter : String} {first : Nat} {h : History}
    (accounted : Accounted counter first h) : ∀ m ∈ h.maps, Traced h.past m := by
  intro m there
  rcases List.mem_append.mp there with there | there <;> obtain ⟨x, member, rfl⟩ := List.mem_map.mp there
  · exact accounted.traced x member
  · exact accounted.tracedHeld x member

theorem births_agree {past : List Event} {m n : BindMap} {key : String} {p q : Param}
    (distinct : ((births past).map Birth.key).Nodup) (left : Traced past m) (right : Traced past n)
    (generated : isGenerated key = true) (hereBound : m.get? key = some p)
    (thereBound : n.get? key = some q) : p = q := by
  obtain ⟨b, born, text, rfl⟩ := left key p (OrderedMap.mem_of_get? hereBound) generated
  obtain ⟨c, born', text', rfl⟩ := right key q (OrderedMap.mem_of_get? thereBound) generated
  have same : b.key = c.key := Key.text_injective (text.trans text'.symm)
  rw [List.inj_on_of_nodup_map distinct born born' same]

-- While no statement is reset as a whole, no key is ever generated where it is already known.
theorem run_freshlyKeyed {counter : String} {s : Session} {commands : List Command} {h : History}
    (empty : s.slots = .empty) (runs : Runs (.unreset counter) (.start s) commands h)
    (unwrapped : Unwrapped h.past) :
    FreshlyKeyed counter (s.counters.current counter).toNat (commands.map Command.draws).sum h := by
  have named := start_named empty
  have accounted := (Accounted.start empty).shifts (runs_shifts named runs.sharing).1
  have unreset := Shifts.unreset (runs_shifts named runs).1
  have numbered := accounted.numbered unwrapped
  have keys := numbered.renewed.nodup unreset
  have ordinals : h.statements.map (fun st => st.registry.ordinal) =
      (h.statements.map Statement.registry).map Registry.ordinal := by simp
  constructor
  · exact numbered.apart
  · exact runs.draws
  · rw [numbered.counted, ← runs.draws]
    rfl
  · intro st stands
    exact numbered.known _ (List.mem_map_of_mem (List.mem_map_of_mem stands))
  · rw [ordinals]
    exact numbered.distinct
  · exact accounted.fresh unwrapped unreset
  · have texts : h.births.map (fun b => b.key.text) = (h.births.map Birth.key).map Key.text := by simp
    rw [texts]
    exact keys.map fun _ _ => Key.text_injective
  · intro m here n there key p q generated
    exact births_agree keys (accounted.traced_maps m here) (accounted.traced_maps n there) generated

def embeddedClone : List Command := [
  .create "orders" .select (.standalone "sqlite" "main") false,
  .call "orders" (.select (.filter (.equals [.column "id" (.list [.int 1, .int 2] none)]))),
  .clone "orders" "copy",
  .call "copy" (.select (.filter (.equals [.column "state" (.scalar (.str "new") none)]))),
  .call "orders" (.select (.table (.statement (.cloneOf "copy")))),
  .subSelect "orders" "sub",
  .call "sub" (.select (.filter (.equals [.column "id" (.scalar (.int 3) none)]))),
  .call "copy" (.select (.join "INNER JOIN" (.statement (.slot "sub")) "TRUE" none))]

theorem freshlyKeyed_embeddedClone :
    ∃ h, Runs (.unreset "main") (.start {}) embeddedClone h ∧ Unwrapped h.past ∧
      FreshlyKeyed "main" 0 4 h := by
  have run : ∃ h, Runs (.unreset "main") (.start {}) embeddedClone h ∧ Unwrapped h.past := by
    refine exists_run (· = "main") (fun _ e => e.NamesNoKey ∧ e ≠ .reset) ?_ (fun _ => id) fun _ _ => id
    decide +kernel
  obtain ⟨h, runs, unwrapped⟩ := run
  exact ⟨h, runs, unwrapped, run_freshlyKeyed rfl runs unwrapped⟩

end SqlCompose
