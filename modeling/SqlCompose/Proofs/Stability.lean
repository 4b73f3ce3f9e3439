import SqlCompose.Proofs.Provenance

namespace SqlCompose

open Event (births Unwrapped)
open Placeholder (isGenerated)

def Command.leaves (name : String) : Command → Option String
  | .create n .. | .subSelect _ n | .clone _ n | .embed n => if n = name then none else some name
  | .useFactory _ => some name
  | .call n c =>
    if n = name then if .reset ∈ c.effects then none else some name
    else if .slot name ∈ Effect.references c.effects then none else some name
  | .unbind source n => if source = name then some n else if n = name then none else some name

inductive Stays (usage : Usage) (h : History) (name : String) : History → String → Prop where
  | refl : Stays usage h name h name
  | step (prior : Stays usage h name middle here) (keeps : usage.Keeps middle c)
      (taken : History.step c middle = .ok (reply, next)) (stays : c.leaves here = some there) :
      Stays usage h name next there

namespace History

variable {h next : History} {name : String} {st : Statement}

theorem statement?_of_slots (same : next.session.slots = h.session.slots) (name : String) :
    next.statement? name = h.statement? name := by
  rw [statement?, statement?, same]

theorem statement?_erase {other : String} (different : other ≠ name)
    (erased : next.session.slots = h.session.slots.erase other) :
    next.statement? name = h.statement? name := by
  rw [statement?, statement?, erased, OrderedMap.get?_erase_of_ne _ different]

theorem statement?_insert {other : String} {slot : Slot} {slots : OrderedMap String Slot}
    (stored : next.session.slots = slots.insert other slot) :
    next.statement? name =
      if other = name then some slot.statement else (slots.get? name).map Slot.statement := by
  rw [statement?, stored, OrderedMap.get?_insert]
  split <;> rfl

theorem renders_leave {refs : List Reference} (path : Renders h refs next)
    (untaken : .slot name ∉ refs) : next.statement? name = h.statement? name := by
  induction path with
  | nil => rfl
  | cons rendered _ ih =>
    rw [ih fun later => untaken (List.mem_cons_of_mem _ later)]
    rcases render_slots rendered with same | ⟨other, rfl, erased⟩
    · exact statement?_of_slots same name
    · refine statement?_erase (fun same => untaken ?_) erased
      rw [same]
      exact List.mem_cons_self ..

-- A statement that a command leaves is the same as before, or was called without a reset.
inductive Left (usage : Usage) (st : Statement) : Statement → Prop where
  | same : Left usage st st
  | called {call : Call Embedded} (composed : st.compose call = some st')
      (handed : ∀ e ∈ call.effects, usage.hands st e.bare) (kept : .reset ∉ call.effects) :
      Left usage st st'

theorem call_left {usage : Usage} {other there : String} {call : Call Reference} {d : Call Embedded}
    {middle : History} {slot : Slot} {st' : Statement} (named : h.Named)
    (keeps : usage.Keeps h (.call other call)) (rendered : Rendered call.effects d.effects h middle)
    (stood : middle.session.slots.get? other = some slot)
    (composed : slot.statement.compose d = some st')
    (stored : next.session.slots = middle.session.slots.insert other (slot.withStatement st'))
    (leaves : (Command.call other call).leaves name = some there) (found : h.statement? name = some st) :
    ∃ st', next.statement? there = some st' ∧ Left usage st st' := by
  obtain ⟨⟨refs, path, perm⟩, pieces⟩ := rendered
  simp only [Command.leaves] at leaves
  split at leaves
  · rename_i same
    subst same
    split at leaves
    · cases leaves
    · rename_i unreset
      cases leaves
      have standing : middle.statement? other = some slot.statement := by simp [statement?, stood]
      have before := (renders_statement path named).2 other _ standing
      cases found.symm.trans before
      refine ⟨st', by rw [statement?_insert stored, if_pos rfl, withStatement_statement],
        .called composed (fun v member => ?_) fun member => ?_⟩
      · obtain ⟨u, there, becomes⟩ := becomes_source pieces member
        rw [becomes.bare]
        exact keeps.1 _ found u there
      · obtain ⟨u, there, becomes⟩ := becomes_source pieces member
        cases becomes
        exact unreset there
  · rename_i different
    split at leaves
    · cases leaves
    · rename_i untaken
      cases leaves
      have kept : middle.statement? name = some st := by
        rw [renders_leave path fun member => untaken (perm.mem_iff.mp member), found]
      exact ⟨st, by rw [statement?_insert stored, if_neg different]; exact kept, .same⟩

theorem unbind_left {source n there : String} {bound : Statement}
    (stood : h.session.slots.get? source = some (.query bound))
    (stored : next.session.slots = (h.session.slots.erase source).insert n (.plain bound))
    (leaves : (Command.unbind source n).leaves name = some there) (found : h.statement? name = some st) :
    next.statement? there = some st := by
  simp only [Command.leaves] at leaves
  split at leaves
  · rename_i same
    cases leaves
    have before : h.statement? source = some bound := by simp [statement?, stood, Slot.statement]
    rw [same, found] at before
    cases before
    rw [statement?_insert stored, if_pos rfl]
    rfl
  · rename_i different
    split at leaves
    · cases leaves
    · rename_i apart
      cases leaves
      rw [statement?_insert stored, if_neg apart, OrderedMap.get?_erase_of_ne _ different]
      exact found

theorem step_left {usage : Usage} {c : Command} {reply : Reply} {there : String} (named : h.Named)
    (keeps : usage.Keeps h c) (taken : step c h = .ok (reply, next)) (leaves : c.leaves name = some there)
    (found : h.statement? name = some st) :
    ∃ st', next.statement? there = some st' ∧ Left usage st st' := by
  have made {n : String} {slot : Slot} {next : History} (is : (if n = name then none else some name) = some there)
      (stored : next.session.slots = h.session.slots.insert n slot) :
      ∃ st', next.statement? there = some st' ∧ Left usage st st' := by
    split at is
    · cases is
    · cases is
      exact ⟨st, by rw [statement?_insert stored, if_neg ‹_›]; exact found, .same⟩
  cases steps_of_step taken with
  | call rendered stood composed => exact call_left named keeps rendered stood composed rfl leaves found
  | other changes =>
    cases changes with
    | create | subSelect | clone => exact made leaves rfl
    | useFactory =>
      cases leaves
      exact ⟨st, found, .same⟩
    | unbind stood => exact ⟨st, unbind_left stood rfl leaves found, .same⟩
    | embed =>
      simp only [Command.leaves] at leaves
      split at leaves
      · cases leaves
      · cases leaves
        exact ⟨st, by rw [statement?_erase ‹_› rfl, found], .same⟩

end History

theorem left_bound {counter key : String} {st st' : Statement} (left : History.Left (.sharing counter) st st')
    (bound : key ∈ st.values.keys) (generated : isGenerated key = true) : key ∈ st'.values.keys := by
  cases left with
  | same => exact bound
  | called composed handed kept =>
    rw [Statement.compose_values composed]
    refine Registry.carryAll_grows _ (fun e member released => ?_) key bound generated
    cases e with
    | unbind name =>
      have plain : isGenerated name = false := handed _ member
      rw [show isGenerated name = true from released] at plain
      cases plain
    | reset => exact kept member
    | _ => exact released

-- A key was generated for one value and later, after a reset of its registry, for another.
def Regenerated (past : List Event) (key : String) (first second : Param) : Prop :=
  ∃ newer middle older later earlier,
    past = newer ++ .generated later :: (middle ++ .generated earlier :: older) ∧
      earlier.key.text = key ∧ earlier.param = first ∧ later.key.text = key ∧ later.param = second ∧
      (Unwrapped past → .restarted later.key.ordinal ∈ middle)

theorem births_ordered {past : List Event} {b c : Birth} (first : b ∈ births past) (second : c ∈ births past)
    (different : b ≠ c) :
    (∃ newer middle older, past = newer ++ .generated c :: (middle ++ .generated b :: older)) ∨
      ∃ newer middle older, past = newer ++ .generated b :: (middle ++ .generated c :: older) := by
  obtain ⟨newer, older, rfl⟩ := List.append_of_mem (Event.mem_births.mp first)
  rcases List.mem_append.mp (Event.mem_births.mp second) with later | earlier
  · obtain ⟨front, back, rfl⟩ := List.append_of_mem later
    exact .inl ⟨front, back, older, by simp⟩
  · rcases List.mem_cons.mp earlier with same | earlier
    · cases same
      exact absurd rfl different
    · obtain ⟨front, back, rfl⟩ := List.append_of_mem earlier
      exact .inr ⟨newer, front, back, rfl⟩

theorem regenerated_of_values {past : List Event} {m n : BindMap} {key : String} {p q : Param}
    (renewed : Unwrapped past → Event.Renewed past) (left : Traced past m) (right : Traced past n)
    (generated : isGenerated key = true) (here : m.get? key = some p) (there : n.get? key = some q) :
    q = p ∨ Regenerated past key p q ∨ Regenerated past key q p := by
  obtain ⟨b, born, text, rfl⟩ := left key p (OrderedMap.mem_of_get? here) generated
  obtain ⟨c, born', text', rfl⟩ := right key q (OrderedMap.mem_of_get? there) generated
  have same : b.key = c.key := Key.text_injective (text.trans text'.symm)
  by_cases value : c.param = b.param
  · exact .inl value
  · refine .inr ?_
    rcases births_ordered born born' (fun equal => value (equal ▸ rfl)) with
      ⟨newer, middle, older, rfl⟩ | ⟨newer, middle, older, rfl⟩
    · exact .inl ⟨newer, middle, older, c, b, rfl, text, rfl, text', rfl,
        fun unwrapped => (renewed unwrapped).restarted same⟩
    · exact .inr ⟨newer, middle, older, b, c, rfl, text', rfl, text, rfl,
        fun unwrapped => (renewed unwrapped).restarted same.symm⟩

namespace Registry

theorem carry_nodup {r : Registry} (e : Effect Embedded) (nodup : r.values.keys.Nodup) :
    (r.carry e).values.keys.Nodup := by
  cases e with
  | bind key value type => exact OrderedMap.nodup_insert nodup
  | unbind key => exact OrderedMap.nodup_erase nodup
  | generate value type => exact OrderedMap.nodup_insert nodup
  | absorb e => exact OrderedMap.nodup_insertAll nodup
  | reset => exact List.nodup_nil
  | _ => exact nodup

theorem carryAll_nodup {r : Registry} (es : List (Effect Embedded)) (nodup : r.values.keys.Nodup) :
    (r.carryAll es).values.keys.Nodup := by
  induction es generalizing r with
  | nil => exact nodup
  | cons e rest ih => exact ih (carry_nodup e nodup)

end Registry

def Embedded.BoundOnce (e : Embedded) : Prop :=
  e.binds.keys.Nodup ∨ ∀ key ∈ e.binds.keys, isGenerated key = false

theorem boundOnce_hereditary (counter : String) :
    Hereditary (.sharing counter) (fun st => st.values.keys.Nodup) Embedded.BoundOnce where
  created f kind ordinal := by
    rw [Factory.create_values]
    exact List.nodup_nil
  subSelect sel ordinal := List.nodup_nil
  clone st ordinal nodup := by
    rw [Statement.renumber_values]
    exact nodup
  embedded sel nodup := .inl nodup
  brought e plain := .inr plain
  composed st st' call nodup _ _ composed := by
    rw [Statement.compose_values composed]
    exact Registry.carryAll_nodup _ nodup

theorem absorb_value {e : Embedded} {st st' : Statement} {call : Call Embedded} {key : String} {q : Param}
    (once : e.BoundOnce) (generated : isGenerated key = true) (effects : call.effects = [.absorb e])
    (composed : st.compose call = some st') (bound : st.values.get? key = some q) :
    st'.values.get? key = some ((e.binds.get? key).getD q) := by
  have values : st'.values = st.values.merge e.binds := by
    rw [Statement.compose_values composed, effects]
    rfl
  have merged : (st.values.merge e.binds).get? key = (e.binds.get? key).or (st.values.get? key) := by
    rcases once with nodup | plain
    · exact OrderedMap.get?_merge nodup _ _
    · have absent : key ∉ e.binds.keys := fun member => by simp [plain key member] at generated
      have unbound : e.binds.get? key = none := OrderedMap.lookup_eq_none absent
      rw [unbound]
      exact OrderedMap.get?_insertAll_of_absent absent _
  rw [values, merged, bound]
  cases e.binds.get? key <;> rfl

structure Sound (counter : String) (first : Nat) (h : History) : Prop where
  accounted : Accounted counter first h
  once : Hereditary.Throughout (fun st => st.values.keys.Nodup) Embedded.BoundOnce h
  named : h.Named

namespace Sound

variable {counter : String} {first : Nat} {h next : History}

theorem start {s : Session} (empty : s.slots = .empty) :
    Sound counter (s.counters.current counter).toNat (.start s) :=
  ⟨.start empty, .start empty, start_named empty⟩

theorem shifts (sound : Sound counter first h) (path : Shifts (.sharing counter) h next)
    (named : next.Named) : Sound counter first next :=
  ⟨sound.accounted.shifts path, (boundOnce_hereditary counter).shifts sound.once path, named⟩

end Sound

theorem Stays.kept {counter key name there : String} {first : Nat} {h next : History} {st : Statement}
    (sound : Sound counter first h) (found : h.statement? name = some st) (bound : key ∈ st.values.keys)
    (generated : isGenerated key = true) (stays : Stays (.sharing counter) h name next there) :
    Sound counter first next ∧ h.past <:+ next.past ∧
      ∃ st', next.statement? there = some st' ∧ key ∈ st'.values.keys := by
  induction stays with
  | refl => exact ⟨sound, List.suffix_refl _, st, found, bound⟩
  | step prior keeps taken leaves ih =>
    obtain ⟨sound, noted, now, here, bound⟩ := ih
    obtain ⟨path, named⟩ := History.step_shifts sound.named keeps taken
    obtain ⟨later, there, left⟩ := History.step_left sound.named keeps taken leaves here
    exact ⟨sound.shifts path named, noted.trans path.past_suffix, later, there,
      left_bound left bound generated⟩

-- In a statement that is not reset a generated key stays bound, and it changes its value only if some registry
-- generated it for both values, with a reset in between.
theorem generated_value_stable {counter name there key : String} {s : Session} {commands : List Command}
    {h next : History} {st : Statement} {p : Param} (empty : s.slots = .empty)
    (runs : Runs (.sharing counter) (.start s) commands h) (found : h.statement? name = some st)
    (generated : isGenerated key = true) (bound : st.values.get? key = some p)
    (stays : Stays (.sharing counter) h name next there) :
    ∃ st' q, next.statement? there = some st' ∧ st'.values.get? key = some q ∧
      (q = p ∨ Regenerated next.past key p q ∨ Regenerated next.past key q p) ∧
      ∀ e ∈ next.held, ∀ call st'', call.effects = [.absorb e] → st'.compose call = some st'' →
        st''.values.get? key = some ((e.binds.get? key).getD q) := by
  have begun : Sound counter (s.counters.current counter).toNat (.start s) := .start empty
  obtain ⟨path, named⟩ := runs_shifts begun.named runs
  have sound := begun.shifts path named
  obtain ⟨later, noted, st', stands, still⟩ :=
    stays.kept sound found (OrderedMap.get?_isSome.mp (by rw [bound]; rfl)) generated
  obtain ⟨q, value⟩ := Option.isSome_iff_exists.mp (OrderedMap.get?_isSome.mpr still)
  refine ⟨st', q, stands, value, ?_, fun e member call st'' effects composed => ?_⟩
  · exact regenerated_of_values (fun unwrapped => (later.accounted.numbered unwrapped).renewed)
      ((sound.accounted.traced st (History.statement?_member found)).mono noted.subset)
      (later.accounted.traced st' (History.statement?_member stands)) generated bound value
  · exact absorb_value (later.once.2 e member) generated effects composed value

-- A copy is taken before its source is reset and generates the key of its value again.
def staleCopy : List Command := [
  .create "s" .select (.standalone "sqlite" "main") false,
  .call "s" (.select (.columns ["a"])),
  .call "s" (.select (.filter (.condition (.add .and "a = " (some (.scalar (.int 1) none)))))),
  .clone "s" "copy",
  .call "s" (.select .reset),
  .call "s" (.select (.filter (.condition (.add .and "a = " (some (.scalar (.int 2) none))))))]

def embedCopy : Command := .call "s" (.select (.table (.statement (.slot "copy"))))

def History.value? (h : History) (name key : String) : Option Param :=
  (h.statement? name).bind fun st => st.values.get? key

theorem value?_parts {h : History} {name key : String} {p : Param} (value : h.value? name key = some p) :
    ∃ st, h.statement? name = some st ∧ st.values.get? key = some p :=
  Option.bind_eq_some_iff.mp value

theorem exists_stays {usage : Usage} {counter : String → Prop} {hands : Statement → Effect Unit → Prop}
    {P : History → Prop} {h : History} {c : Command} {name there : String}
    (ends : h.Ends counter hands P [c]) (leaves : c.leaves name = some there)
    (counters : ∀ name, counter name → usage.counter name)
    (hand : ∀ st e, hands st e → usage.hands st e) : ∃ next, Stays usage h name next there ∧ P next := by
  obtain ⟨plain, ends⟩ := ends
  split at ends
  · rename_i next taken
    exact ⟨next, .step .refl (plain.keeps counters hand) taken leaves, ends⟩
  · cases ends

theorem staleCopy_run :
    ∃ h next, Runs (.sharing "main") (.start {}) staleCopy h ∧
      Stays (.sharing "main") h "s" next "s" ∧ h.value? "s" "_1_1_" = some ⟨.int 2, .int⟩ ∧
      next.value? "s" "_1_1_" = some ⟨.int 1, .int⟩ := by
  have run : ∃ h, Runs (.sharing "main") (.start {}) staleCopy h ∧
      h.value? "s" "_1_1_" = some ⟨.int 2, .int⟩ ∧ h.Ends (· = "main") (fun _ e => e.NamesNoKey)
        (fun next => next.value? "s" "_1_1_" = some ⟨.int 1, .int⟩) [embedCopy] := by
    refine exists_run (· = "main") (fun _ e => e.NamesNoKey) ?_ (fun _ => id) fun _ _ => id
    decide +kernel
  obtain ⟨h, runs, before, ends⟩ := run
  obtain ⟨next, stays, value⟩ : ∃ next, Stays (.sharing "main") h "s" next "s" ∧
      next.value? "s" "_1_1_" = some ⟨.int 1, .int⟩ :=
    exists_stays ends rfl (fun _ => id) fun _ _ => id
  exact ⟨h, next, runs, stays, before, value⟩

theorem generated_value_stable_staleCopy :
    ∃ h next st, Runs (.sharing "main") (.start {}) staleCopy h ∧ h.statement? "s" = some st ∧
      isGenerated "_1_1_" = true ∧ st.values.get? "_1_1_" = some ⟨.int 2, .int⟩ ∧
      Stays (.sharing "main") h "s" next "s" ∧
      ∃ st' q, next.statement? "s" = some st' ∧ st'.values.get? "_1_1_" = some q ∧
        (q = ⟨.int 2, .int⟩ ∨ Regenerated next.past "_1_1_" ⟨.int 2, .int⟩ q ∨
          Regenerated next.past "_1_1_" q ⟨.int 2, .int⟩) ∧
        ∀ e ∈ next.held, ∀ call st'', call.effects = [.absorb e] → st'.compose call = some st'' →
          st''.values.get? "_1_1_" = some ((e.binds.get? "_1_1_").getD q) := by
  obtain ⟨h, next, runs, stays, before, _⟩ := staleCopy_run
  obtain ⟨st, stands, bound⟩ := value?_parts before
  have generated : isGenerated "_1_1_" = true := by decide
  exact ⟨h, next, st, runs, stands, generated, bound, stays,
    generated_value_stable rfl runs stands generated bound stays⟩

theorem generated_value_changes :
    ∃ h next st st' p q, Runs (.sharing "main") (.start {}) staleCopy h ∧
      h.statement? "s" = some st ∧ st.values.get? "_1_1_" = some p ∧ isGenerated "_1_1_" = true ∧
      Stays (.sharing "main") h "s" next "s" ∧ next.statement? "s" = some st' ∧
      st'.values.get? "_1_1_" = some q ∧ p ≠ q := by
  obtain ⟨h, next, runs, stays, before, after⟩ := staleCopy_run
  obtain ⟨st, stands, old⟩ := value?_parts before
  obtain ⟨st', stays', new⟩ := value?_parts after
  exact ⟨h, next, st, st', _, _, runs, stands, old, by decide, stays, stays', new, by decide⟩

end SqlCompose
