import SqlCompose.Proofs.Ledger

namespace SqlCompose

open Event (births)
open Placeholder (isGenerated)

def Effect.NamesNoKey : Effect Unit → Prop
  | .bind key .. | .unbind key | .column key => isGenerated key = false
  | _ => True

instance : DecidablePred Effect.NamesNoKey
  | .bind .. | .unbind _ | .column _ => inferInstanceAs (Decidable (_ = false))
  | .text _ | .table _ | .generate .. | .absorb _ | .handOut | .clear | .reset =>
    inferInstanceAs (Decidable True)

namespace Usage

def sharing (counter : String) : Usage where
  counter c := c = counter
  brings e := ∀ key ∈ e.binds.keys, isGenerated key = false
  hands _ e := e.NamesNoKey

def unreset (counter : String) : Usage where
  counter c := c = counter
  brings e := ∀ key ∈ e.binds.keys, isGenerated key = false
  hands _ e := e.NamesNoKey ∧ e ≠ .reset

end Usage

namespace Event

def Unwrapped (past : List Event) : Prop := ∀ e ∈ past, ¬ e.wraps

instance (past : List Event) : Decidable (Unwrapped past) :=
  inferInstanceAs (Decidable (∀ e ∈ past, ¬ e.wraps))

def Unreset (past : List Event) : Prop := ∀ ordinal, .restarted ordinal ∉ past

-- No key was held anywhere when it was generated.
def Fresh (past : List Event) : Prop := ∀ b ∈ births past, ∀ m ∈ b.around, b.key.text ∉ m.keys

theorem births_mono {past more : List Event} (grows : past ⊆ more) : births past ⊆ births more :=
  fun _ member => mem_births.mpr (grows (mem_births.mp member))

theorem mem_since_of_unreset {past : List Event} {b : Birth} (unreset : Unreset past)
    (born : b ∈ births past) : b ∈ since b.key.ordinal past := by
  obtain ⟨middle, older, rfl⟩ := List.append_of_mem (mem_births.mp born)
  exact mem_since_of_append fun member => unreset _ (List.mem_append_left _ member)

theorem Renewed.nodup {past : List Event} (renewed : Renewed past) (unreset : Unreset past) :
    ((births past).map Birth.key).Nodup := by
  induction past with
  | nil => exact List.nodup_nil
  | cons e past ih =>
    have earlier : Unreset past := fun o member => unreset o (List.mem_cons_of_mem _ member)
    cases e with
    | registered o => exact ih renewed earlier
    | restarted o => exact ih renewed earlier
    | generated b =>
      refine List.nodup_cons.mpr ⟨fun member => ?_, ih renewed.2 earlier⟩
      obtain ⟨twin, born, same⟩ := List.mem_map.mp member
      exact renewed.1 twin (same ▸ mem_since_of_unreset earlier born) same

end Event

open Event (Unwrapped Unreset Fresh Renewed since)

-- Every generated key of a map was noted at its birth with the value it has there.
def Traced (past : List Event) (m : BindMap) : Prop :=
  ∀ key p, (key, p) ∈ m.entries → isGenerated key = true →
    ∃ b ∈ births past, b.key.text = key ∧ b.param = p

namespace Traced

variable {past more : List Event} {m : BindMap} {r : Registry} {around : List BindMap}

theorem empty (past : List Event) : Traced past .empty := fun _ _ member => by cases member

theorem mono (grows : past ⊆ more) (traced : Traced past m) : Traced more m := by
  intro key p member generated
  obtain ⟨b, born, known⟩ := traced key p member generated
  exact ⟨b, Event.births_mono grows born, known⟩

theorem brought {e : Embedded} (brings : ∀ key ∈ e.binds.keys, isGenerated key = false) :
    Traced past e.binds := by
  intro key p member generated
  rw [brings key (OrderedMap.mem_keys_of_mem member)] at generated
  cases generated

theorem absent (traced : Traced past m) {k : Key} (unborn : ∀ b ∈ births past, b.key ≠ k) :
    k.text ∉ m.keys := by
  intro member
  obtain ⟨⟨key, p⟩, entry, rfl⟩ := List.mem_map.mp member
  obtain ⟨b, born, same, _⟩ := traced _ p entry k.text_isGenerated
  exact unborn b born (Key.text_injective same)

theorem carry {e : Effect Embedded} (traced : Traced past r.values) (named : e.bare.NamesNoKey)
    (absorbed : ∀ s, e = .absorb s → Traced past s.binds) :
    Traced (r.note around e ++ past) (r.carry e).values := by
  cases e with
  | bind name value type =>
    intro key p member generated
    rcases OrderedMap.mem_insert member with same | old
    · cases same
      rw [show isGenerated name = false from named] at generated
      cases generated
    · exact traced key p old generated
  | unbind name => exact fun key p member => traced key p (OrderedMap.mem_erase member)
  | generate value type =>
    intro key p member generated
    rcases OrderedMap.mem_insert member with same | old
    · cases same
      exact ⟨_, List.mem_cons_self .., rfl, rfl⟩
    · exact traced.mono (List.subset_cons_self _ _) key p old generated
  | absorb s =>
    intro key p member generated
    rcases OrderedMap.mem_merge member with old | incoming
    · exact traced key p old generated
    · exact absorbed s rfl key p incoming generated
  | reset => exact empty _
  | _ => exact traced

end Traced

namespace Registry

variable {past : List Event} {around : List BindMap}

theorem recount_suffix (r : Registry) (around : List BindMap) (past : List Event)
    (es : List (Effect Embedded)) : past <:+ r.recount around past es := by
  induction es generalizing r past with
  | nil => exact List.suffix_refl _
  | cons e rest ih => exact (List.suffix_append _ _).trans (ih (r.carry e) _)

theorem recount_traced {r : Registry} {es : List (Effect Embedded)} (traced : Traced past r.values)
    (named : ∀ e ∈ es, e.bare.NamesNoKey) (absorbed : ∀ s, .absorb s ∈ es → Traced past s.binds) :
    Traced (r.recount around past es) (r.carryAll es).values := by
  induction es generalizing r past with
  | nil => exact traced
  | cons e rest ih =>
    refine ih ?_ (fun u there => named u (List.mem_cons_of_mem _ there)) fun s there => ?_
    · exact traced.carry (named e (List.mem_cons_self ..)) fun s same =>
        absorbed s (same ▸ List.mem_cons_self ..)
    · exact (absorbed s (List.mem_cons_of_mem _ there)).mono (List.subset_append_right _ _)

variable {counter : String} {first : Nat} {current : UInt64} {rest : List Registry}

theorem recount_numbered {r : Registry} {es : List (Effect Embedded)}
    (numbered : Numbered counter first current (r :: rest) past)
    (unwrapped : Unwrapped (r.recount around past es)) :
    Numbered counter first current (r.carryAll es :: rest) (r.recount around past es) := by
  induction es generalizing r past with
  | nil => exact numbered
  | cons e es ih =>
    have later : r.note around e ++ past <:+ r.recount around past (e :: es) := recount_suffix ..
    refine ih (numbered.carry around e fun noted there => ?_) unwrapped
    exact unwrapped noted (later.subset (List.mem_append_left _ there))

theorem nextKey_unborn {r : Registry} (numbered : Numbered counter first current (r :: rest) past)
    (unreset : Unreset past) (noWrap : r.sequence + 1 ≠ 0) : ∀ b ∈ births past, b.key ≠ r.nextKey := by
  intro b born same
  have counts := Event.mem_since_of_unreset unreset born
  have ordinal : b.key.ordinal = r.ordinal := congrArg Key.ordinal same
  rw [ordinal] at counts
  have bound := numbered.reached r (List.mem_cons_self ..) b counts
  have above := word_succ noWrap
  rw [show b.key.sequence = r.sequence + 1 from congrArg Key.sequence same, above] at bound
  omega

theorem recount_fresh {r : Registry} {es : List (Effect Embedded)}
    (numbered : Numbered counter first current (r :: rest) past) (traced : Traced past r.values)
    (others : ∀ m ∈ around, Traced past m) (named : ∀ e ∈ es, e.bare.NamesNoKey)
    (absorbed : ∀ s, .absorb s ∈ es → Traced past s.binds)
    (unwrapped : Unwrapped (r.recount around past es)) (unreset : Unreset (r.recount around past es))
    (fresh : Fresh past) : Fresh (r.recount around past es) := by
  induction es generalizing r past with
  | nil => exact fresh
  | cons e es ih =>
    have later : r.note around e ++ past <:+ r.recount around past (e :: es) := recount_suffix ..
    have noted : Unwrapped (r.note around e ++ past) := fun n there => unwrapped n (later.subset there)
    have before : Unreset past := fun o there => unreset o (later.subset (List.mem_append_right _ there))
    refine ih (numbered.carry around e fun n there => noted n (List.mem_append_left _ there)) ?_ ?_
      (fun u there => named u (List.mem_cons_of_mem _ there)) ?_ unwrapped unreset ?_
    · exact traced.carry (named e (List.mem_cons_self ..)) fun s same =>
        absorbed s (same ▸ List.mem_cons_self ..)
    · exact fun m there => (others m there).mono (List.subset_append_right _ _)
    · exact fun s there =>
        (absorbed s (List.mem_cons_of_mem _ there)).mono (List.subset_append_right _ _)
    · cases e with
      | generate value type =>
        have unborn := nextKey_unborn numbered before (noted _ (List.mem_cons_self ..))
        refine List.forall_mem_cons.mpr ⟨List.forall_mem_cons.mpr ⟨traced.absent unborn, ?_⟩, fresh⟩
        exact fun m there => (others m there).absent unborn
      | _ => exact fresh

end Registry

theorem Shift.past_suffix {usage : Usage} {h next : History} (shift : Shift usage h next) :
    h.past <:+ next.past := by
  cases shift with
  | make _ _ _ _ past | renderClone _ _ _ _ past => exact past ▸ List.suffix_cons ..
  | render _ _ _ _ past | bring _ _ _ _ past | leave _ _ past => exact past ▸ List.suffix_refl _
  | compose _ _ _ _ _ _ _ _ _ _ past => exact past ▸ Registry.recount_suffix ..

theorem Shifts.past_suffix {usage : Usage} {h next : History} (path : Shifts usage h next) :
    h.past <:+ next.past := by
  induction path with
  | refl => exact List.suffix_refl _
  | tail _ step ih => exact ih.trans step.past_suffix

-- What the notes of a history say of everything it holds.
structure Accounted (counter : String) (first : Nat) (h : History) : Prop where
  traced : ∀ st ∈ h.statements, Traced h.past st.values
  tracedHeld : ∀ e ∈ h.held, Traced h.past e.binds
  numbered : Unwrapped h.past → Numbered counter first (h.session.counters.current counter)
    (h.statements.map Statement.registry) h.past
  fresh : Unwrapped h.past → Unreset h.past → Fresh h.past

namespace Accounted

variable {counter : String} {first : Nat} {h next : History} {st : Statement}

theorem start {s : Session} (empty : s.slots = .empty) :
    Accounted counter (s.counters.current counter).toNat (.start s) := by
  have standing := start_statements empty
  constructor
  · simp [standing]
  · simp [History.start]
  · intro _
    rw [standing]
    exact Numbered.start counter (s.counters.current counter)
  · simp [Fresh, births, History.start]

theorem newborn_traced (accounted : Accounted counter first h)
    (new : Newborn (.sharing counter) h st) : Traced h.past st.values := by
  cases new with
  | created =>
    rw [Factory.create_values]
    exact Traced.empty _
  | subSelect => exact Traced.empty _
  | clone stands =>
    rw [Statement.renumber_values]
    exact accounted.traced _ stands

theorem newborn_numbered (accounted : Accounted counter first h)
    (new : Newborn (.sharing counter) h st)
    (unwrapped : Unwrapped (.registered st.registry.ordinal :: h.past)) :
    Numbered counter first ((h.drawn st).current counter)
      (st.registry :: h.statements.map Statement.registry)
      (.registered st.registry.ordinal :: h.past) := by
  have numbered := accounted.numbered fun e there => unwrapped e (List.mem_cons_of_mem _ there)
  have stood {old : Statement} (stands : old ∈ h.statements) : old.registry.counter = counter :=
    numbered.onCounter _ (List.mem_map_of_mem (List.mem_map_of_mem stands))
  have on : st.registry.counter = counter := by
    cases new with
    | created onCounter => rw [Factory.create_registry]; exact onCounter
    | subSelect stands =>
      have parent := stood stands
      exact parent
    | clone stands => rw [Statement.renumber_registry]; exact stood stands
  have ordinal : st.registry.ordinal = h.session.counters.current counter + 1 := by
    rw [History.newborn_ordinal new, on]
    rfl
  have drawn : (h.drawn st).current counter = h.session.counters.current counter + 1 := by
    rw [History.drawn, on, Counters.current_draw, if_pos rfl]
  rw [drawn]
  exact numbered.draw on ordinal (unwrapped _ (List.mem_cons_self ..))

theorem leave (accounted : Accounted counter first h) (slots : next.statements.Subperm h.statements)
    (held : ∀ e ∈ next.held, Traced h.past e.binds)
    (counters : next.session.counters = h.session.counters) (past : next.past = h.past) :
    Accounted counter first next := by
  refine ⟨?_, ?_, ?_, ?_⟩ <;> rw [past]
  · exact fun st there => accounted.traced st (slots.subset there)
  · exact held
  · intro unwrapped
    rw [counters]
    exact (accounted.numbered unwrapped).sub (subperm_map _ slots)
  · exact accounted.fresh

theorem draw (accounted : Accounted counter first h) (new : Newborn (.sharing counter) h st)
    (slots : next.statements.Subperm (st :: h.statements))
    (held : ∀ e ∈ next.held, Traced h.past e.binds)
    (counters : next.session.counters = h.drawn st)
    (past : next.past = .registered st.registry.ordinal :: h.past) : Accounted counter first next := by
  have grows : h.past ⊆ .registered st.registry.ordinal :: h.past := List.subset_cons_self _ _
  refine ⟨?_, ?_, ?_, ?_⟩ <;> rw [past]
  · intro other there
    rcases List.mem_cons.mp (slots.subset there) with rfl | stood
    · exact (accounted.newborn_traced new).mono grows
    · exact (accounted.traced other stood).mono grows
  · exact fun e there => (held e there).mono grows
  · intro unwrapped
    rw [counters]
    exact (accounted.newborn_numbered new unwrapped).sub (subperm_map Statement.registry slots)
  · exact fun unwrapped unreset => accounted.fresh (fun e there => unwrapped e (grows there))
      fun o there => unreset o (grows there)

theorem compose (accounted : Accounted counter first h) {st' : Statement} {rest : List Statement}
    {call : Call Embedded} (before : h.statements.Perm (st :: rest))
    (after : next.statements.Perm (st' :: rest)) (composed : st.compose call = some st')
    (handed : ∀ e ∈ call.effects, e.bare.NamesNoKey)
    (absorbed : ∀ e, .absorb e ∈ call.effects → e ∈ h.held)
    (counters : next.session.counters = h.session.counters)
    (past : next.past = st.registry.recount
      (rest.map Statement.values ++ h.held.map Embedded.binds) h.past call.effects)
    (held : next.held = h.held) : Accounted counter first next := by
  have grows : h.past <:+ next.past := past ▸ Registry.recount_suffix ..
  have registry := Statement.compose_registry composed
  have stood : ∀ other ∈ rest, Traced h.past other.values := fun other there =>
    accounted.traced other (before.mem_iff.mpr (List.mem_cons_of_mem _ there))
  have own : Traced h.past st.registry.values :=
    accounted.traced st (before.mem_iff.mpr (List.mem_cons_self ..))
  have noted : ∀ s, .absorb s ∈ call.effects → Traced h.past s.binds :=
    fun s there => accounted.tracedHeld s (absorbed s there)
  have numbered (unwrapped : Unwrapped next.past) :
      Numbered counter first (h.session.counters.current counter)
        (st.registry :: rest.map Statement.registry) h.past :=
    (accounted.numbered fun e there => unwrapped e (grows.subset there)).sub
      (before.symm.map Statement.registry).subperm
  refine ⟨?_, ?_, ?_, ?_⟩
  · intro other there
    rcases List.mem_cons.mp (after.mem_iff.mp there) with rfl | old
    · rw [Statement.values, registry, past]
      exact Registry.recount_traced own handed noted
    · exact (stood other old).mono grows.subset
  · rw [held]
    exact fun e there => (accounted.tracedHeld e there).mono grows.subset
  · intro unwrapped
    have counted := Registry.recount_numbered (numbered unwrapped) (past ▸ unwrapped)
    rw [counters, past]
    rw [← registry] at counted
    exact counted.sub (after.map Statement.registry).subperm
  · intro unwrapped unreset
    have earlier := accounted.fresh (fun e there => unwrapped e (grows.subset there))
      fun o there => unreset o (grows.subset there)
    rw [past] at unwrapped unreset ⊢
    refine Registry.recount_fresh (numbered (past ▸ unwrapped)) own ?_ handed noted unwrapped unreset
      earlier
    intro m there
    rcases List.mem_append.mp there with there | there <;> obtain ⟨x, member, rfl⟩ := List.mem_map.mp there
    · exact stood x member
    · exact accounted.tracedHeld x member

theorem shift (accounted : Accounted counter first h) (shift : Shift (.sharing counter) h next) :
    Accounted counter first next := by
  have holds {e : Embedded} (there : Traced h.past e.binds) (same : next.held = e :: h.held) :
      ∀ e ∈ next.held, Traced h.past e.binds := by
    rw [same]
    exact List.forall_mem_cons.mpr ⟨there, accounted.tracedHeld⟩
  cases shift with
  | make st new slots counters past held =>
    exact accounted.draw new slots (held ▸ accounted.tracedHeld) counters past
  | renderClone sel new slots counters past held =>
    exact accounted.draw new (slots.trans (List.sublist_cons_self _ _).subperm)
      (holds (accounted.newborn_traced new) held) counters past
  | render sel stands slots counters past held =>
    exact accounted.leave slots (holds (accounted.traced _ stands) held) counters past
  | bring e allowed slots counters past held =>
    exact accounted.leave slots (holds (allowed.elim (accounted.tracedHeld e) Traced.brought) held)
      counters past
  | compose st st' rest call before after composed handed absorbed counters past held =>
    exact accounted.compose before after composed handed absorbed counters past held
  | leave slots counters past held =>
    exact accounted.leave slots (held ▸ accounted.tracedHeld) counters past

theorem shifts (accounted : Accounted counter first h) (path : Shifts (.sharing counter) h next) :
    Accounted counter first next := by
  induction path with
  | refl => exact accounted
  | tail _ step ih => exact ih.shift step

end Accounted

end SqlCompose
