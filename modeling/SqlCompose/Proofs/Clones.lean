import Mathlib.Data.List.TakeWhile
import SqlCompose.Proofs.Growth
import SqlCompose.Proofs.Selfsame

namespace SqlCompose

open Event (Unwrapped)
open Placeholder (isGenerated)

namespace Key

def reassign (own origin : UInt64) (k : Key) : Key := if k.ordinal = own then ⟨origin, k.sequence⟩ else k

def Under (ordinal : UInt64) (key : String) : Prop := ∃ sequence, key = text ⟨ordinal, sequence⟩

variable {own origin : UInt64} {key : String}

theorem under_text {k : Key} : Under own k.text ↔ k.ordinal = own := by
  constructor
  · rintro ⟨q, same⟩
    exact congrArg Key.ordinal (text_injective same)
  · rintro rfl
    exact ⟨k.sequence, rfl⟩

theorem not_under_of_chosen (chosen : Chosen key) : ¬ Under own key := by
  rintro ⟨q, rfl⟩
  obtain ⟨rest, starts⟩ := Placeholder.isGenerated_starts (Key.text_isGenerated ⟨own, q⟩)
  exact chosen (by rw [starts]; rfl)

theorem reassign_other {k : Key} (other : k.ordinal ≠ own) : reassign own origin k = k := if_neg other

theorem rename_reassign_other (other : ¬ Under own key) : rename (reassign own origin) key = key := by
  rcases rename_parts (reassign own origin) key with ⟨k, rfl, renamed⟩ | ⟨_, kept⟩
  · rw [renamed, reassign_other (mt under_text.mpr other)]
  · exact kept

-- A key of a clone and that of its original. Under the original's ordinal the clone has old keys only, and what it
-- has under its own the original had under none of the old ones.
structure Matched (own origin : UInt64) (old : List String) (key key' : String) : Prop where
  renamed : key' = rename (reassign own origin) key
  original : Under origin key → key ∈ old
  fresh : ∀ q, key = text ⟨own, q⟩ → text ⟨origin, q⟩ ∉ old

variable {old : List String}

theorem Matched.apart {k l : Key} {key' : String} (first : Matched own origin old k.text key')
    (second : Matched own origin old l.text key') (of : k.ordinal = own) : l.ordinal = own := by
  by_contra other
  have same : (k.reassign own origin).text = (l.reassign own origin).text := by
    rw [← rename_text, ← rename_text, ← first.renamed, ← second.renamed]
  rw [reassign_other other, reassign, if_pos of] at same
  refine first.fresh k.sequence (by rw [← of]) ?_
  rw [same]
  exact second.original (under_text.mpr (congrArg Key.ordinal (text_injective same)).symm)

theorem Matched.left_unique : Relator.LeftUnique (Matched own origin old) := by
  intro key other key' left right
  have same := left.renamed.symm.trans right.renamed
  rcases rename_parts (reassign own origin) key with ⟨k, rfl, renamed⟩ | ⟨unread, kept⟩ <;>
    rcases rename_parts (reassign own origin) other with ⟨l, rfl, renamed'⟩ | ⟨unread', kept'⟩
  case inl.inl =>
    have ordinal : k.ordinal = own ↔ l.ordinal = own := ⟨left.apart right, right.apart left⟩
    have keys : k.reassign own origin = l.reassign own origin :=
      text_injective (renamed.symm.trans (same.trans renamed'))
    by_cases of : k.ordinal = own
    · rw [reassign, reassign, if_pos of, if_pos (ordinal.mp of)] at keys
      have is : k = l := congrArg₂ Key.mk (of.trans (ordinal.mp of).symm) (Key.mk.inj keys).2
      rw [is]
    · rw [reassign_other of, reassign_other (mt ordinal.mpr of)] at keys
      rw [keys]
  case inl.inr => exact absurd (kept'.symm.trans (same.symm.trans renamed)) (unread' _)
  case inr.inl => exact absurd (kept.symm.trans (same.trans renamed')) (unread _)
  case inr.inr => exact kept.symm.trans (same.trans kept')

theorem Matched.unique : Relator.BiUnique (Matched own origin old) :=
  ⟨Matched.left_unique, fun _ _ _ left right => left.renamed.trans right.renamed.symm⟩

theorem Matched.of_chosen (chosen : Chosen key) : Matched own origin old key key where
  renamed := (rename_chosen chosen).symm
  original under := absurd under (not_under_of_chosen chosen)
  fresh q same := absurd ⟨q, same⟩ (not_under_of_chosen chosen)

theorem Matched.of_other (other : ¬ Under own key) (known : Under origin key → key ∈ old) :
    Matched own origin old key key where
  renamed := (rename_reassign_other other).symm
  original := known
  fresh q same := absurd ⟨q, same⟩ other

theorem Matched.generated (apart : own ≠ origin) {q : UInt64} (spared : text ⟨origin, q⟩ ∉ old) :
    Matched own origin old (text ⟨own, q⟩) (text ⟨origin, q⟩) where
  renamed := by
    rw [rename_text, reassign, if_pos rfl]
  original under := absurd (under_text.mp under) apart
  fresh q' same := (Key.mk.inj (text_injective same)).2 ▸ spared

end Key

def Usage.ordinary (counter : String → Prop) : Usage where
  counter := counter
  brings e := e.Given [':'] Ordinary
  hands _ e := e.Given [':'] Ordinary fun _ => True

def Call.beforeReset (calls : List (Call Embedded)) : List (Effect Embedded) :=
  (calls.flatMap Call.effects).takeWhile (· ≠ .reset)

structure Embedded.Foreign (ordinals : List UInt64) (e : Embedded) : Prop where
  arises : ∃ counters s commands h, s.slots = .empty ∧ Runs (.ordinary counters) (.start s) commands h ∧ e ∈ h.held
  spared : ∀ ordinal ∈ ordinals, ∀ key ∈ e.binds.keys, ¬ Key.Under ordinal key

def Call.Foreign (ordinals : List UInt64) (call : Call Embedded) : Prop :=
  ∀ e ∈ call.effects, e.Given [':'] Ordinary (Embedded.Foreign ordinals)

namespace Registry

-- The registry of a clone and that of its original, from the point on where the original bound the old keys.
structure Matches (own origin : UInt64) (old : List String) (copy r : Registry) : Prop where
  copied : copy.ordinal = own
  stayed : r.ordinal = origin
  sequence : copy.sequence = r.sequence
  values : copy.values.Alike (Key.Matched own origin old) Eq r.values

variable {own origin : UInt64} {old : List String} {copy r : Registry}
variable {e : Effect Embedded} {es : List (Effect Embedded)}

theorem Matches.carry (is : copy.Matches own origin old r) (apart : own ≠ origin)
    (given : e.Given [':'] Ordinary (Embedded.Foreign [origin, own])) (spared : ∀ k ∈ r.generates e, k.text ∉ old)
    (goes : e ≠ .reset) : (copy.carry e).Matches own origin old (r.carry e) := by
  cases e with
  | bind key value type => exact { is with values := is.values.insert Key.Matched.unique (.of_chosen given.2) rfl }
  | unbind key => exact { is with values := is.values.erase Key.Matched.unique (.of_chosen given.2) }
  | generate value type =>
    have next : r.nextKey = ⟨origin, r.sequence + 1⟩ := by rw [nextKey, is.stayed]
    have next' : copy.nextKey = ⟨own, r.sequence + 1⟩ := by rw [nextKey, is.copied, is.sequence]
    have free := spared r.nextKey (List.mem_cons_self ..)
    have key : Key.Matched own origin old copy.nextKey.text r.nextKey.text := by
      rw [next] at free ⊢
      rw [next']
      exact .generated apart free
    exact ⟨is.copied, is.stayed, congrArg (· + 1) is.sequence, is.values.insert Key.Matched.unique key rfl⟩
  | absorb e =>
    have same : e.binds.Alike (Key.Matched own origin old) Eq e.binds := by
      refine List.forall₂_same.mpr fun x member => ⟨.of_other ?_ fun under => absurd under ?_, rfl⟩
      · exact given.spared own (by simp) x.1 (OrderedMap.mem_keys_of_mem member)
      · exact given.spared origin (by simp) x.1 (OrderedMap.mem_keys_of_mem member)
    exact { is with values := is.values.merge Key.Matched.unique same }
  | reset => exact absurd rfl goes
  | text | column | table | handOut | clear => exact is

theorem Matches.reset (is : copy.Matches own origin old r) : copy.reset.Matches own origin [] r.reset :=
  ⟨is.copied, is.stayed, rfl, .nil⟩

theorem Matches.carryAll (is : copy.Matches own origin old r) (apart : own ≠ origin)
    (given : ∀ e ∈ es, e.Given [':'] Ordinary (Embedded.Foreign [origin, own]))
    (spared : ∀ k ∈ r.generatesAll (es.takeWhile (· ≠ .reset)), k.text ∉ old) :
    ∃ old', (copy.carryAll es).Matches own origin old' (r.carryAll es) := by
  induction es generalizing copy r old with
  | nil => exact ⟨old, is⟩
  | cons e rest ih =>
    obtain ⟨here, later⟩ := List.forall_mem_cons.mp given
    by_cases goes : e = .reset
    · subst goes
      exact ih is.reset later fun _ _ => List.not_mem_nil
    · rw [List.takeWhile_cons_of_pos (by simpa using goes)] at spared
      obtain ⟨first, others⟩ := List.forall_mem_append.mp spared
      exact ih (is.carry apart here first goes) later others

theorem carry_ordinal (r : Registry) (e : Effect Embedded) : (r.carry e).ordinal = r.ordinal := by
  cases e <;> rfl

theorem generates_ordinal {k : Key} (member : k ∈ r.generates e) : k.ordinal = r.ordinal := by
  cases e with
  | generate => rw [List.mem_singleton.mp member]; rfl
  | _ => cases member

theorem generatesAll_ordinal {k : Key} (member : k ∈ r.generatesAll es) : k.ordinal = r.ordinal := by
  induction es generalizing r with
  | nil => cases member
  | cons e rest ih =>
    rcases List.mem_append.mp member with here | later
    · exact generates_ordinal here
    · exact (ih later).trans (r.carry_ordinal e)

theorem generatesAll_above {k : Key} (goes : .reset ∉ es) (unwrapped : ∀ k ∈ r.generatesAll es, k.sequence ≠ 0)
    (member : k ∈ r.generatesAll es) : r.sequence.toNat < k.sequence.toNat := by
  induction es generalizing r with
  | nil => cases member
  | cons e rest ih =>
    obtain ⟨first, others⟩ := List.forall_mem_append.mp unwrapped
    have later := ih (r := r.carry e) (fun inside => goes (List.mem_cons_of_mem _ inside)) others
    cases e with
    | generate value type =>
      have next : (r.sequence + 1).toNat = r.sequence.toNat + 1 := word_succ (first _ (List.mem_cons_self ..))
      have above : (r.carry (.generate value type)).sequence = r.sequence + 1 := rfl
      rw [above, next] at later
      rcases List.mem_cons.mp member with rfl | rest
      · rw [nextKey, next]
        exact Nat.lt_succ_self _
      · exact (Nat.lt_succ_self _).trans (later rest)
    | reset => exact absurd (List.mem_cons_self ..) goes
    | _ => exact later member

end Registry

-- A clone and its original as far as their texts go: what they bind is followed piece by piece.
def Renumbering.cloning (own origin : UInt64) : Renumbering where
  rename := Key.reassign own origin
  ordinal o o' := o = own ∧ o' = origin
  counter _ := True
  binds _ _ := True
  renames ordinal _ := by
    obtain ⟨rfl, rfl⟩ := ordinal
    exact if_pos rfl
  unbound := trivial
  brought _ := trivial
  named _ _ _ := trivial
  generated _ _ _ _ := trivial
  erased _ _ := trivial
  merged _ _ := trivial

theorem ordinary_covered {counters : String → Prop} {s : Session} {commands : List Command} {h : History}
    (empty : s.slots = .empty) (runs : Runs (.ordinary counters) (.start s) commands h) :
    (∀ st ∈ h.statements, st.Covered) ∧ ∀ e ∈ h.held, e.Covered := by
  have colonless (e : Effect Unit) (given : e.Given [':'] Ordinary fun _ => True) : e.Colonless := by
    cases e with
    | text | table => exact Text.plain_iff.mpr given
    | column => exact given.2
    | unbind => exact given
    | bind | generate | absorb | handOut | clear | reset => trivial
  have brought (e : Embedded) (given : e.Given [':'] Ordinary) : Text.Plain e.sql := Text.plain_iff.mpr given.1
  have wider : Runs .colonless (.start s) commands h :=
    runs.mono (fun _ _ => trivial) brought fun _ e => colonless e
  exact covered_hereditary.runs (start_named empty) (.start empty) wider

theorem Embedded.Foreign.alike {e : Embedded} {own origin : UInt64} (foreign : e.Foreign [origin, own]) :
    e.Alike (.renaming (.cloning own origin)) e := by
  obtain ⟨counters, s, commands, h, empty, runs, held⟩ := foreign.arises
  refine ⟨((ordinary_covered empty runs).2 e held).renames fun key member => ?_, trivial⟩
  exact Key.rename_reassign_other (foreign.spared own (by simp) key member)

namespace Statement

variable {st next : Statement} {own : UInt64} {calls : List (Call Embedded)}

theorem composeAll_registry (composed : st.composeAll calls = some next) :
    next.registry = st.registry.carryAll (calls.flatMap Call.effects) := by
  induction calls generalizing st with
  | nil =>
    cases composed
    rfl
  | cons call rest ih =>
    rw [composeAll, List.foldlM_cons] at composed
    obtain ⟨middle, first, later⟩ := Option.bind_eq_some_iff.mp composed
    rw [List.flatMap_cons, Registry.carryAll_append, ← compose_registry first]
    exact ih later

theorem compose_kind {call : Call Embedded} (composed : st.compose call = some next) : next.kind = st.kind := by
  cases composes_of_compose composed <;> rfl

theorem composeAll_of_kind (kinds : ∀ call ∈ calls, call.kind = st.kind) : ∃ next, st.composeAll calls = some next := by
  induction calls generalizing st with
  | nil => exact ⟨st, rfl⟩
  | cons call rest ih =>
    obtain ⟨here, later⟩ := List.forall_mem_cons.mp kinds
    obtain ⟨middle, first⟩ := Option.isSome_iff_exists.mp ((st.compose_isSome call).mpr here.symm)
    obtain ⟨next, composed⟩ := ih (compose_kind first ▸ later)
    exact ⟨next, by rw [composeAll, List.foldlM_cons, first]; exact composed⟩

structure Lacks (st : Statement) (ordinal : UInt64) : Prop where
  other : ordinal ≠ st.registry.ordinal
  unheld : ∀ key ∈ st.values.keys, ¬ Key.Under ordinal key

def generated (st : Statement) (es : List (Effect Embedded)) : List String := (st.registry.generatesAll es).map Key.text

def Spares (st : Statement) (calls : List (Call Embedded)) : Prop :=
  ∀ key ∈ st.generated (Call.beforeReset calls), key ∉ st.values.keys

theorem renumber_composeAll (covered : st.Covered) (lacks : st.Lacks own)
    (given : ∀ call ∈ calls, call.kind = st.kind ∧ call.Foreign [st.registry.ordinal, own]) (spares : st.Spares calls) :
    ∃ next copy, st.composeAll calls = some next ∧ (st.renumber own).composeAll calls = some copy ∧
      next.view = copy.view.renamed (Key.reassign own st.registry.ordinal) := by
  let r : Renumbering := .cloning own st.registry.ordinal
  have fixed : ∀ key ∈ st.values.keys, Key.rename r.rename key = key :=
    fun key member => Key.rename_reassign_other (lacks.unheld key member)
  have begun : (st.renumber own).Alike (.renaming r) st := covered.selfsame fixed ⟨rfl, rfl⟩ trivial trivial
  have like : List.Forall₂ (Call.Alike (.renaming r)) calls calls := by
    refine List.forall₂_same.mpr fun call member => Call.selfsame fun e inside => ?_
    exact ((given call member).2 e inside).mono (fun _ ordinary => ordinary.2) fun _ foreign => foreign.alike
  have matched : (st.renumber own).registry.Matches own st.registry.ordinal st.values.keys st.registry := by
    rw [renumber_registry]
    refine ⟨rfl, rfl, rfl, List.forall₂_same.mpr fun x member => ⟨.of_other ?_ fun _ => ?_, rfl⟩⟩
    · exact lacks.unheld x.1 (OrderedMap.mem_keys_of_mem member)
    · exact OrderedMap.mem_keys_of_mem member
  have pieces : ∀ e ∈ calls.flatMap Call.effects,
      e.Given [':'] Ordinary (Embedded.Foreign [st.registry.ordinal, own]) := by
    intro e member
    obtain ⟨call, there, inside⟩ := List.mem_flatMap.mp member
    exact (given call there).2 e inside
  have spared : ∀ k ∈ st.registry.generatesAll (Call.beforeReset calls), k.text ∉ st.values.keys :=
    fun k member => spares k.text (List.mem_map_of_mem member)
  obtain ⟨next, composed⟩ := composeAll_of_kind fun call member => (given call member).1
  have together := begun.composeAll (fun _ _ => trivial) like
  rw [composed] at together
  generalize copied : (st.renumber own).composeAll calls = x at together
  cases together with
  | @some copy _ alike =>
    obtain ⟨old, ends⟩ := matched.carryAll lacks.other pieces spared
    rw [← composeAll_registry composed, ← composeAll_registry copied] at ends
    exact ⟨next, copy, composed, rfl, alike.view_renamed (ends.values.imp fun _ _ same => same.imp_left (·.renamed))⟩

end Statement

namespace Accounted

variable {counter : String} {first : Nat} {h : History} {st : Statement}

theorem lacks_next (accounted : Accounted counter first h) (unwrapped : Unwrapped h.past) (stands : st ∈ h.statements)
    (noWrap : h.session.counters.current counter + 1 ≠ 0) : st.Lacks (h.session.counters.current counter + 1) := by
  have numbered := accounted.numbered unwrapped
  have unused := numbered.unused noWrap
  refine ⟨fun same => ?_, fun key member under => ?_⟩
  · exact unused _ (numbered.known _ (List.mem_map_of_mem (List.mem_map_of_mem stands))) same.symm
  · obtain ⟨q, rfl⟩ := under
    obtain ⟨⟨_, p⟩, entry, rfl⟩ := List.mem_map.mp member
    obtain ⟨b, born, same, _⟩ := accounted.traced st stands _ p entry (Key.text_isGenerated _)
    refine unused _ (numbered.ofKnown b (Event.mem_births.mp born)) ?_
    rw [Key.text_injective same]

theorem spares (accounted : Accounted counter first h) (unwrapped : Unwrapped h.past) (stands : st ∈ h.statements)
    (unreset : .restarted st.registry.ordinal ∉ h.past) {calls : List (Call Embedded)}
    (noWrap : ∀ k ∈ st.registry.generatesAll (Call.beforeReset calls), k.sequence ≠ 0) : st.Spares calls := by
  have numbered := accounted.numbered unwrapped
  intro key member held
  obtain ⟨k, handed, rfl⟩ := List.mem_map.mp member
  obtain ⟨⟨name, p⟩, entry, is : name = k.text⟩ := List.mem_map.mp held
  obtain ⟨b, born, same, _⟩ := accounted.traced st stands name p entry (is ▸ k.text_isGenerated)
  have key : b.key = k := Key.text_injective (same.trans is)
  have ordinal : b.key.ordinal = st.registry.ordinal := key ▸ Registry.generatesAll_ordinal handed
  obtain ⟨middle, older, past⟩ := List.append_of_mem (Event.mem_births.mp born)
  have counts : b ∈ Event.since b.key.ordinal h.past := by
    rw [past, ordinal.symm] at unreset
    rw [past]
    exact Event.mem_since_of_append fun inside => unreset (List.mem_append_left _ inside)
  have reached := numbered.reached st.registry (List.mem_map_of_mem stands) b (ordinal ▸ counts)
  have continuing : .reset ∉ Call.beforeReset calls := fun inside => by simpa using List.mem_takeWhile_imp inside
  have above := Registry.generatesAll_above continuing noWrap handed
  rw [key] at reached
  omega

end Accounted

theorem ordinary_accounted {counter : String} {counters : String → Prop} (only : ∀ c, counters c → c = counter)
    {s : Session} {commands : List Command} {h : History} (empty : s.slots = .empty)
    (runs : Runs (.ordinary counters) (.start s) commands h) :
    Accounted counter (s.counters.current counter).toNat h := by
  have ungenerated (key : String) (ordinary : Ordinary key) : isGenerated key = false :=
    Bool.eq_false_iff.mpr ordinary.not_generated
  have unnamed (e : Effect Unit) (given : e.Given [':'] Ordinary fun _ => True) : e.NamesNoKey := by
    cases e with
    | bind key | unbind key => exact ungenerated key given
    | column key => exact ungenerated key given.2
    | text | table | generate | absorb | handOut | clear | reset => trivial
  have brought (e : Embedded) (given : e.Given [':'] Ordinary) : ∀ key ∈ e.binds.keys, isGenerated key = false :=
    fun key member => ungenerated key (given.2 key member)
  have sharing : Runs (.sharing counter) (.start s) commands h := runs.mono only brought fun _ e => unnamed e
  exact (Accounted.start empty).shifts (runs_shifts (start_named empty) sharing).1

theorem Statement.renumber_view (st : Statement) (ordinal : UInt64) : (st.renumber ordinal).view = st.view := by
  cases st <;> rfl

-- Whatever calls follow, as long as they take in no keys of either, the clone goes on as the original
-- does, but for the ordinal of its new keys. On one counter that ordinal is always new, and only a reset
-- original can generate a key that it binds already.
theorem clone_transparent {counters : String → Prop} {s : Session} {commands : List Command} {h : History}
    {source : String} {st : Statement} (empty : s.slots = .empty)
    (runs : Runs (.ordinary counters) (.start s) commands h)
    (found : h.session.slots.get? source = some (.plain st)) :
    let own := h.session.counters.current st.registry.counter + 1
    let copy := st.renumber own
    copy.view = st.view ∧
    (∀ name, ∃ next, Session.step (.clone source name) h.session = .ok (.silent, next) ∧
      next.slots = h.session.slots.insert name (.plain copy) ∧
      ∀ counter, next.counters.current counter =
        if st.registry.counter = counter then own else h.session.counters.current counter) ∧
    (∀ es, (∀ key ∈ st.generated es, Key.Under st.registry.ordinal key) ∧
      ∀ key ∈ copy.generated es, Key.Under own key ∧
        (own ≠ st.registry.ordinal → ¬ Key.Under st.registry.ordinal key)) ∧
    (st.Lacks own → ∀ calls : List (Call Embedded),
      (∀ call ∈ calls, call.kind = st.kind ∧ call.Foreign [st.registry.ordinal, own]) → st.Spares calls →
      ∃ next copy', st.composeAll calls = some next ∧ copy.composeAll calls = some copy' ∧
        next.view = copy'.view.renamed (Key.reassign own st.registry.ordinal)) ∧
    ∀ counter, (∀ c, counters c → c = counter) → Unwrapped h.past → own ≠ 0 → st.Lacks own ∧
      (.restarted st.registry.ordinal ∉ h.past → ∀ calls : List (Call Embedded),
        (∀ k ∈ st.registry.generatesAll (Call.beforeReset calls), k.sequence ≠ 0) → st.Spares calls) := by
  intro own copy
  have stands : st ∈ h.statements := History.statement?_member (by rw [History.statement?, found]; rfl)
  have copied : copy.registry = st.registry.renumber own := Statement.renumber_registry ..
  refine ⟨st.renumber_view own, fun name => ?step, fun es => ?keys, fun lacks calls given spares => ?calls,
    fun counter only unwrapped noWrap => ?counter⟩
  case step =>
    refine ⟨_, Session.clone_of_found name found, rfl, fun counter => ?_⟩
    exact h.session.counters.current_draw st.registry.counter counter
  case keys =>
    refine ⟨fun key member => ?_, fun key member => ?_⟩ <;> obtain ⟨k, handed, rfl⟩ := List.mem_map.mp member <;>
      have ordinal := Registry.generatesAll_ordinal handed
    · exact Key.under_text.mpr ordinal
    · rw [copied] at ordinal
      exact ⟨Key.under_text.mpr ordinal, fun apart under => apart (ordinal.symm.trans (Key.under_text.mp under))⟩
  case calls =>
    have covered := (ordinary_covered empty runs).1 st stands
    exact st.renumber_composeAll covered lacks given spares
  case counter =>
    have accounted := ordinary_accounted only empty runs
    have on : st.registry.counter = counter := (accounted.numbered unwrapped).onCounter _
      (List.mem_map_of_mem (List.mem_map_of_mem stands))
    have lacks := accounted.lacks_next unwrapped stands (on ▸ noWrap)
    rw [← on] at lacks
    exact ⟨lacks, fun unreset calls noWrap => accounted.spares unwrapped stands unreset noWrap⟩

def SelectCall.compare {ρ : Type} (fragment : String) (value : Inline ρ) : SelectCall ρ :=
  .filter (.condition (.add .and fragment (some value)))

def beforeCloning : List Command := [
  .create "s" .select (.standalone "sqlite" "main") false,
  .call "s" (.select (.table (.text "t"))),
  .call "s" (.select (.compare "a = " (.ofValue (.int 1)))),
  .subSelect "s" "b",
  .call "b" (.select (.table (.text "u"))),
  .call "b" (.select (.compare "x = " (.ofValue (.int 2))))]

def toClone : Select :=
  ((Select.new .sqlite "main" 1).apply (.table (.text "t"))).apply (.compare "a = " (.ofValue (.int 1)))

def toEmbed : Embedded := ⟨"SELECT * FROM u WHERE x = :_2_1_", .ofList [("_2_1_", ⟨.int 2, .int⟩)]⟩

theorem toEmbed_foreign : toEmbed.Foreign [1, 3] where
  arises := by
    have run : ∃ h, Runs (.ordinary (· = "main")) (.start {}) (beforeCloning ++ [.embed "b"]) h ∧ toEmbed ∈ h.held := by
      refine exists_run (· = "main") (fun _ e => e.Given [':'] Ordinary fun _ => True) ?_ (fun _ => id) fun _ _ => id
      decide +kernel
    obtain ⟨h, runs, held⟩ := run
    exact ⟨_, {}, _, h, rfl, runs, held⟩
  spared ordinal member key held := by
    have is : key = Key.text ⟨2, 1⟩ := List.mem_singleton.mp held
    rw [is, Key.under_text]
    rintro rfl
    exact absurd member (by decide)

theorem clone_transparent_unionEmbedded :
    let calls : List (Call Embedded) := [.select (.union true), .select (.table (.statement toEmbed)),
      .select (.compare "b IN " (.list [.int 3, .int 4] none))]
    ∃ h, ({} : Session).slots = .empty ∧ Runs (.ordinary (· = "main")) (.start {}) beforeCloning h ∧
      h.session.slots.get? "s" = some (.plain (.select toClone)) ∧ h.session.counters.current "main" + 1 = 3 ∧
      Unwrapped h.past ∧ .restarted 1 ∉ h.past ∧
      (∃ next, Session.step (.clone "s" "c") h.session = .ok (.silent, next) ∧
        next.slots = h.session.slots.insert "c" (.plain (.select (toClone.renumber 3)))) ∧
      (Statement.select toClone).Lacks 3 ∧ (Statement.select toClone).Spares calls ∧
      ∃ next copy, (Statement.select toClone).composeAll calls = some next ∧
        (Statement.select (toClone.renumber 3)).composeAll calls = some copy ∧
        next.view = copy.view.renamed (Key.reassign 3 1) ∧
        copy.sql = "SELECT * FROM t WHERE a = :_1_1_ UNION ALL " ++
          "SELECT * FROM SELECT * FROM u WHERE x = :_2_1_ WHERE b IN (:_3_2_, :_3_3_)" ∧
        copy.values.keys = ["_1_1_", "_2_1_", "_3_2_", "_3_3_"] := by
  intro calls
  have run : ∃ h, Runs (.ordinary (· = "main")) (.start {}) beforeCloning h ∧
      h.session.slots.get? "s" = some (.plain (.select toClone)) ∧ h.session.counters.current "main" + 1 = 3 ∧
      Unwrapped h.past ∧ .restarted 1 ∉ h.past := by
    refine exists_run (· = "main") (fun _ e => e.Given [':'] Ordinary fun _ => True) ?_ (fun _ => id) fun _ _ => id
    decide +kernel
  obtain ⟨h, runs, found, ordinal, unwrapped, unreset⟩ := run
  have given : ∀ call ∈ calls, call.kind = .select ∧ call.Foreign [1, 3] := by
    refine List.forall_mem_cons.mpr ⟨⟨rfl, nofun⟩, List.forall_mem_cons.mpr ⟨⟨rfl, ?_⟩, ?_⟩⟩
    · exact List.forall_mem_singleton.mpr toEmbed_foreign
    · exact List.forall_mem_singleton.mpr ⟨rfl, List.forall_mem_cons.mpr ⟨(by decide : Text.Without [':'] "b IN "),
        List.forall_mem_cons.mpr ⟨trivial, List.forall_mem_singleton.mpr trivial⟩⟩⟩
  obtain ⟨_, stepped, _, goesOn, single⟩ := clone_transparent rfl runs found
  have drawn : h.session.counters.current (Statement.select toClone).registry.counter + 1 = 3 := ordinal
  rw [drawn] at stepped goesOn single
  obtain ⟨lacks, spares⟩ := single "main" (fun _ => id) unwrapped (by decide)
  have spared : (Statement.select toClone).Spares calls := spares unreset calls (by decide +kernel)
  obtain ⟨reached, cloned, slots, _⟩ := stepped "c"
  obtain ⟨next, copy, composed, copied, same⟩ := goesOn lacks calls given spared
  have shown : ((Statement.select (toClone.renumber 3)).composeAll calls).map (fun st => (st.sql, st.values.keys)) =
      some ("SELECT * FROM t WHERE a = :_1_1_ UNION ALL " ++
          "SELECT * FROM SELECT * FROM u WHERE x = :_2_1_ WHERE b IN (:_3_2_, :_3_3_)",
        ["_1_1_", "_2_1_", "_3_2_", "_3_3_"]) := by decide +kernel
  have copied' : (Statement.select (toClone.renumber 3)).composeAll calls = some copy := copied
  rw [copied', Option.map_some, Option.some.injEq, Prod.mk.injEq] at shown
  exact ⟨h, rfl, runs, found, ordinal, unwrapped, unreset, ⟨reached, cloned, slots⟩, lacks, spared, next, copy,
    composed, copied', same, shown.1, shown.2⟩

-- A select that was reset and has taken in a copy of what it was: it binds the key that it generates next.
def resetBeforeCloning : List Command := [
  .create "s" .select (.standalone "sqlite" "main") false,
  .call "s" (.select (.compare "a = " (.ofValue (.int 1)))),
  .clone "s" "copy",
  .call "s" (.select .reset),
  .call "s" (.select (.table (.statement (.slot "copy"))))]

def resetToClone : Select :=
  (Select.new .sqlite "main" 1).apply (.table (.statement
    ⟨"SELECT * WHERE a = :_1_1_", .ofList [("_1_1_", ⟨.int 1, .int⟩)]⟩))

theorem reset_original_parts_from_clone :
    ∃ h, Runs (.ordinary (· = "main")) (.start {}) resetBeforeCloning h ∧
      h.session.slots.get? "s" = some (.plain (.select resetToClone)) ∧ h.session.counters.current "main" + 1 = 3 ∧
      Unwrapped h.past ∧
      ∃ calls : List (Call Embedded), (∀ call ∈ calls, call.kind = .select ∧ call.Foreign [1, 3]) ∧
      ∃ next copy, (Statement.select resetToClone).composeAll calls = some next ∧
        ((Statement.select resetToClone).renumber 3).composeAll calls = some copy ∧
        next.view ≠ copy.view.renamed (Key.reassign 3 1) := by
  have run : ∃ h, Runs (.ordinary (· = "main")) (.start {}) resetBeforeCloning h ∧
      h.session.slots.get? "s" = some (.plain (.select resetToClone)) ∧ h.session.counters.current "main" + 1 = 3 ∧
      Unwrapped h.past := by
    refine exists_run (· = "main") (fun _ e => e.Given [':'] Ordinary fun _ => True) ?_ (fun _ => id) fun _ _ => id
    decide +kernel
  obtain ⟨h, runs, found, ordinal, unwrapped⟩ := run
  let call : SelectCall Embedded := .compare "b = " (.ofValue (.int 5))
  refine ⟨h, runs, found, ordinal, unwrapped, [.select call], List.forall_mem_singleton.mpr ⟨rfl, ?_⟩,
    .select (resetToClone.apply call), .select ((resetToClone.renumber 3).apply call), rfl, rfl, by decide +kernel⟩
  exact List.forall_mem_cons.mpr ⟨(by decide : Text.Without [':'] "b = "), List.forall_mem_singleton.mpr trivial⟩

end SqlCompose
