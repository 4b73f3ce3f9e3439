import SqlCompose.Proofs.Keys
import SqlCompose.Proofs.Runs

namespace SqlCompose

namespace Event

def wraps : Event → Prop
  | .registered ordinal => ordinal = 0
  | .generated b => b.key.sequence = 0
  | .restarted _ => False

instance : DecidablePred wraps
  | .registered ordinal => inferInstanceAs (Decidable (ordinal = 0))
  | .generated b => inferInstanceAs (Decidable (b.key.sequence = 0))
  | .restarted _ => inferInstanceAs (Decidable False)

def ordinals (past : List Event) : List UInt64 := past.filterMap ordinal?

def births (past : List Event) : List Birth := past.filterMap birth?

def since (ordinal : UInt64) : List Event → List Birth
  | [] => []
  | .generated b :: past => if b.key.ordinal = ordinal then b :: since ordinal past else since ordinal past
  | .restarted o :: past => if o = ordinal then [] else since ordinal past
  | .registered _ :: past => since ordinal past

-- Before a key is generated again its registry is reset.
def Renewed : List Event → Prop
  | [] => True
  | .generated b :: past => (∀ earlier ∈ since b.key.ordinal past, earlier.key ≠ b.key) ∧ Renewed past
  | .registered _ :: past | .restarted _ :: past => Renewed past

theorem mem_births {past : List Event} {b : Birth} : b ∈ births past ↔ .generated b ∈ past := by
  constructor
  · intro member
    obtain ⟨e, there, same⟩ := List.mem_filterMap.mp member
    cases e <;> cases same
    exact there
  · exact fun there => List.mem_filterMap.mpr ⟨_, there, rfl⟩

theorem mem_since {ordinal : UInt64} {past : List Event} {b : Birth} (member : b ∈ since ordinal past) :
    .generated b ∈ past ∧ b.key.ordinal = ordinal := by
  induction past with
  | nil => cases member
  | cons e past ih =>
    cases e with
    | registered o => exact (ih member).imp_left (List.mem_cons_of_mem _)
    | generated born =>
      unfold since at member
      split at member
      · rcases List.mem_cons.mp member with rfl | earlier
        · exact ⟨List.mem_cons_self .., ‹_›⟩
        · exact (ih earlier).imp_left (List.mem_cons_of_mem _)
      · exact (ih member).imp_left (List.mem_cons_of_mem _)
    | restarted o =>
      unfold since at member
      split at member
      · cases member
      · exact (ih member).imp_left (List.mem_cons_of_mem _)

theorem mem_since_of_append {middle older : List Event} {b : Birth}
    (unrestarted : .restarted b.key.ordinal ∉ middle) :
    b ∈ since b.key.ordinal (middle ++ .generated b :: older) := by
  induction middle with
  | nil => simp [since]
  | cons e middle ih =>
    have later := ih fun member => unrestarted (List.mem_cons_of_mem _ member)
    cases e with
    | registered o => exact later
    | generated born =>
      simp only [List.cons_append, since]
      split
      · exact List.mem_cons_of_mem _ later
      · exact later
    | restarted o =>
      have other : o ≠ b.key.ordinal := fun same => unrestarted (same ▸ List.mem_cons_self ..)
      simpa [since, other] using later

theorem Renewed.suffix {newer past : List Event} (renewed : Renewed (newer ++ past)) : Renewed past := by
  induction newer with
  | nil => exact renewed
  | cons e newer ih =>
    cases e with
    | registered o => exact ih renewed
    | generated b => exact ih renewed.2
    | restarted o => exact ih renewed

theorem Renewed.restarted {newer middle older : List Event} {b earlier : Birth}
    (renewed : Renewed (newer ++ .generated b :: (middle ++ .generated earlier :: older)))
    (same : earlier.key = b.key) : .restarted b.key.ordinal ∈ middle := by
  by_contra unrestarted
  have counts : earlier ∈ since b.key.ordinal (middle ++ .generated earlier :: older) := by
    rw [← same] at unrestarted ⊢
    exact mem_since_of_append unrestarted
  exact renewed.suffix.1 earlier counts same

end Event

open Event (ordinals births since Renewed)

theorem word_succ {n : UInt64} (noWrap : n + 1 ≠ 0) : (n + 1).toNat = n.toNat + 1 := by
  have bound := n.toNat_lt
  have sum : (n + 1).toNat = (n.toNat + 1) % 2 ^ 64 := UInt64.toNat_add n 1
  by_cases last : n.toNat + 1 = 2 ^ 64
  · exact absurd (UInt64.toNat_inj.mp (by rw [sum, last]; rfl)) noWrap
  · omega

-- The registries in use on one counter, given the last ordinal and the notes so far: none has generated a sequence
-- number beyond its current one since it was last reset.
structure Numbered (counter : String) (first : Nat) (current : UInt64) (live : List Registry)
    (past : List Event) : Prop where
  onCounter : ∀ c ∈ live.map Registry.counter, c = counter
  distinct : (live.map Registry.ordinal).Nodup
  known : ∀ o ∈ live.map Registry.ordinal, o ∈ ordinals past
  apart : (ordinals past).Nodup
  bounded : ∀ o ∈ ordinals past, o.toNat ≤ current.toNat
  counted : current.toNat = first + (ordinals past).length
  ofKnown : ∀ b, .generated b ∈ past → b.key.ordinal ∈ ordinals past
  reached : ∀ r ∈ live, ∀ b ∈ since r.ordinal past, b.key.sequence.toNat ≤ r.sequence.toNat
  renewed : Renewed past

theorem subperm_map {α β : Type} (f : α → β) {xs ys : List α} (sub : xs.Subperm ys) :
    (xs.map f).Subperm (ys.map f) := by
  obtain ⟨zs, perm, sublist⟩ := sub
  exact ⟨zs.map f, perm.map f, sublist.map f⟩

namespace Numbered

variable {counter : String} {first : Nat} {current : UInt64} {live rest : List Registry}
  {past : List Event} {r : Registry}

theorem start (counter : String) (current : UInt64) : Numbered counter current.toNat current [] [] where
  onCounter := by simp
  distinct := by simp
  known := by simp
  apart := by simp [ordinals]
  bounded := by simp [ordinals]
  counted := by simp [ordinals]
  ofKnown := by simp
  reached := by simp
  renewed := trivial

theorem sub (numbered : Numbered counter first current live past) {fewer : List Registry}
    (sub : fewer.Subperm live) : Numbered counter first current fewer past where
  onCounter c member := numbered.onCounter c ((subperm_map Registry.counter sub).subset member)
  distinct := by
    obtain ⟨_, perm, sublist⟩ := subperm_map Registry.ordinal sub
    exact perm.nodup_iff.mp (sublist.nodup numbered.distinct)
  known o member := numbered.known o ((subperm_map Registry.ordinal sub).subset member)
  apart := numbered.apart
  bounded := numbered.bounded
  counted := numbered.counted
  ofKnown := numbered.ofKnown
  reached r member := numbered.reached r (sub.subset member)
  renewed := numbered.renewed

theorem unused (numbered : Numbered counter first current live past) (noWrap : current + 1 ≠ 0) :
    ∀ o ∈ ordinals past, o ≠ current + 1 := by
  intro o member same
  have bound := numbered.bounded o member
  have next := word_succ noWrap
  rw [same] at bound
  omega

theorem draw (numbered : Numbered counter first current live past) (on : r.counter = counter)
    (drawn : r.ordinal = current + 1) (noWrap : r.ordinal ≠ 0) :
    Numbered counter first (current + 1) (r :: live) (.registered r.ordinal :: past) := by
  have next := word_succ (drawn ▸ noWrap)
  have above : ∀ o ∈ ordinals past, o ≠ r.ordinal := drawn ▸ numbered.unused (drawn ▸ noWrap)
  have notes : ordinals (.registered r.ordinal :: past) = r.ordinal :: ordinals past := rfl
  refine ⟨?_, ?_, ?_, ?_, ?_, ?_, ?_, ?_, numbered.renewed⟩
  · exact List.forall_mem_cons.mpr ⟨on, numbered.onCounter⟩
  · exact List.nodup_cons.mpr ⟨fun member => above _ (numbered.known _ member) rfl, numbered.distinct⟩
  · rw [notes]
    exact List.forall_mem_cons.mpr
      ⟨List.mem_cons_self .., fun o there => List.mem_cons_of_mem _ (numbered.known o there)⟩
  · exact List.nodup_cons.mpr ⟨fun member => above _ member rfl, numbered.apart⟩
  · intro o member
    rcases List.mem_cons.mp member with rfl | there
    · exact Nat.le_of_eq (congrArg UInt64.toNat drawn)
    · have bound := numbered.bounded o there
      omega
  · rw [notes, List.length_cons, next, numbered.counted]
    omega
  · intro b member
    rcases List.mem_cons.mp member with same | there
    · cases same
    · exact List.mem_cons_of_mem _ (numbered.ofKnown b there)
  · intro other there b member
    rcases List.mem_cons.mp there with rfl | stood
    · obtain ⟨born, same⟩ := Event.mem_since member
      rcases List.mem_cons.mp born with same' | earlier
      · cases same'
      · exact absurd same (above _ (numbered.ofKnown b earlier))
    · exact numbered.reached other stood b member

theorem generate (numbered : Numbered counter first current (r :: rest) past) {b : Birth}
    (next : b.key = r.nextKey) (noWrap : b.key.sequence ≠ 0) {values : BindMap} :
    Numbered counter first current ({ r with sequence := b.key.sequence, values := values } :: rest)
      (.generated b :: past) := by
  have distinct := List.nodup_cons.mp numbered.distinct
  have ordinal : b.key.ordinal = r.ordinal := congrArg Key.ordinal next
  have sequence : b.key.sequence.toNat = r.sequence.toNat + 1 := by
    rw [next] at noWrap ⊢
    exact word_succ noWrap
  have reached := List.forall_mem_cons.mp numbered.reached
  refine ⟨numbered.onCounter, numbered.distinct, numbered.known, numbered.apart, numbered.bounded,
    numbered.counted, ?_, ?_, ?_, numbered.renewed⟩
  · intro born member
    rcases List.mem_cons.mp member with same | there
    · cases same
      rw [ordinal]
      exact numbered.known r.ordinal (List.mem_cons_self ..)
    · exact numbered.ofKnown born there
  · refine List.forall_mem_cons.mpr ⟨fun born member => ?_, fun other there born member => ?_⟩
    · simp only [since, ordinal, ↓reduceIte] at member
      rcases List.mem_cons.mp member with rfl | earlier
      · exact Nat.le_refl _
      · have bound := reached.1 born earlier
        simp only [sequence]
        omega
    · have apart : b.key.ordinal ≠ other.ordinal := by
        rw [ordinal]
        exact fun same => distinct.1 (List.mem_map.mpr ⟨other, there, same.symm⟩)
      simp only [since, apart, ↓reduceIte] at member
      exact reached.2 other there born member
  · intro earlier member same
    rw [ordinal] at member
    have bound := reached.1 earlier member
    rw [same, sequence] at bound
    omega

theorem restart (numbered : Numbered counter first current (r :: rest) past) :
    Numbered counter first current (r.reset :: rest) (.restarted r.ordinal :: past) := by
  have distinct := List.nodup_cons.mp numbered.distinct
  refine ⟨numbered.onCounter, numbered.distinct, numbered.known, numbered.apart, numbered.bounded,
    numbered.counted, ?_, ?_, numbered.renewed⟩
  · intro born member
    rcases List.mem_cons.mp member with same | there
    · cases same
    · exact numbered.ofKnown born there
  · refine List.forall_mem_cons.mpr ⟨fun born member => ?_, fun other there born member => ?_⟩
    · simp [since, Registry.reset] at member
    · have apart : r.ordinal ≠ other.ordinal :=
        fun same => distinct.1 (List.mem_map.mpr ⟨other, there, same.symm⟩)
      simp only [since, apart, ↓reduceIte] at member
      exact numbered.reached other (List.mem_cons_of_mem _ there) born member

theorem withValues (numbered : Numbered counter first current (r :: rest) past) (values : BindMap) :
    Numbered counter first current ({ r with values := values } :: rest) past :=
  ⟨numbered.onCounter, numbered.distinct, numbered.known, numbered.apart, numbered.bounded,
    numbered.counted, numbered.ofKnown,
    List.forall_mem_cons.mpr (List.forall_mem_cons.mp numbered.reached), numbered.renewed⟩

theorem carry (numbered : Numbered counter first current (r :: rest) past) (around : List BindMap)
    (e : Effect Embedded) (noWrap : ∀ noted ∈ r.note around e, ¬ noted.wraps) :
    Numbered counter first current (r.carry e :: rest) (r.note around e ++ past) := by
  cases e with
  | bind key value type => exact numbered.withValues _
  | unbind key => exact numbered.withValues _
  | generate value type => exact numbered.generate rfl (noWrap _ (List.mem_singleton.mpr rfl))
  | absorb e => exact numbered.withValues _
  | reset => exact numbered.restart
  | _ => exact numbered

end Numbered

end SqlCompose
