import Mathlib.Data.List.Forall2
import Mathlib.Logic.Relator
import SqlCompose.Bind.Registry
import SqlCompose.Clause.Flags
import SqlCompose.Proofs.Occurrences

namespace SqlCompose

theorem List.isEmpty_alike {α β : Type} {R : α → β → Prop} {xs : List α} {ys : List β}
    (alike : List.Forall₂ R xs ys) : xs.isEmpty = ys.isEmpty := by
  cases alike <;> rfl

theorem List.eq_map_alike {α β : Type} {f : α → β} {xs : List α} {ys : List β}
    (alike : List.Forall₂ (fun x y => y = f x) xs ys) : ys = xs.map f := by
  induction alike with
  | nil => rfl
  | cons head _ ih => rw [head, ih, List.map_cons]

theorem List.filter_alike {α β : Type} {R : α → β → Prop} {p : α → Bool} {q : β → Bool} {xs : List α}
    {ys : List β} (alike : List.Forall₂ R xs ys) (same : ∀ x y, R x y → p x = q y) :
    List.Forall₂ (fun x y => p x = true ∧ R x y) (xs.filter p) (ys.filter q) := by
  induction alike with
  | nil => exact .nil
  | @cons x y _ _ head _ ih =>
    have both := same x y head
    rw [List.filter_cons, List.filter_cons, ← both]
    split
    · rename_i kept
      exact .cons ⟨kept, head⟩ ih
    · exact ih

namespace OrderedMap

variable {κ κ' α α' : Type}

def Alike (K : κ → κ' → Prop) (V : α → α' → Prop) (m : OrderedMap κ α) (n : OrderedMap κ' α') : Prop :=
  List.Forall₂ (fun x y => K x.1 y.1 ∧ V x.2 y.2) m.entries n.entries

theorem eq_unique : Relator.BiUnique (Eq : κ → κ → Prop) :=
  ⟨fun _ _ _ left right => left.trans right.symm, fun _ _ _ left right => left.symm.trans right⟩

variable [DecidableEq κ] [DecidableEq κ'] {K : κ → κ' → Prop} {V : α → α' → Prop}
variable {k : κ} {k' : κ'} {a : α} {a' : α'} {es : List (κ × α)} {es' : List (κ' × α')}

theorem put_alike (unique : Relator.BiUnique K) (key : K k k') (value : V a a')
    (entries : List.Forall₂ (fun x y => K x.1 y.1 ∧ V x.2 y.2) es es') :
    List.Forall₂ (fun x y => K x.1 y.1 ∧ V x.2 y.2) (put k a es) (put k' a' es') := by
  induction entries with
  | nil => exact .cons ⟨key, value⟩ .nil
  | @cons x y _ _ head rest ih =>
    have here : x.1 = k ↔ y.1 = k' := Relator.rel_eq unique head.1 key
    by_cases same : x.1 = k
    · simp only [put, same, here.mp same, ↓reduceIte]
      exact .cons ⟨key, value⟩ rest
    · simp only [put, same, mt here.mpr same, ↓reduceIte]
      exact .cons head ih

theorem drop_alike (unique : Relator.BiUnique K) (key : K k k')
    (entries : List.Forall₂ (fun x y => K x.1 y.1 ∧ V x.2 y.2) es es') :
    List.Forall₂ (fun x y => K x.1 y.1 ∧ V x.2 y.2) (drop k es) (drop k' es') := by
  induction entries with
  | nil => exact .nil
  | @cons x y _ _ head rest ih =>
    have here : x.1 = k ↔ y.1 = k' := Relator.rel_eq unique head.1 key
    by_cases same : x.1 = k
    · simp only [drop, same, here.mp same, ↓reduceIte]
      exact rest
    · simp only [drop, same, mt here.mpr same, ↓reduceIte]
      exact .cons head ih

theorem lookup_alike (unique : Relator.BiUnique K) (key : K k k')
    (entries : List.Forall₂ (fun x y => K x.1 y.1 ∧ V x.2 y.2) es es') :
    Option.Rel V (lookup k es) (lookup k' es') := by
  induction entries with
  | nil => exact .none
  | @cons x y _ _ head rest ih =>
    have here : x.1 = k ↔ y.1 = k' := Relator.rel_eq unique head.1 key
    by_cases same : x.1 = k
    · simp only [lookup, same, here.mp same, ↓reduceIte]
      exact .some head.2
    · simp only [lookup, same, mt here.mpr same, ↓reduceIte]
      exact ih

variable {m n : OrderedMap κ α} {m' n' : OrderedMap κ' α'}

theorem Alike.insert (unique : Relator.BiUnique K) (alike : m.Alike K V m') (key : K k k')
    (value : V a a') : (m.insert k a).Alike K V (m'.insert k' a') := put_alike unique key value alike

theorem Alike.erase (unique : Relator.BiUnique K) (alike : m.Alike K V m') (key : K k k') :
    (m.erase k).Alike K V (m'.erase k') := drop_alike unique key alike

theorem Alike.get? (unique : Relator.BiUnique K) (alike : m.Alike K V m') (key : K k k') :
    Option.Rel V (m.get? k) (m'.get? k') := lookup_alike unique key alike

theorem Alike.insertAll (unique : Relator.BiUnique K) (alike : m.Alike K V m')
    (entries : List.Forall₂ (fun x y => K x.1 y.1 ∧ V x.2 y.2) es es') :
    (m.insertAll es).Alike K V (m'.insertAll es') := by
  induction entries generalizing m m' with
  | nil => exact alike
  | cons head _ ih => exact ih (alike.insert unique head.1 head.2)

theorem Alike.merge (unique : Relator.BiUnique K) (alike : m.Alike K V m') (incoming : n.Alike K V n') :
    (m.merge n).Alike K V (m'.merge n') := alike.insertAll unique incoming

omit [DecidableEq κ] [DecidableEq κ'] in
theorem Alike.entries_eq {g : κ → κ'} {n : OrderedMap κ' α} (alike : m.Alike (fun k k' => k' = g k) Eq n) :
    n.entries = m.entries.map fun x => (g x.1, x.2) :=
  List.eq_map_alike (alike.imp fun _ _ same => Prod.ext same.1 same.2.symm)

end OrderedMap

-- What the texts, bound values, ordinals and dialects of one run may differ in from those of another. What follows
-- from these laws holds of every pair of runs of one program.
structure Likeness where
  text : String → String → Prop
  -- Texts that are alike as long as no underscore follows them at once.
  fragment : String → String → Prop
  binds : BindMap → BindMap → Prop
  ordinal : UInt64 → UInt64 → Prop
  dialect : Dialect → Dialect → Prop
  window : UInt64 → UInt64 → Prop
  counter : String → Prop
  marks : List Char
  bound : String → Prop
  reserved : marks ⊆ Text.reserved
  same : ∀ {t}, Text.Without marks t → text t t
  append : ∀ {s s' t t'}, text s s' → text t t' → text (s ++ t) (s' ++ t')
  trimStart : ∀ {s s'}, text s s' → text (Text.trimStart s) (Text.trimStart s')
  spaced : ∀ {s s'}, text s s' →
    text (if s.isEmpty then "" else " " ++ s) (if s'.isEmpty then "" else " " ++ s')
  quoted : ∀ {d d' name}, dialect d d' → Text.Without marks name → text (d.quote name) (d'.quote name)
  early : ∀ {d d' limit offset}, dialect d d' → window limit offset →
    text (d.earlyWindow limit offset) (d'.earlyWindow limit offset)
  late : ∀ {d d' limit offset}, dialect d d' → window limit offset →
    text (d.lateWindow limit offset) (d'.lateWindow limit offset)
  placeholder : ∀ {o o' q}, ordinal o o' → text (Key.mk o q).placeholder (Key.mk o' q).placeholder
  unbound : binds .empty .empty
  brought : ∀ {m : BindMap}, (∀ k ∈ m.keys, bound k) → binds m m
  named : ∀ {m m' : BindMap} {k} (p : Param), binds m m' → bound k → binds (m.insert k p) (m'.insert k p)
  generated : ∀ {m m' : BindMap} {o o'} (q) (p : Param), binds m m' → ordinal o o' →
    binds (m.insert (Key.mk o q).text p) (m'.insert (Key.mk o' q).text p)
  erased : ∀ {m m' : BindMap} {k}, binds m m' → bound k → binds (m.erase k) (m'.erase k)
  merged : ∀ {m m' n n' : BindMap}, binds m m' → binds n n' → binds (m.merge n) (m'.merge n')
  whole : ∀ {s s'}, text s s' → fragment s s'
  column : ∀ {c}, Text.Without marks c → bound c → fragment (":" ++ c) (":" ++ c)
  lead : ∀ {s s' t t'}, text s s' → fragment t t' → fragment (s ++ t) (s' ++ t')
  glue : ∀ {s s' t t'}, fragment s s' → fragment t t' → t.toList.head? ≠ some '_' →
    fragment (s ++ t) (s' ++ t')
  trimFragment : ∀ {s s'}, fragment s s' → fragment (Text.trimStart s) (Text.trimStart s')

namespace Likeness

variable {L : Likeness} {xs ys : List String} {s s' t t' : String}

theorem literal (L : Likeness) (plain : Text.Without Text.reserved t) : L.text t t :=
  L.same (plain.mono L.reserved)

theorem same_each (given : ∀ t ∈ xs, Text.Without L.marks t) : List.Forall₂ L.text xs xs := by
  induction xs with
  | nil => exact .nil
  | cons t rest ih =>
    obtain ⟨here, later⟩ := List.forall_mem_cons.mp given
    exact .cons (L.same here) (ih later)

theorem joined {separator : String} (between : Text.Without Text.reserved separator)
    (items : List.Forall₂ L.text xs ys) :
    L.text (Text.joined separator xs) (Text.joined separator ys) := by
  induction items with
  | nil => exact L.literal (Text.without_empty _)
  | cons head rest ih =>
    cases rest with
    | nil => exact head
    | cons => exact L.append (L.append head (L.literal between)) ih

theorem listing {glue : String} (between : Text.Without Text.reserved glue)
    (items : List.Forall₂ L.text xs ys) : L.text (Text.listing glue xs) (Text.listing glue ys) := by
  have joined := L.joined (between.append (by decide : Text.Without Text.reserved " ")) items
  cases items with
  | nil => exact L.literal (Text.without_empty _)
  | cons => exact L.append (L.literal (by decide)) joined

theorem lengthenLast (text : L.text t t') (items : List.Forall₂ L.text xs ys) :
    List.Forall₂ L.text (Text.lengthenLast t xs) (Text.lengthenLast t' ys) := by
  induction items with
  | nil => exact .cons text .nil
  | cons head rest ih =>
    cases rest with
    | nil => exact .cons (L.append head text) .nil
    | cons => exact .cons head ih

theorem fragments (items : List.Forall₂ L.fragment xs ys) :
    L.fragment (Text.listing "," xs) (Text.listing "," ys) := by
  have comma : L.text ("," ++ " ") ("," ++ " ") := L.literal (by decide)
  have joined : L.fragment (Text.joined ("," ++ " ") xs) (Text.joined ("," ++ " ") ys) := by
    induction items with
    | nil => exact L.whole (L.literal (Text.without_empty _))
    | cons head rest ih =>
      cases rest with
      | nil => exact head
      | cons =>
        have later := L.glue head (L.lead comma ih) (by simp)
        simpa only [Text.joined, String.append_assoc] using later
  cases items with
  | nil => exact L.whole (L.literal (Text.without_empty _))
  | cons => exact L.lead (L.literal (by decide)) joined

end Likeness

end SqlCompose
