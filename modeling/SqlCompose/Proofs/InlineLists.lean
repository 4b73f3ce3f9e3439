import Mathlib.Data.List.Nodup
import SqlCompose.Bind.Registry
import SqlCompose.Proofs.Keys
import SqlCompose.Proofs.Maps

namespace SqlCompose

namespace Text

-- The parts of a text between separators, from left to right. Characters to skip
-- belong to a separator that was found.
def partsFrom (separator : List Char) : Nat → List Char → List (List Char)
  | _, [] => [[]]
  | skip + 1, _ :: rest => partsFrom separator skip rest
  | 0, c :: rest =>
    if separator <+: c :: rest then [] :: partsFrom separator (separator.length - 1) rest
    else (partsFrom separator 0 rest).modifyHead (c :: ·)

def split (separator s : String) : List String := (partsFrom separator.toList 0 s.toList).map .ofList

variable {first : Char} {separator item : List Char}

theorem partsFrom_drop (separator : List Char) (skip : Nat) (s : List Char) :
    partsFrom separator skip s = partsFrom separator 0 (s.drop skip) := by
  induction s generalizing skip with
  | nil => cases skip <;> rfl
  | cons c rest ih =>
    cases skip with
    | zero => rfl
    | succ skip => exact ih skip

theorem partsFrom_separator (begins : separator.head? = some first) (rest : List Char) :
    partsFrom separator 0 (separator ++ rest) = [] :: partsFrom separator 0 rest := by
  obtain ⟨tail, rfl⟩ := List.head?_eq_some_iff.mp begins
  have here : first :: tail <+: first :: (tail ++ rest) := List.prefix_append (first :: tail) rest
  rw [List.cons_append, partsFrom, if_pos here, partsFrom_drop]
  simp

theorem partsFrom_append (begins : separator.head? = some first) (without : first ∉ item) (rest : List Char) :
    partsFrom separator 0 (item ++ rest) = (partsFrom separator 0 rest).modifyHead (item ++ ·) := by
  obtain ⟨tail, rfl⟩ := List.head?_eq_some_iff.mp begins
  induction item with
  | nil => exact (congrFun List.modifyHead_id _).symm
  | cons c item ih =>
    obtain ⟨other, without⟩ := not_or.mp (mt List.mem_cons.mpr without)
    have here : ¬ first :: tail <+: c :: (item ++ rest) := fun begun => other (List.cons_prefix_cons.mp begun).1
    rw [List.cons_append, partsFrom, if_neg here, ih without, List.modifyHead_modifyHead]
    rfl

theorem partsFrom_joined {separator : String} (begins : separator.toList.head? = some first) {items : List String}
    (filled : items ≠ []) (without : ∀ item ∈ items, first ∉ item.toList) :
    partsFrom separator.toList 0 (joined separator items).toList = items.map String.toList := by
  match items with
  | [] => exact absurd rfl filled
  | [item] =>
    have whole := partsFrom_append begins (without item (List.mem_singleton_self item)) []
    show partsFrom separator.toList 0 item.toList = [item.toList]
    simpa [partsFrom] using whole
  | item :: next :: rest =>
    obtain ⟨here, later⟩ := List.forall_mem_cons.mp without
    have parts := partsFrom_joined begins (List.cons_ne_nil next rest) later
    show partsFrom separator.toList 0 (item ++ separator ++ joined separator (next :: rest)).toList = _
    rw [String.toList_append, String.toList_append, List.append_assoc, partsFrom_append begins here,
      partsFrom_separator begins, parts]
    simp

theorem split_joined {separator : String} (begins : separator.toList.head? = some first) {items : List String}
    (filled : items ≠ []) (without : ∀ item ∈ items, first ∉ item.toList) :
    split separator (joined separator items) = items := by
  rw [split, partsFrom_joined begins filled without]
  simp

end Text

theorem Key.comma_not_mem_placeholder (k : Key) : ',' ∉ k.placeholder.toList := by
  have digits (n : Nat) : ',' ∉ (Text.numeral n).toList := fun member => by
    have digit := (Text.numeral_digits n).2 ',' member
    exact absurd digit (by decide)
  simp [placeholder, text, digits]

namespace Registry

variable (r : Registry) (type : Option ParamType)

def keyAfter (i : Nat) : Key := ⟨r.ordinal, r.sequence + .ofNat (i + 1)⟩

def nextKeys (n : Nat) : List Key := (List.range n).map r.keyAfter

def elements (vs : List Value) : List (String × Param) :=
  List.zipWith (fun k v => (k.text, .make v type)) (r.nextKeys vs.length) vs

def inlineAll (values : List (Inline Embedded)) : List String × Registry :=
  values.foldl (fun done value => (done.1 ++ [(done.2.inline value).1], (done.2.inline value).2)) ([], r)

theorem sequence_succ (n : Nat) : r.sequence + 1 + .ofNat n = r.sequence + .ofNat (n + 1) := by
  rw [UInt64.ofNat_add, UInt64.add_assoc, UInt64.add_comm 1]
  rfl

theorem keyAfter_succ (v : Value) (i : Nat) : (r.inlineScalar v type).2.keyAfter i = r.keyAfter (i + 1) :=
  congrArg (Key.mk r.ordinal) (r.sequence_succ (i + 1))

theorem nextKeys_succ (v : Value) (n : Nat) :
    r.nextKeys (n + 1) = r.nextKey :: (r.inlineScalar v type).2.nextKeys n := by
  have later (i : Nat) : r.keyAfter (i + 1) = (r.inlineScalar v type).2.keyAfter i := (r.keyAfter_succ type v i).symm
  rw [nextKeys, List.range_succ_eq_map, List.map_cons, List.map_map]
  exact congrArg (r.nextKey :: ·) (List.map_congr_left fun i _ => later i)

theorem elements_cons (v : Value) (vs : List Value) :
    r.elements type (v :: vs) = (r.nextKey.text, .make v type) :: (r.inlineScalar v type).2.elements type vs := by
  rw [elements, List.length_cons, nextKeys_succ, List.zipWith_cons_cons]
  rfl

theorem elements_keys (vs : List Value) : (r.elements type vs).map Prod.fst = (r.nextKeys vs.length).map Key.text :=
  List.ext_getElem (by simp [elements, nextKeys]) fun i _ _ => by simp [elements]

theorem inlineAll_scalars (vs : List Value) : r.inlineAll (vs.map (.scalar · type)) = inlineEach type vs r := by
  have onward (texts : List String) : (vs.map (.scalar · type)).foldl
      (fun done value => (done.1 ++ [(done.2.inline value).1], (done.2.inline value).2)) (texts, r) =
        (texts ++ (inlineEach type vs r).1, (inlineEach type vs r).2) := by
    induction vs generalizing r texts with
    | nil => simp [inlineEach]
    | cons v vs ih =>
      have later := ih (r.inlineScalar v type).2 (texts ++ [(r.inlineScalar v type).1])
      rw [List.append_assoc] at later
      exact later
  exact onward []

theorem inlineEach_eq (vs : List Value) :
    inlineEach type vs r =
      ((r.nextKeys vs.length).map Key.placeholder,
        { r with
          sequence := r.sequence + .ofNat vs.length
          values := r.values.insertAll (r.elements type vs) }) := by
  induction vs generalizing r with
  | nil => simp [inlineEach, nextKeys, elements, OrderedMap.insertAll]
  | cons v vs ih =>
    have onward : inlineEach type (v :: vs) r =
        ((r.inlineScalar v type).1 :: (inlineEach type vs (r.inlineScalar v type).2).1,
          (inlineEach type vs (r.inlineScalar v type).2).2) := rfl
    rw [onward, ih, elements_cons, List.length_cons, r.nextKeys_succ type v, ← sequence_succ]
    rfl

variable {r type} {vs : List Value}

theorem keyAfter_ne {i j : Nat} (before : i < j) (near : j < i + UInt64.size) : r.keyAfter i ≠ r.keyAfter j := by
  intro same
  have words : UInt64.ofNat (i + 1) = UInt64.ofNat (j + 1) := (UInt64.add_right_inj r.sequence).mp (Key.mk.inj same).2
  have numbers := congrArg UInt64.toNat words
  rw [UInt64.toNat_ofNat', UInt64.toNat_ofNat'] at numbers
  have size : UInt64.size = 2 ^ 64 := rfl
  omega

theorem nextKeys_nodup {n : Nat} (few : n ≤ UInt64.size) : (r.nextKeys n).Nodup := by
  refine List.pairwise_map.mpr (List.pairwise_lt_range.imp_of_mem fun _ inside before => ?_)
  exact keyAfter_ne before (by have bound := List.mem_range.mp inside; omega)

-- The value of an element stays until its key comes around again.
theorem inlineEach_get? {i : Nat} {v : Value} (there : vs[i]? = some v) (near : vs.length ≤ i + UInt64.size) :
    (inlineEach type vs r).2.values.get? (r.keyAfter i).text = some (.make v type) := by
  induction vs generalizing r i with
  | nil => cases there
  | cons w vs ih =>
    rw [List.length_cons] at near
    cases i with
    | succ i =>
      have later := ih (r := (r.inlineScalar w type).2) there (by omega)
      rwa [keyAfter_succ] at later
    | zero =>
      cases there
      have absent : r.nextKey.text ∉ ((r.inlineScalar v type).2.elements type vs).map Prod.fst := by
        have nodup := nextKeys_nodup (r := r) (n := vs.length + 1) (by omega)
        rw [nextKeys_succ] at nodup
        rw [elements_keys, List.mem_map_of_injective (fun _ _ => Key.text_injective)]
        exact (List.nodup_cons.mp nodup).1
      show (inlineEach type vs (r.inlineScalar v type).2).2.values.get? r.nextKey.text = some (.make v type)
      rw [inlineEach_eq]
      refine (OrderedMap.get?_insertAll_of_absent absent _).trans ?_
      exact (OrderedMap.get?_insert r.values _ _ _).trans (if_pos rfl)

def Current (r : Registry) : Prop := ∀ k : Key, k.ordinal = r.ordinal → k.text ∈ r.values.keys → k.sequence ≤ r.sequence

theorem Current.unheld {n : Nat} (current : r.Current) (noWrap : r.sequence.toNat + n < UInt64.size) :
    ∀ k ∈ r.nextKeys n, k.text ∉ r.values.keys := by
  intro k member held
  obtain ⟨i, inside, rfl⟩ := List.mem_map.mp member
  rw [List.mem_range] at inside
  have size : UInt64.size = 2 ^ 64 := rfl
  have sequence : (r.keyAfter i).sequence.toNat = r.sequence.toNat + (i + 1) := by
    rw [keyAfter, UInt64.toNat_add, UInt64.toNat_ofNat']
    omega
  have reached := UInt64.le_iff_toNat_le.mp (current (r.keyAfter i) rfl held)
  omega

-- Each key is bound to its element, up to as many elements as a word can count. If no key is bound
-- that the registry comes to later, and the sequence does not wrap, all these keys are new, and the
-- elements go behind what was bound before.
theorem list_is_its_elements (r : Registry) (vs : List Value) (type : Option ParamType) :
    let one := r.inlineAll (vs.map (.scalar · type))
    let whole := r.inline (.list vs type)
    let keys := r.nextKeys vs.length
    whole = ("(" ++ Text.joined ", " one.1 ++ ")", one.2) ∧
      one.1 = keys.map Key.placeholder ∧
      (vs ≠ [] → ∃ inside, whole.1 = "(" ++ inside ++ ")" ∧ Text.split ", " inside = keys.map Key.placeholder) ∧
      (∀ i v, vs[i]? = some v → vs.length ≤ i + UInt64.size →
        whole.2.values.get? (r.keyAfter i).text = some ⟨v, type.getD (ParamType.infer v)⟩) ∧
      (r.Current → r.sequence.toNat + vs.length < UInt64.size →
        keys.Nodup ∧ (∀ k ∈ keys, k.text ∉ r.values.keys) ∧
          whole.2.values.entries = r.values.entries ++ r.elements type vs ∧
          whole.2.values.size = r.values.size + vs.length) := by
  intro one whole keys
  have each : one = inlineEach type vs r := r.inlineAll_scalars type vs
  have texts : one.1 = keys.map Key.placeholder := by rw [each, inlineEach_eq]
  have list : whole = ("(" ++ Text.joined ", " one.1 ++ ")", one.2) := by rw [each]; rfl
  refine ⟨list, texts, fun nonempty => ⟨Text.joined ", " one.1, by rw [list], ?split⟩, fun i v there near => ?bound,
    fun current noWrap => ?new⟩
  case split =>
    have filled : keys.map Key.placeholder ≠ [] := by simpa [keys, nextKeys] using nonempty
    have comma : ", ".toList.head? = some ',' := rfl
    rw [texts]
    exact Text.split_joined comma filled (List.forall_mem_map.mpr fun k _ => k.comma_not_mem_placeholder)
  case bound =>
    rw [list, each]
    exact inlineEach_get? there near
  case new =>
    have nodup : keys.Nodup := nextKeys_nodup (by omega)
    have unheld := current.unheld noWrap
    have added : whole.2.values.entries = r.values.entries ++ r.elements type vs := by
      have apart : ((r.elements type vs).map Prod.fst).Nodup := by
        rw [elements_keys]
        exact nodup.map fun _ _ => Key.text_injective
      rw [list, each, inlineEach_eq]
      refine OrderedMap.insertAll_absent apart ?_
      rw [elements_keys]
      exact List.forall_mem_map.mpr unheld
    refine ⟨nodup, unheld, added, ?_⟩
    rw [OrderedMap.size, added]
    simp [OrderedMap.size, elements, nextKeys]

def mixed : Registry where
  counter := "main"
  ordinal := 3
  sequence := 2
  values := ⟨[("_3_2_", ⟨.bool true, .bool⟩), ("_2_7_", ⟨.int 7, .int⟩), ("name", ⟨.null, .null⟩)]⟩

theorem mixed_current : mixed.Current := by
  intro k own held
  have keys : mixed.values.keys = [(⟨3, 2⟩ : Key).text, (⟨2, 7⟩ : Key).text, "name"] := by decide
  rw [keys] at held
  simp only [List.mem_cons, List.not_mem_nil, or_false] at held
  rcases held with last | other | named
  · rw [Key.text_injective last]
    exact UInt64.le_refl _
  · rw [Key.text_injective other] at own
    exact absurd own (by decide)
  · have generated := k.text_isGenerated
    rw [named] at generated
    exact absurd generated (by decide)

theorem list_is_its_elements_duplicates :
    let vs : List Value := [.int 1, .int 1, .null, .str "a, b"]
    let whole := mixed.inline (.list vs none)
    vs ≠ [] ∧ vs[1]? = some (.int 1) ∧ vs.length ≤ 1 + UInt64.size ∧ mixed.Current ∧
      mixed.sequence.toNat + vs.length < UInt64.size ∧
      whole.1 = "(:_3_3_, :_3_4_, :_3_5_, :_3_6_)" ∧
      (∃ inside, whole.1 = "(" ++ inside ++ ")" ∧
        Text.split ", " inside = [":_3_3_", ":_3_4_", ":_3_5_", ":_3_6_"]) ∧
      whole.2.values.get? "_3_4_" = some ⟨.int 1, .int⟩ ∧
      (mixed.nextKeys 4).Nodup ∧ (∀ k ∈ mixed.nextKeys 4, k.text ∉ mixed.values.keys) ∧
      whole.2.values.entries = mixed.values.entries ++
        [("_3_3_", ⟨.int 1, .int⟩), ("_3_4_", ⟨.int 1, .int⟩),
          ("_3_5_", ⟨.null, .null⟩), ("_3_6_", ⟨.str "a, b", .str⟩)] ∧
      whole.2.values.size = 7 := by
  intro vs whole
  obtain ⟨_, _, comesApart, bound, new⟩ := mixed.list_is_its_elements vs none
  have filled : vs ≠ [] := List.cons_ne_nil _ _
  have near : vs.length ≤ 1 + UInt64.size := by decide
  have noWrap : mixed.sequence.toNat + vs.length < UInt64.size := by decide
  obtain ⟨nodup, unheld, added, size⟩ := new mixed_current noWrap
  exact ⟨filled, rfl, near, mixed_current, noWrap, by decide, comesApart filled, bound 1 (.int 1) rfl near, nodup,
    unheld, added, size⟩

end Registry

end SqlCompose
