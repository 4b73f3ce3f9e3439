import Mathlib.Data.List.Perm.Basic
import SqlCompose.Container.OrderedMap

namespace SqlCompose.OrderedMap

variable {κ α : Type} [DecidableEq κ]

theorem mem_put {key : κ} {value : α} {x : κ × α} {es : List (κ × α)}
    (member : x ∈ put key value es) : x = (key, value) ∨ x ∈ es := by
  induction es with
  | nil => simpa [put] using member
  | cons e rest ih =>
    obtain ⟨k, a⟩ := e
    by_cases same : k = key
    · simp only [put, same, ↓reduceIte, List.mem_cons] at member
      exact member.imp id (List.mem_cons_of_mem _)
    · simp only [put, same, ↓reduceIte, List.mem_cons] at member ⊢
      rcases member with here | there
      · exact .inr (.inl here)
      · exact (ih there).imp id .inr

theorem drop_sublist (key : κ) (es : List (κ × α)) : (drop key es).Sublist es := by
  induction es with
  | nil => exact .slnil
  | cons e rest ih =>
    obtain ⟨k, a⟩ := e
    by_cases same : k = key
    · simp [drop, same]
    · simpa [drop, same] using ih

theorem mem_of_lookup {key : κ} {value : α} {es : List (κ × α)}
    (found : lookup key es = some value) : (key, value) ∈ es := by
  induction es with
  | nil => cases found
  | cons e rest ih =>
    obtain ⟨k, a⟩ := e
    by_cases same : k = key
    · simp_all [lookup]
    · exact List.mem_cons_of_mem _ (ih (by simpa [lookup, same] using found))

theorem perm_put (key : κ) (value : α) (es : List (κ × α)) :
    ((put key value es).map Prod.snd).Perm (value :: (drop key es).map Prod.snd) := by
  induction es with
  | nil => exact .refl _
  | cons e rest ih =>
    obtain ⟨k, a⟩ := e
    by_cases same : k = key
    · simp [put, drop, same]
    · simp only [put, drop, same, ↓reduceIte, List.map_cons]
      exact (ih.cons a).trans (.swap _ _ _)

theorem perm_drop {key : κ} {value : α} {es : List (κ × α)} (found : lookup key es = some value) :
    (es.map Prod.snd).Perm (value :: (drop key es).map Prod.snd) := by
  induction es with
  | nil => cases found
  | cons e rest ih =>
    obtain ⟨k, a⟩ := e
    by_cases same : k = key
    · simp_all [lookup, drop]
    · simp only [drop, same, ↓reduceIte, List.map_cons]
      exact ((ih (by simpa [lookup, same] using found)).cons a).trans (.swap _ _ _)

theorem lookup_isSome {key : κ} {es : List (κ × α)} :
    (lookup key es).isSome = true ↔ key ∈ es.map Prod.fst := by
  induction es with
  | nil => simp [lookup]
  | cons e rest ih =>
    obtain ⟨k, a⟩ := e
    by_cases same : k = key
    · simp [lookup, same]
    · rw [lookup, if_neg same, ih]
      simp [Ne.symm same]

variable {m n : OrderedMap κ α} {key other : κ} {value : α}

theorem lookup_of_mem {es : List (κ × α)} (nodup : (es.map Prod.fst).Nodup) (member : (key, value) ∈ es) :
    lookup key es = some value := by
  induction es with
  | nil => cases member
  | cons e rest ih =>
    obtain ⟨absent, nodup⟩ := List.nodup_cons.mp nodup
    rcases List.mem_cons.mp member with rfl | later
    · simp [lookup]
    · have different : e.1 ≠ key := fun same => absent (same ▸ List.mem_map_of_mem later)
      simpa [lookup, different] using ih nodup later

theorem get?_of_mem (nodup : m.keys.Nodup) (member : (key, value) ∈ m.entries) : m.get? key = some value :=
  lookup_of_mem nodup member

theorem mem_of_get? (found : m.get? key = some value) : (key, value) ∈ m.entries :=
  mem_of_lookup found

theorem get?_isSome : (m.get? key).isSome = true ↔ key ∈ m.keys := lookup_isSome

theorem contains_iff : m.contains key = true ↔ key ∈ m.keys := lookup_isSome

omit [DecidableEq κ] in
theorem mem_keys_of_mem (member : (key, value) ∈ m.entries) : key ∈ m.keys :=
  List.mem_map_of_mem (f := Prod.fst) member

theorem mem_insert {x : κ × α} (member : x ∈ (m.insert key value).entries) :
    x = (key, value) ∨ x ∈ m.entries := mem_put member

theorem put_of_absent {key : κ} {value : α} {es : List (κ × α)} (absent : key ∉ es.map Prod.fst) :
    put key value es = es ++ [(key, value)] := by
  induction es with
  | nil => rfl
  | cons e rest ih =>
    obtain ⟨different, absent⟩ := not_or.mp (mt List.mem_cons.mpr absent)
    simp [put, Ne.symm different, ih absent]

theorem entries_insert (absent : key ∉ m.keys) :
    (m.insert key value).entries = m.entries ++ [(key, value)] := put_of_absent absent

theorem mem_erase {x : κ × α} (member : x ∈ (m.erase key).entries) : x ∈ m.entries :=
  (drop_sublist key m.entries).subset member

theorem mem_insertAll {x : κ × α} {es : List (κ × α)} (member : x ∈ (m.insertAll es).entries) :
    x ∈ m.entries ∨ x ∈ es := by
  induction es generalizing m with
  | nil => exact .inl member
  | cons e rest ih =>
    rcases ih (m := m.insert e.1 e.2) member with stored | later
    · rcases mem_insert stored with rfl | old
      · exact .inr (List.mem_cons_self ..)
      · exact .inl old
    · exact .inr (List.mem_cons_of_mem _ later)

theorem mem_merge {x : κ × α} (member : x ∈ (m.merge n).entries) :
    x ∈ m.entries ∨ x ∈ n.entries := mem_insertAll member

theorem mem_keys_insert : other ∈ (m.insert key value).keys ↔ other = key ∨ other ∈ m.keys := by
  rw [keys_insert]
  split
  · exact ⟨.inr, fun either => either.elim (fun same => same ▸ ‹_›) id⟩
  · simp [or_comm]

theorem mem_keys_insertAll {es : List (κ × α)} :
    key ∈ (m.insertAll es).keys ↔ key ∈ m.keys ∨ key ∈ es.map Prod.fst := by
  induction es generalizing m with
  | nil => simp [insertAll]
  | cons e rest ih =>
    have step : (m.insertAll (e :: rest)) = (m.insert e.1 e.2).insertAll rest := rfl
    rw [step, ih, mem_keys_insert, List.map_cons, List.mem_cons]
    tauto

theorem mem_keys_merge : key ∈ (m.merge n).keys ↔ key ∈ m.keys ∨ key ∈ n.keys :=
  mem_keys_insertAll

theorem mem_keys_erase (different : key ≠ other) (member : key ∈ m.keys) :
    key ∈ (m.erase other).keys := by
  rw [keys_erase]
  exact (List.mem_erase_of_ne different).mpr member

theorem lookup_drop_of_ne (different : other ≠ key) (es : List (κ × α)) :
    lookup key (drop other es) = lookup key es := by
  induction es with
  | nil => rfl
  | cons e rest ih =>
    obtain ⟨k, a⟩ := e
    by_cases same : k = other
    · subst same; simp [drop, lookup, different]
    · simp [drop, lookup, same, ih]

theorem get?_erase_of_ne (m : OrderedMap κ α) (different : other ≠ key) :
    (m.erase other).get? key = m.get? key := lookup_drop_of_ne different m.entries

theorem get?_erase_self (nodup : m.keys.Nodup) : (m.erase key).get? key = none := by
  rw [← Option.not_isSome_iff_eq_none, get?_isSome, keys_erase]
  exact nodup.not_mem_erase

theorem nodup_insert (nodup : m.keys.Nodup) : (m.insert key value).keys.Nodup := by
  rw [keys_insert]
  split
  · exact nodup
  · rename_i absent
    refine List.nodup_append.mpr ⟨nodup, by simp, ?_⟩
    intro k there other here
    rw [List.mem_singleton.mp here]
    exact fun same => absent (same ▸ there)

theorem nodup_erase (nodup : m.keys.Nodup) : (m.erase key).keys.Nodup := by
  rw [keys_erase]
  exact nodup.erase key

theorem lookup_eq_none {es : List (κ × α)} (absent : key ∉ es.map Prod.fst) : lookup key es = none := by
  rw [← Option.not_isSome_iff_eq_none, lookup_isSome]
  exact absent

theorem get?_insertAll {es : List (κ × α)} (nodup : (es.map Prod.fst).Nodup) (m : OrderedMap κ α)
    (key : κ) : (m.insertAll es).get? key = (lookup key es).or (m.get? key) := by
  induction es generalizing m with
  | nil => rfl
  | cons e rest ih =>
    obtain ⟨absent, nodup⟩ := List.nodup_cons.mp nodup
    have later : (m.insertAll (e :: rest)).get? key =
        (lookup key rest).or ((m.insert e.1 e.2).get? key) := ih nodup _
    rw [later, get?_insert]
    by_cases same : e.1 = key
    · subst same
      simp [lookup, lookup_eq_none absent]
    · simp [lookup, same]

theorem get?_insertAll_of_absent {es : List (κ × α)} (absent : key ∉ es.map Prod.fst)
    (m : OrderedMap κ α) : (m.insertAll es).get? key = m.get? key := by
  induction es generalizing m with
  | nil => rfl
  | cons e rest ih =>
    obtain ⟨different, absent⟩ := not_or.mp (mt List.mem_cons.mpr absent)
    have later : (m.insertAll (e :: rest)).get? key = (m.insert e.1 e.2).get? key := ih absent _
    rw [later, get?_insert, if_neg (Ne.symm different)]

theorem get?_insertAll_congr {m m' : OrderedMap κ α} {es : List (κ × α)}
    (same : m.get? key = m'.get? key ∨ key ∈ es.map Prod.fst) :
    (m.insertAll es).get? key = (m'.insertAll es).get? key := by
  induction es generalizing m m' with
  | nil => exact same.resolve_right List.not_mem_nil
  | cons e rest ih =>
    show ((m.insert e.1 e.2).insertAll rest).get? key = ((m'.insert e.1 e.2).insertAll rest).get? key
    refine ih ?_
    rw [get?_insert, get?_insert]
    by_cases here : e.1 = key
    · exact .inl (by rw [if_pos here, if_pos here])
    · rw [if_neg here, if_neg here]
      exact same.imp_right fun stored => (List.mem_cons.mp stored).resolve_left (Ne.symm here)

theorem get?_merge {n : OrderedMap κ α} (nodup : n.keys.Nodup) (m : OrderedMap κ α) (key : κ) :
    (m.merge n).get? key = (n.get? key).or (m.get? key) := get?_insertAll nodup m key

theorem nodup_insertAll {es : List (κ × α)} (nodup : m.keys.Nodup) : (m.insertAll es).keys.Nodup := by
  induction es generalizing m with
  | nil => exact nodup
  | cons e rest ih => exact ih (nodup_insert nodup)

theorem prefix_insert (m : OrderedMap κ α) (key : κ) (value : α) : m.keys <+: (m.insert key value).keys := by
  rw [keys_insert]
  split
  · exact List.prefix_rfl
  · exact List.prefix_append ..

theorem prefix_insertAll (m : OrderedMap κ α) (es : List (κ × α)) : m.keys <+: (m.insertAll es).keys := by
  induction es generalizing m with
  | nil => exact List.prefix_rfl
  | cons e rest ih => exact (m.prefix_insert e.1 e.2).trans (ih (m.insert e.1 e.2))

theorem keys_insertAll {es : List (κ × α)} (nodup : (es.map Prod.fst).Nodup) (m : OrderedMap κ α) :
    (m.insertAll es).keys = m.keys ++ (es.map Prod.fst).filter (· ∉ m.keys) := by
  induction es generalizing m with
  | nil => exact (List.append_nil _).symm
  | cons e rest ih =>
    obtain ⟨absent, nodup⟩ := List.nodup_cons.mp nodup
    have later : (m.insertAll (e :: rest)).keys =
        (m.insert e.1 e.2).keys ++ (rest.map Prod.fst).filter (· ∉ (m.insert e.1 e.2).keys) := ih nodup _
    rw [later, keys_insert, List.map_cons]
    by_cases present : e.1 ∈ m.keys
    · rw [if_pos present, List.filter_cons_of_neg (by simpa using present)]
    · -- No later key is this one, so what is new to the map with it is new to the map without.
      have same : (rest.map Prod.fst).filter (· ∉ m.keys ++ [e.1]) = (rest.map Prod.fst).filter (· ∉ m.keys) := by
        refine List.filter_congr fun k there => ?_
        have other : k ≠ e.1 := fun is => absent (is ▸ there)
        simp [other]
      rw [if_neg present, same, List.filter_cons_of_pos (by simpa using present), List.append_assoc]
      rfl

theorem keys_merge {n : OrderedMap κ α} (nodup : n.keys.Nodup) (m : OrderedMap κ α) :
    (m.merge n).keys = m.keys ++ n.keys.filter (· ∉ m.keys) := keys_insertAll nodup m

theorem put_put (key : κ) (old value : α) (es : List (κ × α)) :
    put key value (put key old es) = put key value es := by
  induction es with
  | nil => simp [put]
  | cons e rest ih =>
    obtain ⟨k, a⟩ := e
    by_cases same : k = key <;> simp [put, same, ih]

-- To overwrite a key in its place is independent of what is stored under another.
theorem put_comm {key other : κ} {es : List (κ × α)} (present : key ∈ es.map Prod.fst) (different : key ≠ other)
    (value new : α) : put key value (put other new es) = put other new (put key value es) := by
  induction es with
  | nil => cases present
  | cons e rest ih =>
    obtain ⟨k, a⟩ := e
    by_cases here : k = key
    · subst here
      simp [put, different]
    · have there : key ∈ rest.map Prod.fst := by simpa [Ne.symm here] using present
      by_cases same : k = other <;> simp [put, here, same, ih there, Ne.symm different]

theorem insertAll_overwrite {es : List (κ × α)} (present : key ∈ m.keys) (absent : key ∉ es.map Prod.fst) :
    (m.insertAll es).insert key value = (m.insert key value).insertAll es := by
  induction es generalizing m with
  | nil => rfl
  | cons e rest ih =>
    obtain ⟨different, absent⟩ := not_or.mp (mt List.mem_cons.mpr absent)
    have swapped : (m.insert e.1 e.2).insert key value = (m.insert key value).insert e.1 e.2 :=
      congrArg mk (put_comm present different value e.2)
    calc ((m.insert e.1 e.2).insertAll rest).insert key value
      _ = ((m.insert e.1 e.2).insert key value).insertAll rest := ih (mem_keys_insert.mpr (.inr present)) absent
      _ = (m.insert key value).insertAll (e :: rest) := by rw [swapped]; rfl

theorem insertAll_put {es : List (κ × α)} (nodup : (es.map Prod.fst).Nodup) (m : OrderedMap κ α) :
    m.insertAll (put key value es) = (m.insertAll es).insert key value := by
  induction es generalizing m with
  | nil => rfl
  | cons e rest ih =>
    obtain ⟨k, a⟩ := e
    obtain ⟨absent, nodup⟩ := List.nodup_cons.mp nodup
    by_cases same : k = key
    · subst same
      have stored : k ∈ (m.insert k a).keys := mem_keys_insert.mpr (.inl rfl)
      have twice : (m.insert k a).insert k value = m.insert k value := congrArg mk (put_put k a value m.entries)
      calc m.insertAll (put k value ((k, a) :: rest))
        _ = (m.insert k value).insertAll rest := by rw [put, if_pos rfl]; rfl
        _ = ((m.insert k a).insertAll rest).insert k value := by rw [insertAll_overwrite stored absent, twice]
    · rw [put, if_neg same]
      exact ih nodup (m.insert k a)

theorem insertAll_insertAll {es : List (κ × α)} (nodup : n.keys.Nodup) :
    (m.merge n).insertAll es = m.merge (n.insertAll es) := by
  induction es generalizing n with
  | nil => rfl
  | cons e rest ih =>
    have stored : (m.merge n).insert e.1 e.2 = m.merge (n.insert e.1 e.2) := (insertAll_put nodup m).symm
    calc ((m.merge n).insert e.1 e.2).insertAll rest
      _ = (m.merge (n.insert e.1 e.2)).insertAll rest := by rw [stored]
      _ = m.merge (n.insertAll (e :: rest)) := ih (nodup_insert nodup)

theorem merge_assoc {n : OrderedMap κ α} (nodup : n.keys.Nodup) (m o : OrderedMap κ α) :
    (m.merge n).merge o = m.merge (n.merge o) := insertAll_insertAll nodup

theorem insertAll_absent {es : List (κ × α)} (nodup : (es.map Prod.fst).Nodup)
    (absent : ∀ k ∈ es.map Prod.fst, k ∉ m.keys) : (m.insertAll es).entries = m.entries ++ es := by
  induction es generalizing m with
  | nil => exact (List.append_nil _).symm
  | cons e rest ih =>
    obtain ⟨here, later⟩ := List.forall_mem_cons.mp absent
    obtain ⟨single, nodup⟩ := List.nodup_cons.mp nodup
    have fresh : ∀ k ∈ rest.map Prod.fst, k ∉ (m.insert e.1 e.2).keys := fun k there stored =>
      (mem_keys_insert.mp stored).elim (fun same => single (same ▸ there)) (later k there)
    calc ((m.insert e.1 e.2).insertAll rest).entries
      _ = (m.insert e.1 e.2).entries ++ rest := ih nodup fresh
      _ = m.entries ++ e :: rest := by rw [entries_insert here, List.append_assoc]; rfl

theorem empty_merge (nodup : m.keys.Nodup) : empty.merge m = m :=
  congrArg mk (insertAll_absent nodup fun _ _ => List.not_mem_nil)

section

variable {β : Type} (f : α → β)

omit [DecidableEq κ] in
def mapValues (m : OrderedMap κ α) : OrderedMap κ β := ⟨m.entries.map fun e => (e.1, f e.2)⟩

theorem put_map (key : κ) (value : α) (es : List (κ × α)) :
    put key (f value) (es.map fun e => (e.1, f e.2)) = (put key value es).map fun e => (e.1, f e.2) := by
  induction es with
  | nil => rfl
  | cons e rest ih => by_cases same : e.1 = key <;> simp [put, same, ih]

theorem drop_map (key : κ) (es : List (κ × α)) :
    drop key (es.map fun e => (e.1, f e.2)) = (drop key es).map fun e => (e.1, f e.2) := by
  induction es with
  | nil => rfl
  | cons e rest ih => by_cases same : e.1 = key <;> simp [drop, same, ih]

theorem lookup_map (key : κ) (es : List (κ × α)) :
    lookup key (es.map fun e => (e.1, f e.2)) = (lookup key es).map f := by
  induction es with
  | nil => rfl
  | cons e rest ih => by_cases same : e.1 = key <;> simp [lookup, same, ih]

@[simp] theorem mapValues_insert (m : OrderedMap κ α) (key : κ) (value : α) :
    (m.insert key value).mapValues f = (m.mapValues f).insert key (f value) :=
  congrArg mk (put_map f key value m.entries).symm

@[simp] theorem mapValues_erase (m : OrderedMap κ α) (key : κ) :
    (m.erase key).mapValues f = (m.mapValues f).erase key :=
  congrArg mk (drop_map f key m.entries).symm

@[simp] theorem get?_mapValues (m : OrderedMap κ α) (key : κ) : (m.mapValues f).get? key = (m.get? key).map f :=
  lookup_map f key m.entries

end

end SqlCompose.OrderedMap
