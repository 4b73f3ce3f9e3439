import SqlCompose.Bind.Placeholder
import SqlCompose.Proofs.Columns
import SqlCompose.Proofs.Reading

namespace SqlCompose

namespace Placeholder

def Word (name : String) : Prop := name ≠ "" ∧ ∀ c ∈ name.toList, isNameChar c = true

instance (name : String) : Decidable (Word name) :=
  have : Decidable (∀ c ∈ name.toList, isNameChar c = true) := List.decidableBAll _ _
  inferInstanceAs (Decidable (_ ∧ _))

def Ends (rest : List Char) : Prop := ∀ c ∈ rest.head?, isNameChar c = false

theorem read_append {name : String} {rest : List Char} (word : Word name) (ends : Ends rest) :
    read ((":" ++ name).toList ++ rest) = some (name.toList, rest) := by
  obtain ⟨filled, chars⟩ := word
  obtain ⟨taken, left⟩ := Text.run_append chars ends
  have lettered : name.toList ≠ [] := fun empty => filled (String.toList_eq_nil_iff.mp empty)
  rw [Text.toList_colon, List.cons_append, read, taken, left]
  split
  · exact absurd ‹_› lettered
  · rfl

theorem read_name {name : String} (word : Word name) : read (":" ++ name).toList = some (name.toList, []) := by
  have ends : Ends [] := by simp [Ends]
  simpa using read_append word ends

theorem read_whole {name : String} : (∃ key, read (":" ++ name).toList = some (key, [])) ↔ Word name := by
  constructor
  · rintro ⟨key, whole⟩
    rw [Text.toList_colon, read] at whole
    split at whole
    · cases whole
    · rename_i lettered
      rw [Option.some.injEq, Prod.mk.injEq, List.dropWhile_eq_nil_iff] at whole
      refine ⟨?_, whole.2⟩
      rintro rfl
      exact lettered rfl
  · exact fun word => ⟨name.toList, read_name word⟩

end Placeholder

namespace ColumnCall

def Spares (c : String) (call : ColumnCall) : Prop := call.isReset = false ∧ c ∉ call.fragments.map Prod.fst

instance (c : String) (call : ColumnCall) : Decidable (call.Spares c) := inferInstanceAs (Decidable (_ ∧ _))

theorem bindings_subset (call : ColumnCall) : call.bindings.map Prod.fst ⊆ call.fragments.map Prod.fst := by
  cases call with
  | assign column value => cases value <;> simp [bindings, fragments]
  | assignMany columns =>
    intro key member
    obtain ⟨x, bound, rfl⟩ := List.mem_map.mp member
    obtain ⟨column, there, brings⟩ := List.mem_filterMap.mp bound
    cases column with
    | name column => cases brings
    | value column v =>
      cases brings
      exact List.mem_map.mpr ⟨_, List.mem_map.mpr ⟨_, there, rfl⟩, rfl⟩
  | literal column text => simp [bindings, fragments]
  | reset => simp [bindings]

end ColumnCall

namespace BoundColumns

-- A column reads a placeholder that takes up the whole of its fragment, whatever stands behind
-- it, and that names the key of its value.
structure Reads (b : BoundColumns) (c : String) (p : Param) : Prop where
  fragment : b.assignments.get? c = some (":" ++ c)
  token : ∀ rest, Placeholder.Ends rest → Placeholder.read ((":" ++ c).toList ++ rest) = some (c.toList, rest)
  value : b.registry.values.get? c = some p

variable {b : BoundColumns} {c : String} {p : Param}

theorem assign_reads (b : BoundColumns) (word : Placeholder.Word c) (v : Value) (type : Option ParamType) :
    (b.apply (.assign c (some (v, type)))).Reads c (.make v type) where
  fragment := by simp [apply, assign, OrderedMap.get?_insert]
  token rest ends := Placeholder.read_append word ends
  value := by simp [apply, assign, Registry.bind, OrderedMap.get?_insert]

theorem Reads.apply (reads : b.Reads c p) {call : ColumnCall} (spares : call.Spares c) : (b.apply call).Reads c p where
  fragment := by
    rw [apply_assignments, spares.1, ← reads.fragment]
    exact OrderedMap.get?_insertAll_of_absent spares.2 b.assignments
  token := reads.token
  value := by
    rw [apply_values, ← reads.value]
    exact OrderedMap.get?_changeAll_of_absent (fun member => spares.2 (call.bindings_subset member)) b.registry.values

theorem Reads.applyAll (reads : b.Reads c p) {calls : List ColumnCall} (spare : ∀ call ∈ calls, call.Spares c) :
    (calls.foldl BoundColumns.apply b).Reads c p := by
  induction calls generalizing b with
  | nil => exact reads
  | cons call rest ih =>
    obtain ⟨here, later⟩ := List.forall_mem_cons.mp spare
    exact ih (reads.apply here) later

end BoundColumns

open BoundColumns (Reads)

-- A column that is given a value finds it by its own placeholder, as long as the calls after that are about
-- other columns. For this its name has to be a word.
theorem column_finds_its_value :
    (∀ (s : Insert) (c : String) (v : Value) (type : Option ParamType) (later : List ColumnCall),
      Placeholder.Word c → (∀ call ∈ later, call.Spares c) →
      let next := later.foldl (fun s call => s.apply (.column call)) (s.apply (.column (.assign c (some (v, type)))))
      Reads ⟨next.assignments, next.registry⟩ c (.make v type)) ∧
    (∀ (s : Update) (c : String) (v : Value) (type : Option ParamType) (later : List ColumnCall),
      Placeholder.Word c → (∀ call ∈ later, call.Spares c) →
      let next := later.foldl (fun s call => s.apply (.column call)) (s.apply (.column (.assign c (some (v, type)))))
      Reads ⟨next.assignments, next.registry⟩ c (.make v type)) ∧
    (∀ c, (∃ key, Placeholder.read (":" ++ c).toList = some (key, [])) ↔ Placeholder.Word c) ∧
    ∀ c other, Placeholder.Word c → Placeholder.Word other → c ≠ other →
      Placeholder.read (":" ++ c).toList ≠ Placeholder.read (":" ++ other).toList := by
  refine ⟨fun s c v type later word spare => ?insert, fun s c v type later word spare => ?update,
    fun c => Placeholder.read_whole, fun c other word word' different same => different ?tokens⟩
  case insert =>
    have reads := (BoundColumns.assign_reads ⟨s.assignments, s.registry⟩ word v type).applyAll spare
    intro next
    have run : next = _ := (s.apply (.column (.assign c (some (v, type))))).run_columns later
    rw [run]
    exact reads
  case update =>
    have reads := (BoundColumns.assign_reads ⟨s.assignments, s.registry⟩ word v type).applyAll spare
    intro next
    have run : next = _ := (s.apply (.column (.assign c (some (v, type))))).run_columns later
    rw [run]
    exact reads
  case tokens =>
    rw [Placeholder.read_name word, Placeholder.read_name word', Option.some.injEq, Prod.mk.injEq] at same
    exact String.toList_inj.mp same.1

theorem column_finds_its_value_longerName :
    let later : List ColumnCall := [.assign "ab_1" (some (.str "x", none)), .literal "a b" "NOW()"]
    let i := later.foldl (fun s call => s.apply (.column call))
      ((Insert.new .mysql "main" 1).apply (.column (.assign "ab" (some (.int 1, some .str)))))
    let u := later.foldl (fun s call => s.apply (.column call))
      ((Update.new .mysql "main" 2).apply (.column (.assign "ab" (some (.int 1, some .str)))))
    Placeholder.Word "ab" ∧ Placeholder.Word "ab_1" ∧ (∀ call ∈ later, call.Spares "ab") ∧
      Reads ⟨i.assignments, i.registry⟩ "ab" ⟨.int 1, .str⟩ ∧ Reads ⟨u.assignments, u.registry⟩ "ab" ⟨.int 1, .str⟩ ∧
      Placeholder.read ":ab".toList ≠ Placeholder.read ":ab_1".toList ∧
      ¬ ∃ key, Placeholder.read ":a b".toList = some (key, []) := by
  intro later i u
  obtain ⟨insert, update, whole, different⟩ := column_finds_its_value
  have word : Placeholder.Word "ab" := by decide
  have word' : Placeholder.Word "ab_1" := by decide
  have spare : ∀ call ∈ later, call.Spares "ab" := by decide
  exact ⟨word, word', spare, insert _ "ab" (.int 1) (some .str) later word spare,
    update _ "ab" (.int 1) (some .str) later word spare, different "ab" "ab_1" word word' (by decide),
    mt (whole "a b").mp (by decide)⟩

theorem blank_cuts_placeholder :
    let s := (((Insert.new .sqlite "main" 1).apply (.table "t")).apply
      (.column (.assign "some field" (some (.int 1, none))))).apply
      (.column (.assign "some date" (some (.int 2, none))))
    s.sql = "INSERT INTO \"t\" (\"some field\", \"some date\") VALUES (:some field, :some date)" ∧
      s.assignments.get? "some field" = some ":some field" ∧
      s.registry.values.get? "some field" = some ⟨.int 1, .int⟩ ∧
      Placeholder.read ":some field".toList = some ("some".toList, " field".toList) ∧
      Placeholder.read ":some date".toList = some ("some".toList, " date".toList) ∧
      s.registry.values.get? "some" = none ∧
      ¬ ∃ key : String, Placeholder.read ":some field".toList = some (key.toList, []) ∧
        s.registry.values.get? key = some ⟨.int 1, .int⟩ := by
  intro s
  have cut : Placeholder.read ":some field".toList = some ("some".toList, " field".toList) := by decide
  refine ⟨by decide +kernel, by decide, by decide, cut, by decide, by decide, ?_⟩
  rintro ⟨key, whole, _⟩
  rw [cut] at whole
  simp at whole

end SqlCompose
