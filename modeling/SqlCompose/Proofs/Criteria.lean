import SqlCompose.Proofs.Interleaving

namespace SqlCompose

variable {ρ : Type}

-- The call that adds the condition of a criterion. Nulls are compared by IS NULL, lists by IN,
-- and a list of nothing holds for no row.
def Criterion.condition : Criterion ρ → ConditionCall ρ
  | .raw fragment => .add .and fragment none
  | .column name (.scalar .null _) => .add .and (name ++ " IS NULL") none
  | .column _ (.list [] _) => .add .and "FALSE" none
  | .column name (.list (v :: vs) type) => .add .and (name ++ " IN ") (some (.list (v :: vs) type))
  | .column name value => .add .and (name ++ " = ") (some value)

def Criterion.silent : Criterion ρ → Bool
  | .raw _ => true
  | .column _ (.scalar v _) => v.isNull
  | .column _ (.list vs _) => vs.isEmpty
  | .column _ (.statement _) => false

namespace BoundConditions

theorem addCriterion_condition (b : BoundConditions) (c : Criterion Embedded) :
    b.addCriterion c = b.apply c.condition := by
  cases c with
  | raw fragment => rfl
  | column name value =>
    cases value with
    | scalar v type => cases v <;> rfl
    | list vs type => cases vs <;> rfl
    | statement e => rfl

theorem addCriterion_silent (b : BoundConditions) {c : Criterion Embedded} (silent : c.silent = true) :
    (b.addCriterion c).registry = b.registry := by
  cases c with
  | raw fragment => rfl
  | column name value =>
    cases value with
    | scalar v type => cases v <;> first | rfl | cases silent
    | list vs type => cases vs <;> first | rfl | cases silent
    | statement e => cases silent

end BoundConditions

namespace Draft

theorem equals_cons (d : Draft) (c : Criterion Embedded) (criteria : List (Criterion Embedded)) :
    d.applyFilter (.equals (c :: criteria)) =
      (d.applyFilter (.condition c.condition)).applyFilter (.equals criteria) := by
  show d.changeConditions (fun b => (b.addCriterion c).addCriteria criteria) = _
  simp only [BoundConditions.addCriterion_condition]
  rfl

theorem equals_conditions (d : Draft) (criteria : List (Criterion Embedded)) :
    d.applyFilter (.equals criteria) = criteria.foldl (fun d c => d.applyFilter (.condition c.condition)) d := by
  induction criteria generalizing d with
  | nil => rfl
  | cons c rest ih => rw [equals_cons, ih, List.foldl_cons]

theorem equals_append (d : Draft) (criteria more : List (Criterion Embedded)) :
    d.applyFilter (.equals (criteria ++ more)) = (d.applyFilter (.equals criteria)).applyFilter (.equals more) := by
  simp only [equals_conditions, List.foldl_append]

theorem equals_silent (d : Draft) {criteria : List (Criterion Embedded)} (silent : ∀ c ∈ criteria, c.silent = true) :
    (d.applyFilter (.equals criteria)).registry = d.registry := by
  induction criteria generalizing d with
  | nil => rfl
  | cons c rest ih =>
    obtain ⟨here, later⟩ := List.forall_mem_cons.mp silent
    rw [equals_cons, ih _ later]
    show (BoundConditions.apply ⟨d.clauses.conditions, d.registry⟩ c.condition).registry = d.registry
    rw [← BoundConditions.addCriterion_condition, BoundConditions.addCriterion_silent _ here]

end Draft

inductive RowKind where
  | select
  | update
  | delete
  deriving DecidableEq, Repr

namespace RowKind

def kind : RowKind → StatementKind
  | select => .select
  | update => .update
  | delete => .delete

def call : RowKind → FilterCall ρ → Call ρ
  | select, c => .select (.filter c)
  | update, c => .update (.filter c)
  | delete, c => .delete (.filter c)

end RowKind

namespace Statement

def redraft (d : Draft) : Statement → Statement
  | .select s => .select { s with toDraft := d }
  | .insert s => .insert { s with toDraft := d }
  | .update s => .update { s with toDraft := d }
  | .delete s => .delete { s with toDraft := d }

theorem compose_filter {k : RowKind} {st : Statement} (is : st.kind = k.kind) (c : FilterCall Embedded) :
    st.compose (k.call c) = some (st.redraft (st.draft.applyFilter c)) := by
  cases k <;> cases st <;> first | rfl | cases is

theorem composeAll_filter {k : RowKind} {st : Statement} (is : st.kind = k.kind) (calls : List (FilterCall Embedded)) :
    st.composeAll (calls.map k.call) = some (st.redraft (calls.foldl Draft.applyFilter st.draft)) := by
  induction calls generalizing st with
  | nil => cases st <;> rfl
  | cons c rest ih =>
    have next : (st.redraft (st.draft.applyFilter c)).kind = k.kind := by cases st <;> exact is
    have later := ih next
    rw [composeAll] at later ⊢
    rw [List.map_cons, List.foldlM_cons, compose_filter is, Option.bind_eq_bind, Option.bind_some, later]
    cases st <;> rfl

-- Criteria leave a statement as their conditions do, one call after the other. Those without a value leave its
-- registry alone, and a longer list is two calls.
theorem criteria_are_conditions (k : RowKind) (st : Statement) (is : st.kind = k.kind)
    (criteria : List (Criterion Embedded)) :
    ∃ next, st.compose (k.call (.equals criteria)) = some next ∧
      st.composeAll (criteria.map fun c => k.call (.condition c.condition)) = some next ∧
      ((∀ c ∈ criteria, c.silent = true) → next.registry = st.registry) ∧
      ∀ more, st.compose (k.call (.equals (criteria ++ more))) = next.compose (k.call (.equals more)) := by
  have next : (st.redraft (st.draft.applyFilter (.equals criteria))).kind = k.kind := by cases st <;> exact is
  refine ⟨_, compose_filter is _, ?conditions, fun silent => ?registry, fun more => ?longer⟩
  case conditions =>
    have calls := composeAll_filter is (criteria.map fun c => .condition c.condition)
    rw [List.map_map, List.foldl_map, ← Draft.equals_conditions] at calls
    exact calls
  case registry =>
    have kept := st.draft.equals_silent silent
    cases st <;> exact kept
  case longer =>
    rw [compose_filter is, compose_filter next, Draft.equals_append]
    cases st <;> rfl

def everyShape : List (Criterion Embedded) := [
  .raw "a OR b",
  .column "c" (.scalar .null (some .int)),
  .column "d" (.list [] (some .str)),
  .column "e" (.list [.null, .int 1] (some .str)),
  .column "f" (.statement ⟨"SELECT :k", .ofList [("k", ⟨.int 7, .int⟩)]⟩),
  .column "g" (.scalar (.bool true) none)]

theorem criteria_are_conditions_everyShape :
    let st := Statement.update ((Update.new .pgsql "main" 3).apply (.filter (.condition (.add .or "z" none))))
    st.kind = RowKind.update.kind ∧
      ∃ next, st.compose (.update (.filter (.equals everyShape))) = some next ∧
        st.composeAll [
          .update (.filter (.condition (.add .and "a OR b" none))),
          .update (.filter (.condition (.add .and "c IS NULL" none))),
          .update (.filter (.condition (.add .and "FALSE" none))),
          .update (.filter (.condition (.add .and "e IN " (some (.list [.null, .int 1] (some .str)))))),
          .update (.filter (.condition (.add .and "f = "
            (some (.statement ⟨"SELECT :k", .ofList [("k", ⟨.int 7, .int⟩)]⟩))))),
          .update (.filter (.condition (.add .and "g = " (some (.scalar (.bool true) none)))))] = some next ∧
        next.sql = "UPDATE  SET WHERE z AND a OR b AND c IS NULL AND FALSE AND e IN (:_3_1_, :_3_2_)" ++
          " AND f = (SELECT :k) AND g = :_3_3_" ∧
        next.values.entries = [("_3_1_", ⟨.null, .str⟩), ("_3_2_", ⟨.int 1, .str⟩), ("k", ⟨.int 7, .int⟩),
          ("_3_3_", ⟨.bool true, .bool⟩)] ∧
        (∀ c ∈ everyShape.take 3, c.silent = true) ∧
        ∃ middle, st.compose (.update (.filter (.equals (everyShape.take 3)))) = some middle ∧
          middle.registry = st.registry ∧
          middle.compose (.update (.filter (.equals (everyShape.drop 3)))) = some next := by
  intro st
  obtain ⟨next, composed, conditions, _, _⟩ := criteria_are_conditions .update st rfl everyShape
  obtain ⟨middle, begun, _, kept, longer⟩ := criteria_are_conditions .update st rfl (everyShape.take 3)
  have silent : ∀ c ∈ everyShape.take 3, c.silent = true := by decide
  have rest : middle.compose (.update (.filter (.equals (everyShape.drop 3)))) = some next :=
    (longer (everyShape.drop 3)).symm.trans composed
  have shown : (st.compose (.update (.filter (.equals everyShape)))).map
        (fun next => (next.sql, next.values.entries)) =
      some ("UPDATE  SET WHERE z AND a OR b AND c IS NULL AND FALSE AND e IN (:_3_1_, :_3_2_)" ++
          " AND f = (SELECT :k) AND g = :_3_3_",
        [("_3_1_", ⟨.null, .str⟩), ("_3_2_", ⟨.int 1, .str⟩), ("k", ⟨.int 7, .int⟩),
          ("_3_3_", ⟨.bool true, .bool⟩)]) := by
    decide +kernel
  have same : st.compose (.update (.filter (.equals everyShape))) = some next := composed
  rw [same, Option.map_some, Option.some.injEq, Prod.mk.injEq] at shown
  exact ⟨rfl, next, composed, conditions, shown.1, shown.2, silent, middle, begun, kept silent, rest⟩

end Statement

end SqlCompose
