import Mathlib.Data.List.Basic
import SqlCompose.Proofs.Edits

namespace SqlCompose

def Call.Clausal (kind : StatementKind) (c : Call Embedded) : Prop :=
  c.kind = kind ∧ c.clause?.isSome = true ∧ ∀ e ∈ c.effects, ¬ e.Binds

instance (kind : StatementKind) : DecidablePred (Call.Clausal kind) := fun c =>
  inferInstanceAs (Decidable (_ ∧ _ ∧ ∀ e ∈ c.effects, ¬ e.Binds))

namespace Statement

def composeAll (s : Statement) (calls : List (Call Embedded)) : Option Statement := calls.foldlM compose s

variable {kind : StatementKind} {c : Call Embedded} {s : Statement}

theorem composeAll_clausal (clausal : c.Clausal kind) :
    ∃ e : Edit, c.clause? = some e.clause ∧
      ∀ s : Statement, s.kind = kind → ∀ rest, s.composeAll (c :: rest) = (s.edit e).composeAll rest := by
  obtain ⟨rfl, listed, silent⟩ := clausal
  obtain ⟨k, belongs⟩ := Option.isSome_iff_exists.mp listed
  obtain ⟨e, rfl, same⟩ := Call.edits belongs silent
  refine ⟨e, belongs, fun s kind rest => ?_⟩
  rw [composeAll, List.foldlM_cons, same s kind]
  rfl

theorem composeAll_sooner {before after : List (Call Embedded)} (own : c.Clausal kind)
    (clausal : ∀ d ∈ before, d.Clausal kind) (apart : ∀ d ∈ before, d.clause? ≠ c.clause?)
    (is : s.kind = kind) : s.composeAll (before ++ c :: after) = s.composeAll (c :: (before ++ after)) := by
  induction before generalizing s with
  | nil => rfl
  | cons d rest ih =>
    obtain ⟨here, later⟩ := List.forall_mem_cons.mp clausal
    obtain ⟨different, others⟩ := List.forall_mem_cons.mp apart
    obtain ⟨e, ofOwn, edited⟩ := composeAll_clausal own
    obtain ⟨f, ofHere, edited'⟩ := composeAll_clausal here
    have distinct : f.clause ≠ e.clause := fun same => different (by rw [ofOwn, ofHere, same])
    have kindE := (s.edit_kind e).trans is
    have kindF := (s.edit_kind f).trans is
    calc s.composeAll (d :: (rest ++ c :: after))
      _ = (s.edit f).composeAll (c :: (rest ++ after)) := by rw [edited' s is, ih later others kindF]
      _ = ((s.edit e).edit f).composeAll (rest ++ after) := by rw [edited _ kindF, s.edit_comm distinct]
      _ = s.composeAll (c :: d :: (rest ++ after)) := by rw [edited s is, edited' _ kindE]

end Statement

theorem filter_without_first {κ ι : Type} [DecidableEq ι] {own : κ → Option ι} {c : κ} {rest before after : List κ}
    (same : ∀ k, (c :: rest).filter (own · = some k) = (before ++ c :: after).filter (own · = some k))
    (apart : ∀ d ∈ before, own d ≠ own c) (k : ι) :
    rest.filter (own · = some k) = (before ++ after).filter (own · = some k) := by
  have here := same k
  rw [List.filter_append] at here ⊢
  by_cases member : own c = some k
  · have absent : before.filter (own · = some k) = [] :=
      List.filter_eq_nil_iff.mpr fun d there => by simpa [member] using apart d there
    rw [absent, List.nil_append] at here ⊢
    rw [List.filter_cons_of_pos (by simpa using member), List.filter_cons_of_pos (by simpa using member)] at here
    exact (List.cons.inj here).2
  · rwa [List.filter_cons_of_neg (by simpa using member), List.filter_cons_of_neg (by simpa using member)] at here

-- Calls to a statement that agree clause by clause make the same statement of it.
theorem clause_calls_commute (s : Statement) {first second : List (Call Embedded)}
    (clausal : ∀ c ∈ first ++ second, c.Clausal s.kind)
    (same : ∀ k, first.filter (·.clause? = some k) = second.filter (·.clause? = some k)) :
    ∃ next, s.composeAll first = some next ∧ s.composeAll second = some next := by
  induction first generalizing s second with
  | nil =>
    cases second with
    | nil => exact ⟨s, rfl, rfl⟩
    | cons c rest =>
      obtain ⟨k, belongs⟩ := Option.isSome_iff_exists.mp (clausal c (List.mem_cons_self ..)).2.1
      have uncalled := same k
      simp [belongs] at uncalled
  | cons c rest ih =>
    obtain ⟨here, others⟩ := List.forall_mem_cons.mp clausal
    obtain ⟨later, there⟩ := List.forall_mem_append.mp others
    obtain ⟨e, belongs, edited⟩ := Statement.composeAll_clausal here
    -- The second list makes this call too, as the first to its clause, and can make it at once.
    have own := same e.clause
    rw [List.filter_cons_of_pos (by simpa using belongs)] at own
    obtain ⟨before, after, rfl, apart, _, _⟩ := List.filter_eq_cons_iff.mp own.symm
    obtain ⟨front, back⟩ := List.forall_mem_append.mp there
    have different : ∀ d ∈ before, d.clause? ≠ c.clause? := fun d member => by
      simpa [belongs] using apart d member
    rw [Statement.composeAll_sooner here front different rfl, edited s rfl, edited s rfl]
    refine ih (s.edit e) ?_ (filter_without_first same different)
    rw [s.edit_kind e]
    exact List.forall_mem_append.mpr ⟨later,
      List.forall_mem_append.mpr ⟨front, (List.forall_mem_cons.mp back).2⟩⟩

def begunSelect : Statement :=
  let s : Select := .new .sqlsrv "main" 3
  .select (((s.apply (.filter (.condition (.add .and "n = " (some (.ofValue (.int 1))))))).apply (.union true)).apply
    (.table (.text "t")))

def mixedCalls : List (SelectCall Embedded) := [
  .columns ["a"], .join "left" (.text "u") "t.n = u.n" none, .filter (.paging (.page 3)), .setAlias "x",
  .filter (.condition (.add .or "a > 1" none)), .resetColumns, .filter (.ctes (.recursive true)),
  .appendJoin " AND u.m" none, .distinct true, .columnsAs [("b", "c")], .forUpdate true,
  .filter (.equals [.column "c" (.scalar .null none), .column "d" (.list [] none)]), .orderBy ["b"],
  .filter (.ctes (.define "w" ["n"] (.text "SELECT 0"))), .having (.add .and "k > 2" none), .groupBy ["b"],
  .common (.flag (.set "STRAIGHT" true)), .filter (.paging (.perPage 5)), .having (.append " OR k" none),
  .table (.text "v"), .filter (.paging (.offset 4)), .resetOrderBy, .filter (.paging (.limit 2))]

def sortedCalls : List (SelectCall Embedded) := [
  .filter (.paging (.page 3)), .filter (.paging (.perPage 5)),
  .filter (.paging (.offset 4)), .filter (.paging (.limit 2)),
  .filter (.ctes (.recursive true)), .filter (.ctes (.define "w" ["n"] (.text "SELECT 0"))),
  .setAlias "x", .forUpdate true, .orderBy ["b"], .resetOrderBy, .groupBy ["b"],
  .having (.add .and "k > 2" none), .having (.append " OR k" none),
  .filter (.condition (.add .or "a > 1" none)),
  .filter (.equals [.column "c" (.scalar .null none), .column "d" (.list [] none)]),
  .join "left" (.text "u") "t.n = u.n" none, .appendJoin " AND u.m" none, .table (.text "v"),
  .columns ["a"], .resetColumns, .columnsAs [("b", "c")],
  .distinct true, .common (.flag (.set "STRAIGHT" true))]

def mixedText : String :=
  "WITH RECURSIVE [w] ([n]) AS (SELECT 0) SELECT * WHERE n = :_3_1_ " ++
    "UNION ALL (SELECT DISTINCT STRAIGHT b AS c FROM t LEFT JOIN u ON t.n = u.n AND u.m, v " ++
    "WHERE a > 1 AND c IS NULL AND FALSE GROUP BY b HAVING k > 2 OR k " ++
    "OFFSET 4 ROWS FETCH NEXT 2 ROWS ONLY FOR UPDATE) AS x"

theorem clause_calls_commute_mixed :
    (∀ c ∈ mixedCalls.map Call.select ++ sortedCalls.map Call.select, c.Clausal begunSelect.kind) ∧
      (∀ k, (mixedCalls.map Call.select).filter (·.clause? = some k) =
        (sortedCalls.map Call.select).filter (·.clause? = some k)) ∧
      ∃ next, begunSelect.composeAll (mixedCalls.map .select) = some next ∧
        begunSelect.composeAll (sortedCalls.map .select) = some next ∧ next.sql = mixedText := by
  have clausal : ∀ c ∈ mixedCalls.map Call.select ++ sortedCalls.map Call.select, c.Clausal begunSelect.kind := by
    decide +kernel
  have same : ∀ k, (mixedCalls.map Call.select).filter (·.clause? = some k) =
      (sortedCalls.map Call.select).filter (·.clause? = some k) := by
    intro k
    cases k <;> rfl
  have text : (begunSelect.composeAll (mixedCalls.map .select)).map Statement.sql = some mixedText := by decide +kernel
  obtain ⟨next, first, second⟩ := clause_calls_commute begunSelect clausal same
  rw [first] at text
  exact ⟨clausal, same, next, first, second, Option.some.inj text⟩

end SqlCompose
