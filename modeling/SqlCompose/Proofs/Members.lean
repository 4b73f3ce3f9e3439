import SqlCompose.Query.Factory

namespace SqlCompose

theorem Text.joined_concat (items : List String) (last : String) :
    joined "" (items ++ [last]) = joined "" items ++ last := by
  induction items with
  | nil => exact String.empty_append.symm
  | cons first rest ih =>
    cases rest with
    | nil => simp [joined]
    | cons second rest =>
      have later : joined "" (first :: second :: rest ++ [last]) =
          first ++ "" ++ joined "" (second :: rest ++ [last]) := rfl
      rw [later, ih, ← String.append_assoc]
      rfl

def SelectCall.inMember {ρ : Type} : SelectCall ρ → Bool
  | .filter (.ctes _) | .union _ | .reset => false
  | _ => true

structure Member where
  calls : List (SelectCall Embedded)
  all : Bool

def Member.keyword (m : Member) : String := if m.all then " UNION ALL " else " UNION "

namespace Select

def applyAll (s : Select) (calls : List (SelectCall Embedded)) : Select := calls.foldl apply s

def close (s : Select) (m : Member) : Select := (s.applyAll m.calls).apply (.union m.all)

def closeAll (s : Select) (members : List Member) : Select := members.foldl close s

def blank (s : Select) : Select where
  dialect := s.dialect
  registry := s.registry
  clauses := .new s.clauses.paging.default

def alone (s : Select) : Select := { s with clauses.ctes := {}, clauses.union := [] }

-- A member begins where a select is made or emptied, and where the member before it is closed.
inductive Begins : Select → Prop where
  | created (f : Factory) (made : f.create .select ordinal = .select s) : Begins s
  | subSelect (s : Select) (ordinal : UInt64) : Begins (s.subSelect ordinal)
  | reset (s : Select) : Begins (s.apply .reset)
  | closed (s : Select) (all : Bool) : Begins (s.apply (.union all))
  | clone (begins : Begins s) (ordinal : UInt64) : Begins (s.renumber ordinal)
  | tables (begins : Begins s) (call : WithCall Embedded) : Begins (s.apply (.filter (.ctes call)))

-- The texts of members that are composed one by one, each on a select of its own: the first goes on from a given
-- select, and every other starts blank when its turn comes in the union.
def memberTexts (s first : Select) : List Member → List (SelectCall Embedded) → String
  | [], last => (first.applyAll last).sql
  | m :: rest, last =>
    (first.applyAll m.calls).sql ++ m.keyword ++ memberTexts (s.close m) (s.close m).blank rest last

def front (s : Select) : String := s.clauses.ctes.render s.dialect ++ s.clauses.renderUnion

theorem alone_sql (s : Select) : s.alone.sql = s.member := by
  have leadless : ({} : With).render s.dialect ++ Text.joined "" [] = "" := rfl
  have same : s.alone.member = s.member := rfl
  rw [sql, same]
  exact (congrArg (· ++ s.member) leadless).trans (String.empty_append)

theorem sql_front (s : Select) : s.sql = s.front ++ s.alone.sql := by
  rw [alone_sql]
  rfl

theorem begins_blank {s : Select} (begins : s.Begins) : s.alone = s.blank := by
  induction begins with
  | created f made => cases made; rfl
  | subSelect | reset | closed => rfl
  | clone _ ordinal ih => exact congrArg (·.renumber ordinal) ih
  | @tables s _ call ih =>
    exact congrArg (fun s' : Select => { s' with registry := (s.apply (.filter (.ctes call))).registry }) ih

section

variable {s : Select} {call : SelectCall Embedded}

theorem apply_alone (inside : call.inMember = true) : (s.apply call).alone = s.alone.apply call := by
  cases call with
  | common call => cases call <;> rfl
  | filter call => cases call <;> first | rfl | cases inside
  | union | reset => cases inside
  | _ => rfl

theorem apply_front (inside : call.inMember = true) : (s.apply call).front = s.front := by
  cases call with
  | common call => cases call <;> rfl
  | filter call => cases call <;> first | rfl | cases inside
  | union | reset => cases inside
  | _ => rfl

end

theorem applyAll_alone {s : Select} {calls : List (SelectCall Embedded)}
    (inside : ∀ c ∈ calls, c.inMember = true) :
    (s.applyAll calls).alone = s.alone.applyAll calls ∧ (s.applyAll calls).front = s.front := by
  induction calls generalizing s with
  | nil => exact ⟨rfl, rfl⟩
  | cons c rest ih =>
    obtain ⟨here, later⟩ := List.forall_mem_cons.mp inside
    obtain ⟨same, kept⟩ := ih (s := s.apply c) later
    exact ⟨by rw [applyAll, List.foldl_cons, ← applyAll, same, apply_alone here]; rfl,
      kept.trans (apply_front here)⟩

theorem close_front {s : Select} {m : Member} (inside : ∀ c ∈ m.calls, c.inMember = true) :
    (s.close m).front = s.front ++ ((s.alone.applyAll m.calls).sql ++ m.keyword) := by
  obtain ⟨same, kept⟩ := applyAll_alone (s := s) inside
  have closed : (s.close m).front = (s.applyAll m.calls).front ++ ((s.applyAll m.calls).member ++ m.keyword) := by
    show _ ++ Text.joined "" (_ ++ [_]) = _
    rw [Text.joined_concat, ← String.append_assoc]
    rfl
  rw [closed, kept, ← alone_sql, same]

theorem closeAll_sql {s : Select} {members : List Member} {last : List (SelectCall Embedded)}
    (inside : ∀ m ∈ members, ∀ c ∈ m.calls, c.inMember = true) (ongoing : ∀ c ∈ last, c.inMember = true) :
    ((s.closeAll members).applyAll last).sql = s.front ++ s.memberTexts s.alone members last := by
  induction members generalizing s with
  | nil =>
    obtain ⟨same, kept⟩ := applyAll_alone (s := s) ongoing
    rw [closeAll, List.foldl_nil, sql_front, kept, same]
    rfl
  | cons m rest ih =>
    obtain ⟨here, later⟩ := List.forall_mem_cons.mp inside
    have begun : (s.close m).alone = (s.close m).blank := rfl
    calc ((s.closeAll (m :: rest)).applyAll last).sql
      _ = (s.close m).front ++ (s.close m).memberTexts (s.close m).blank rest last := begun ▸ ih later
      _ = s.front ++ s.memberTexts s.alone (m :: rest) last := by
        rw [close_front here, memberTexts, String.append_assoc]

-- Closing a member leaves a blank one behind, and every member reads as if it were composed alone.
theorem union_members_independent (s : Select) :
    (∀ all, let closed := s.apply (.union all)
      closed.registry = s.registry ∧ closed.clauses.ctes = s.clauses.ctes ∧
        closed.clauses.union =
          s.clauses.union ++ [s.alone.sql ++ if all then " UNION ALL " else " UNION "] ∧
        closed.alone = closed.blank) ∧
    ∀ members last, (∀ m ∈ members, ∀ c ∈ m.calls, c.inMember = true) →
      (∀ c ∈ last, c.inMember = true) →
        let next := (s.closeAll members).applyAll last
        next.sql = s.clauses.ctes.render s.dialect ++ s.clauses.renderUnion ++
            s.memberTexts s.alone members last ∧
          (s.Begins → next.sql = s.clauses.ctes.render s.dialect ++ s.clauses.renderUnion ++
            s.memberTexts s.blank members last) := by
  refine ⟨fun all => ⟨rfl, rfl, by rw [alone_sql]; rfl, rfl⟩, ?_⟩
  intro members last inside ongoing
  have text := closeAll_sql (s := s) inside ongoing
  exact ⟨text, fun begins => begins_blank begins ▸ text⟩

def crowdedMember : Member where
  calls := [
    .columns ["a"], .distinct true, .table (.text "t"),
    .join "left" (.statement ⟨"(SELECT :k) AS j", .ofList [("k", ⟨.null, .null⟩)]⟩) "j.a = " (some (.ofValue (.int 1))),
    .filter (.condition (.add .and "b = " (some (.ofValue (.int 2))))),
    .groupBy ["a"], .having (.add .or "n > 3" none), .orderBy ["a"],
    .filter (.paging (.perPage 7)), .filter (.paging (.page 2)), .setAlias "x", .forUpdate true]
  all := true

theorem union_members_independent_crowded :
    let s := ((new .pgsql "main" 4).apply (.filter (.ctes (.define "c" [] (.text "SELECT 0"))))).apply (.union false)
    let members := [crowdedMember, ⟨[], false⟩]
    let last := [.filter (.equals [.column "d" (.ofValue (.int 5))]), .filter (.paging (.page 3))]
    s.Begins ∧ (∀ m ∈ members, ∀ c ∈ m.calls, c.inMember = true) ∧ (∀ c ∈ last, c.inMember = true) ∧
      ((s.closeAll members).applyAll last).sql =
        s.clauses.ctes.render s.dialect ++ s.clauses.renderUnion ++ s.memberTexts s.blank members last ∧
      s.memberTexts s.blank members last =
        "(SELECT DISTINCT a FROM t LEFT JOIN (SELECT :k) AS j ON j.a = :_4_1_ WHERE b = :_4_2_ GROUP BY a " ++
          "HAVING n > 3 ORDER BY a LIMIT 7 OFFSET 7 FOR UPDATE) AS x UNION ALL SELECT * " ++
          "UNION SELECT * WHERE d = :_4_3_ LIMIT 10 OFFSET 20" := by
  intro s members last
  have inside : ∀ m ∈ members, ∀ c ∈ m.calls, c.inMember = true := by decide
  have ongoing : ∀ c ∈ last, c.inMember = true := by decide
  have text := ((union_members_independent s).2 members last inside ongoing).2 (.closed _ false)
  exact ⟨.closed _ false, inside, ongoing, text, by decide +kernel⟩

end Select

end SqlCompose
