import SqlCompose.Proofs.Members
import SqlCompose.Proofs.Reach

namespace SqlCompose

def Headed (t : String) : Prop := "SELECT".toList <+: t.toList ∨ "(SELECT".toList <+: t.toList

theorem Headed.append {t : String} (headed : Headed t) (u : String) : Headed (t ++ u) := by
  have longer : t.toList <+: (t ++ u).toList := by
    rw [String.toList_append]
    exact List.prefix_append _ _
  exact headed.imp (·.trans longer) (·.trans longer)

theorem With.render_prefix {w : With} (filled : w.isEmpty = false) (d : Dialect) :
    "WITH".toList <+: (w.render d).toList := by
  simp only [render, filled, Bool.false_eq_true, ↓reduceIte, String.toList_append, List.append_assoc]
  split
  · exact (by decide : "WITH".toList <+: "WITH RECURSIVE".toList).trans (List.prefix_append _ _)
  · exact List.prefix_append _ _

namespace Select

variable {s : Select}

theorem body_prefix (s : Select) : "SELECT".toList <+: s.body.toList := by
  unfold body
  simp only [String.toList_append, List.append_assoc]
  exact List.prefix_append _ _

theorem member_headed (s : Select) : Headed s.member := by
  unfold member
  split
  · exact .inl s.body_prefix
  · refine .inr ?_
    obtain ⟨rest, same⟩ := s.body_prefix
    rw [String.append_assoc, String.append_assoc, String.toList_append, String.toList_append, ← same]
    exact ⟨rest ++ (") AS " ++ s.aliasName).toList, rfl⟩

theorem apply_union (s : Select) (call : SelectCall Embedded) :
    (s.apply call).clauses.union = s.clauses.union ∨ (s.apply call).clauses.union = [] ∨
      ∃ keyword, (s.apply call).clauses.union = s.clauses.union ++ [s.member ++ keyword] := by
  cases call with
  | common call => cases call <;> exact .inl rfl
  | filter call => cases call <;> exact .inl rfl
  | union all => exact .inr (.inr ⟨_, rfl⟩)
  | reset => exact .inr (.inl rfl)
  | _ => exact .inl rfl

end Select

def Statement.ClosedHeaded : Statement → Prop
  | .select s => ∀ t ∈ s.clauses.union, Headed t
  | _ => True

theorem closedHeaded_hereditary : Hereditary .free Statement.ClosedHeaded fun _ => True where
  created f kind ordinal := by
    cases kind with
    | select => exact fun _ member => by cases member
    | _ => trivial
  subSelect sel ordinal := fun _ member => by cases member
  clone st ordinal headed := by cases st <;> exact headed
  embedded _ _ := trivial
  brought _ _ := trivial
  composed st st' call headed _ _ composed := by
    cases Statement.composes_of_compose composed with
    | select s call =>
      intro t member
      rcases s.apply_union call with same | cleared | ⟨keyword, more⟩
      · exact headed t (same ▸ member)
      · rw [cleared] at member
        cases member
      · rw [more] at member
        rcases List.mem_append.mp member with old | new
        · exact headed t old
        · rw [List.mem_singleton.mp new]
          exact s.member_headed.append keyword
    | insert | update | delete => trivial

namespace Select

variable {s : Select}

theorem joined_headed {t : String} (headed : Headed t) (rest : List String) :
    Headed (Text.joined "" (t :: rest)) := by
  cases rest with
  | nil => exact headed
  | cons u rest => exact (headed.append _).append _

theorem front_headed (headed : ∀ t ∈ s.clauses.union, Headed t) :
    (s.clauses.ctes.isEmpty = true ∧ s.clauses.union = []) ∧ s.front = "" ∨
      ¬ (s.clauses.ctes.isEmpty = true ∧ s.clauses.union = []) ∧
        ("WITH".toList <+: s.front.toList ∨ Headed s.front) := by
  unfold front
  cases tables : s.clauses.ctes.isEmpty with
  | true =>
    have blankLead : s.clauses.ctes.render s.dialect = "" := by simp [With.render, tables]
    rw [blankLead, String.empty_append, Clauses.renderUnion]
    cases union : s.clauses.union with
    | nil => exact .inl ⟨⟨rfl, rfl⟩, rfl⟩
    | cons t rest =>
      exact .inr ⟨nofun, .inr (joined_headed (headed t (union ▸ List.mem_cons_self ..)) rest)⟩
  | false =>
    refine .inr ⟨nofun, .inl ((With.render_prefix tables s.dialect).trans ?_)⟩
    rw [String.toList_append]
    exact List.prefix_append _ _

theorem not_wrapped {t u v : String} (keyword : "WITH".toList <+: t.toList ∨ Headed t) :
    t ++ ("(" ++ u) ≠ "(" ++ (t ++ v) := by
  intro same
  have chars := congrArg String.toList same
  simp only [String.toList_append] at chars
  have spelled : "WITH".toList = ['W', 'I', 'T', 'H'] ∧ "SELECT".toList = ['S', 'E', 'L', 'E', 'C', 'T'] ∧
      "(SELECT".toList = ['(', 'S', 'E', 'L', 'E', 'C', 'T'] ∧ "(".toList = ['('] := by decide
  obtain ⟨common, plain, wrapped, opened⟩ := spelled
  unfold Headed at keyword
  rw [common, plain, wrapped] at keyword
  rw [opened] at chars
  -- One of the first two characters differs.
  rcases keyword with ⟨rest, is⟩ | ⟨rest, is⟩ | ⟨rest, is⟩
  · rw [← is] at chars
    cases chars
  · rw [← is] at chars
    cases chars
  · rw [← is] at chars
    cases chars

-- The alias wraps the open member, and the whole statement only as long as neither common tables
-- nor closed members stand in front of it.
theorem alias_wraps_open_member {s next : Session} {commands : List Command} {sel : Select}
    (empty : s.slots = .empty) (ran : Session.run s commands = .ok next) (stands : sel ∈ next.selects)
    (named : sel.aliasName ≠ "") :
    sel.sql = sel.front ++ "(" ++ sel.body ++ ") AS " ++ sel.aliasName ∧
      (sel.apply .resetAlias).sql = sel.front ++ sel.body ∧
      (sel.sql = "(" ++ (sel.apply .resetAlias).sql ++ ") AS " ++ sel.aliasName ↔
        sel.clauses.ctes.isEmpty = true ∧ sel.clauses.union = []) := by
  have aliased : sel.aliasName.isEmpty = false := by simpa using named
  have wrapped : sel.sql = sel.front ++ "(" ++ sel.body ++ ") AS " ++ sel.aliasName := by
    rw [sql_front, alone_sql, member, aliased]
    simp only [Bool.false_eq_true, ↓reduceIte, String.append_assoc]
  have unwrapped : (sel.apply .resetAlias).sql = sel.front ++ sel.body := rfl
  refine ⟨wrapped, unwrapped, ?_⟩
  have headed := closedHeaded_hereditary.reached empty ran _ (Session.mem_selects.mp stands)
  rcases front_headed headed with ⟨bare, blankFront⟩ | ⟨filled, keyword⟩
  · refine iff_of_true ?_ bare
    rw [wrapped, unwrapped, blankFront]
    simp only [String.empty_append]
  · refine iff_of_false ?_ filled
    rw [wrapped, unwrapped]
    simp only [String.append_assoc]
    exact not_wrapped keyword

def aliasedUnion : List Command := [
  .create "s" .select (.standalone "sqlite" "main") false,
  .call "s" (.select (.filter (.ctes (.define "c" [] (.text "SELECT 0"))))),
  .call "s" (.select (.table (.text "t"))),
  .call "s" (.select (.union false)),
  .call "s" (.select (.table (.text "u"))),
  .call "s" (.select (.filter (.condition (.add .and "n = " (some (.ofValue (.int 1))))))),
  .call "s" (.select (.setAlias "x"))]

theorem alias_wraps_open_member_aliasedUnion :
    ∃ next sel, Session.run {} aliasedUnion = .ok next ∧ sel ∈ next.selects ∧ sel.aliasName ≠ "" ∧
      sel.front = "WITH \"c\" AS (SELECT 0) SELECT * FROM t UNION " ∧
      sel.sql = sel.front ++ "(" ++ sel.body ++ ") AS " ++ sel.aliasName ∧
      (sel.apply .resetAlias).sql = sel.front ++ sel.body ∧
      (sel.sql = "(" ++ (sel.apply .resetAlias).sql ++ ") AS " ++ sel.aliasName ↔
        sel.clauses.ctes.isEmpty = true ∧ sel.clauses.union = []) := by
  have reached : Session.Reaches {} aliasedUnion fun next => ∃ sel ∈ next.selects,
      sel.aliasName ≠ "" ∧ sel.front = "WITH \"c\" AS (SELECT 0) SELECT * FROM t UNION " := by
    decide +kernel
  obtain ⟨next, ran, sel, stands, named, front⟩ := reached.exists
  exact ⟨next, sel, ran, stands, named, front, alias_wraps_open_member rfl ran stands named⟩

def unionOnly : List Command := [
  .create "s" .select (.standalone "sqlite" "main") false,
  .call "s" (.select (.table (.text "t"))),
  .call "s" (.select (.union false)),
  .call "s" (.select (.table (.text "u"))),
  .call "s" (.select (.setAlias "x"))]

theorem alias_leaves_closed_member :
    ∃ next sel, Session.run {} unionOnly = .ok next ∧ sel ∈ next.selects ∧ sel.aliasName = "x" ∧
      (sel.apply .resetAlias).sql = "SELECT * FROM t UNION SELECT * FROM u" ∧
      sel.sql = "SELECT * FROM t UNION (SELECT * FROM u) AS x" ∧
      sel.sql ≠ "(" ++ (sel.apply .resetAlias).sql ++ ") AS " ++ sel.aliasName := by
  have reached : Session.Reaches {} unionOnly fun next => ∃ sel ∈ next.selects,
      sel.aliasName = "x" ∧ (sel.apply .resetAlias).sql = "SELECT * FROM t UNION SELECT * FROM u" ∧
        sel.sql = "SELECT * FROM t UNION (SELECT * FROM u) AS x" ∧
        sel.sql ≠ "(" ++ (sel.apply .resetAlias).sql ++ ") AS " ++ sel.aliasName := by
    decide +kernel
  obtain ⟨next, ran, sel, stands, shown⟩ := reached.exists
  exact ⟨next, sel, ran, stands, shown⟩

end Select

end SqlCompose
