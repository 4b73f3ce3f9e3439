import SqlCompose.Proofs.LikeRuns

namespace SqlCompose

def Call.reset {ρ : Type} : StatementKind → Call ρ
  | .select => .select .reset
  | .insert => .insert .reset
  | .update => .update .reset
  | .delete => .delete .reset

def Statement.StandardPages : Statement → Prop
  | .insert s => s.clauses.paging.default = Paging.standardPerPage
  | _ => True

theorem standardPages_hereditary : Hereditary .free Statement.StandardPages fun _ => True where
  created f kind ordinal := by cases kind <;> trivial
  subSelect _ _ := trivial
  clone st ordinal standard := by cases st <;> exact standard
  embedded _ _ := trivial
  brought _ _ := trivial
  composed st st' call standard _ _ composed := by
    cases Statement.composes_of_compose composed with
    | insert s call =>
      cases call with
      | common call => cases call <;> exact standard
      | returning call => cases call <;> exact standard
      | _ => exact standard
    | select | update | delete => trivial

namespace Statement

def anew (s : Statement) : Statement :=
  Factory.create ⟨s.draft.dialect, s.draft.clauses.paging.default, s.registry.counter⟩ s.kind
    s.registry.ordinal

theorem compose_reset {s : Statement} (standard : s.StandardPages) :
    s.compose (.reset s.kind) = some s.anew := by
  cases s with
  | insert s =>
    -- The default page size is all that is left to compare.
    have pages : s.clauses.reset = .new Paging.standardPerPage := congrArg Clauses.new standard
    simp only [compose, Call.reset, kind, Insert.apply, Insert.reset, Draft.reset, pages]
    rfl
  | select | update | delete => rfl

end Statement

namespace Session

def trace (s : Session) : List Command → List (Except Fault (Reply × List (String × View)))
  | [] => []
  | c :: rest =>
    match step c s with
    | .error fault => [.error fault]
    | .ok (reply, next) => .ok (reply, next.views) :: next.trace rest

theorem step_reset {s : Session} {name : String} {slot : Slot} (stands : s.slots.get? name = some slot)
    (standard : slot.statement.StandardPages) :
    step (.call name (.reset slot.statement.kind)) s =
      .ok (.silent, s.store name (slot.withStatement slot.statement.anew)) := by
  have found : s.find name = .ok slot := by simp [find, stands]
  have rendered (kind : StatementKind) : (Call.reset kind).mapM render s = .ok (.reset kind, s) := by
    cases kind <;> rfl
  have silent (kind : StatementKind) : (Call.reset (ρ := Embedded) kind).inlined? = none := by
    cases kind <;> rfl
  simp only [step, bind, StateT.bind, Except.bind, rendered, perform, found, silent,
    Statement.compose_reset standard]

end Session

-- Whatever is done after a reset, it is seen to do what it does with a new statement in that place.
theorem reset_starts_afresh {start s : Session} {commands : List Command} (empty : start.slots = .empty)
    (ran : Session.run start commands = .ok s) {name : String} {slot : Slot}
    (stands : s.slots.get? name = some slot) (further : List Command) :
    let anew := s.store name (slot.withStatement slot.statement.anew)
    s.trace (.call name (.reset slot.statement.kind) :: further) =
      .ok (.silent, anew.views) :: anew.trace further := by
  have member : slot.statement ∈ s.statements :=
    (Session.found_statements stands).mem_iff.mpr (List.mem_cons_self ..)
  have standard := standardPages_hereditary.reached empty ran _ member
  simp only [Session.trace, Session.step_reset stands standard]

def worn : List Command := [
  .create "b" .delete (.standalone "ansi" "main") false,
  .create "s" .select (.standalone "sqlsrv" "main") true,
  .call "s" (.select (.filter (.paging (.defaultPerPage 20)))),
  .call "s" (.select (.filter (.ctes (.recursive true)))),
  .call "s" (.select (.filter (.ctes (.define "c" ["n"] (.text "SELECT 0"))))),
  .call "s" (.select (.table (.text "c"))),
  .call "s" (.select (.union true)),
  .call "s" (.select (.columns ["a"])),
  .call "s" (.select (.join "left" (.text "t") "t.n = " (some (.ofValue (.int 7))))),
  .call "s" (.select (.filter (.condition (.add .and "b = " (some (.ofValue (.int 8))))))),
  .call "s" (.select (.filter (.paging (.perPage 5)))),
  .call "s" (.select (.filter (.paging (.page 3)))),
  .call "s" (.select (.common (.bind "k" .null none))),
  .call "s" (.select (.forUpdate true)),
  .call "s" (.select (.setAlias "x"))]

def renewed : List Command := [
  .call "s" (.select (.filter (.condition (.add .or "n IN " (some (.list [.int 1, .int 2] none)))))),
  .call "s" (.select (.filter (.paging (.page 2)))),
  .call "s" (.select (.filter (.ctes (.define "d" [] (.text "SELECT 9"))))),
  .call "b" (.delete (.filter (.condition (.add .and "m = " (some (.ofValue (.int 4)))))))]

def wornText : String :=
  "WITH RECURSIVE [c] ([n]) AS (SELECT 0) SELECT * FROM c UNION ALL (SELECT a FROM LEFT JOIN t ON t.n = :_2_1_ " ++
    "WHERE b = :_2_2_ OFFSET 10 ROWS FETCH NEXT 5 ROWS ONLY FOR UPDATE) AS x"

def renewedText : String :=
  "WITH [d] AS (SELECT 9) SELECT * WHERE n IN (:_2_1_, :_2_2_) OFFSET 20 ROWS FETCH NEXT 20 ROWS ONLY"

theorem reset_starts_afresh_worn :
    ∃ s slot, Session.run {} worn = .ok s ∧ s.slots.get? "s" = some slot ∧ slot.statement.sql = wornText ∧
      let anew := s.store "s" (slot.withStatement slot.statement.anew)
      s.trace (.call "s" (.reset slot.statement.kind) :: renewed) = .ok (.silent, anew.views) :: anew.trace renewed ∧
        anew.Reaches renewed fun next => ∃ x ∈ next.views, x.1 = "s" ∧ x.2.sql = renewedText := by
  have reached : Session.Reaches {} worn fun s => ∃ slot ∈ s.slots.get? "s", slot.statement.sql = wornText ∧
      (s.store "s" (slot.withStatement slot.statement.anew)).Reaches renewed fun next =>
        ∃ x ∈ next.views, x.1 = "s" ∧ x.2.sql = renewedText := by
    decide +kernel
  obtain ⟨s, ran, slot, stands, before, after⟩ := reached.exists
  exact ⟨s, slot, ran, stands, before, reset_starts_afresh rfl ran stands renewed, after⟩

end SqlCompose
