import SqlCompose.Proofs.TidyStatements
import SqlCompose.Proofs.Upkeep

namespace SqlCompose

open Effect (references)
open Text (Spaced Part)

section

variable {ρ σ : Type} (f : ρ → σ)

theorem Inline.Follows.map {lead : Bool} {fragment : String} {value : Option (Inline ρ)}
    (follows : Follows lead fragment value) : Follows lead fragment (mapOption f value) := by
  cases value with
  | none => exact follows
  | some value =>
    cases value with
    | scalar | statement => exact follows
    | list vs => cases vs <;> exact follows

theorem Source.Tidy.map {source : Source ρ} (tidy : source.Tidy) : (source.map f).Tidy := by
  cases source <;> exact tidy

theorem Criterion.Tidy.map {c : Criterion ρ} (tidy : c.Tidy) : (c.map f).Tidy := by
  cases c <;> exact tidy

theorem ConditionCall.Tidy.map {c : Conditions} {call : ConditionCall ρ} (tidy : call.Tidy c) :
    (call.map f).Tidy c := by
  cases call with
  | add => exact Inline.Follows.map f tidy
  | append => exact ⟨tidy.1, Inline.Follows.map f tidy.2⟩
  | reset => trivial

theorem WithCall.Tidy.map {call : WithCall ρ} (tidy : call.Tidy) : (call.map f).Tidy := by
  cases call with
  | define => exact ⟨tidy.1, tidy.2.1, Source.Tidy.map f tidy.2.2⟩
  | recursive | reset => trivial

theorem CommonCall.Tidy.map {call : CommonCall ρ} (tidy : call.Tidy) : (call.map f).Tidy := by
  cases call <;> exact tidy

theorem FilterCall.Tidy.map {c : Clauses} {call : FilterCall ρ} (tidy : call.Tidy c) : (call.map f).Tidy c := by
  cases call with
  | paging => trivial
  | condition => exact ConditionCall.Tidy.map f tidy
  | equals criteria =>
    rw [FilterCall.map_equals f criteria]
    intro x member
    obtain ⟨c, there, rfl⟩ := List.mem_map.mp member
    exact Criterion.Tidy.map f (tidy c there)
  | ctes => exact WithCall.Tidy.map f tidy

theorem SelectCall.Tidy.map {c : Clauses} {call : SelectCall ρ} (tidy : call.Tidy c) : (call.map f).Tidy c := by
  cases call with
  | common => exact CommonCall.Tidy.map f tidy
  | filter => exact FilterCall.Tidy.map f tidy
  | having => exact ConditionCall.Tidy.map f tidy
  | table => exact Source.Tidy.map f tidy
  | join kind source condition value =>
    obtain ⟨joins, table, follows⟩ := tidy
    refine ⟨joins, Source.Tidy.map f table, follows.imp (fun bare => ⟨bare.1, ?_⟩) (Inline.Follows.map f)⟩
    cases value with
    | none => rfl
    | some => cases bare.2
  | appendJoin => exact ⟨tidy.1, Inline.Follows.map f tidy.2⟩
  | _ => exact tidy

theorem InsertCall.Tidy.map {call : InsertCall ρ} (tidy : call.Tidy) : (call.map f).Tidy := by
  cases call with
  | common => exact CommonCall.Tidy.map f tidy
  | _ => exact tidy

theorem UpdateCall.Tidy.map {c : Clauses} {call : UpdateCall ρ} (tidy : call.Tidy c) : (call.map f).Tidy c := by
  cases call with
  | common => exact CommonCall.Tidy.map f tidy
  | filter => exact FilterCall.Tidy.map f tidy
  | _ => exact tidy

theorem DeleteCall.Tidy.map {c : Clauses} {call : DeleteCall ρ} (tidy : call.Tidy c) : (call.map f).Tidy c := by
  cases call with
  | common => exact CommonCall.Tidy.map f tidy
  | filter => exact FilterCall.Tidy.map f tidy
  | _ => exact tidy

theorem Call.Tidy.map {c : Clauses} {call : Call ρ} (tidy : call.Tidy c) : (call.map f).Tidy c := by
  cases call with
  | select => exact SelectCall.Tidy.map f tidy
  | insert => exact InsertCall.Tidy.map f tidy
  | update => exact UpdateCall.Tidy.map f tidy
  | delete => exact DeleteCall.Tidy.map f tidy

end

def Reference.Tidy : Reference → Prop
  | .rendered e => Text.Tidy e.sql
  | .slot _ | .cloneOf _ => True

def Command.Tidy (s : Session) : Command → Prop
  | .call name c =>
    (∀ ref ∈ references c.effects, ref.Tidy) ∧ ∀ slot ∈ s.slots.get? name, c.Tidy slot.statement.draft.clauses
  | _ => True

instance : DecidablePred Reference.Tidy
  | .rendered e => inferInstanceAs (Decidable (Text.Tidy e.sql))
  | .slot _ | .cloneOf _ => inferInstanceAs (Decidable True)

instance (s : Session) : DecidablePred (Command.Tidy s)
  | .call name c => inferInstanceAs (Decidable ((∀ ref ∈ references c.effects, ref.Tidy) ∧
      ∀ slot ∈ s.slots.get? name, c.Tidy slot.statement.draft.clauses))
  | .create .. | .useFactory _ | .subSelect .. | .clone .. | .unbind .. | .embed _ => inferInstanceAs (Decidable True)

theorem tidy_upkeep : Upkeep (fun st call => call.Tidy st.draft.clauses) Statement.Tidy fun e => Text.Tidy e.sql where
  created _ _ _ := Statement.withDefaultPerPage_tidy (Statement.new_tidy ..) _
  subSelect _ _ := ⟨{ Clauses.Tidy.new 0 with }, .missing⟩
  clone _ ordinal tidy := Statement.renumber_tidy tidy ordinal
  embedded _ tidy := Select.sql_tidy tidy.1 tidy.2
  composed _ _ _ tidy brings embedded composed := Statement.compose_tidy tidy brings embedded composed

-- A statement is tidy whatever was composed of tidy texts before, unless it lacks its table.
theorem Session.rendered_tidy {start s : Session} {commands : List Command} (empty : start.slots = .empty)
    (tidy : start.Throughout Command.Tidy commands) (ran : Session.run start commands = .ok s) :
    ∀ st ∈ s.statements, st.HasTable → Text.Tidy st.sql := by
  have meets : start.Throughout (Command.Meets (fun st call => call.Tidy st.draft.clauses) fun e => Text.Tidy e.sql)
      commands := by
    refine tidy.mono fun s c _ brings => ?_
    cases c with
    | call name call =>
      obtain ⟨given, goes⟩ := brings
      exact ⟨fun e member => given _ member, fun slot found => (goes slot found).map s.referent⟩
    | _ => trivial
  exact fun st stands => Statement.sql_tidy (tidy_upkeep.run_start empty meets ran st stands)

def nestedUnion : List Command := [
  .create "a" .select (.standalone "sqlsrv" "main") false,
  .call "a" (.select (.join "  left outer " (.text "t") "" none)),
  .call "a" (.select (.appendJoin " AS u" none)),
  .call "a" (.select (.filter (.paging (.limit 3)))),
  .call "a" (.select (.union true)),
  .call "a" (.select (.columnsAs [("m", "k")])),
  .call "a" (.select (.having (.add .or "m > 1" none))),
  .call "a" (.select (.setAlias "x")),
  .create "b" .select (.standalone "sqlsrv" "main") false,
  .call "b" (.select (.filter (.condition (.add .and "id IN " (some (.statement (.slot "a"))))))),
  .call "b" (.select (.filter (.condition (.append " OR c = " (some (.ofValue (.int 4))))))),
  .create "c" .update (.standalone "mysql" "main") false,
  .call "c" (.update (.filter (.ctes (.define "w" ["n"] (.statement (.slot "b")))))),
  .call "c" (.update (.table "t")),
  .call "c" (.update (.column (.literal "n" "n + 1"))),
  .call "c" (.update (.filter (.equals [.column "d" (.list [] none), .column "e" (.scalar .null none)]))),
  .create "d" .insert (.standalone "pgsql" "main") false]

def nestedUnionTexts : List String := [
  "WITH \x60w\x60 (\x60n\x60) AS (SELECT * WHERE id IN (SELECT TOP 3 * FROM LEFT OUTER JOIN t AS u " ++
    "UNION ALL (SELECT m AS k HAVING m > 1) AS x) OR c = :_2_1_) " ++
    "UPDATE t SET \x60n\x60 = n + 1 WHERE FALSE AND e IS NULL",
  "INSERT INTO \"\" () VALUES ()"]

theorem Session.rendered_tidy_nestedUnion :
    ({} : Session).Throughout Command.Tidy nestedUnion ∧ ∃ s, Session.run {} nestedUnion = .ok s ∧
      (∀ st ∈ s.statements, st.HasTable) ∧ (∀ st ∈ s.statements, Text.Tidy st.sql) ∧
      s.statements.map Statement.sql = nestedUnionTexts := by
  have tidy : ({} : Session).Throughout Command.Tidy nestedUnion := by decide +kernel
  have reached : Session.Reaches {} nestedUnion fun s => (∀ st ∈ s.statements, st.HasTable) ∧
      s.statements.map Statement.sql = nestedUnionTexts := by
    decide +kernel
  obtain ⟨s, ran, tables, texts⟩ := reached.exists
  exact ⟨tidy, s, ran, tables, fun st stands => Session.rendered_tidy rfl tidy ran st stands (tables st stands), texts⟩

end SqlCompose
