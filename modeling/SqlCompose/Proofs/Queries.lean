import SqlCompose.Proofs.LikeRuns
import SqlCompose.Proofs.Lineages
import SqlCompose.Proofs.Shifts
import SqlCompose.Proofs.Traversals
import SqlCompose.Query.Basic

namespace SqlCompose

open Log (latest?)

@[simp] theorem Slot.statement_plain (st : Statement) : (Slot.plain st).statement = st := rfl

@[simp] theorem Slot.statement_query (st : Statement) : (Slot.query st).statement = st := rfl

namespace Session

variable {s next : Session}

def unbound (s : Session) : Session := { s with slots := s.slots.mapValues fun slot => .plain slot.statement }

-- A step among plain statements: a factory makes no queries, and there is no connection to take a statement from.
def stepPlainly : Command → Action Reply
  | .create name kind maker _ => step (.create name kind maker false)
  | .unbind source name => fun s => do
    let slot ← s.find source
    .ok (.silent, (s.remove source).store name slot)
  | c => step c

def runPlainly (s : Session) : List Command → Except Fault (List Reply × Session)
  | [] => .ok ([], s)
  | c :: rest => do
    let (reply, middle) ← stepPlainly c s
    let (replies, last) ← middle.runPlainly rest
    .ok (reply :: replies, last)

@[simp] theorem unbound_store (s : Session) (name : String) (slot : Slot) :
    (s.store name slot).unbound = s.unbound.store name (.plain slot.statement) := by
  simp [unbound, store]

@[simp] theorem unbound_remove (s : Session) (name : String) : (s.remove name).unbound = s.unbound.remove name := by
  simp [unbound, remove]

@[simp] theorem unbound_drawFrom (s : Session) (counter : String) :
    s.unbound.drawFrom counter = ((s.drawFrom counter).1, (s.drawFrom counter).2.unbound) := rfl

theorem unbound_found {name : String} {slot : Slot} (found : s.slots.get? name = some slot) :
    s.unbound.find name = .ok (.plain slot.statement) := by
  simp [find, unbound, found]

theorem unbound_makerFactory (s : Session) (maker : Maker) : s.unbound.makerFactory maker = s.makerFactory maker := by
  cases maker <;> rfl

theorem unbound_views (s : Session) : s.unbound.views = s.views := by
  simp [views, unbound, OrderedMap.mapValues]

def Simulates {α : Type} (x y : Action α) : Prop :=
  ∀ s a next, x s = .ok (a, next) → y s.unbound = .ok (a, next.unbound)

theorem simulates_parallel : Parallel (m := Action) (n := Action) fun _ => Simulates where
  pure a s _ next ran := by
    cases ran
    rfl
  bind first second s b next ran := by
    obtain ⟨a, middle, there, later⟩ := bind_ok.mp ran
    exact bind_ok.mpr ⟨a, middle.unbound, first s a middle there, second a middle b next later⟩

theorem modify_simulates {f : Session → Session} (same : ∀ s, (f s).unbound = f s.unbound) :
    Simulates (modify f) (modify f) := by
  intro s _ next ran
  cases ran
  rw [same]
  rfl

theorem takeSelect_simulates (name : String) : Simulates (takeSelect name) (takeSelect name) := by
  intro s e next taken
  obtain ⟨slot, sel, found, is, rfl, rfl⟩ := takeSelect_ok taken
  simp [takeSelect, unbound_found found, is]

theorem cloneStatement_simulates (name : String) : Simulates (cloneStatement name) (cloneStatement name) := by
  intro s st next cloned
  obtain ⟨source, found, rfl, rfl⟩ := cloneStatement_ok cloned
  simp [cloneStatement, unbound_found found]

theorem render_simulates (ref : Reference) : Simulates (render ref) (render ref) := by
  cases ref with
  | rendered e => exact simulates_parallel.pure e
  | slot name => exact takeSelect_simulates name
  | cloneOf name =>
    refine simulates_parallel.bind (cloneStatement_simulates name) fun st => ?_
    cases st with
    | select sel => exact simulates_parallel.pure sel.embedded
    | insert | update | delete =>
      intro s e next failed
      cases failed

theorem perform_simulates (name : String) (call : Call Embedded) :
    Simulates (perform name call) (perform name call) := by
  intro s reply next performed
  cases found : s.find name with
  | error fault => simp [perform, found, bind, Except.bind] at performed
  | ok slot =>
    simp only [perform, found, bind, Except.bind] at performed
    split at performed
    · rename_i st composed
      cases performed
      simp [perform, unbound_found (find_ok found), bind, Except.bind, composed, History.withStatement_statement]
      rfl
    · cases performed

theorem create_simulates (name : String) (kind : StatementKind) (maker : Maker) (asQuery : Bool) :
    Simulates (create name kind maker asQuery) (create name kind maker false) := by
  intro s _ next created
  obtain ⟨f, slot, made, is, rfl⟩ := create_ok created
  simp [create, unbound_makerFactory, made, bind, Except.bind, is]

theorem subSelect_simulates (parent name : String) : Simulates (subSelect parent name) (subSelect parent name) := by
  intro s _ next made
  obtain ⟨slot, sel, found, is, rfl⟩ := subSelect_ok made
  simp [subSelect, unbound_found found, bind, Except.bind, is]

theorem silent_simulates {x y : Action Unit} (simulates : Simulates x y) :
    Simulates (do x; pure Reply.silent) (do y; pure Reply.silent) :=
  simulates_parallel.bind simulates fun _ => simulates_parallel.pure _

theorem step_simulates (c : Command) : Simulates (step c) (stepPlainly c) := by
  cases c with
  | create name kind maker asQuery => exact silent_simulates (create_simulates name kind maker asQuery)
  | useFactory f => exact silent_simulates (modify_simulates fun _ => rfl)
  | call name call =>
    exact simulates_parallel.bind (call.mapM_parallel simulates_parallel render_simulates) (perform_simulates name)
  | subSelect parent name => exact silent_simulates (subSelect_simulates parent name)
  | clone source name =>
    exact simulates_parallel.bind (cloneStatement_simulates source) fun st =>
      silent_simulates (modify_simulates fun s => s.unbound_store name (.plain st))
  | unbind source name =>
    intro s reply next ran
    obtain ⟨st, found, rfl, rfl⟩ := unbind_ok ran
    simp [stepPlainly, unbound_found found, bind, Except.bind]
  | embed name => exact simulates_parallel.map (takeSelect_simulates name) Reply.embedded

end Session

-- What callers do with queries: they compose, and have one executed as it stands. A
-- connection may answer otherwise each time.
inductive Move (α β : Type) where
  | compose (c : Command)
  | perform (name : String) (k : Connection α β)
  | fetch (name : String) (op : Fetch) (k : Connection α β)
  | call (name operation : String) (k : Connection α β)

inductive Answer (α β : Type) where
  | reply (r : Reply)
  | performed (r : Except QueryError α)
  | fetched (r : Except QueryError β)

def Move.command? {α β : Type} : Move α β → Option Command
  | .compose c => some c
  | _ => none

def Answer.reply? {α β : Type} : Answer α β → Option Reply
  | .reply r => some r
  | _ => none

namespace Session

variable {α β : Type} {s next : Session}

def query (s : Session) (name : String) : Except Fault Statement :=
  match s.find name with
  | .ok (.query st) => .ok st
  | .ok (.plain _) => .error (.wrongKind name)
  | .error fault => .error fault

def selectQuery (s : Session) (name : String) : Except Fault Select := do
  match ← s.query name with
  | .select sel => .ok sel
  | _ => .error (.wrongKind name)

def move (s : Session) : Move α β → Except Fault (Answer α β × Session)
  | .compose c => do
    let (reply, next) ← step c s
    .ok (.reply reply, next)
  | .perform name k => do
    let st ← s.query name
    .ok (.performed (Query.mk st k).perform, s)
  | .fetch name op k => do
    let sel ← s.selectQuery name
    .ok (.fetched ((Query.mk sel k).fetch op), s)
  | .call name operation k => do
    let sel ← s.selectQuery name
    .ok (.fetched ((Query.mk sel k).call operation), s)

def play (s : Session) : List (Move α β) → Except Fault (List (Answer α β) × Session)
  | [] => .ok ([], s)
  | m :: rest => do
    let (answer, middle) ← s.move m
    let (answers, last) ← middle.play rest
    .ok (answer :: answers, last)

theorem unchanged_ok {γ : Type} {x : Except Fault γ} {f : γ → Answer α β} {answer : Answer α β}
    (ran : (do let a ← x; .ok (f a, s)) = Except.ok (answer, next)) : (∃ a, answer = f a) ∧ next = s := by
  cases x with
  | error fault => cases ran
  | ok a =>
    cases ran
    exact ⟨⟨a, rfl⟩, rfl⟩

theorem move_ok {m : Move α β} {answer : Answer α β} (moved : s.move m = .ok (answer, next)) :
    (∃ c reply, m.command? = some c ∧ answer.reply? = some reply ∧ step c s = .ok (reply, next)) ∨
      (m.command? = none ∧ answer.reply? = none ∧ next = s) := by
  cases m with
  | compose c =>
    cases taken : step c s with
    | error fault => simp [move, taken, bind, Except.bind] at moved
    | ok result =>
      simp only [move, taken, bind, Except.bind] at moved
      cases moved
      exact .inl ⟨c, result.1, rfl, rfl, taken⟩
  | perform name k =>
    obtain ⟨⟨st, rfl⟩, rfl⟩ := unchanged_ok moved
    exact .inr ⟨rfl, rfl, rfl⟩
  | fetch name op k =>
    obtain ⟨⟨sel, rfl⟩, rfl⟩ := unchanged_ok moved
    exact .inr ⟨rfl, rfl, rfl⟩
  | call name operation k =>
    obtain ⟨⟨sel, rfl⟩, rfl⟩ := unchanged_ok moved
    exact .inr ⟨rfl, rfl, rfl⟩

theorem play_refines {moves : List (Move α β)} {answers : List (Answer α β)}
    (played : s.play moves = .ok (answers, next)) :
    s.unbound.runPlainly (moves.filterMap Move.command?) = .ok (answers.filterMap Answer.reply?, next.unbound) := by
  induction moves generalizing s answers with
  | nil =>
    cases played
    rfl
  | cons m rest ih =>
    cases moved : s.move m with
    | error fault => simp [play, moved, bind, Except.bind] at played
    | ok result =>
      obtain ⟨answer, middle⟩ := result
      cases later : middle.play rest with
      | error fault => simp [play, moved, later, bind, Except.bind] at played
      | ok result =>
        obtain ⟨answers', last⟩ := result
        simp only [play, moved, later, bind, Except.bind] at played
        cases played
        have refined := ih later
        rcases move_ok moved with ⟨c, reply, composes, replies, taken⟩ | ⟨executes, silent, rfl⟩
        · rw [List.filterMap_cons_some composes, List.filterMap_cons_some replies]
          simp only [runPlainly, step_simulates c s reply middle taken, refined, bind, Except.bind]
        · rw [List.filterMap_cons_none executes, List.filterMap_cons_none silent]
          exact refined

section

variable {name : String}

theorem query_found {st : Statement} (stands : s.slots.get? name = some (.query st)) : s.query name = .ok st := by
  simp [query, find, stands]

theorem selectQuery_found {sel : Select} (stands : s.slots.get? name = some (.query (.select sel))) :
    s.selectQuery name = .ok sel := by
  simp [selectQuery, query_found stands, bind, Except.bind]

theorem move_perform {st : Statement} (stands : s.slots.get? name = some (.query st)) (k : Connection α β) :
    s.move (.perform name k) = .ok (.performed (k.perform st.sql st.values), s) := by
  simp only [move, query_found stands, bind, Except.bind]
  rfl

variable {sel : Select}

theorem move_fetch (stands : s.slots.get? name = some (.query (.select sel))) (op : Fetch) (k : Connection α β) :
    s.move (.fetch name op k) = .ok (.fetched (k.fetch op sel.sql sel.registry.values), s) := by
  simp only [move, selectQuery_found stands, bind, Except.bind]
  rfl

theorem move_call (stands : s.slots.get? name = some (.query (.select sel))) (op : Fetch) (k : Connection α β) :
    s.move (.call name op.name k) = s.move (.fetch name op k) := by
  simp only [move, selectQuery_found stands, bind, Except.bind, Query.call, Fetch.ofName?_name]

theorem move_unknown (stands : s.slots.get? name = some (.query (.select sel))) {operation : String}
    (unknown : ∀ op : Fetch, op.name ≠ operation) (k : Connection α β) :
    s.move (.call name operation k) = .ok (.fetched (.error (.unknownOperation operation)), s) := by
  have unread : Fetch.ofName? operation = none := by
    cases there : Fetch.ofName? operation with
    | none => rfl
    | some op => exact absurd (Fetch.name_of_ofName? there) (unknown op)
  simp only [move, selectQuery_found stands, bind, Except.bind, Query.call, unread]

theorem step_unbind {st : Statement} (stands : s.slots.get? name = some (.query st)) (into : String) :
    step (.unbind name into) s = .ok (.silent, (s.remove name).store into (.plain st)) := by
  simp [step, find, stands, bind, Except.bind]

end

def Plays (s : Session) (moves : List (Move α β)) (P : List (Answer α β) → Session → Prop) : Prop :=
  match s.play moves with
  | .ok (answers, next) => P answers next
  | .error _ => False

instance {s : Session} {moves : List (Move α β)} {P : List (Answer α β) → Session → Prop}
    [∀ answers, DecidablePred (P answers)] : Decidable (Plays s moves P) :=
  have : Decidable (match s.play moves with
      | .ok (answers, next) => P answers next
      | .error _ => False) :=
    match s.play moves with
    | .ok (answers, next) => inferInstanceAs (Decidable (P answers next))
    | .error _ => inferInstanceAs (Decidable False)
  inferInstanceAs (Decidable (match s.play moves with
    | .ok (answers, next) => P answers next
    | .error _ => False))

theorem Plays.exists {moves : List (Move α β)} {P : List (Answer α β) → Session → Prop} (plays : Plays s moves P) :
    ∃ answers next, s.play moves = .ok (answers, next) ∧ P answers next := by
  unfold Plays at plays
  split at plays
  · exact ⟨_, _, ‹_›, plays⟩
  · cases plays

end Session

-- Composing alone among plain statements gives the same replies and the same statements. Every
-- execution hands the connection the statement as it stands and gives back its answer; only a name
-- that no operation has is answered without it.
theorem queries_refine_statements {α β : Type} {start s : Session} {moves : List (Move α β)}
    {answers : List (Answer α β)} (played : start.play moves = .ok (answers, s)) :
    (start.unbound.runPlainly (moves.filterMap Move.command?) = .ok (answers.filterMap Answer.reply?, s.unbound) ∧
      s.unbound.views = s.views) ∧
    (∀ name st, s.slots.get? name = some (.query st) →
      s.unbound.slots.get? name = some (.plain st) ∧
      (∀ into, ∃ next, Session.step (.unbind name into) s = .ok (.silent, next) ∧
        next.slots.get? into = some (.plain st)) ∧
      ∀ k : Connection α β, s.move (.perform name k) = .ok (.performed (k.perform st.sql st.values), s)) ∧
    (∀ name sel, s.slots.get? name = some (.query (.select sel)) → ∀ k : Connection α β,
      (∀ op, s.move (.fetch name op k) = .ok (.fetched (k.fetch op sel.sql sel.registry.values), s) ∧
        s.move (.call name op.name k) = s.move (.fetch name op k)) ∧
      (∀ m ∈ Fetch.methods, (Query.mk sel k).invoke m.1 = some (k.fetch m.2 sel.sql sel.registry.values)) ∧
      ∀ operation, (∀ op : Fetch, op.name ≠ operation) →
        s.move (.call name operation k) = .ok (.fetched (.error (.unknownOperation operation)), s)) ∧
    ∀ f calls st p, MadeBy f calls st → st.paging? = some p →
      let size := (latest? Call.defaultPerPage? calls).getD f.perPage
      p.default = size ∧
      (∀ call st', st.compose call = some st' → call.paging? = some .reset → st'.paging? = some (.new size)) ∧
      ∀ sel ordinal, st = .select sel → (Statement.select (sel.subSelect ordinal)).paging? = some (.new size) := by
  refine ⟨⟨Session.play_refines played, s.unbound_views⟩, ?queries, ?selects, ?pages⟩
  case queries =>
    intro name st stands
    refine ⟨?_, fun into => ⟨_, Session.step_unbind stands into, ?_⟩, Session.move_perform stands⟩
    · simp [Session.unbound, stands]
    · simp [Session.store, OrderedMap.get?_insert]
  case selects =>
    intro name sel stands k
    exact ⟨fun op => ⟨Session.move_fetch stands op k, Session.move_call stands op k⟩,
      fun m offered => ((Query.mk sel k).invoke_method offered).1,
      fun operation unknown => Session.move_unknown stands unknown k⟩
  case pages =>
    intro f calls st p made shown
    refine ⟨made.default p shown, fun call st' composed restarts => ?_, ?_⟩
    · rw [Statement.compose_paging composed, shown, restarts, ← made.restart shown]
      rfl
    · rintro sel ordinal rfl
      cases shown
      exact congrArg some ((sel.subSelect_paging ordinal).trans (made.restart rfl))

def readOnly : Connection Unit String where
  driver := "sqlite"
  perform _ _ := .error (.connection "read only")
  fetch op sql _ := .ok (op.name ++ " " ++ sql)
  lastInsertId _ := .error (.connection "read only")

def looked : List (Move Unit String) := [
  .compose (.useFactory ⟨.sqlite, 25, "main"⟩),
  .compose (.create "q" .select .current true),
  .compose (.call "q" (.select (.table (.text "t")))),
  .perform "q" readOnly,
  .compose (.call "q" (.select (.filter (.paging (.page 3))))),
  .compose (.subSelect "q" "sub"),
  .compose (.call "sub" (.select (.columns ["id"]))),
  .fetch "q" .pairs readOnly,
  .compose (.call "sub" (.select (.filter (.condition (.add .and "n > " (some (.ofValue (.int 7)))))))),
  .compose (.call "q" (.select (.filter (.condition (.add .and "id IN " (some (.statement (.slot "sub")))))))),
  .call "q" "fetchEverything" readOnly]

def resized : List (Call Embedded) := [
  .select (.filter (.paging (.defaultPerPage 40))),
  .select (.filter (.paging (.perPage 5))),
  .select (.filter (.paging (.page 2)))]

def lookedText : String := "SELECT * FROM t WHERE id IN (SELECT id WHERE n > :_2_1_) LIMIT 25 OFFSET 50"

theorem queries_refine_statements_looked :
    ∃ answers s sel, Session.play {} looked = .ok (answers, s) ∧ answers.length = 11 ∧
      s.slots.get? "q" = some (.query (.select sel)) ∧ sel.sql = lookedText ∧
      Session.runPlainly {} (looked.filterMap Move.command?) = .ok (answers.filterMap Answer.reply?, s.unbound) ∧
      s.unbound.slots.get? "q" = some (.plain (.select sel)) ∧
      s.move (.perform "q" readOnly) = .ok (.performed (.error (.connection "read only")), s) ∧
      s.move (.call "q" "yieldAll" readOnly) = .ok (.fetched (.ok ("yieldAll " ++ lookedText)), s) ∧
      (Query.mk sel readOnly).invoke "yield_pairs" = some (.ok ("yieldPairs " ++ lookedText)) ∧
      s.move (.call "q" "yieldall" readOnly) = .ok (.fetched (.error (.unknownOperation "yieldall")), s) ∧
      ∃ st st' : Statement, MadeBy ⟨.sqlite, 25, "main"⟩ resized st ∧
        st.compose (.select (.union true)) = some st' ∧ st'.paging? = some (.new 40) := by
  have plays : Session.Plays {} looked fun answers s => answers.length = 11 ∧ ∃ slot ∈ s.slots.get? "q",
      ∃ sel ∈ slot.statement.select?, slot = .query (.select sel) ∧ sel.sql = lookedText := by
    decide +kernel
  obtain ⟨answers, s, played, eleven, slot, stands, sel, _, rfl, text⟩ := plays.exists
  obtain ⟨⟨ran, _⟩, queries, selects, pages⟩ := queries_refine_statements played
  obtain ⟨plain, _, perform⟩ := queries "q" (.select sel) stands
  obtain ⟨typed, methods, unknown⟩ := selects "q" sel stands readOnly
  obtain ⟨fetched, called⟩ := typed .yieldAll
  have made : MadeBy ⟨.sqlite, 25, "main"⟩ resized _ :=
    .composed (.composed (.composed (.created .select 1) rfl) rfl) rfl
  obtain ⟨_, restart, _⟩ := pages _ _ _ _ made rfl
  refine ⟨answers, s, sel, played, eleven, stands, text, ran, plain, perform readOnly, ?_, ?_, ?_,
    _, _, made, rfl, restart (.select (.union true)) _ rfl rfl⟩
  · rw [← text]
    exact called.trans fetched
  · rw [← text]
    exact methods ("yield_pairs", .yieldPairs) (by decide)
  · exact unknown "yieldall" fun op => by cases op <;> decide

end SqlCompose
