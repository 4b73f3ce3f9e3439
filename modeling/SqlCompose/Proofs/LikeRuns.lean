import SqlCompose.Proofs.LikeSessions

namespace SqlCompose

variable {L : Likeness} {s s' : Session}

def Reference.names : Reference → List String
  | .rendered _ => []
  | .slot name | .cloneOf name => [name]

def Command.shows (s : Session) : Command → List Select
  | .call name c =>
    ((Effect.references c.effects).flatMap Reference.names ++ if c.closes then [name] else []).flatMap s.under
  | .embed name => s.under name
  | _ => []

section

variable (marks : List Char) (bound : String → Prop)

def Reference.Given : Reference → Prop
  | .rendered e => e.Given marks bound
  | .slot _ | .cloneOf _ => True

def Command.Given : Command → Prop
  | .call _ c => ∀ u ∈ c.effects, u.Given marks bound (Reference.Given marks bound)
  | _ => True

variable [DecidablePred bound]

instance : DecidablePred (Reference.Given marks bound)
  | .rendered e => inferInstanceAs (Decidable (e.Given marks bound))
  | .slot _ | .cloneOf _ => inferInstanceAs (Decidable True)

instance : DecidablePred (Command.Given marks bound)
  | .call _ c =>
    inferInstanceAs (Decidable (∀ u ∈ c.effects, u.Given marks bound (Reference.Given marks bound)))
  | .create .. | .useFactory _ | .subSelect .. | .clone .. | .unbind .. | .embed _ =>
    inferInstanceAs (Decidable True)

end

def Command.DrawsFrom (counter : String → Prop) (s : Session) : Command → Prop
  | .create _ _ maker _ =>
    match s.makerFactory maker with
    | .ok f => counter f.counter
    | .error _ => True
  | _ => True

instance {counter : String → Prop} [DecidablePred counter] (s : Session) :
    DecidablePred (Command.DrawsFrom counter s)
  | .create _ _ maker _ =>
    match made : s.makerFactory maker with
    | .ok f => decidable_of_iff (counter f.counter) (by simp [Command.DrawsFrom, made])
    | .error _ => .isTrue (by simp [Command.DrawsFrom, made])
  | .call .. | .useFactory _ | .subSelect .. | .clone .. | .unbind .. | .embed _ =>
    inferInstanceAs (Decidable True)

structure Command.Fits (L : Likeness) (s : Session) (c : Command) : Prop where
  given : c.Given L.marks L.bound
  counter : c.DrawsFrom L.counter s
  shows : ∀ sel ∈ c.shows s, sel.toDraft.Within L

namespace Command.Fits

variable {name : String} {call : Call Reference}

theorem effects (fits : Fits L s (.call name call)) : ∀ u ∈ call.effects, u.Fits L s := by
  intro u member
  have own := fits.given u member
  cases u with
  | absorb ref =>
    cases ref with
    | rendered e => exact own
    | slot other | cloneOf other =>
      intro sel stands
      refine fits.shows sel (List.mem_flatMap.mpr ⟨other, List.mem_append_left _ ?_, stands⟩)
      exact List.mem_flatMap.mpr ⟨_, History.mem_references.mpr member, List.mem_cons_self ..⟩
  | _ => exact own

theorem closed (fits : Fits L s (.call name call)) (closes : call.closes = true) :
    ∀ sel ∈ s.under name, sel.toDraft.Within L := by
  intro sel stands
  refine fits.shows sel (List.mem_flatMap.mpr ⟨name, List.mem_append_right _ ?_, stands⟩)
  rw [closes]
  exact List.mem_cons_self ..

end Command.Fits

namespace Session.Alike

theorem perform (alike : s.Alike L s') {name : String} {call call' : Call Embedded} (like : call.Alike L call')
    (within : call.closes = true → ∀ sel ∈ s.under name, sel.toDraft.Within L) :
    Agrees (fun p q => p.2.Alike L q.2) (Session.perform name call s) (Session.perform name call' s') := by
  unfold Session.perform
  refine (alike.find name).bind fun slot slot' found => ?_
  have composed := found.1.statement.compose like fun closes sel is =>
    within closes sel (mem_under found.2 is)
  generalize slot.statement.compose call = x, slot'.statement.compose call' = y at composed
  cases composed with
  | none => exact .error rfl rfl
  | some done => exact .ok rfl rfl (alike.store name (found.1.withStatement done))

theorem create (alike : s.Alike L s') (name : String) (kind : StatementKind) {maker maker' : Maker}
    (like : maker.Alike L maker') (asQuery : Bool)
    (counter : ∀ f, s.makerFactory maker = .ok f → L.counter f.counter) :
    Agrees (fun p q => p.2.Alike L q.2) (Session.create name kind maker asQuery s)
      (Session.create name kind maker' asQuery s') := by
  unfold Session.create
  cases alike.maker like with
  | error left right =>
    rw [left, right]
    exact .error rfl rfl
  | @ok f f' left right factory =>
    rw [left, right]
    have drawn := counter f left
    obtain ⟨ordinal, next⟩ := alike.draw drawn
    have made := factory.create drawn kind ordinal
    dsimp only [bind, Except.bind]
    rw [← factory.counter]
    refine .ok rfl rfl (next.store name ?_)
    cases asQuery with
    | false => exact .plain made
    | true => exact .query made

theorem subSelect (alike : s.Alike L s') (parent name : String) :
    Agrees (fun p q => p.2.Alike L q.2) (Session.subSelect parent name s) (Session.subSelect parent name s') := by
  unfold Session.subSelect
  refine (alike.find parent).bind fun slot slot' found => ?_
  have statements := found.1.statement
  generalize slot.statement = st, slot'.statement = st' at statements
  cases statements with
  | insert => exact .error rfl rfl
  | update => exact .error rfl rfl
  | delete => exact .error rfl rfl
  | select like =>
    obtain ⟨ordinal, next⟩ := alike.draw like.draft.registry.drawn
    dsimp only
    rw [← like.draft.registry.counter]
    exact .ok rfl rfl (next.store name (.plain (.select (like.subSelect ordinal))))

end Session.Alike

-- Both sessions take a command, or both refuse it for the same fault.
theorem Session.Alike.step (alike : s.Alike L s') {c c' : Command} (like : c.Alike L c') (fits : c.Fits L s) :
    Agrees (fun p q => p.2.Alike L q.2) (Session.step c s) (Session.step c' s') := by
  have abreast : Abreast L s s s' := ⟨alike, fun _ member => member⟩
  cases like with
  | @create m _ name kind asQuery maker =>
    have counter : ∀ f, s.makerFactory m = .ok f → L.counter f.counter := by
      intro f made
      have drawn := fits.counter
      simpa only [Command.DrawsFrom, made] using drawn
    exact (alike.create name kind maker asQuery counter).andThen fun _ _ next => .ok rfl rfl next
  | useFactory factory =>
    exact .ok rfl rfl { alike with factory := .some factory }
  | @call name c =>
    refine (Call.mapM_together fits.effects s s' abreast).andThen fun p q related => ?_
    obtain ⟨⟨called, closes⟩, next⟩ := related
    refine next.alike.perform called fun closing sel stands => ?_
    exact fits.closed (closes ▸ closing) sel (Session.under_mono next.slots name stands)
  | @subSelect parent name =>
    exact (alike.subSelect parent name).andThen fun _ _ next => .ok rfl rfl next
  | @clone source name =>
    refine (cloneStatement abreast source).andThen fun p q related => ?_
    exact .ok rfl rfl (related.2.1.alike.store name (.plain related.1))
  | @unbind source name =>
    refine (alike.find source).bind fun slot slot' found => ?_
    cases found.1 with
    | plain => exact .error rfl rfl
    | query like => exact .ok rfl rfl ((alike.remove source).store name (.plain like))
  | @embed name =>
    have taken := takeSelect abreast fits.shows
    cases taken with
    | error left right => exact .error (map_error left) (map_error right)
    | ok left right related => exact .ok (map_ok left) (map_ok right) related.2.alike

namespace Session

-- A property of every command of a run, in the session that it is given to.
def Throughout (P : Session → Command → Prop) (s : Session) : List Command → Prop
  | [] => True
  | c :: rest =>
    P s c ∧
      match step c s with
      | .ok (_, next) => next.Throughout P rest
      | .error _ => True

instance decidableThroughout {P : Session → Command → Prop} [∀ s, DecidablePred (P s)] (s : Session) :
    (commands : List Command) → Decidable (s.Throughout P commands)
  | [] => inferInstanceAs (Decidable True)
  | c :: rest =>
    have : Decidable (match step c s with
        | .ok (_, next) => next.Throughout P rest
        | .error _ => True) :=
      match step c s with
      | .ok (_, next) => decidableThroughout next rest
      | .error _ => inferInstanceAs (Decidable True)
    inferInstanceAs (Decidable (_ ∧ _))

theorem throughout_of {P : Session → Command → Prop} {commands : List Command}
    (always : ∀ s, ∀ c ∈ commands, P s c) (s : Session) : s.Throughout P commands := by
  induction commands generalizing s with
  | nil => trivial
  | cons c rest ih =>
    refine ⟨always s c (List.mem_cons_self ..), ?_⟩
    split
    · exact ih (fun s c member => always s c (List.mem_cons_of_mem _ member)) _
    · trivial

theorem Throughout.mono {P Q : Session → Command → Prop} {s : Session} {commands : List Command}
    (holds : s.Throughout P commands) (weaker : ∀ s, ∀ c ∈ commands, P s c → Q s c) :
    s.Throughout Q commands := by
  induction commands generalizing s with
  | nil => trivial
  | cons c rest ih =>
    obtain ⟨here, later⟩ := holds
    refine ⟨weaker s c (List.mem_cons_self ..) here, ?_⟩
    split at later
    · exact ih later fun s c member => weaker s c (List.mem_cons_of_mem _ member)
    · trivial

end Session

theorem Session.Alike.run (alike : s.Alike L s') {commands commands' : List Command}
    (like : List.Forall₂ (Command.Alike L) commands commands') (fits : s.Throughout (Command.Fits L) commands) :
    Agrees (Session.Alike L) (Session.run s commands) (Session.run s' commands') := by
  induction like generalizing s s' with
  | nil => exact .ok rfl rfl alike
  | cons head _ ih =>
    obtain ⟨here, later⟩ := fits
    unfold Session.run
    cases alike.step head here with
    | error left right =>
      rw [left, right]
      exact .error rfl rfl
    | ok left right next =>
      rw [left] at later
      rw [left, right]
      exact ih next later

structure View where
  kind : StatementKind
  sql : String
  values : BindMap
  paging : Option Paging
  deriving DecidableEq, Repr

def Statement.view (s : Statement) : View where
  kind := s.kind
  sql := s.sql
  values := s.values
  paging := s.paging?

def Session.views (s : Session) : List (String × View) :=
  s.slots.entries.map fun x => (x.1, x.2.statement.view)

theorem Session.Alike.views {R : View → View → Prop} (alike : s.Alike L s')
    (each : ∀ st st' : Statement, st.Alike L st' → R st.view st'.view) :
    List.Forall₂ (fun x y => x.1 = y.1 ∧ R x.2 y.2) s.views s'.views :=
  List.rel_map (fun _ _ entry => ⟨entry.1, each _ _ entry.2.statement⟩) alike.slots

end SqlCompose
