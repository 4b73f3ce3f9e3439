import SqlCompose.Proofs.LikeStatements
import SqlCompose.Proofs.Reach

namespace SqlCompose

variable {L : Likeness} {α α' β β' γ γ' : Type}

inductive Agrees (R : α → β → Prop) (x : Except Fault α) (y : Except Fault β) : Prop where
  | error (left : x = .error fault) (right : y = .error fault)
  | ok (left : x = .ok a) (right : y = .ok b) (related : R a b)

namespace Agrees

variable {R : α → β → Prop} {x : Except Fault α} {y : Except Fault β}

theorem bind {S : γ → γ' → Prop} {f : α → Except Fault γ} {g : β → Except Fault γ'}
    (agrees : Agrees R x y) (next : ∀ a b, R a b → Agrees S (f a) (g b)) :
    Agrees S (x >>= f) (y >>= g) := by
  cases agrees with
  | error left right => exact .error (by rw [left]; rfl) (by rw [right]; rfl)
  | @ok a b left right related =>
    have there := next a b related
    rw [left, right]
    exact there

theorem map {S : γ → γ' → Prop} {f : α → γ} {g : β → γ'} (agrees : Agrees R x y)
    (related : ∀ a b, R a b → S (f a) (g b)) : Agrees S (x.map f) (y.map g) := by
  cases agrees with
  | error left right => exact .error (by rw [left]; rfl) (by rw [right]; rfl)
  | ok left right here => exact .ok (by rw [left]; rfl) (by rw [right]; rfl) (related _ _ here)

theorem eq {y : Except Fault α} {R : α → α → Prop} (agrees : Agrees R x y) (same : ∀ a b, R a b → a = b) :
    x = y := by
  cases agrees with
  | error left right => rw [left, right]
  | ok left right related => rw [left, right, same _ _ related]

theorem map_eq {f : α → γ} {g : β → γ} (agrees : Agrees R x y) (same : ∀ a b, R a b → f a = g b) :
    x.map f = y.map g := (agrees.map same).eq fun _ _ same => same

end Agrees

inductive Slot.Alike (L : Likeness) : Slot → Slot → Prop where
  | plain (alike : Statement.Alike L s s') : Slot.Alike L (.plain s) (.plain s')
  | query (alike : Statement.Alike L s s') : Slot.Alike L (.query s) (.query s')

theorem Slot.Alike.statement {x y : Slot} (alike : x.Alike L y) : x.statement.Alike L y.statement := by
  cases alike <;> assumption

theorem Slot.Alike.withStatement {x y : Slot} (alike : x.Alike L y) {s s' : Statement}
    (like : s.Alike L s') : (x.withStatement s).Alike L (y.withStatement s') := by
  cases alike with
  | plain => exact .plain like
  | query => exact .query like

structure Factory.Alike (L : Likeness) (f f' : Factory) : Prop where
  dialect : L.dialect f.dialect f'.dialect
  perPage : f.perPage = f'.perPage
  counter : f.counter = f'.counter

theorem Factory.Alike.made {d d' : Dialect} (dialect : L.dialect d d') (perPage : UInt64) (counter : String) :
    Factory.Alike L ⟨d, perPage, counter⟩ ⟨d', perPage, counter⟩ := ⟨dialect, rfl, rfl⟩

theorem Factory.Alike.create {f f' : Factory} (alike : f.Alike L f') (drawn : L.counter f.counter)
    (kind : StatementKind) {o o' : UInt64} (ordinal : L.ordinal o o') :
    (f.create kind o).Alike L (f'.create kind o') := by
  unfold Factory.create
  rw [← alike.perPage, ← alike.counter]
  exact (Statement.Alike.new kind alike.dialect drawn ordinal).withDefaultPerPage f.perPage

structure Session.Alike (L : Likeness) (s s' : Session) : Prop where
  slots : s.slots.Alike Eq (Slot.Alike L) s'.slots
  counters : ∀ name, L.counter name → L.ordinal (s.counters.current name) (s'.counters.current name)
  factory : Option.Rel (Factory.Alike L) s.factory s'.factory
  driver : L.dialect (.ofDriver s.driver) (.ofDriver s'.driver)
  installed : s.installed = s'.installed
  drawn : ∀ {o o'}, L.ordinal o o' → L.ordinal (o + 1) (o' + 1)

inductive Maker.Alike (L : Likeness) : Maker → Maker → Prop where
  | standalone (dialect : L.dialect (.ofDriver driver) (.ofDriver driver')) :
      Maker.Alike L (.standalone driver counter) (.standalone driver' counter)
  | current : Maker.Alike L .current .current
  | connection : Maker.Alike L .connection .connection

inductive Command.Alike (L : Likeness) : Command → Command → Prop where
  | create (maker : Maker.Alike L m m') : Command.Alike L (.create name kind m asQuery) (.create name kind m' asQuery)
  | useFactory (factory : Factory.Alike L f f') : Command.Alike L (.useFactory f) (.useFactory f')
  | call : Command.Alike L (.call name c) (.call name c)
  | subSelect : Command.Alike L (.subSelect parent name) (.subSelect parent name)
  | clone : Command.Alike L (.clone source name) (.clone source name)
  | unbind : Command.Alike L (.unbind source name) (.unbind source name)
  | embed : Command.Alike L (.embed name) (.embed name)

namespace Session.Alike

variable {s s' : Session}

theorem find (alike : s.Alike L s') (name : String) :
    Agrees (fun x y => x.Alike L y ∧ (name, x) ∈ s.slots.entries) (s.find name) (s'.find name) := by
  have found := alike.slots.get? OrderedMap.eq_unique (rfl : name = name)
  have stands (slot : Slot) (is : s.slots.get? name = some slot) := OrderedMap.mem_of_get? is
  unfold Session.find
  generalize s.slots.get? name = x, s'.slots.get? name = y at found stands
  cases found with
  | none => exact .error rfl rfl
  | some like => exact .ok rfl rfl ⟨like, stands _ rfl⟩

theorem store (alike : s.Alike L s') (name : String) {x y : Slot} (like : x.Alike L y) :
    (s.store name x).Alike L (s'.store name y) :=
  { alike with slots := alike.slots.insert OrderedMap.eq_unique rfl like }

theorem remove (alike : s.Alike L s') (name : String) : (s.remove name).Alike L (s'.remove name) :=
  { alike with slots := alike.slots.erase OrderedMap.eq_unique rfl }

theorem draw (alike : s.Alike L s') {counter : String} (drawn : L.counter counter) :
    L.ordinal (s.drawFrom counter).1 (s'.drawFrom counter).1 ∧
      (s.drawFrom counter).2.Alike L (s'.drawFrom counter).2 := by
  have ordinal := alike.drawn (alike.counters counter drawn)
  refine ⟨ordinal, { alike with counters := fun name kept => ?_ }⟩
  have current (s : Session) : (s.drawFrom counter).2.counters.current name =
      if counter = name then s.counters.current counter + 1 else s.counters.current name :=
    s.counters.current_draw counter name
  rw [current, current]
  split
  · exact ordinal
  · exact alike.counters name kept

theorem maker (alike : s.Alike L s') {m m' : Maker} (like : m.Alike L m') :
    Agrees (Factory.Alike L) (s.makerFactory m) (s'.makerFactory m') := by
  cases like with
  | standalone dialect =>
    dsimp only [Session.makerFactory, Factory.withCounter, Factory.ofDriver]
    exact .ok rfl rfl (.made dialect _ _)
  | connection =>
    dsimp only [Session.makerFactory, Factory.ofConnection, Factory.ofDriver]
    rw [← alike.installed]
    exact .ok rfl rfl (.made alike.driver _ _)
  | current =>
    have factory := alike.factory
    unfold Session.makerFactory
    generalize s.factory = x, s'.factory = y at factory
    cases factory with
    | none => exact .error rfl rfl
    | some like => exact .ok rfl rfl like

end Session.Alike

section

variable (marks : List Char) (bound : String → Prop)

def Embedded.Given (e : Embedded) : Prop := Text.Without marks e.sql ∧ ∀ k ∈ e.binds.keys, bound k

-- A piece of a call that callers may hand over, where P holds of the statements referred to.
def Effect.Given {ρ : Type} (P : ρ → Prop) : Effect ρ → Prop
  | .text t | .table t => Text.Without marks t
  | .column c => Text.Without marks c ∧ bound c
  | .bind key _ _ | .unbind key => bound key
  | .absorb s => P s
  | .generate .. | .handOut | .clear | .reset => True

variable [DecidablePred bound]

instance : DecidablePred (Embedded.Given marks bound) := fun e =>
  inferInstanceAs (Decidable (Text.Without marks e.sql ∧ ∀ k ∈ e.binds.keys, bound k))

instance {ρ : Type} (P : ρ → Prop) [DecidablePred P] : DecidablePred (Effect.Given marks bound P)
  | .text t | .table t => inferInstanceAs (Decidable (Text.Without marks t))
  | .column c => inferInstanceAs (Decidable (Text.Without marks c ∧ bound c))
  | .bind key _ _ | .unbind key => inferInstanceAs (Decidable (bound key))
  | .absorb s => inferInstanceAs (Decidable (P s))
  | .generate .. | .handOut | .clear | .reset => inferInstanceAs (Decidable True)

end

theorem Effect.Given.mono {ρ : Type} {marks : List Char} {bound bound' : String → Prop} {P P' : ρ → Prop}
    {e : Effect ρ} (given : e.Given marks bound P) (keys : ∀ k, bound k → bound' k) (taken : ∀ s, P s → P' s) :
    e.Given marks bound' P' := by
  cases e with
  | column => exact ⟨given.1, keys _ given.2⟩
  | bind | unbind => exact keys _ given
  | absorb => exact taken _ given
  | text | table | generate | handOut | clear | reset => exact given

theorem Embedded.Given.alike {e : Embedded} (given : e.Given L.marks L.bound) : e.Alike L e :=
  ⟨L.same given.1, L.brought given.2⟩

namespace Session

def under (s : Session) (name : String) : List Select :=
  (s.slots.entries.filter fun x => x.1 = name).filterMap fun x => x.2.statement.select?

theorem mem_under {s : Session} {name : String} {slot : Slot} {sel : Select}
    (stands : (name, slot) ∈ s.slots.entries) (is : slot.statement = .select sel) : sel ∈ s.under name :=
  List.mem_filterMap.mpr ⟨(name, slot), List.mem_filter.mpr ⟨stands, by simp⟩, by rw [is]; rfl⟩

theorem under_mono {s start : Session} (fewer : s.slots.entries ⊆ start.slots.entries) (name : String) :
    s.under name ⊆ start.under name := by
  intro sel member
  obtain ⟨x, there, is⟩ := List.mem_filterMap.mp member
  exact List.mem_filterMap.mpr ⟨x, List.filter_subset _ fewer there, is⟩

end Session

-- A reference may be rendered as long as the session still has the slots that it started from.
def Reference.Fits (L : Likeness) (start : Session) : Reference → Prop
  | .rendered e => e.Given L.marks L.bound
  | .slot name | .cloneOf name => ∀ sel ∈ start.under name, sel.toDraft.Within L

-- Both sessions alike, and no slot of the left one but those it started from.
structure Abreast (L : Likeness) (start s s' : Session) : Prop where
  alike : s.Alike L s'
  slots : s.slots.entries ⊆ start.slots.entries

-- Two actions that render some syntax take sessions abreast to sessions abreast.
def Together (L : Likeness) (start : Session) (R : α → β → Prop) (x : Action α) (y : Action β) : Prop :=
  ∀ s s', Abreast L start s s' →
    Agrees (fun p q => R p.1 q.1 ∧ Abreast L start p.2 q.2) (x s) (y s')

section Actions

variable {σ : Type} {x : StateT σ (Except Fault) α} {s s' : σ}

theorem bind_error {f : α → StateT σ (Except Fault) β} (failed : x s = .error fault) :
    (x >>= f) s = .error fault := by
  simp [bind, StateT.bind, Except.bind, failed]

theorem bind_ok {f : α → StateT σ (Except Fault) β} (done : x s = .ok (a, s')) : (x >>= f) s = f a s' := by
  simp [bind, StateT.bind, Except.bind, done]

theorem map_error {f : α → β} (failed : x s = .error fault) : (f <$> x) s = .error fault := by
  simp [Functor.map, StateT.map, bind, Except.bind, failed]

theorem map_ok {f : α → β} (done : x s = .ok (a, s')) : (f <$> x) s = .ok (f a, s') := by
  simp [Functor.map, StateT.map, bind, Except.bind, pure, Except.pure, done]

end Actions

theorem Agrees.andThen {σ τ : Type} {R : α × σ → α' × τ → Prop} {S : β × σ → β' × τ → Prop}
    {x : StateT σ (Except Fault) α} {y : StateT τ (Except Fault) α'} {s : σ} {t : τ}
    {f : α → StateT σ (Except Fault) β} {g : α' → StateT τ (Except Fault) β'}
    (agrees : Agrees R (x s) (y t)) (next : ∀ p q, R p q → Agrees S (f p.1 p.2) (g q.1 q.2)) :
    Agrees S ((x >>= f) s) ((y >>= g) t) := by
  cases agrees with
  | error left right => exact .error (bind_error left) (bind_error right)
  | @ok p q left right related =>
    rw [bind_ok left, bind_ok right]
    exact next p q related

namespace Together

variable {start : Session} {R : α → α' → Prop} {S : β → β' → Prop} {T : γ → γ' → Prop}

theorem pure {a : α} {a' : α'} (related : R a a') :
    Together L start R (Pure.pure a) (Pure.pure a') :=
  fun _ _ abreast => .ok rfl rfl ⟨related, abreast⟩

theorem map {x : Action α} {y : Action α'} {f : α → β} {g : α' → β'} (together : Together L start R x y)
    (related : ∀ a a', R a a' → S (f a) (g a')) : Together L start S (f <$> x) (g <$> y) := by
  intro s s' abreast
  cases together s s' abreast with
  | error left right => exact .error (map_error left) (map_error right)
  | ok left right result => exact .ok (map_ok left) (map_ok right) ⟨related _ _ result.1, result.2⟩

theorem both {x : Action α} {y : Action α'} {k : Action β} {l : Action β'} {f : α → β → γ}
    {g : α' → β' → γ'} (first : Together L start R x y) (second : Together L start S k l)
    (related : ∀ a a' b b', R a a' → S b b' → T (f a b) (g a' b')) :
    Together L start T (do let a ← x; let b ← k; Pure.pure (f a b))
      (do let a ← y; let b ← l; Pure.pure (g a b)) := by
  intro s s' abreast
  refine (first s s' abreast).andThen fun p q left => (second p.2 q.2 left.2).andThen fun p' q' right => ?_
  exact .ok rfl rfl ⟨related _ _ _ _ left.1 right.1, right.2⟩

end Together

namespace Session.Alike

variable {start s s' : Session}

theorem takeSelect (abreast : Abreast L start s s') {name : String}
    (within : ∀ sel ∈ start.under name, sel.toDraft.Within L) :
    Agrees (fun p q => p.1.Alike L q.1 ∧ Abreast L start p.2 q.2) (Session.takeSelect name s)
      (Session.takeSelect name s') := by
  unfold Session.takeSelect
  cases abreast.alike.find name with
  | error left right =>
    rw [left, right]
    exact .error rfl rfl
  | @ok slot slot' left right like =>
    rw [left, right]
    dsimp only
    have shown := fun sel is => within sel (mem_under (abreast.slots like.2) is)
    have slots := List.Subset.trans (OrderedMap.drop_sublist name s.slots.entries).subset abreast.slots
    have statements := like.1.statement
    generalize slot.statement = st, slot'.statement = st' at statements shown
    cases statements with
    | select alike => exact .ok rfl rfl ⟨alike.embedded (shown _ rfl), abreast.alike.remove name, slots⟩
    | insert => exact .error rfl rfl
    | update => exact .error rfl rfl
    | delete => exact .error rfl rfl

theorem cloneStatement (abreast : Abreast L start s s') (name : String) :
    Agrees (fun p q => p.1.Alike L q.1 ∧ Abreast L start p.2 q.2 ∧
        ∀ sel, p.1 = .select sel → (∀ sel ∈ start.under name, sel.toDraft.Within L) → sel.toDraft.Within L)
      (Session.cloneStatement name s) (Session.cloneStatement name s') := by
  unfold Session.cloneStatement
  cases abreast.alike.find name with
  | error left right =>
    rw [left, right]
    exact .error rfl rfl
  | @ok slot slot' left right like =>
    rw [left, right]
    obtain ⟨like, stands⟩ := like
    cases like with
    | query => exact .error rfl rfl
    | @plain st st' like =>
      obtain ⟨ordinal, drawn⟩ := abreast.alike.draw like.registry.drawn
      dsimp only
      rw [← like.registry.counter]
      refine .ok rfl rfl ⟨like.renumber ordinal, ⟨drawn, abreast.slots⟩, fun sel clone within => ?_⟩
      cases st with
      | select original =>
        cases clone
        exact within original (mem_under (abreast.slots stands) rfl)
      | insert => cases clone
      | update => cases clone
      | delete => cases clone

end Session.Alike

theorem render_together {start : Session} {ref : Reference} (fits : ref.Fits L start) :
    Together L start (Embedded.Alike L) (Session.render ref) (Session.render ref) := by
  cases ref with
  | rendered e => exact .pure (Embedded.Given.alike fits)
  | slot name => exact fun s s' abreast => Session.Alike.takeSelect abreast fits
  | cloneOf name =>
    intro s s' abreast
    refine (Session.Alike.cloneStatement abreast name).andThen fun p q related => ?_
    obtain ⟨st, next⟩ := p
    obtain ⟨st', next'⟩ := q
    obtain ⟨alike, still, shown⟩ := related
    cases alike with
    | select alike => exact .ok rfl rfl ⟨alike.embedded (shown _ rfl fits), still⟩
    | insert => exact .error rfl rfl
    | update => exact .error rfl rfl
    | delete => exact .error rfl rfl

abbrev Effect.Fits (L : Likeness) (start : Session) : Effect Reference → Prop :=
  Effect.Given L.marks L.bound (Reference.Fits L start)

section Given

variable {ρ : Type} {P : ρ → Prop}

theorem FlagCall.given_of_effects {call : FlagCall} (given : ∀ u ∈ call.effects, Effect.Given L.marks L.bound P u) :
    call.Given L := by
  cases call with
  | set name on => exact given (.text name) (List.mem_cons_self ..)
  | reset => trivial

theorem ReturningCall.given_of_effects {call : ReturningCall}
    (given : ∀ u ∈ call.effects, Effect.Given L.marks L.bound P u) : call.Given L := by
  cases call with
  | add columns => exact fun t member => given (.text t) (List.mem_map_of_mem member)
  | reset => trivial

theorem Column.given_of_effects {column : Column} (given : ∀ u ∈ column.effects, Effect.Given L.marks L.bound P u) :
    column.Given L := by
  cases column <;> exact given (.column _) (List.mem_cons_self ..)

theorem ColumnCall.given_of_effects {call : ColumnCall} (given : ∀ u ∈ call.effects, Effect.Given L.marks L.bound P u) :
    call.Given L := by
  cases call with
  | assign column value => cases value <;> exact given (.column column) (List.mem_cons_self ..)
  | assignMany columns =>
    exact fun c member => Column.given_of_effects fun u inside => given u (List.mem_flatMap.mpr ⟨c, member, inside⟩)
  | literal column text =>
    obtain ⟨named, rest⟩ := List.forall_mem_cons.mp given
    exact ⟨named, rest (.text text) (List.mem_cons_self ..)⟩
  | reset => trivial

theorem texts_given {texts : List String} (given : ∀ u ∈ texts.map Effect.text, Effect.Given L.marks L.bound P u) :
    ∀ t ∈ texts, Text.Without L.marks t :=
  fun t member => given (.text t) (List.mem_map_of_mem member)

theorem columnsAs_given {texts : List (String × String)}
    (given : ∀ u ∈ (SelectCall.columnsAs texts).effects, Effect.Given L.marks L.bound P u) :
    ∀ x ∈ texts, Text.Without L.marks x.1 ∧ Text.Without L.marks x.2 := by
  intro x member
  have inside := fun u there => given u (List.mem_flatMap.mpr ⟨x, member, there⟩)
  exact ⟨inside (.text x.1) (List.mem_cons_self ..),
    inside (.text x.2) (List.mem_cons_of_mem _ (List.mem_cons_self ..))⟩

theorem Criterion.effects_column (name : String) (value : Inline ρ) :
    .text name ∈ (Criterion.column name value).effects ∧
      ∀ ref, .absorb ref ∈ value.effects → .absorb ref ∈ (Criterion.column name value).effects := by
  unfold Criterion.effects
  split <;> simp_all [Inline.effects]

theorem Criterion.column_given {name : String} {value : Inline ρ}
    (given : ∀ u ∈ (Criterion.column name value).effects, Effect.Given L.marks L.bound P u) :
    Text.Without L.marks name ∧ ∀ u ∈ value.effects, Effect.Given L.marks L.bound P u := by
  obtain ⟨text, refs⟩ := Criterion.effects_column name value
  refine ⟨given _ text, fun u member => ?_⟩
  cases value with
  | scalar v type =>
    rw [List.mem_singleton.mp member]
    trivial
  | list vs type =>
    obtain ⟨v, _, rfl⟩ := List.mem_map.mp member
    trivial
  | statement ref =>
    rw [List.mem_singleton.mp member]
    exact given _ (refs ref (List.mem_cons_self ..))

end Given

section Rendering

open Session (render)

variable {start : Session}

theorem Inline.mapM_together {value : Inline Reference} (fits : ∀ u ∈ value.effects, u.Fits L start) :
    Together L start (Inline.Alike L) (value.mapM render) (value.mapM render) := by
  cases value with
  | scalar v type => exact .pure .scalar
  | list vs type => exact .pure .list
  | statement ref =>
    have shown : ref.Fits L start := fits (.absorb ref) (List.mem_cons_self ..)
    exact (render_together shown).map fun _ _ alike => .statement alike

theorem Inline.mapOptionM_together {value : Option (Inline Reference)}
    (fits : ∀ u ∈ Inline.effectsOf value, u.Fits L start) :
    Together L start (Option.Rel (Inline.Alike L)) (Inline.mapOptionM render value)
      (Inline.mapOptionM render value) := by
  cases value with
  | none => exact .pure .none
  | some value => exact (Inline.mapM_together fits).map fun _ _ alike => .some alike

theorem Source.mapM_together {source : Source Reference} (fits : ∀ u ∈ source.effects, u.Fits L start) :
    Together L start (Source.Alike L) (source.mapM render) (source.mapM render) := by
  cases source with
  | text sql => exact .pure (.text (fits (.text sql) (List.mem_cons_self ..)))
  | statement ref =>
    have shown : ref.Fits L start := fits (.absorb ref) (List.mem_cons_self ..)
    exact (render_together shown).map fun _ _ alike => .statement alike

theorem Criterion.mapM_together {c : Criterion Reference} (fits : ∀ u ∈ c.effects, u.Fits L start) :
    Together L start (Criterion.Alike L) (c.mapM render) (c.mapM render) := by
  cases c with
  | raw fragment => exact .pure (.raw (fits (.text fragment) (List.mem_cons_self ..)))
  | column name value =>
    obtain ⟨named, inside⟩ := Criterion.column_given fits
    exact (Inline.mapM_together inside).map fun _ _ alike => .column named alike

theorem Criterion.mapM_list_together {criteria : List (Criterion Reference)}
    (fits : ∀ u ∈ criteria.flatMap Criterion.effects, u.Fits L start) :
    Together L start (List.Forall₂ (Criterion.Alike L)) (criteria.mapM (Criterion.mapM render))
      (criteria.mapM (Criterion.mapM render)) := by
  induction criteria with
  | nil => exact .pure .nil
  | cons c rest ih =>
    rw [List.flatMap_cons] at fits
    obtain ⟨here, later⟩ := List.forall_mem_append.mp fits
    rw [List.mapM_cons]
    exact (Criterion.mapM_together here).both (ih later) fun _ _ _ _ head tail => .cons head tail

theorem ConditionCall.mapM_together {call : ConditionCall Reference}
    (fits : ∀ u ∈ call.effects, u.Fits L start) :
    Together L start (ConditionCall.Alike L) (call.mapM render) (call.mapM render) := by
  cases call with
  | add connective fragment value =>
    obtain ⟨text, values⟩ := List.forall_mem_cons.mp fits
    exact (Inline.mapOptionM_together values).map fun _ _ alike => .add text alike
  | append text value =>
    obtain ⟨given, values⟩ := List.forall_mem_cons.mp fits
    exact (Inline.mapOptionM_together values).map fun _ _ alike => .append given alike
  | reset => exact .pure .reset

theorem WithCall.mapM_together {call : WithCall Reference} (fits : ∀ u ∈ call.effects, u.Fits L start) :
    Together L start (WithCall.Alike L) (call.mapM render) (call.mapM render) := by
  cases call with
  | define name columns body =>
    obtain ⟨front, source⟩ := List.forall_mem_append.mp fits
    obtain ⟨named, texts⟩ := List.forall_mem_cons.mp front
    have given : ∀ c ∈ columns, Text.Without L.marks c :=
      fun c member => texts (.text c) (List.mem_map_of_mem member)
    exact (Source.mapM_together source).map fun _ _ alike => .define named given alike
  | recursive on => exact .pure .recursive
  | reset => exact .pure .reset

theorem CommonCall.mapM_together {call : CommonCall Reference} (fits : ∀ u ∈ call.effects, u.Fits L start) :
    Together L start (CommonCall.Alike L) (call.mapM render) (call.mapM render) := by
  cases call with
  | bind key value type => exact .pure (.bind (fits (.bind key value type) (List.mem_cons_self ..)))
  | bindAll entries =>
    exact .pure (.bindAll fun x member => fits (.bind x.1 x.2 none) (List.mem_map_of_mem member))
  | inline value =>
    obtain ⟨_, values⟩ := List.forall_mem_cons.mp fits
    exact (Inline.mapM_together values).map fun _ _ alike => .inline alike
  | flag call => exact .pure (.flag (FlagCall.given_of_effects fits))

theorem FilterCall.mapM_together {call : FilterCall Reference} (fits : ∀ u ∈ call.effects, u.Fits L start) :
    Together L start (FilterCall.Alike L) (call.mapM render) (call.mapM render) := by
  cases call with
  | paging call => exact .pure .paging
  | condition call => exact (ConditionCall.mapM_together fits).map fun _ _ alike => .condition alike
  | equals criteria => exact (Criterion.mapM_list_together fits).map fun _ _ alike => .equals alike
  | ctes call => exact (WithCall.mapM_together fits).map fun _ _ alike => .ctes alike

theorem SelectCall.mapM_together {call : SelectCall Reference} (fits : ∀ u ∈ call.effects, u.Fits L start) :
    Together L start (fun c c' => c.Alike L c' ∧ c.closes = call.closes) (call.mapM render)
      (call.mapM render) := by
  cases call with
  | common call => exact (CommonCall.mapM_together fits).map fun _ _ alike => ⟨.common alike, rfl⟩
  | filter call => exact (FilterCall.mapM_together fits).map fun _ _ alike => ⟨.filter alike, rfl⟩
  | having call => exact (ConditionCall.mapM_together fits).map fun _ _ alike => ⟨.having alike, rfl⟩
  | columns texts => exact .pure ⟨.columns (texts_given fits), rfl⟩
  | columnsAs texts =>
    exact .pure ⟨.columnsAs (columnsAs_given fits), rfl⟩
  | resetColumns => exact .pure ⟨.resetColumns, rfl⟩
  | table source => exact (Source.mapM_together fits).map fun _ _ alike => ⟨.table alike, rfl⟩
  | join kind source condition value =>
    obtain ⟨front, sources⟩ := List.forall_mem_append.mp fits
    obtain ⟨kinds, rest⟩ := List.forall_mem_cons.mp front
    obtain ⟨on, values⟩ := List.forall_mem_cons.mp rest
    exact (Source.mapM_together sources).both (Inline.mapOptionM_together values)
      fun _ _ _ _ source value => ⟨.join kinds source on value, rfl⟩
  | appendJoin text value =>
    obtain ⟨given, values⟩ := List.forall_mem_cons.mp fits
    exact (Inline.mapOptionM_together values).map fun _ _ alike => ⟨.appendJoin given alike, rfl⟩
  | resetTables => exact .pure ⟨.resetTables, rfl⟩
  | groupBy texts => exact .pure ⟨.groupBy (texts_given fits), rfl⟩
  | resetGroupBy => exact .pure ⟨.resetGroupBy, rfl⟩
  | orderBy texts => exact .pure ⟨.orderBy (texts_given fits), rfl⟩
  | resetOrderBy => exact .pure ⟨.resetOrderBy, rfl⟩
  | distinct on => exact .pure ⟨.distinct, rfl⟩
  | forUpdate on => exact .pure ⟨.forUpdate, rfl⟩
  | setAlias name => exact .pure ⟨.setAlias (fits (.text name) (List.mem_cons_self ..)), rfl⟩
  | resetAlias => exact .pure ⟨.resetAlias, rfl⟩
  | union all => exact .pure ⟨.union, rfl⟩
  | reset => exact .pure ⟨.reset, rfl⟩

theorem InsertCall.mapM_together {call : InsertCall Reference} (fits : ∀ u ∈ call.effects, u.Fits L start) :
    Together L start (InsertCall.Alike L) (call.mapM render) (call.mapM render) := by
  cases call with
  | common call => exact (CommonCall.mapM_together fits).map fun _ _ alike => .common alike
  | column call => exact .pure (.column (ColumnCall.given_of_effects fits))
  | returning call => exact .pure (.returning (ReturningCall.given_of_effects fits))
  | table name => exact .pure (.table (fits (.text name) (List.mem_cons_self ..)))
  | reset => exact .pure .reset

theorem UpdateCall.mapM_together {call : UpdateCall Reference} (fits : ∀ u ∈ call.effects, u.Fits L start) :
    Together L start (UpdateCall.Alike L) (call.mapM render) (call.mapM render) := by
  cases call with
  | common call => exact (CommonCall.mapM_together fits).map fun _ _ alike => .common alike
  | filter call => exact (FilterCall.mapM_together fits).map fun _ _ alike => .filter alike
  | column call => exact .pure (.column (ColumnCall.given_of_effects fits))
  | returning call => exact .pure (.returning (ReturningCall.given_of_effects fits))
  | table name => exact .pure (.table (fits (.text name) (List.mem_cons_self ..)))
  | reset => exact .pure .reset

theorem DeleteCall.mapM_together {call : DeleteCall Reference} (fits : ∀ u ∈ call.effects, u.Fits L start) :
    Together L start (DeleteCall.Alike L) (call.mapM render) (call.mapM render) := by
  cases call with
  | common call => exact (CommonCall.mapM_together fits).map fun _ _ alike => .common alike
  | filter call => exact (FilterCall.mapM_together fits).map fun _ _ alike => .filter alike
  | returning call => exact .pure (.returning (ReturningCall.given_of_effects fits))
  | table name => exact .pure (.table (fits (.text name) (List.mem_cons_self ..)))
  | reset => exact .pure .reset

theorem Call.mapM_together {call : Call Reference} (fits : ∀ u ∈ call.effects, u.Fits L start) :
    Together L start (fun c c' => c.Alike L c' ∧ c.closes = call.closes) (call.mapM render)
      (call.mapM render) := by
  cases call with
  | select call => exact (SelectCall.mapM_together fits).map fun _ _ like => ⟨.select like.1, like.2⟩
  | insert call => exact (InsertCall.mapM_together fits).map fun _ _ like => ⟨.insert like, rfl⟩
  | update call => exact (UpdateCall.mapM_together fits).map fun _ _ like => ⟨.update like, rfl⟩
  | delete call => exact (DeleteCall.mapM_together fits).map fun _ _ like => ⟨.delete like, rfl⟩

end Rendering

end SqlCompose
