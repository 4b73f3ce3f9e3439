import SqlCompose.Proofs.Binding
import SqlCompose.Proofs.Likeness

namespace SqlCompose

variable {L : Likeness}

structure Registry.Alike (L : Likeness) (r r' : Registry) : Prop where
  counter : r.counter = r'.counter
  drawn : L.counter r.counter
  ordinal : L.ordinal r.ordinal r'.ordinal
  sequence : r.sequence = r'.sequence
  values : L.binds r.values r'.values

structure Embedded.Alike (L : Likeness) (e e' : Embedded) : Prop where
  sql : L.text e.sql e'.sql
  binds : L.binds e.binds e'.binds

inductive Inline.Alike (L : Likeness) : Inline Embedded → Inline Embedded → Prop where
  | scalar : Inline.Alike L (.scalar value type) (.scalar value type)
  | list : Inline.Alike L (.list values type) (.list values type)
  | statement (alike : e.Alike L e') : Inline.Alike L (.statement e) (.statement e')

inductive Source.Alike (L : Likeness) : Source Embedded → Source Embedded → Prop where
  | text (given : Text.Without L.marks sql) : Source.Alike L (.text sql) (.text sql)
  | statement (alike : e.Alike L e') : Source.Alike L (.statement e) (.statement e')

inductive Criterion.Alike (L : Likeness) : Criterion Embedded → Criterion Embedded → Prop where
  | raw (given : Text.Without L.marks fragment) : Criterion.Alike L (.raw fragment) (.raw fragment)
  | column (given : Text.Without L.marks name) (value : Inline.Alike L v v') :
      Criterion.Alike L (.column name v) (.column name v')

def Likeness.Both (L : Likeness) (x y : String × Registry) : Prop := L.text x.1 y.1 ∧ x.2.Alike L y.2

namespace Registry.Alike

variable {r r' : Registry}

theorem bind (alike : r.Alike L r') {key : String} (bound : L.bound key) (value : Value)
    (type : Option ParamType) : (r.bind key value type).Alike L (r'.bind key value type) :=
  { alike with values := L.named _ alike.values bound }

theorem bindAll (alike : r.Alike L r') {entries : List (String × Value)}
    (bound : ∀ e ∈ entries, L.bound e.1) : (r.bindAll entries).Alike L (r'.bindAll entries) := by
  induction entries generalizing r r' with
  | nil => exact alike
  | cons e rest ih =>
    obtain ⟨here, later⟩ := List.forall_mem_cons.mp bound
    exact ih (alike.bind here e.2 none) later

theorem unbind (alike : r.Alike L r') {key : String} (bound : L.bound key) :
    (r.unbind key).Alike L (r'.unbind key) :=
  { alike with values := L.erased alike.values bound }

theorem absorb (alike : r.Alike L r') {binds binds' : BindMap} (incoming : L.binds binds binds') :
    (r.absorb binds).Alike L (r'.absorb binds') :=
  { alike with values := L.merged alike.values incoming }

theorem reset (alike : r.Alike L r') : r.reset.Alike L r'.reset :=
  { alike with sequence := rfl, values := L.unbound }

theorem renumber (alike : r.Alike L r') {o o' : UInt64} (ordinal : L.ordinal o o') :
    (r.renumber o).Alike L (r'.renumber o') :=
  { alike with ordinal := ordinal }

theorem inlineScalar (alike : r.Alike L r') (value : Value) (type : Option ParamType) :
    L.Both (r.inlineScalar value type) (r'.inlineScalar value type) := by
  have next : r'.nextKey = ⟨r'.ordinal, r.sequence + 1⟩ := by rw [nextKey, alike.sequence]
  have text : L.text r.nextKey.placeholder r'.nextKey.placeholder := by
    rw [next]
    exact L.placeholder alike.ordinal
  have values : L.binds (r.values.insert r.nextKey.text (.make value type))
      (r'.values.insert r'.nextKey.text (.make value type)) := by
    rw [next]
    exact L.generated _ _ alike.values alike.ordinal
  exact ⟨text, { alike with sequence := congrArg (· + 1) alike.sequence, values := values }⟩

theorem inlineEach (alike : r.Alike L r') (type : Option ParamType) (values : List Value) :
    List.Forall₂ L.text (Registry.inlineEach type values r).1 (Registry.inlineEach type values r').1 ∧
      (Registry.inlineEach type values r).2.Alike L (Registry.inlineEach type values r').2 := by
  induction values generalizing r r' with
  | nil => exact ⟨.nil, alike⟩
  | cons v rest ih =>
    obtain ⟨text, next⟩ := alike.inlineScalar v type
    obtain ⟨texts, last⟩ := ih next
    exact ⟨.cons text texts, last⟩

theorem inline (alike : r.Alike L r') {value value' : Inline Embedded} (like : value.Alike L value') :
    L.Both (r.inline value) (r'.inline value') := by
  have opened : L.text "(" "(" := L.literal (by decide)
  have closed : L.text ")" ")" := L.literal (by decide)
  cases like with
  | scalar => exact alike.inlineScalar _ _
  | @list type values =>
    obtain ⟨texts, next⟩ := alike.inlineEach values type
    exact ⟨L.append (L.append opened (L.joined (by decide) texts)) closed, next⟩
  | statement like =>
    exact ⟨L.append (L.append opened like.sql) closed, alike.absorb like.binds⟩

theorem splice (alike : r.Alike L r') {source source' : Source Embedded} (like : source.Alike L source') :
    L.Both (r.splice source) (r'.splice source') := by
  cases like with
  | text given => exact ⟨L.same given, alike⟩
  | statement like => exact ⟨like.sql, alike.absorb like.binds⟩

theorem extend (alike : r.Alike L r') {fragment : String} (given : Text.Without L.marks fragment)
    {value value' : Option (Inline Embedded)} (like : Option.Rel (Inline.Alike L) value value') :
    L.Both (r.extend fragment value) (r'.extend fragment value') := by
  cases like with
  | none => exact ⟨L.same given, alike⟩
  | @some v v' like =>
    have empty : v.isEmptyList = v'.isEmptyList := by cases like <;> rfl
    unfold Registry.extend
    simp only [empty]
    split
    · exact ⟨L.same given, alike⟩
    · obtain ⟨text, next⟩ := alike.inline like
      exact ⟨L.append (L.same given) text, next⟩

-- What stands for a value decides how its criterion reads, and that is the same on both sides.
theorem criterion (alike : r.Alike L r') {c c' : Criterion Embedded} (like : c.Alike L c') :
    L.Both (r.criterion c) (r'.criterion c') := by
  cases like with
  | raw given => exact ⟨L.same given, alike⟩
  | @column name v v' given like =>
    have valued (operator : String) (plain : Text.Without Text.reserved operator) :
        L.Both (name ++ operator ++ (r.inline v).1, (r.inline v).2)
          (name ++ operator ++ (r'.inline v').1, (r'.inline v').2) :=
      ⟨L.append (L.append (L.same given) (L.literal plain)) (alike.inline like).1, (alike.inline like).2⟩
    cases like with
    | @scalar value type =>
      cases value with
      | null => exact ⟨L.append (L.same given) (L.literal (by decide)), alike⟩
      | _ => exact valued " = " (by decide)
    | @list values type =>
      cases values with
      | nil =>
        have never : L.text "FALSE" "FALSE" := L.literal (by decide)
        exact ⟨never, alike⟩
      | cons v rest => exact valued " IN " (by decide)
    | statement => exact valued " = " (by decide)

end Registry.Alike

theorem Likeness.clause {keyword glue : String} (plain : Text.Without Text.reserved keyword)
    (between : Text.Without Text.reserved glue) {xs ys : List String} (items : List.Forall₂ L.text xs ys) :
    L.text (if xs.isEmpty then "" else keyword ++ Text.listing glue xs)
      (if ys.isEmpty then "" else keyword ++ Text.listing glue ys) := by
  rw [← List.isEmpty_alike items]
  split
  · exact L.literal (Text.without_empty _)
  · exact L.append (L.literal plain) (L.listing between items)

def Conditions.Alike (L : Likeness) (c c' : Conditions) : Prop :=
  List.Forall₂ L.text c.fragments c'.fragments

namespace Conditions.Alike

variable {c c' : Conditions} {t t' : String}

theorem add (alike : c.Alike L c') (connective : Connective) (text : L.text t t') :
    (c.add connective t).Alike L (c'.add connective t') := by
  have lead : L.text connective.lead connective.lead := L.literal (by cases connective <;> decide)
  have last : L.text (if c.isEmpty then t else connective.lead ++ t)
      (if c'.isEmpty then t' else connective.lead ++ t') := by
    unfold Conditions.isEmpty
    rw [← List.isEmpty_alike alike]
    split
    · exact text
    · exact L.append lead text
  exact List.rel_append alike (.cons last .nil)

theorem append (alike : c.Alike L c') (text : L.text t t') :
    (c.append t).Alike L (c'.append t') := L.lengthenLast text alike

theorem render (alike : c.Alike L c') {keyword : String} (plain : Text.Without Text.reserved keyword) :
    L.text (c.render keyword) (c'.render keyword) :=
  L.clause (Text.Without.append (by decide) plain) (Text.without_empty _) alike

end Conditions.Alike

inductive ConditionCall.Alike (L : Likeness) : ConditionCall Embedded → ConditionCall Embedded → Prop where
  | add (given : Text.Without L.marks fragment) (value : Option.Rel (Inline.Alike L) v v') :
      ConditionCall.Alike L (.add connective fragment v) (.add connective fragment v')
  | append (given : Text.Without L.marks text) (value : Option.Rel (Inline.Alike L) v v') :
      ConditionCall.Alike L (.append text v) (.append text v')
  | reset : ConditionCall.Alike L .reset .reset

structure BoundConditions.Alike (L : Likeness) (b b' : BoundConditions) : Prop where
  conditions : b.conditions.Alike L b'.conditions
  registry : b.registry.Alike L b'.registry

namespace BoundConditions.Alike

variable {b b' : BoundConditions}

theorem apply (alike : b.Alike L b') {call call' : ConditionCall Embedded} (like : call.Alike L call') :
    (b.apply call).Alike L (b'.apply call') := by
  cases like with
  | @add _ _ _ connective given value =>
    obtain ⟨text, next⟩ := alike.registry.extend given value
    exact ⟨alike.conditions.add connective text, next⟩
  | append given value =>
    obtain ⟨text, next⟩ := alike.registry.extend given value
    exact ⟨alike.conditions.append text, next⟩
  | reset => exact ⟨.nil, alike.registry⟩

theorem addCriteria (alike : b.Alike L b') {criteria criteria' : List (Criterion Embedded)}
    (like : List.Forall₂ (Criterion.Alike L) criteria criteria') :
    (b.addCriteria criteria).Alike L (b'.addCriteria criteria') := by
  induction like generalizing b b' with
  | nil => exact alike
  | cons head _ ih =>
    obtain ⟨text, next⟩ := alike.registry.criterion head
    exact ih ⟨alike.conditions.add .and text, next⟩

end BoundConditions.Alike

structure FromEntry.Alike (L : Likeness) (e e' : FromEntry) : Prop where
  table : L.text e.table e'.table
  joins : List.Forall₂ L.text e.joins e'.joins

def FromClause.Alike (L : Likeness) (c c' : FromClause) : Prop :=
  List.Forall₂ (FromEntry.Alike L) c.entries c'.entries

theorem FromEntry.Alike.render {e e' : FromEntry} (alike : e.Alike L e') :
    L.text e.render e'.render :=
  L.trimStart (L.append alike.table (L.listing (Text.without_empty _) alike.joins))

namespace FromClause.Alike

variable {c c' : FromClause} {t t' : String}

theorem changeLast {f g : FromEntry → FromEntry} (change : ∀ e e', e.Alike L e' → (f e).Alike L (g e'))
    {es es' : List FromEntry} (entries : List.Forall₂ (FromEntry.Alike L) es es') :
    List.Forall₂ (FromEntry.Alike L) (FromClause.changeLast f es) (FromClause.changeLast g es') := by
  have blank : FromEntry.Alike L ⟨"", []⟩ ⟨"", []⟩ := ⟨L.literal (Text.without_empty _), .nil⟩
  induction entries with
  | nil => exact .cons (change _ _ blank) .nil
  | cons head rest ih =>
    cases rest with
    | nil => exact .cons (change _ _ head) .nil
    | cons => exact .cons head ih

theorem addTable (alike : c.Alike L c') (text : L.text t t') :
    (c.addTable t).Alike L (c'.addTable t') :=
  List.rel_append alike (.cons ⟨text, .nil⟩ .nil)

theorem addJoin (alike : c.Alike L c') (text : L.text t t') : (c.addJoin t).Alike L (c'.addJoin t') := by
  refine changeLast (fun e e' entry => ?_) alike
  exact ⟨entry.table, List.rel_append entry.joins (.cons text .nil)⟩

theorem append (alike : c.Alike L c') (text : L.text t t') : (c.append t).Alike L (c'.append t') := by
  refine changeLast (fun e e' entry => ?_) alike
  unfold FromEntry.lengthen
  rw [← List.isEmpty_alike entry.joins]
  split
  · exact { entry with table := L.append entry.table text }
  · exact { entry with joins := L.lengthenLast text entry.joins }

theorem render (alike : c.Alike L c') : L.text c.render c'.render := by
  have entries : List.Forall₂ L.text (c.entries.map FromEntry.render) (c'.entries.map FromEntry.render) :=
    List.rel_map (fun _ _ entry => FromEntry.Alike.render entry) alike
  have keyword : L.text " FROM" " FROM" := L.literal (by decide)
  have listed := L.append keyword (L.listing (by decide : Text.Without Text.reserved ",") entries)
  unfold FromClause.Alike at alike
  unfold FromClause.render
  generalize c.entries = es, c'.entries = es' at alike entries listed
  cases alike with
  | nil => exact L.literal (Text.without_empty _)
  | cons => exact listed

end FromClause.Alike

-- The joining word is made of callers' text alone, so it is the same on both sides.
theorem Likeness.join {kind table table' condition condition' : String}
    (given : Text.Without L.marks kind) (source : L.text table table') (on : L.text condition condition') :
    L.text (Join.text kind table condition) (Join.text kind table' condition') := by
  have kinds : L.text (Join.kindText kind) (Join.kindText kind) :=
    L.same (Join.kindText_without L.reserved given)
  have blank : L.text " " " " := L.literal (by decide)
  have head := L.append (L.append kinds blank) source
  have whole := L.append head (L.spaced on)
  have split (table condition : String) : Join.text kind table condition =
      Join.kindText kind ++ " " ++ table ++ if condition.isEmpty then "" else " " ++ condition := by
    unfold Join.text
    dsimp only
    split
    · rw [String.append_empty]
    · simp only [String.append_assoc]
  rw [split, split]
  exact whole

structure CommonTable.Alike (L : Likeness) (t t' : CommonTable) : Prop where
  columns : t.columns = t'.columns
  given : ∀ c ∈ t.columns, Text.Without L.marks c
  body : L.text t.body t'.body

def Likeness.Identifier (L : Likeness) (name name' : String) : Prop :=
  name = name' ∧ Text.Without L.marks name

theorem Likeness.identifier_unique (L : Likeness) : Relator.BiUnique L.Identifier :=
  ⟨fun _ _ _ left right => left.1.trans right.1.symm, fun _ _ _ left right => left.1.symm.trans right.1⟩

structure With.Alike (L : Likeness) (w w' : With) : Prop where
  recursive : w.recursive = w'.recursive
  tables : w.tables.Alike L.Identifier (CommonTable.Alike L) w'.tables

theorem Likeness.quotes {d d' : Dialect} (dialect : L.dialect d d') {names : List String}
    (given : ∀ c ∈ names, Text.Without L.marks c) :
    List.Forall₂ L.text (names.map d.quote) (names.map d'.quote) := by
  induction names with
  | nil => exact .nil
  | cons c rest ih =>
    obtain ⟨here, later⟩ := List.forall_mem_cons.mp given
    exact .cons (L.quoted dialect here) (ih later)

namespace With.Alike

variable {w w' : With} {d d' : Dialect}

theorem tableText (dialect : L.dialect d d') {name : String} (named : Text.Without L.marks name)
    {t t' : CommonTable} (alike : t.Alike L t') :
    L.text (With.tableText d name t) (With.tableText d' name t') := by
  have columns : L.text
      (if t.columns.isEmpty then "" else " (" ++ Text.joined ", " (t.columns.map d.quote) ++ ")")
      (if t'.columns.isEmpty then "" else " (" ++ Text.joined ", " (t'.columns.map d'.quote) ++ ")") := by
    rw [← alike.columns]
    split
    · exact L.literal (Text.without_empty _)
    · exact L.append (L.append (L.literal (by decide)) (L.joined (by decide) (L.quotes dialect alike.given)))
        (L.literal (by decide))
  have opened : L.text " AS (" " AS (" := L.literal (by decide)
  have closed : L.text ")" ")" := L.literal (by decide)
  exact L.append (L.append (L.append (L.append (L.quoted dialect named) columns) opened) alike.body) closed

theorem render (alike : w.Alike L w') (dialect : L.dialect d d') : L.text (w.render d) (w'.render d') := by
  have tables : List.Forall₂ L.text (w.tables.entries.map fun x => With.tableText d x.1 x.2)
      (w'.tables.entries.map fun x => With.tableText d' x.1 x.2) :=
    List.rel_map (fun x y entry => entry.1.1 ▸ tableText dialect entry.1.2 entry.2) alike.tables
  have keyword : L.text (if w.recursive then "WITH RECURSIVE" else "WITH")
      (if w.recursive then "WITH RECURSIVE" else "WITH") := L.literal (by split <;> decide)
  have blank : L.text " " " " := L.literal (by decide)
  have same : w.isEmpty = w'.isEmpty := List.isEmpty_alike alike.tables
  unfold With.render
  rw [← same, ← alike.recursive]
  split
  · exact L.literal (Text.without_empty _)
  · exact L.append (L.append keyword (L.listing (by decide) tables)) blank

end With.Alike

inductive WithCall.Alike (L : Likeness) : WithCall Embedded → WithCall Embedded → Prop where
  | define (named : Text.Without L.marks name) (given : ∀ c ∈ columns, Text.Without L.marks c)
      (body : Source.Alike L b b') : WithCall.Alike L (.define name columns b) (.define name columns b')
  | recursive : WithCall.Alike L (.recursive on) (.recursive on)
  | reset : WithCall.Alike L .reset .reset

structure BoundWith.Alike (L : Likeness) (b b' : BoundWith) : Prop where
  ctes : b.ctes.Alike L b'.ctes
  registry : b.registry.Alike L b'.registry

theorem BoundWith.Alike.apply {b b' : BoundWith} (alike : b.Alike L b') {call call' : WithCall Embedded}
    (like : call.Alike L call') : (b.apply call).Alike L (b'.apply call') := by
  cases like with
  | define named given body =>
    obtain ⟨text, next⟩ := alike.registry.splice body
    have table : CommonTable.Alike L ⟨_, (b.registry.splice _).1⟩ ⟨_, (b'.registry.splice _).1⟩ :=
      ⟨rfl, given, text⟩
    exact ⟨⟨alike.ctes.recursive, alike.ctes.tables.insert L.identifier_unique ⟨rfl, named⟩ table⟩, next⟩
  | recursive => exact ⟨⟨rfl, alike.ctes.tables⟩, alike.registry⟩
  | reset => exact ⟨⟨rfl, .nil⟩, alike.registry⟩

structure Flags.Alike (L : Likeness) (f f' : Flags) : Prop where
  same : f = f'
  given : ∀ t ∈ f.names, L.text t t

def FlagCall.Given (L : Likeness) : FlagCall → Prop
  | .set name _ => Text.Without L.marks name
  | .reset => True

theorem Flags.Alike.apply {f f' : Flags} (alike : f.Alike L f') {call : FlagCall} (given : call.Given L) :
    (f.apply call).Alike L (f'.apply call) := by
  refine ⟨by rw [alike.same], fun t member => ?_⟩
  cases call with
  | set name on =>
    have known : t ∈ f.names ∨ t = name := by
      unfold Flags.apply Flags.set at member
      grind
    rcases known with old | rfl
    · exact alike.given t old
    · exact L.same given
  | reset => cases member

theorem Flags.Alike.render {f f' : Flags} (alike : f.Alike L f') : L.text f.render f'.render := by
  rw [← alike.same]
  exact L.listing (Text.without_empty _) (List.forall₂_same.mpr alike.given)

structure Clauses.Alike (L : Likeness) (c c' : Clauses) : Prop where
  columns : List.Forall₂ L.text c.columns c'.columns
  tables : c.tables.Alike L c'.tables
  conditions : c.conditions.Alike L c'.conditions
  having : c.having.Alike L c'.having
  group : List.Forall₂ L.text c.group c'.group
  order : List.Forall₂ L.text c.order c'.order
  flags : c.flags.Alike L c'.flags
  paging : c.paging = c'.paging
  ctes : c.ctes.Alike L c'.ctes
  union : List.Forall₂ L.text c.union c'.union
  returning : List.Forall₂ L.text c.returning c'.returning

namespace Clauses.Alike

variable {c c' : Clauses}

theorem bare {ctes ctes' : With} {union union' : List String} {paging paging' : Paging}
    (tables : ctes.Alike L ctes') (members : List.Forall₂ L.text union union') (same : paging = paging') :
    Clauses.Alike L { ctes := ctes, union := union, paging := paging }
      { ctes := ctes', union := union', paging := paging' } where
  columns := .nil
  tables := .nil
  conditions := .nil
  having := .nil
  group := .nil
  order := .nil
  flags := ⟨rfl, fun _ member => by cases member⟩
  paging := same
  ctes := tables
  union := members
  returning := .nil

theorem renderReturning (alike : c.Alike L c') : L.text c.renderReturning c'.renderReturning :=
  L.clause (by decide) (by decide) alike.returning

end Clauses.Alike

theorem Likeness.renderBy {keyword : String} (plain : Text.Without Text.reserved keyword)
    {xs ys : List String} (items : List.Forall₂ L.text xs ys) :
    L.text (Clauses.renderBy keyword xs) (Clauses.renderBy keyword ys) :=
  L.clause ((Text.Without.append (by decide) plain).append (by decide)) (by decide) items

structure Draft.Alike (L : Likeness) (d d' : Draft) : Prop where
  dialect : L.dialect d.dialect d'.dialect
  registry : d.registry.Alike L d'.registry
  clauses : d.clauses.Alike L d'.clauses

-- The row window of a statement may be shown.
def Draft.Within (L : Likeness) (d : Draft) : Prop :=
  L.window d.clauses.paging.limit d.clauses.paging.offset

inductive CommonCall.Alike (L : Likeness) : CommonCall Embedded → CommonCall Embedded → Prop where
  | bind (bound : L.bound key) : CommonCall.Alike L (.bind key value type) (.bind key value type)
  | bindAll (bound : ∀ e ∈ entries, L.bound e.1) : CommonCall.Alike L (.bindAll entries) (.bindAll entries)
  | inline (value : Inline.Alike L v v') : CommonCall.Alike L (.inline v) (.inline v')
  | flag (given : call.Given L) : CommonCall.Alike L (.flag call) (.flag call)

inductive FilterCall.Alike (L : Likeness) : FilterCall Embedded → FilterCall Embedded → Prop where
  | paging : FilterCall.Alike L (.paging call) (.paging call)
  | condition (call : ConditionCall.Alike L c c') : FilterCall.Alike L (.condition c) (.condition c')
  | equals (criteria : List.Forall₂ (Criterion.Alike L) cs cs') : FilterCall.Alike L (.equals cs) (.equals cs')
  | ctes (call : WithCall.Alike L c c') : FilterCall.Alike L (.ctes c) (.ctes c')

def ReturningCall.Given (L : Likeness) : ReturningCall → Prop
  | .add columns => ∀ t ∈ columns, Text.Without L.marks t
  | .reset => True

namespace Draft.Alike

variable {d d' : Draft}

theorem new {x x' : Dialect} (dialect : L.dialect x x') {counter : String} (drawn : L.counter counter)
    {o o' : UInt64} (ordinal : L.ordinal o o') :
    (Draft.new x counter o).Alike L (Draft.new x' counter o') where
  dialect := dialect
  registry := ⟨rfl, drawn, ordinal, rfl, L.unbound⟩
  clauses := .bare ⟨rfl, .nil⟩ .nil rfl

theorem withDefaultPerPage (alike : d.Alike L d') (n : UInt64) :
    (d.withDefaultPerPage n).Alike L (d'.withDefaultPerPage n) :=
  { alike with
    clauses := { alike.clauses with paging := congrArg (·.setDefaultPerPage n) alike.clauses.paging } }

theorem renumber (alike : d.Alike L d') {o o' : UInt64} (ordinal : L.ordinal o o') :
    (d.renumber o).Alike L (d'.renumber o') :=
  { alike with registry := alike.registry.renumber ordinal }

theorem reset (alike : d.Alike L d') : d.reset.Alike L d'.reset where
  dialect := alike.dialect
  registry := alike.registry.reset
  clauses := .bare ⟨rfl, .nil⟩ .nil (congrArg Paging.reset alike.clauses.paging)

theorem lateWindow (alike : d.Alike L d') (within : d.Within L) : L.text d.lateWindow d'.lateWindow := by
  unfold Draft.lateWindow
  rw [← alike.clauses.paging]
  exact L.late alike.dialect within

theorem applyCommon (alike : d.Alike L d') {call call' : CommonCall Embedded} (like : call.Alike L call') :
    (d.applyCommon call).Alike L (d'.applyCommon call') := by
  cases like with
  | bind bound => exact { alike with registry := alike.registry.bind bound _ _ }
  | bindAll bound => exact { alike with registry := alike.registry.bindAll bound }
  | inline value => exact { alike with registry := (alike.registry.inline value).2 }
  | flag given =>
    exact { alike with clauses := { alike.clauses with flags := alike.clauses.flags.apply given } }

theorem changeConditions (alike : d.Alike L d') {f g : BoundConditions → BoundConditions}
    (change : ∀ b b' : BoundConditions, b.Alike L b' → (f b).Alike L (g b')) :
    (d.changeConditions f).Alike L (d'.changeConditions g) := by
  have bound := change _ _ (⟨alike.clauses.conditions, alike.registry⟩ : BoundConditions.Alike L ⟨_, _⟩ ⟨_, _⟩)
  exact ⟨alike.dialect, bound.registry, { alike.clauses with conditions := bound.conditions }⟩

theorem changeHaving (alike : d.Alike L d') {f g : BoundConditions → BoundConditions}
    (change : ∀ b b' : BoundConditions, b.Alike L b' → (f b).Alike L (g b')) :
    (d.changeHaving f).Alike L (d'.changeHaving g) := by
  have bound := change _ _ (⟨alike.clauses.having, alike.registry⟩ : BoundConditions.Alike L ⟨_, _⟩ ⟨_, _⟩)
  exact ⟨alike.dialect, bound.registry, { alike.clauses with having := bound.conditions }⟩

theorem applyFilter (alike : d.Alike L d') {call call' : FilterCall Embedded} (like : call.Alike L call') :
    (d.applyFilter call).Alike L (d'.applyFilter call') := by
  cases like with
  | @paging call =>
    exact { alike with
      clauses := { alike.clauses with paging := congrArg (·.apply call) alike.clauses.paging } }
  | condition like => exact alike.changeConditions fun _ _ bound => bound.apply like
  | equals like => exact alike.changeConditions fun _ _ bound => bound.addCriteria like
  | ctes like =>
    have bound := BoundWith.Alike.apply
      (⟨alike.clauses.ctes, alike.registry⟩ : BoundWith.Alike L ⟨_, _⟩ ⟨_, _⟩) like
    exact ⟨alike.dialect, bound.registry, { alike.clauses with ctes := bound.ctes }⟩

theorem applyReturning (alike : d.Alike L d') {call : ReturningCall} (given : call.Given L) :
    (d.applyReturning call).Alike L (d'.applyReturning call) := by
  cases call with
  | add columns =>
    have returning := List.rel_append alike.clauses.returning (L.same_each given)
    exact { alike with clauses := { alike.clauses with returning := returning } }
  | reset => exact { alike with clauses := { alike.clauses with returning := .nil } }

end Draft.Alike

end SqlCompose
