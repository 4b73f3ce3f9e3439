import SqlCompose.Proofs.Criteria
import SqlCompose.Proofs.Embedding

namespace SqlCompose

variable {ρ : Type}

inductive Phrase where
  | add (connective : Connective) (fragment : String)
  | append (text : String)
  deriving DecidableEq, Repr

def Phrase.call : Phrase → Option (Inline ρ) → ConditionCall ρ
  | add connective fragment, value => .add connective fragment value
  | append text, value => .append text value

inductive ConditionClause where
  | rows (k : RowKind)
  | groups
  deriving DecidableEq, Repr

namespace ConditionClause

def kind : ConditionClause → StatementKind
  | rows k => k.kind
  | groups => .select

def call : ConditionClause → ConditionCall ρ → Call ρ
  | rows k, c => k.call (.condition c)
  | groups, c => .select (.having c)

end ConditionClause

namespace Text

theorem lengthenLast_lengthenLast (text more : String) (items : List String) :
    lengthenLast more (lengthenLast text items) = lengthenLast (text ++ more) items := by
  rcases List.eq_nil_or_concat' items with rfl | ⟨front, last, rfl⟩
  · rfl
  · simp only [lengthenLast_concat, String.append_assoc]

end Text

namespace Conditions

theorem append_append (c : Conditions) (text more : String) : (c.append text).append more = c.append (text ++ more) :=
  congrArg mk (Text.lengthenLast_lengthenLast text more c.fragments)

theorem add_append (c : Conditions) (connective : Connective) (fragment more : String) :
    (c.add connective fragment).append more = c.add connective (fragment ++ more) := by
  simp only [add, append, Text.lengthenLast_concat]
  split
  · rfl
  · rw [String.append_assoc]

end Conditions

theorem FromClause.addJoin_append (c : FromClause) (join more : String) :
    (c.addJoin join).append more = c.addJoin (join ++ more) := by
  have lengthened (e : FromEntry) :
      FromEntry.lengthen { e with joins := e.joins ++ [join] } more =
        { e with joins := e.joins ++ [join ++ more] } := by
    simp [FromEntry.lengthen, Text.lengthenLast_concat]
  simp only [addJoin, append]
  rcases List.eq_nil_or_concat' c.entries with tableless | ⟨front, last, entries⟩
  · rw [tableless]
    exact congrArg (fun e => mk [e]) (lengthened ⟨"", []⟩)
  · simp only [entries, changeLast_concat, lengthened]

namespace Join

theorem conditionText_ne_empty {condition : String} (spoken : Text.trimStart condition ≠ "") :
    conditionText condition ≠ "" := by
  simp only [conditionText]
  split
  · exact spoken
  · exact fun blank => by simpa using congrArg String.toList blank

theorem text_append (kind table more : String) {condition : String} (spoken : condition ≠ "") :
    text kind table condition ++ more = text kind table (condition ++ more) := by
  have longer : condition ++ more ≠ "" := fun blank => spoken (String.append_eq_empty_iff.mp blank).1
  simp only [text, String.isEmpty_iff, spoken, longer, ↓reduceIte, String.append_assoc]

end Join

namespace Registry

variable (r : Registry) {r' : Registry}

theorem extend_later (fragment : String) (value : Inline Embedded) :
    r.extend fragment (some value) = (fragment ++ (r.extend "" (some value)).1, (r.extend "" (some value)).2) := by
  by_cases empty : value.isEmptyList <;> simp [extend, empty]

structure Abreast (r r' : Registry) : Prop where
  ordinal : r.ordinal = r'.ordinal
  sequence : r.sequence = r'.sequence

variable {r}

theorem Abreast.nextKey (abreast : r.Abreast r') : r.nextKey = r'.nextKey := by
  rw [Registry.nextKey, Registry.nextKey, abreast.ordinal, abreast.sequence]

theorem Abreast.carry (abreast : r.Abreast r') (e : Effect Embedded) : (r.carry e).Abreast (r'.carry e) := by
  cases e with
  | generate value type => exact ⟨abreast.ordinal, congrArg Key.sequence abreast.nextKey⟩
  | reset => exact ⟨abreast.ordinal, rfl⟩
  | _ => exact ⟨abreast.ordinal, abreast.sequence⟩

theorem Abreast.stores (abreast : r.Abreast r') (e : Effect Embedded) : r.stores e = r'.stores e := by
  cases e with
  | generate value type => exact congrArg (fun key => [key.text]) abreast.nextKey
  | _ => rfl

theorem Abreast.storesAll (abreast : r.Abreast r') (es : List (Effect Embedded)) :
    r.storesAll es = r'.storesAll es := by
  induction es generalizing r r' with
  | nil => rfl
  | cons e rest ih => rw [Registry.storesAll, Registry.storesAll, abreast.stores, ih (abreast.carry e)]

theorem Abreast.inlineEach (abreast : r.Abreast r') (type : Option ParamType) (vs : List Value) :
    (inlineEach type vs r).1 = (inlineEach type vs r').1 := by
  induction vs generalizing r r' with
  | nil => rfl
  | cons v rest ih =>
    have here : (r.inlineScalar v type).1 = (r'.inlineScalar v type).1 := congrArg Key.placeholder abreast.nextKey
    exact congrArg₂ List.cons here (ih (abreast.carry (.generate v type)))

theorem Abreast.inline (abreast : r.Abreast r') (value : Inline Embedded) :
    (r.inline value).1 = (r'.inline value).1 := by
  cases value with
  | scalar v type => exact congrArg Key.placeholder abreast.nextKey
  | list vs type => exact congrArg (fun texts => "(" ++ Text.joined ", " texts ++ ")") (abreast.inlineEach type vs)
  | statement e => rfl

theorem Abreast.extend (abreast : r.Abreast r') (fragment : String) (value : Option (Inline Embedded)) :
    (r.extend fragment value).1 = (r'.extend fragment value).1 := by
  cases value with
  | none => rfl
  | some value =>
    by_cases empty : value.isEmptyList <;> simp [Registry.extend, empty, abreast.inline]

theorem Abreast.carry_get? (abreast : r.Abreast r') {e : Effect Embedded} (splices : e.Splices) {key : String}
    (same : r.values.get? key = r'.values.get? key ∨ key ∈ r.stores e) :
    (r.carry e).values.get? key = (r'.carry e).values.get? key := by
  cases e with
  | generate value type =>
    show (r.values.insert r.nextKey.text (.make value type)).get? key =
      (r'.values.insert r'.nextKey.text (.make value type)).get? key
    rw [OrderedMap.get?_insert, OrderedMap.get?_insert, ← abreast.nextKey]
    split
    · rfl
    · exact same.resolve_right fun stored => absurd (List.mem_singleton.mp stored).symm ‹_›
  | absorb e => exact OrderedMap.get?_insertAll_congr same
  | text | table | handOut => exact same.resolve_right List.not_mem_nil
  | bind | unbind | column | clear | reset => cases splices

theorem Abreast.carryAll_get? (abreast : r.Abreast r') {es : List (Effect Embedded)} (splice : ∀ e ∈ es, e.Splices)
    {key : String} (same : r.values.get? key = r'.values.get? key ∨ key ∈ r.storesAll es) :
    (r.carryAll es).values.get? key = (r'.carryAll es).values.get? key := by
  induction es generalizing r r' with
  | nil => exact same.resolve_right List.not_mem_nil
  | cons e rest ih =>
    obtain ⟨here, later⟩ := List.forall_mem_cons.mp splice
    refine ih (abreast.carry e) later ?_
    rcases same with same | stored
    · exact .inl (abreast.carry_get? here (.inl same))
    · exact (List.mem_append.mp stored).imp (fun now => abreast.carry_get? here (.inr now)) id

theorem carryAll_absorb {e : Embedded} {es : List (Effect Embedded)} (splice : ∀ e ∈ es, e.Splices)
    (apart : ∀ key ∈ e.binds.keys, key ∉ r.storesAll es) (key : String) :
    ((r.absorb e.binds).carryAll es).values.get? key = ((r.carryAll es).absorb e.binds).values.get? key := by
  have abreast : r.Abreast (r.absorb e.binds) := ⟨rfl, rfl⟩
  by_cases stored : key ∈ r.storesAll es
  · have absent : key ∉ e.binds.keys := fun held => apart key held stored
    rw [← abreast.carryAll_get? splice (.inr stored)]
    exact (OrderedMap.get?_insertAll_of_absent absent _).symm
  · have additive : ∀ e ∈ es, e.Additive := fun e member => (splice e member).additive
    have sooner := (r.carryAll_extends additive).kept key stored
    have later := ((r.absorb e.binds).carryAll_extends additive).kept key (abreast.storesAll es ▸ stored)
    exact later.trans (OrderedMap.get?_insertAll_congr (.inl sooner.symm))

end Registry

theorem BoundConditions.apply_later (b : BoundConditions) (phrase : Phrase) (value : Inline Embedded) :
    b.apply (phrase.call (some value)) = (b.apply (phrase.call none)).apply (.append "" (some value)) := by
  cases phrase with
  | add connective fragment =>
    simp only [Phrase.call, apply, b.registry.extend_later fragment value, ← Conditions.add_append]
    rfl
  | append text =>
    simp only [Phrase.call, apply, b.registry.extend_later text value, ← Conditions.append_append]
    rfl

theorem Draft.condition_later (d : Draft) (phrase : Phrase) (value : Inline Embedded) :
    d.applyFilter (.condition (phrase.call (some value))) =
      (d.applyFilter (.condition (phrase.call none))).applyFilter (.condition (.append "" (some value))) := by
  simp only [applyFilter, changeConditions, BoundConditions.apply_later _ phrase value]

theorem Draft.having_later (d : Draft) (phrase : Phrase) (value : Inline Embedded) :
    d.changeHaving (·.apply (phrase.call (some value))) =
      (d.changeHaving (·.apply (phrase.call none))).changeHaving (·.apply (.append "" (some value))) := by
  simp only [changeHaving, BoundConditions.apply_later _ phrase value]

namespace Select

variable (s : Select) (kind : String) (source : Source Embedded) {condition : String}

theorem addJoin_registry (value : Option (Inline Embedded)) :
    (s.addJoin kind source condition value).registry =
      (s.registry.carryAll (Inline.effectsOf value)).carryAll source.effects := by
  rw [← s.registry.extend_registry (Join.conditionText condition) value]
  exact Registry.splice_registry _ source

theorem addJoin_tables (value : Option (Inline Embedded)) :
    (s.addJoin kind source condition value).clauses.tables = s.clauses.tables.addJoin
      (Join.text kind (s.registry.splice source).1 (s.registry.extend (Join.conditionText condition) value).1) := by
  cases source <;> rfl

def joinThen (value : Inline Embedded) (condition : String) : Select :=
  (s.addJoin kind source condition none).appendJoin "" (some value)

theorem joinThen_registry (value : Inline Embedded) :
    (s.joinThen kind source value condition).registry =
      (s.registry.carryAll source.effects).carryAll value.effects := by
  refine ((s.addJoin kind source condition none).registry.extend_registry "" (some value)).trans ?_
  rw [s.addJoin_registry]
  rfl

theorem joinThen_tables (value : Inline Embedded) (spoken : Text.trimStart condition ≠ "") :
    (s.joinThen kind source value condition).clauses.tables =
      (s.addJoin kind source condition (some value)).clauses.tables := by
  let bare := s.addJoin kind source condition none
  have abreast : bare.registry.Abreast s.registry := by
    rw [s.addJoin_registry kind source none]
    cases source <;> exact ⟨rfl, rfl⟩
  calc bare.clauses.tables.append (bare.registry.extend "" (some value)).1
    _ = (s.clauses.tables.addJoin (Join.text kind (s.registry.splice source).1 (Join.conditionText condition))).append
          (s.registry.extend "" (some value)).1 := by
      rw [abreast.extend, s.addJoin_tables]
      rfl
    _ = (s.addJoin kind source condition (some value)).clauses.tables := by
      rw [FromClause.addJoin_append, Join.text_append _ _ _ (Join.conditionText_ne_empty spoken), s.addJoin_tables,
        s.registry.extend_later (Join.conditionText condition) value]

-- The join without its value, and then the value: this is the join with its value in all that shows, and
-- only the order of what is bound may be another.
theorem joinThen_eq (value : Inline Embedded) (spoken : Text.trimStart condition ≠ "") :
    s.joinThen kind source value condition =
      { s.addJoin kind source condition (some value) with
        registry := (s.joinThen kind source value condition).registry } :=
  calc s.joinThen kind source value condition
    _ = { s with
          registry := (s.joinThen kind source value condition).registry
          clauses.tables := (s.joinThen kind source value condition).clauses.tables } := rfl
    _ = _ := by rw [s.joinThen_tables kind source value spoken]; rfl

theorem joinThen_get? (e : Embedded) (value : Inline Embedded) (apart : ∀ key ∈ e.binds.keys,
    key ∉ s.registry.storesAll value.effects) (key : String) :
    (s.joinThen kind (.statement e) value condition).registry.values.get? key =
      (s.addJoin kind (.statement e) condition (some value)).registry.values.get? key := by
  rw [s.joinThen_registry, s.addJoin_registry]
  exact Registry.carryAll_absorb value.sited.splice apart key

end Select

namespace Statement

theorem exists_select {st : Statement} (is : st.kind = .select) : ∃ s, st = .select s := by
  cases st <;> first | exact ⟨_, rfl⟩ | cases is

-- In a condition a value may follow in a call of its own and the statement is the same; in a join it renders and
-- binds the same, in another order only if the join is to a statement.
theorem values_may_follow :
    (∀ (clause : ConditionClause) (st : Statement), st.kind = clause.kind →
      ∀ (phrase : Phrase) (value : Inline Embedded), ∃ next,
        st.compose (clause.call (phrase.call (some value))) = some next ∧
        st.composeAll [clause.call (phrase.call none), clause.call (.append "" (some value))] = some next) ∧
    ∀ (st : Statement), st.kind = .select → ∀ (kind : String) (source : Source Embedded) (condition : String),
      Text.trimStart condition ≠ "" → ∀ value : Inline Embedded, ∃ whole split,
        st.compose (.select (.join kind source condition (some value))) = some whole ∧
        st.composeAll [.select (.join kind source condition none), .select (.appendJoin "" (some value))] = some split ∧
        split.sql = whole.sql ∧
        (∀ table, source = .text table → split = whole) ∧
        ∀ e, source = .statement e → (∀ key ∈ e.binds.keys, key ∉ st.registry.storesAll value.effects) →
          ∀ key, split.values.get? key = whole.values.get? key := by
  refine ⟨fun clause st is phrase value => ?conditions, fun st is kind source condition spoken value => ?joins⟩
  case conditions =>
    cases clause with
    | rows k =>
      have later := composeAll_filter is [.condition (phrase.call none), .condition (.append "" (some value))]
      refine ⟨_, compose_filter is _, later.trans ?_⟩
      rw [List.foldl_cons, List.foldl_cons, List.foldl_nil, ← Draft.condition_later]
    | groups =>
      obtain ⟨s, rfl⟩ := exists_select is
      have later := s.toDraft.having_later phrase value
      exact ⟨_, rfl, congrArg (fun d => some (select { s with toDraft := d })) later.symm⟩
  case joins =>
    obtain ⟨s, rfl⟩ := exists_select is
    have same := s.joinThen_eq kind source value spoken
    have shown : (s.joinThen kind source value condition).sql = (s.addJoin kind source condition (some value)).sql := by
      rw [same]
      rfl
    refine ⟨_, _, rfl, rfl, shown, ?text, ?statement⟩
    case text =>
      rintro table rfl
      have registry : (s.joinThen kind (.text table) value condition).registry =
          (s.addJoin kind (.text table) condition (some value)).registry := by
        rw [s.joinThen_registry, s.addJoin_registry]
        rfl
      rw [registry] at same
      exact congrArg select same
    case statement =>
      rintro e rfl apart
      exact s.joinThen_get? kind e value apart

def conditioned : Select :=
  ((Select.new .pgsql "main" 3).apply (.table (.text "t"))).apply
    (.filter (.condition (.add .and "a = " (some (.ofValue (.int 1))))))

theorem values_may_follow_conditioned :
    let st := Statement.select conditioned
    let value : Inline Embedded := .list [.int 8, .int 9] none
    let e : Embedded := ⟨"(SELECT :k) AS u", .ofList [("k", ⟨.int 7, .int⟩)]⟩
    let joins (source : Source Embedded) : List (Call Embedded) :=
      [.select (.join "left" source " t.id IN " none), .select (.appendJoin "" (some value))]
    st.kind = ConditionClause.groups.kind ∧ st.kind = (ConditionClause.rows .select).kind ∧
      Text.trimStart " t.id IN " ≠ "" ∧ (∀ key ∈ e.binds.keys, key ∉ st.registry.storesAll value.effects) ∧
      (∃ next, st.compose (.select (.having (.add .or "n IN " (some value)))) = some next ∧
        st.composeAll [.select (.having (.add .or "n IN " none)), .select (.having (.append "" (some value)))] =
          some next) ∧
      (∃ next, st.compose (.select (.filter (.condition (.append " + " (some value))))) = some next ∧
        st.composeAll [.select (.filter (.condition (.append " + " none))),
          .select (.filter (.condition (.append "" (some value))))] = some next) ∧
      (∃ next, st.compose (.select (.join "left" (.text "u") " t.id IN " (some value))) = some next ∧
        st.composeAll (joins (.text "u")) = some next) ∧
      ∃ whole split, st.compose (.select (.join "left" (.statement e) " t.id IN " (some value))) = some whole ∧
        st.composeAll (joins (.statement e)) = some split ∧ split.sql = whole.sql ∧
        (∀ key, split.values.get? key = whole.values.get? key) ∧
        whole.sql = "SELECT * FROM t LEFT JOIN (SELECT :k) AS u ON t.id IN (:_3_2_, :_3_3_) WHERE a = :_3_1_" ∧
        whole.values.keys = ["_3_1_", "_3_2_", "_3_3_", "k"] ∧
        split.values.keys = ["_3_1_", "k", "_3_2_", "_3_3_"] := by
  intro st value e joins
  have spoken : Text.trimStart " t.id IN " ≠ "" := by decide +kernel
  have apart : ∀ key ∈ e.binds.keys, key ∉ st.registry.storesAll value.effects := by decide +kernel
  obtain ⟨conditions, joined⟩ := values_may_follow
  obtain ⟨next, other, plain, later, _, text, _⟩ := joined st rfl "left" (.text "u") " t.id IN " spoken value
  obtain ⟨whole, split, once, twice, sql, _, statement⟩ :=
    joined st rfl "left" (.statement e) " t.id IN " spoken value
  have shown : (st.compose (.select (.join "left" (.statement e) " t.id IN " (some value)))).map
      (fun whole => (whole.sql, whole.values.keys)) = some
      ("SELECT * FROM t LEFT JOIN (SELECT :k) AS u ON t.id IN (:_3_2_, :_3_3_) WHERE a = :_3_1_",
        ["_3_1_", "_3_2_", "_3_3_", "k"]) := by decide +kernel
  have order : (st.composeAll (joins (.statement e))).map (fun split => split.values.keys) = some
      ["_3_1_", "k", "_3_2_", "_3_3_"] := by decide +kernel
  rw [once, Option.map_some, Option.some.injEq, Prod.mk.injEq] at shown
  rw [twice, Option.map_some, Option.some.injEq] at order
  exact ⟨rfl, rfl, spoken, apart, conditions .groups st rfl (.add .or "n IN ") value,
    conditions (.rows .select) st rfl (.append " + ") value, ⟨next, plain, text _ rfl ▸ later⟩,
    whole, split, once, twice, sql, statement e rfl apart, shown.1, shown.2, order⟩

end Statement

end SqlCompose
