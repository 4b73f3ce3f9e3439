import SqlCompose.Proofs.Edits
import SqlCompose.Proofs.Reach
import SqlCompose.Proofs.Sites
import SqlCompose.Proofs.Stability

namespace SqlCompose

open Effect (references)
open Text (Within)

theorem CommonCall.answers_sites {call : CommonCall Embedded} {site : Site Embedded} (r : Registry)
    (member : site ∈ call.sites) : ∃ value, call = .inline value ∧ Within site.text (r.inline value).1 := by
  cases call with
  | inline value => exact ⟨value, rfl, r.inline_sites value site member⟩
  | bind | bindAll | flag => cases member

namespace Statement

def Keeps (st next : Statement) (call : Call Embedded) (part : String) : Prop :=
  next.draft.clauses.Shows part ∨
    ∃ value, call.inlined? = some value ∧ Within part (st.registry.inline value).1

theorem compose_keeps {st next : Statement} {call : Call Embedded} (composed : st.compose call = some next) :
    ∀ site ∈ call.sites, st.Keeps next call site.text := by
  intro site member
  cases composes_of_compose composed with
  | select s call =>
    cases call with
    | common call =>
      obtain ⟨value, rfl, within⟩ := CommonCall.answers_sites s.registry member
      exact .inr ⟨value, rfl, within⟩
    | filter call => exact .inl (s.toDraft.applyFilter_shows call site member)
    | having call =>
      exact .inl (.inr (.inr (.inl (BoundConditions.apply_shows ⟨s.clauses.having, s.registry⟩ call site member))))
    | table source => exact .inl (s.addTable_shows source site member)
    | join kind source condition value =>
      exact .inl (s.addJoin_shows_sites kind source condition value site member)
    | appendJoin text value => exact .inl (s.appendJoin_shows text value site member)
    | _ => cases member
  | insert s call =>
    cases call with
    | common call =>
      obtain ⟨value, rfl, within⟩ := CommonCall.answers_sites s.registry member
      exact .inr ⟨value, rfl, within⟩
    | _ => cases member
  | update s call =>
    cases call with
    | common call =>
      obtain ⟨value, rfl, within⟩ := CommonCall.answers_sites s.registry member
      exact .inr ⟨value, rfl, within⟩
    | filter call => exact .inl (s.toDraft.applyFilter_shows call site member)
    | _ => cases member
  | delete s call =>
    cases call with
    | common call =>
      obtain ⟨value, rfl, within⟩ := CommonCall.answers_sites s.registry member
      exact .inr ⟨value, rfl, within⟩
    | filter call => exact .inl (s.toDraft.applyFilter_shows call site member)
    | _ => cases member

end Statement

def Effect.Additive {ρ : Type} : Effect ρ → Prop
  | .unbind _ | .reset => False
  | _ => True

theorem Effect.Splices.additive {ρ : Type} {e : Effect ρ} (splices : e.Splices) : e.Additive := by
  cases e <;> trivial

namespace Registry

def stores (r : Registry) : Effect Embedded → List String
  | .bind key .. => [key]
  | .generate .. => [r.nextKey.text]
  | .absorb e => e.binds.keys
  | _ => []

def storesAll (r : Registry) : List (Effect Embedded) → List String
  | [] => []
  | e :: rest => r.stores e ++ (r.carry e).storesAll rest

-- Keys keep their places, and their values unless they are stored again.
structure Extends (r r' : Registry) (stored : List String) : Prop where
  order : r.values.keys <+: r'.values.keys
  kept : ∀ key ∉ stored, r'.values.get? key = r.values.get? key

variable {r r' r'' : Registry}

theorem Extends.refl (r : Registry) : r.Extends r [] := ⟨List.prefix_rfl, fun _ _ => rfl⟩

theorem Extends.trans {stored more : List String} (first : r.Extends r' stored) (second : r'.Extends r'' more) :
    r.Extends r'' (stored ++ more) where
  order := first.order.trans second.order
  kept key absent := by
    obtain ⟨here, later⟩ := not_or.mp (mt List.mem_append.mpr absent)
    rw [second.kept key later, first.kept key here]

theorem insert_extends (r : Registry) (sequence : UInt64) (key : String) (p : Param) :
    r.Extends { r with sequence := sequence, values := r.values.insert key p } [key] where
  order := r.values.prefix_insert key p
  kept other absent := by
    rw [OrderedMap.get?_insert, if_neg (Ne.symm (mt List.mem_singleton.mpr absent))]

theorem carry_extends {e : Effect Embedded} (additive : e.Additive) : r.Extends (r.carry e) (r.stores e) := by
  cases e with
  | bind key value type => exact r.insert_extends r.sequence key (.make value type)
  | generate value type => exact r.insert_extends (r.sequence + 1) r.nextKey.text (.make value type)
  | absorb e =>
    exact ⟨r.values.prefix_insertAll _, fun key absent => OrderedMap.get?_insertAll_of_absent absent r.values⟩
  | unbind | reset => cases additive
  | text | column | table | handOut | clear => exact .refl r

theorem carryAll_extends (r : Registry) {es : List (Effect Embedded)} (additive : ∀ e ∈ es, e.Additive) :
    r.Extends (r.carryAll es) (r.storesAll es) := by
  induction es generalizing r with
  | nil => exact .refl r
  | cons e rest ih =>
    obtain ⟨here, later⟩ := List.forall_mem_cons.mp additive
    exact (carry_extends here).trans (ih (r.carry e) later)

end Registry

structure BindMap.Joined (prior incoming joined : BindMap) : Prop where
  merged : joined = prior.merge incoming
  taken : ∀ key p, incoming.get? key = some p → joined.get? key = some p
  kept : ∀ key ∉ incoming.keys, joined.get? key = prior.get? key
  order : joined.keys = prior.keys ++ incoming.keys.filter (· ∉ prior.keys)

theorem BindMap.joined_merge {incoming : BindMap} (once : incoming.keys.Nodup) (prior : BindMap) :
    prior.Joined incoming (prior.merge incoming) where
  merged := rfl
  taken key p found := by rw [OrderedMap.get?_merge once, found]; rfl
  kept key absent := OrderedMap.get?_insertAll_of_absent absent prior
  order := OrderedMap.keys_merge once prior

-- A statement before and after a call that takes in another between other pieces, each of which brings text, a
-- value under a generated key, or one more statement.
structure Statement.TakesIn (st : Statement) (before : List (Effect Embedded)) (e : Embedded)
    (after : List (Effect Embedded)) (next : Statement) : Prop where
  splice : ∀ piece ∈ before ++ after, piece.Splices
  sooner : st.registry.Extends (st.registry.carryAll before) (st.registry.storesAll before)
  joined : (st.registry.carryAll before).values.Joined e.binds ((st.registry.carryAll before).absorb e.binds).values
  later : ((st.registry.carryAll before).absorb e.binds).Extends next.registry
    (((st.registry.carryAll before).absorb e.binds).storesAll after)

theorem Call.splices_of_absorb {call : Call Embedded} {e : Embedded} (member : .absorb e ∈ call.effects) :
    ∀ piece ∈ call.effects, piece.Splices := by
  rcases call.placed with sited | ⟨_, siteless⟩
  · exact sited.splice
  · have referred := History.mem_references.mpr member
    rw [siteless] at referred
    cases referred

theorem Statement.compose_takesIn {st next : Statement} {call : Call Embedded} {e : Embedded}
    {before after : List (Effect Embedded)} (once : e.binds.keys.Nodup) (composed : st.compose call = some next)
    (pieces : call.effects = before ++ .absorb e :: after) : st.TakesIn before e after next := by
  have member : .absorb e ∈ call.effects := pieces ▸ List.mem_append_right _ (List.mem_cons_self ..)
  have splice := call.splices_of_absorb member
  rw [pieces] at splice
  obtain ⟨front, back⟩ := List.forall_mem_append.mp splice
  have rest := (List.forall_mem_cons.mp back).2
  have registry : next.registry = ((st.registry.carryAll before).absorb e.binds).carryAll after := by
    rw [compose_registry composed, pieces, Registry.carryAll_append]
    rfl
  exact ⟨List.forall_mem_append.mpr ⟨front, rest⟩,
    Registry.carryAll_extends _ fun e member => (front e member).additive,
    BindMap.joined_merge once _, registry ▸ Registry.carryAll_extends _ fun e member => (rest e member).additive⟩

def BindMap.mergeAll (maps : List BindMap) : BindMap := maps.foldl .merge .empty

theorem BindMap.foldl_merge {maps : List BindMap} (once : ∀ m ∈ maps, m.keys.Nodup) (prior : BindMap) :
    maps.foldl .merge prior = prior.merge (mergeAll maps) := by
  induction maps generalizing prior with
  | nil => rfl
  | cons m rest ih =>
    obtain ⟨here, later⟩ := List.forall_mem_cons.mp once
    have whole : mergeAll (m :: rest) = m.merge (mergeAll rest) := by
      rw [mergeAll, List.foldl_cons, ih later, OrderedMap.empty_merge here]
    rw [List.foldl_cons, ih later, OrderedMap.merge_assoc here, whole]

theorem BindMap.mergeAll_append {maps more : List BindMap} (once : ∀ m ∈ more, m.keys.Nodup) :
    mergeAll (maps ++ more) = (mergeAll maps).merge (mergeAll more) := by
  rw [mergeAll, List.foldl_append, foldl_merge once]
  rfl

theorem Registry.carryAll_bound {r : Registry} {es : List (Effect Embedded)} (splice : ∀ e ∈ es, e.Splices) :
    r.carryAll (es.filter (·.Binds)) = r.carryAll es := by
  induction es generalizing r with
  | nil => rfl
  | cons e rest ih =>
    obtain ⟨here, later⟩ := List.forall_mem_cons.mp splice
    cases e with
    | generate | absorb => exact ih later
    | text | table | handOut => exact ih later
    | bind | unbind | column | clear | reset => cases here

-- The maps that came together in a statement, in their order: that of the statement itself, or those of two of which
-- one took in the other by a call that bound nothing else.
inductive Nested : Statement → List BindMap → Prop where
  | alone (st : Statement) : Nested st [st.values]
  | embed (outer : Nested st maps) (inner : Nested (.select child) more) (composed : st.compose call = some next)
      (only : call.effects.filter (·.Binds) = [.absorb child.embedded]) : Nested next (maps ++ more)

theorem Nested.table {s child : Select} {maps more : List BindMap} (outer : Nested (.select s) maps)
    (inner : Nested (.select child) more) :
    Nested (.select (s.addTable (.statement child.embedded))) (maps ++ more) :=
  have composed : (Statement.select s).compose (.select (.table (.statement child.embedded))) =
    some (.select (s.addTable (.statement child.embedded))) := rfl
  .embed outer inner composed rfl

theorem Nested.values_eq {st : Statement} {maps : List BindMap} (nested : Nested st maps)
    (once : ∀ m ∈ maps, m.keys.Nodup) : st.values = BindMap.mergeAll maps := by
  induction nested with
  | alone st => exact (OrderedMap.empty_merge (once _ (List.mem_cons_self ..))).symm
  | @embed st maps child more call next _ _ composed only outer inner =>
    obtain ⟨first, second⟩ := List.forall_mem_append.mp once
    have member : .absorb child.embedded ∈ call.effects :=
      (List.mem_filter.mp (only ▸ List.mem_cons_self ..)).1
    have carried := Registry.carryAll_bound (r := st.registry) (call.splices_of_absorb member)
    calc next.values
      _ = (st.registry.carryAll call.effects).values := Statement.compose_values composed
      _ = st.values.merge child.registry.values := by rw [← carried, only]; rfl
      _ = (BindMap.mergeAll maps).merge (BindMap.mergeAll more) := by rw [outer first, ← inner second]; rfl
      _ = BindMap.mergeAll (maps ++ more) := (BindMap.mergeAll_append second).symm

theorem valuesOnce_hereditary : Hereditary .free (fun st => st.values.keys.Nodup) fun _ => True where
  created := (boundOnce_hereditary "").created
  subSelect := (boundOnce_hereditary "").subSelect
  clone := (boundOnce_hereditary "").clone
  embedded _ _ := trivial
  brought _ _ := trivial
  composed st st' call nodup _ _ composed := by
    rw [Statement.compose_values composed]
    exact Registry.carryAll_nodup _ nodup

-- Whatever select a call embeds, its text is kept at its site, and the map of the statement is joined with its map;
-- and joined maps do not depend on which of them were joined first.
theorem embedding_conserves :
    (∀ (start s : Session) (commands : List Command), start.slots = .empty → Session.run start commands = .ok s →
      ∀ (st : Statement) (call : Call Embedded), call.kind = st.kind →
        ∃ next, st.compose call = some next ∧
          references call.effects = call.sites.map Site.statement ∧
          (∀ site ∈ call.sites, st.Keeps next call site.text) ∧
          ∀ child ∈ s.selects,
            (.source child.embedded ∈ call.sites → st.Keeps next call child.sql) ∧
            (.value child.embedded ∈ call.sites → st.Keeps next call ("(" ++ child.sql ++ ")")) ∧
            ∀ before after, call.effects = before ++ .absorb child.embedded :: after →
              st.TakesIn before child.embedded after next ∧
              (st.registry.carryAll before).values.Joined child.registry.values
                ((st.registry.carryAll before).absorb child.registry.values).values) ∧
    (∀ l m n : BindMap, m.keys.Nodup → (l.merge m).merge n = l.merge (m.merge n)) ∧
    (∀ m : BindMap, m.merge .empty = m ∧ (m.keys.Nodup → OrderedMap.empty.merge m = m)) ∧
    ∀ (st st' : Statement) (maps : List BindMap), (∀ m ∈ maps, m.keys.Nodup) → Nested st maps → Nested st' maps →
      st.values = st'.values := by
  refine ⟨?_, fun l m n once => OrderedMap.merge_assoc once l n, fun m => ⟨rfl, OrderedMap.empty_merge⟩,
    fun st st' maps once nested nested' => (nested.values_eq once).trans (nested'.values_eq once).symm⟩
  intro start s commands empty ran st call kind
  obtain ⟨next, composed⟩ := Option.isSome_iff_exists.mp ((st.compose_isSome call).mpr kind.symm)
  have keeps := Statement.compose_keeps composed
  refine ⟨next, composed, call.placed.refer, keeps, fun child stands => ⟨keeps (.source child.embedded),
    keeps (.value child.embedded), fun before after pieces => ?_⟩⟩
  have once : child.embedded.binds.keys.Nodup :=
    valuesOnce_hereditary.reached empty ran _ (Session.mem_selects.mp stands)
  have taken := Statement.compose_takesIn once composed pieces
  exact ⟨taken, taken.joined⟩

def numbered (ordinal : UInt64) (key : String) (n : Int64) : Select :=
  ((Select.new .pgsql "main" ordinal).apply (.common (.bind key (.int n) none))).apply
    (.filter (.condition (.add .and "x = " (some (.ofValue (.int n))))))

def numberedThrice : List Command :=
  [("a", "k", 10), ("b", "k", 20), ("c", "m", 30)].flatMap fun (name, key, n) => [
    .create name .select (.standalone "pgsql" "main") false,
    .call name (.select (.common (.bind key (.int n) none))),
    .call name (.select (.filter (.condition (.add .and "x = " (some (.ofValue (.int n)))))))]

theorem embedding_conserves_numberedThrice :
    let a := numbered 1 "k" 10
    let b := numbered 2 "k" 20
    let c := numbered 3 "m" 30
    let join : Call Embedded := .select (.join "left" (.statement c.embedded) "t.k = " (some (.statement b.embedded)))
    let maps := [a, b, c].map fun sel => sel.registry.values
    ∃ s next, Session.run {} numberedThrice = .ok s ∧ (∀ sel ∈ [a, b, c], sel ∈ s.selects) ∧
      (Statement.select a).compose join = some next ∧
      (∀ site ∈ join.sites, (Statement.select a).Keeps next join site.text) ∧
      (Statement.select a).Keeps next join ("(" ++ b.sql ++ ")") ∧ (Statement.select a).Keeps next join c.sql ∧
      (Statement.select a).TakesIn [.text "left", .text "t.k = "] b.embedded [.absorb c.embedded] next ∧
      a.registry.values.Joined b.registry.values (a.registry.absorb b.registry.values).values ∧
      next.values.entries = [("k", ⟨.int 20, .int⟩), ("_1_1_", ⟨.int 10, .int⟩), ("_2_1_", ⟨.int 20, .int⟩),
        ("m", ⟨.int 30, .int⟩), ("_3_1_", ⟨.int 30, .int⟩)] ∧
      (∀ m ∈ maps, m.keys.Nodup) ∧
      ∃ st st', Nested st maps ∧ Nested st' maps ∧ st.values = st'.values ∧ st.sql ≠ st'.sql := by
  intro a b c join maps
  have reached : Session.Reaches {} numberedThrice fun s => ∀ sel ∈ [a, b, c], sel ∈ s.selects := by decide +kernel
  obtain ⟨s, ran, stand⟩ := reached.exists
  obtain ⟨next, composed, _, keeps, takes⟩ := embedding_conserves.1 {} s _ rfl ran (.select a) join rfl
  obtain ⟨_, inParentheses, takenB⟩ := takes b (stand b (by simp))
  obtain ⟨asTable, _, _⟩ := takes c (stand c (by simp))
  obtain ⟨taken, joined⟩ := takenB [.text "left", .text "t.k = "] [.absorb c.embedded] rfl
  have once : ∀ m ∈ maps, m.keys.Nodup := by decide +kernel
  have values : ((Statement.select a).compose join).map (·.values.entries) = some [("k", ⟨.int 20, .int⟩),
      ("_1_1_", ⟨.int 10, .int⟩), ("_2_1_", ⟨.int 20, .int⟩), ("m", ⟨.int 30, .int⟩), ("_3_1_", ⟨.int 30, .int⟩)] := by
    decide +kernel
  rw [composed] at values
  have deep : Nested (.select (a.addTable (.statement (b.addTable (.statement c.embedded)).embedded))) maps :=
    (Nested.alone (.select a)).table ((Nested.alone (.select b)).table (.alone (.select c)))
  have wide : Nested (.select ((a.addTable (.statement b.embedded)).addTable (.statement c.embedded))) maps :=
    ((Nested.alone (.select a)).table (.alone (.select b))).table (.alone (.select c))
  exact ⟨s, next, ran, stand, composed, keeps, inParentheses (by decide +kernel), asTable (by decide +kernel), taken,
    joined, Option.some.inj values, once, _, _, deep, wide,
    embedding_conserves.2.2.2 _ _ maps once deep wide, by decide +kernel⟩

end SqlCompose
