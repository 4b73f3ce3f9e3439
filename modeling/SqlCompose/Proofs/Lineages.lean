import SqlCompose.Proofs.Effects
import SqlCompose.Proofs.Pagination
import SqlCompose.Query.Factory

namespace SqlCompose

open Log (latest?)

def Call.paging? {ρ : Type} : Call ρ → Option PagingCall
  | .select (.filter (.paging c)) | .update (.filter (.paging c)) | .delete (.filter (.paging c)) => some c
  | .select (.union _) | .select .reset | .update .reset | .delete .reset => some .reset
  | _ => none

def Call.defaultPerPage? {ρ : Type} (call : Call ρ) : Option UInt64 := call.paging?.bind PagingCall.defaultPerPage?

def Paging.applyAny (p : Paging) (c : Option PagingCall) : Paging := c.elim p p.apply

theorem Paging.applyAny_default (p : Paging) (c : Option PagingCall) :
    (p.applyAny c).default = (c.bind PagingCall.defaultPerPage?).getD p.default := by
  cases c with
  | none => rfl
  | some c => exact p.apply_default c

theorem Draft.applyCommon_paging (d : Draft) (call : CommonCall Embedded) :
    (d.applyCommon call).clauses.paging = d.clauses.paging := by
  cases call <;> rfl

theorem Draft.applyReturning_paging (d : Draft) (call : ReturningCall) :
    (d.applyReturning call).clauses.paging = d.clauses.paging := by
  cases call <;> rfl

theorem Select.apply_paging (s : Select) (call : SelectCall Embedded) :
    (s.apply call).clauses.paging = s.clauses.paging.applyAny (Call.select call).paging? := by
  cases call with
  | common call => exact s.applyCommon_paging call
  | filter call => cases call <;> rfl
  | _ => rfl

theorem Update.apply_paging (s : Update) (call : UpdateCall Embedded) :
    (s.apply call).clauses.paging = s.clauses.paging.applyAny (Call.update call).paging? := by
  cases call with
  | common call => exact s.applyCommon_paging call
  | filter call => cases call <;> rfl
  | returning call => exact s.applyReturning_paging call
  | _ => rfl

theorem Delete.apply_paging (s : Delete) (call : DeleteCall Embedded) :
    (s.apply call).clauses.paging = s.clauses.paging.applyAny (Call.delete call).paging? := by
  cases call with
  | common call => exact s.applyCommon_paging call
  | filter call => cases call <;> rfl
  | returning call => exact s.applyReturning_paging call
  | _ => rfl

theorem Statement.compose_paging {st st' : Statement} {call : Call Embedded} (composed : st.compose call = some st') :
    st'.paging? = st.paging?.map (·.applyAny call.paging?) := by
  cases Statement.composes_of_compose composed with
  | select s call => exact congrArg some (s.apply_paging call)
  | insert s call => rfl
  | update s call => exact congrArg some (s.apply_paging call)
  | delete s call => exact congrArg some (s.apply_paging call)

-- A statement that goes back to a factory, with the calls that were made on the way, to it
-- and to those it was cloned or made from.
inductive MadeBy (f : Factory) : List (Call Embedded) → Statement → Prop where
  | created (kind : StatementKind) (ordinal : UInt64) : MadeBy f [] (f.create kind ordinal)
  | composed (made : MadeBy f calls st) (composed : st.compose call = some st') : MadeBy f (calls ++ [call]) st'
  | cloned (made : MadeBy f calls st) (ordinal : UInt64) : MadeBy f calls (st.renumber ordinal)
  | subSelect (made : MadeBy f calls (.select sel)) (ordinal : UInt64) :
      MadeBy f calls (.select (sel.subSelect ordinal))

namespace MadeBy

variable {f : Factory} {calls : List (Call Embedded)} {st : Statement}

theorem default (made : MadeBy f calls st) :
    ∀ p ∈ st.paging?, p.default = (latest? Call.defaultPerPage? calls).getD f.perPage := by
  induction made with
  | created kind ordinal => cases kind <;> rintro p ⟨⟩ <;> rfl
  | @composed calls st call st' _ composed ih =>
    intro p shown
    rw [Statement.compose_paging composed] at shown
    obtain ⟨before, there, rfl⟩ := Option.map_eq_some_iff.mp shown
    rw [Paging.applyAny_default, ih before there, Log.latest?_concat]
    show call.defaultPerPage?.getD _ = _
    cases call.defaultPerPage? <;> rfl
  | @cloned calls st _ ordinal ih => cases st <;> exact ih
  | @subSelect calls sel _ ordinal ih =>
    rintro p ⟨⟩
    exact ih sel.clauses.paging rfl

theorem restart {p : Paging} (made : MadeBy f calls st) (shown : st.paging? = some p) :
    p.reset = .new ((latest? Call.defaultPerPage? calls).getD f.perPage) :=
  congrArg Paging.new (made.default p shown)

end MadeBy

theorem Select.subSelect_paging (s : Select) (ordinal : UInt64) :
    (s.subSelect ordinal).clauses.paging = s.clauses.paging.reset := rfl

end SqlCompose
