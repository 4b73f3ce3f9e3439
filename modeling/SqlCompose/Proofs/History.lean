import SqlCompose.Proofs.Effects
import SqlCompose.Session.Step

namespace SqlCompose

structure Birth where
  key : Key
  param : Param
  around : List BindMap
  deriving DecidableEq, Repr

inductive Event where
  | registered (ordinal : UInt64)
  | generated (birth : Birth)
  | restarted (ordinal : UInt64)
  deriving DecidableEq, Repr

namespace Event

def ordinal? : Event → Option UInt64
  | .registered ordinal => some ordinal
  | _ => none

def birth? : Event → Option Birth
  | .generated birth => some birth
  | _ => none

end Event

namespace Registry

def note (r : Registry) (around : List BindMap) : Effect Embedded → List Event
  | .generate value type => [.generated ⟨r.nextKey, .make value type, r.values :: around⟩]
  | .reset => [.restarted r.ordinal]
  | _ => []

def recount (r : Registry) (around : List BindMap) (past : List Event) :
    List (Effect Embedded) → List Event
  | [] => past
  | e :: rest => (r.carry e).recount around (r.note around e ++ past) rest

end Registry

-- A history takes the steps of its session and only keeps notes of them.
structure History where
  session : Session
  past : List Event := []
  held : List Embedded := []
  deriving DecidableEq, Repr

abbrev Recorded := StateT History (Except Fault)

namespace History

def start (s : Session) : History := { session := s }

def ordinals (h : History) : List UInt64 := h.past.filterMap Event.ordinal?

def births (h : History) : List Birth := h.past.filterMap Event.birth?

def statements (h : History) : List Statement := h.session.slots.values.map Slot.statement

def maps (h : History) : List BindMap :=
  h.statements.map Statement.values ++ h.held.map Embedded.binds

def elsewhere (h : History) (name : String) : List BindMap :=
  ((h.session.slots.erase name).values.map Slot.statement).map Statement.values ++
    h.held.map Embedded.binds

def statement? (h : History) (name : String) : Option Statement :=
  (h.session.slots.get? name).map Slot.statement

def clonedFor (h : History) : Reference → List Event
  | .cloneOf name =>
    match h.statement? name with
    | some st => [.registered (h.session.drawFrom st.registry.counter).1]
    | none => []
  | _ => []

def render (ref : Reference) : Recorded Embedded := fun h =>
  match Session.render ref h.session with
  | .error e => .error e
  | .ok (e, s) => .ok (e, ⟨s, h.clonedFor ref ++ h.past, e :: h.held⟩)

def perform (name : String) (call : Call Embedded) : Recorded Reply := fun h =>
  match Session.perform name call h.session with
  | .error e => .error e
  | .ok (reply, s) =>
    let past :=
      match h.statement? name with
      | some st => st.registry.recount (h.elsewhere name) h.past call.effects
      | none => h.past
    .ok (reply, ⟨s, past, h.held⟩)

def madeBy : Command → Option String
  | .create name .. | .subSelect _ name | .clone _ name => some name
  | _ => none

def after (h : History) (c : Command) (reply : Reply) (s : Session) : History where
  session := s
  past :=
    match ((madeBy c).bind s.slots.get?).map Slot.statement with
    | some st => .registered st.registry.ordinal :: h.past
    | none => h.past
  held :=
    match reply with
    | .embedded e => e :: h.held
    | _ => h.held

def step : Command → Recorded Reply
  | .call name call => do
    let call ← call.mapM render
    perform name call
  | c => fun h =>
    match Session.step c h.session with
    | .error e => .error e
    | .ok (reply, s) => .ok (reply, h.after c reply s)

end History

structure Usage where
  counter : String → Prop
  brings : Embedded → Prop
  hands : Statement → Effect Unit → Prop

def Effect.bare {ρ : Type} : Effect ρ → Effect Unit
  | .text s => .text s
  | .column name => .column name
  | .table name => .table name
  | .bind key value type => .bind key value type
  | .unbind key => .unbind key
  | .generate value type => .generate value type
  | .absorb _ => .absorb ()
  | .handOut => .handOut
  | .clear => .clear
  | .reset => .reset

-- Embedded statements that came up before may always be passed on.
def Usage.Keeps (usage : Usage) (h : History) : Command → Prop
  | .create _ _ maker _ => ∀ f, h.session.makerFactory maker = .ok f → usage.counter f.counter
  | .call name call =>
    (∀ st, h.statement? name = some st → ∀ e ∈ call.effects, usage.hands st e.bare) ∧
      ∀ e, .absorb (.rendered e) ∈ call.effects → e ∈ h.held ∨ usage.brings e
  | _ => True

inductive Runs (usage : Usage) (start : History) : List Command → History → Prop where
  | nil : Runs usage start [] start
  | snoc (prior : Runs usage start commands h) (keeps : usage.Keeps h c)
      (taken : History.step c h = .ok (reply, next)) : Runs usage start (commands ++ [c]) next

end SqlCompose
