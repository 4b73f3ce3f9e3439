import SqlCompose.Session.Basic

namespace SqlCompose

abbrev Action := StateT Session (Except Fault)

namespace Session

def find (s : Session) (name : String) : Except Fault Slot :=
  match s.slots.get? name with
  | some slot => .ok slot
  | none => .error (.unknownSlot name)

def store (s : Session) (name : String) (slot : Slot) : Session :=
  { s with slots := s.slots.insert name slot }

def remove (s : Session) (name : String) : Session := { s with slots := s.slots.erase name }

def drawFrom (s : Session) (counter : String) : UInt64 × Session :=
  let (ordinal, counters) := s.counters.draw counter
  (ordinal, { s with counters := counters })

def takeSelect (name : String) : Action Embedded := fun s =>
  match s.find name with
  | .error e => .error e
  | .ok slot =>
    match slot.statement with
    | .select sel => .ok (sel.embedded, s.remove name)
    | _ => .error (.wrongKind name)

-- A query cannot be cloned: its connection is not the session's to copy.
def cloneStatement (name : String) : Action Statement := fun s =>
  match s.find name with
  | .error e => .error e
  | .ok (.query _) => .error (.wrongKind name)
  | .ok (.plain st) =>
    let (ordinal, s) := s.drawFrom st.registry.counter
    .ok (st.renumber ordinal, s)

def render : Reference → Action Embedded
  | .rendered e => pure e
  | .slot name => takeSelect name
  | .cloneOf name => do
    match ← cloneStatement name with
    | .select sel => pure sel.embedded
    | _ => throw (.wrongKind name)

def makerFactory (s : Session) : Maker → Except Fault Factory
  | .standalone driver counter => .ok ((Factory.ofDriver driver).withCounter counter)
  | .connection => .ok (.ofConnection s.driver s.installed)
  | .current =>
    match s.factory with
    | some f => .ok f
    | none => .error .noFactory

def create (name : String) (kind : StatementKind) (maker : Maker) (asQuery : Bool) : Action Unit :=
  fun s => do
    let f ← s.makerFactory maker
    let (ordinal, s) := s.drawFrom f.counter
    let st := f.create kind ordinal
    .ok ((), s.store name (if asQuery then .query st else .plain st))

def perform (name : String) (call : Call Embedded) : Action Reply := fun s => do
  let slot ← s.find name
  let reply :=
    match call.inlined? with
    | some value => .text (slot.statement.registry.inline value).1
    | none => .silent
  match slot.statement.compose call with
  | some st => .ok (reply, s.store name (slot.withStatement st))
  | none => .error (.wrongKind name)

def subSelect (parent name : String) : Action Unit := fun s => do
  match (← s.find parent).statement with
  | .select sel =>
    let (ordinal, s) := s.drawFrom sel.registry.counter
    .ok ((), s.store name (.plain (.select (sel.subSelect ordinal))))
  | _ => .error (.wrongKind parent)

-- References in a call are rendered from left to right before the call itself takes effect.
def step : Command → Action Reply
  | .create name kind maker asQuery => do
    create name kind maker asQuery
    pure .silent
  | .useFactory f => do
    modify fun s => { s with factory := some f }
    pure .silent
  | .call name call => do
    let call ← call.mapM render
    perform name call
  | .subSelect parent name => do
    subSelect parent name
    pure .silent
  | .clone source name => do
    let st ← cloneStatement source
    modify fun s => s.store name (.plain st)
    pure .silent
  | .unbind source name => fun s => do
    match ← s.find source with
    | .query st => .ok (.silent, (s.remove source).store name (.plain st))
    | .plain _ => .error (.wrongKind source)
  | .embed name => .embedded <$> takeSelect name

def run (s : Session) : List Command → Except Fault Session
  | [] => .ok s
  | c :: rest => do
    let (_, s) ← step c s
    run s rest

end Session

end SqlCompose
