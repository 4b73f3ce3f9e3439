import SqlCompose.Bind.Inline
import SqlCompose.Bind.Key
import SqlCompose.Text.Listing

namespace SqlCompose

-- The ordinal is drawn from a counter when a registry is made or cloned, so
-- registries on one counter never share one.
structure Registry where
  counter : String
  ordinal : UInt64
  sequence : UInt64 := 0
  values : BindMap := .empty
  deriving DecidableEq, Repr, Inhabited

namespace Registry

def bind (r : Registry) (key : String) (value : Value) (type : Option ParamType) : Registry :=
  { r with values := r.values.insert key (.make value type) }

def bindAll (r : Registry) (entries : List (String × Value)) : Registry :=
  entries.foldl (fun r e => r.bind e.1 e.2 none) r

def unbind (r : Registry) (key : String) : Registry := { r with values := r.values.erase key }

def absorb (r : Registry) (incoming : BindMap) : Registry :=
  { r with values := r.values.merge incoming }

def reset (r : Registry) : Registry := { r with sequence := 0, values := .empty }

def renumber (r : Registry) (ordinal : UInt64) : Registry := { r with ordinal := ordinal }

def nextKey (r : Registry) : Key := ⟨r.ordinal, r.sequence + 1⟩

def inlineScalar (r : Registry) (value : Value) (type : Option ParamType) : String × Registry :=
  let key := r.nextKey
  (key.placeholder, { r with sequence := key.sequence }.bind key.text value type)

def inlineEach (type : Option ParamType) : List Value → Registry → List String × Registry
  | [], r => ([], r)
  | v :: rest, r =>
    let (text, r) := r.inlineScalar v type
    let (texts, r) := inlineEach type rest r
    (text :: texts, r)

-- Binds a value under generated keys, with the SQL text to splice in. A statement is not bound itself: its values
-- are absorbed and its text stands in parentheses.
def inline (r : Registry) : Inline Embedded → String × Registry
  | .scalar v type => r.inlineScalar v type
  | .list vs type =>
    let (texts, r) := inlineEach type vs r
    ("(" ++ Text.joined ", " texts ++ ")", r)
  | .statement e => ("(" ++ e.sql ++ ")", r.absorb e.binds)

def splice (r : Registry) : Source Embedded → String × Registry
  | .text sql => (sql, r)
  | .statement e => (e.sql, r.absorb e.binds)

def extend (r : Registry) (fragment : String) : Option (Inline Embedded) → String × Registry
  | none => (fragment, r)
  | some value =>
    if value.isEmptyList then (fragment, r)
    else
      let (text, r) := r.inline value
      (fragment ++ text, r)

def criterion (r : Registry) : Criterion Embedded → String × Registry
  | .raw fragment => (fragment, r)
  | .column name (.scalar .null _) => (name ++ " IS NULL", r)
  | .column _ (.list [] _) => ("FALSE", r)
  | .column name (.list vs type) =>
    let (text, r) := r.inline (.list vs type)
    (name ++ " IN " ++ text, r)
  | .column name value =>
    let (text, r) := r.inline value
    (name ++ " = " ++ text, r)

end Registry

end SqlCompose
