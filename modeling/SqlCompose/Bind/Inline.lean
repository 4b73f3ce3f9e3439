import SqlCompose.Bind.Map

namespace SqlCompose

-- Rendered SQL of a statement with the values it binds: in the end every reference ρ of a call is one.
structure Embedded where
  sql : String
  binds : BindMap
  deriving DecidableEq, Repr, Inhabited

inductive Inline (ρ : Type) where
  | scalar (value : Value) (type : Option ParamType)
  | list (values : List Value) (type : Option ParamType)
  | statement (s : ρ)
  deriving DecidableEq, Repr

inductive Source (ρ : Type) where
  | text (sql : String)
  | statement (s : ρ)
  deriving DecidableEq, Repr

inductive Criterion (ρ : Type) where
  | raw (fragment : String)
  | column (name : String) (value : Inline ρ)
  deriving DecidableEq, Repr

namespace Inline

variable {ρ : Type}

def ofValue (v : Value) : Inline ρ := .scalar v none

def withType (type : ParamType) : Inline ρ → Inline ρ
  | .scalar v _ => .scalar v (some type)
  | .list vs _ => .list vs (some type)
  | .statement s => .statement s

def isEmptyList : Inline ρ → Bool
  | .list [] _ => true
  | _ => false

end Inline

end SqlCompose
