import SqlCompose.Bind.Registry

namespace SqlCompose

inductive Connective where
  | and
  | or
  deriving DecidableEq, Repr

def Connective.lead : Connective → String
  | .and => "AND "
  | .or => "OR "

structure Conditions where
  fragments : List String := []
  deriving DecidableEq, Repr, Inhabited

namespace Conditions

def isEmpty (c : Conditions) : Bool := c.fragments.isEmpty

def add (c : Conditions) (connective : Connective) (fragment : String) : Conditions :=
  ⟨c.fragments ++ [if c.isEmpty then fragment else connective.lead ++ fragment]⟩

def append (c : Conditions) (text : String) : Conditions := ⟨Text.lengthenLast text c.fragments⟩

def clear (_ : Conditions) : Conditions := {}

def render (c : Conditions) (keyword : String) : String :=
  if c.isEmpty then "" else " " ++ keyword ++ Text.listing "" c.fragments

end Conditions

inductive ConditionCall (ρ : Type) where
  | add (connective : Connective) (fragment : String) (value : Option (Inline ρ))
  | append (text : String) (value : Option (Inline ρ))
  | reset
  deriving DecidableEq, Repr

structure BoundConditions where
  conditions : Conditions
  registry : Registry
  deriving DecidableEq, Repr

namespace BoundConditions

def apply (b : BoundConditions) : ConditionCall Embedded → BoundConditions
  | .add connective fragment value =>
    let (text, registry) := b.registry.extend fragment value
    ⟨b.conditions.add connective text, registry⟩
  | .append text value =>
    let (text, registry) := b.registry.extend text value
    ⟨b.conditions.append text, registry⟩
  | .reset => { b with conditions := b.conditions.clear }

def addCriterion (b : BoundConditions) (c : Criterion Embedded) : BoundConditions :=
  let (text, registry) := b.registry.criterion c
  ⟨b.conditions.add .and text, registry⟩

def addCriteria (b : BoundConditions) (criteria : List (Criterion Embedded)) : BoundConditions :=
  criteria.foldl addCriterion b

end BoundConditions

end SqlCompose
