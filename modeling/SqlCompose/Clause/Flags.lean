import SqlCompose.Text.Listing

namespace SqlCompose

structure Flags where
  names : List String := []
  deriving DecidableEq, Repr, Inhabited

namespace Flags

def contains (f : Flags) (name : String) : Bool := f.names.contains name

def set (f : Flags) (name : String) (on : Bool) : Flags :=
  if on then if f.contains name then f else ⟨f.names ++ [name]⟩
  else ⟨f.names.filter (· != name)⟩

def isEmpty (f : Flags) : Bool := f.names.isEmpty

def clear (_ : Flags) : Flags := {}

def render (f : Flags) : String := Text.listing "" f.names

end Flags

inductive FlagCall where
  | set (name : String) (on : Bool)
  | reset
  deriving DecidableEq, Repr

def Flags.apply (f : Flags) : FlagCall → Flags
  | .set name on => f.set name on
  | .reset => f.clear

end SqlCompose
