namespace SqlCompose

inductive Fetch where
  | affected
  | all
  | assoc
  | column
  | group
  | object
  | objects
  | one
  | pairs
  | unique
  | value
  | yieldAffected
  | yieldAll
  | yieldAssoc
  | yieldColumn
  | yieldObjects
  | yieldPairs
  | yieldUnique
  deriving DecidableEq, Repr

namespace Fetch

def operations : List Fetch :=
  [affected, all, assoc, column, group, object, objects, one, pairs, unique, value, yieldAffected,
    yieldAll, yieldAssoc, yieldColumn, yieldObjects, yieldPairs, yieldUnique]

def name : Fetch → String
  | affected => "fetchAffected"
  | all => "fetchAll"
  | assoc => "fetchAssoc"
  | column => "fetchColumn"
  | group => "fetchGroup"
  | object => "fetchObject"
  | objects => "fetchObjects"
  | one => "fetchOne"
  | pairs => "fetchPairs"
  | unique => "fetchUnique"
  | value => "fetchValue"
  | yieldAffected => "yieldAffected"
  | yieldAll => "yieldAll"
  | yieldAssoc => "yieldAssoc"
  | yieldColumn => "yieldColumn"
  | yieldObjects => "yieldObjects"
  | yieldPairs => "yieldPairs"
  | yieldUnique => "yieldUnique"

def isYield : Fetch → Bool
  | yieldAffected | yieldAll | yieldAssoc | yieldColumn | yieldObjects | yieldPairs
  | yieldUnique => true
  | _ => false

def ofName? (s : String) : Option Fetch := operations.find? (·.name == s)

-- What a query of its own offers under the name of a method.
def methods : List (String × Fetch) :=
  [("fetch_affected", affected), ("fetch_all", all), ("fetch_assoc", assoc), ("fetch_column", column),
    ("fetch_group", group), ("fetch_object", object), ("fetch_objects", objects), ("fetch_one", one),
    ("fetch_pairs", pairs), ("fetch_unique", unique), ("fetch_value", value), ("yield_affected", yieldAffected),
    ("yield_all", yieldAll), ("yield_assoc", yieldAssoc), ("yield_column", yieldColumn),
    ("yield_objects", yieldObjects), ("yield_pairs", yieldPairs), ("yield_unique", yieldUnique)]

def ofMethod? (method : String) : Option Fetch := methods.lookup method

theorem ofMethod?_of_mem : ∀ m ∈ methods, ofMethod? m.1 = some m.2 := by decide

theorem ofName?_name (op : Fetch) : ofName? op.name = some op := by cases op <;> rfl

theorem name_of_ofName? {s : String} {op : Fetch} (found : ofName? s = some op) : op.name = s := by
  simpa using List.find?_some found

end Fetch

end SqlCompose
