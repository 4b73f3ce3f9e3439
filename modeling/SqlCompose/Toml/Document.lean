import SqlCompose.Container.OrderedMap

namespace SqlCompose.Toml

-- How a table came to be: by its own header, on the way to another header, on the way to
-- a dotted key, or as an inline value.
inductive Form where
  | header
  | implied
  | dotted
  | inline
  deriving DecidableEq, Repr

inductive Item where
  | string (text : String)
  | integer (n : Int)
  | float
  | boolean (b : Bool)
  | datetime
  | array (items : List Item)
  | table (form : Form) (fields : List (String × Item))
  | tables (rows : List (List (String × Item)))
  deriving Repr

abbrev Fields := List (String × Item)

def lookup (key : String) (fields : Fields) : Option Item := OrderedMap.lookup key fields

def put (key : String) (item : Item) (fields : Fields) : Fields := OrderedMap.put key item fields

-- A key path within one table. Dotted keys make the tables on their way and may extend those that dotted keys have
-- made, but neither inline tables nor tables with a header.
def assign (item : Item) (path : List String) (key : String) (fields : Fields) :
    Option Fields :=
  match path with
  | [] => if (lookup key fields).isSome then none else some (put key item fields)
  | step :: path =>
    match lookup step fields with
    | none => (assign item path key []).map fun sub => put step (.table .dotted sub) fields
    | some (.table .header _) | some (.table .inline _) => none
    | some (.table form sub) =>
      if path.isEmpty && form != .dotted then none
      else (assign item path key sub).map fun sub => put step (.table form sub) fields
    | some (.tables (row :: rows)) =>
      if path.isEmpty then none
      else (assign item path key row).map fun row => put step (.tables (row :: rows)) fields
    | some _ => none

def within (path : List String) (change : Fields → Option Fields) (fields : Fields) :
    Option Fields :=
  match path with
  | [] => change fields
  | step :: path =>
    match lookup step fields with
    | none => (within path change []).map fun sub => put step (.table .implied sub) fields
    | some (.table .inline _) => none
    | some (.table form sub) =>
      (within path change sub).map fun sub => put step (.table form sub) fields
    | some (.tables (row :: rows)) =>
      (within path change row).map fun row => put step (.tables (row :: rows)) fields
    | some _ => none

def openTable (key : String) (fields : Fields) : Option Fields :=
  match lookup key fields with
  | none => some (put key (.table .header []) fields)
  | some (.table .implied sub) => some (put key (.table .header sub) fields)
  | some _ => none

def openRow (key : String) (fields : Fields) : Option Fields :=
  match lookup key fields with
  | none => some (put key (.tables [[]]) fields)
  | some (.tables rows) => some (put key (.tables ([] :: rows)) fields)
  | some _ => none

end SqlCompose.Toml
