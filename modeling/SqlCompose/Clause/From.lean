import SqlCompose.Text.Blank
import SqlCompose.Text.Listing
import SqlCompose.Text.Upper

namespace SqlCompose

structure FromEntry where
  table : String
  joins : List String := []
  deriving DecidableEq, Repr, Inhabited

def FromEntry.render (e : FromEntry) : String :=
  Text.trimStart (e.table ++ Text.listing "" e.joins)

def FromEntry.lengthen (e : FromEntry) (text : String) : FromEntry :=
  if e.joins.isEmpty then { e with table := e.table ++ text }
  else { e with joins := Text.lengthenLast text e.joins }

structure FromClause where
  entries : List FromEntry := []
  deriving DecidableEq, Repr, Inhabited

namespace FromClause

def changeLast (f : FromEntry → FromEntry) : List FromEntry → List FromEntry
  | [] => [f ⟨"", []⟩]
  | [last] => [f last]
  | first :: rest => first :: changeLast f rest

def addTable (c : FromClause) (table : String) : FromClause := ⟨c.entries ++ [⟨table, []⟩]⟩

def addJoin (c : FromClause) (join : String) : FromClause :=
  ⟨changeLast (fun e => { e with joins := e.joins ++ [join] }) c.entries⟩

def append (c : FromClause) (text : String) : FromClause :=
  ⟨changeLast (·.lengthen text) c.entries⟩

def clear (_ : FromClause) : FromClause := {}

def render (c : FromClause) : String :=
  match c.entries with
  | [] => ""
  | entries => " FROM" ++ Text.listing "," (entries.map FromEntry.render)

end FromClause

namespace Join

def inner : String := "INNER"

def left : String := "LEFT"

def natural : String := "NATURAL"

def right : String := "RIGHT"

def kindText (kind : String) : String :=
  let upper := Text.toUpper (Text.trim kind)
  if "JOIN".toList.isSuffixOf upper.toList then upper else upper ++ " JOIN"

-- A condition gets ON in front unless it brings ON or USING itself; a blank one stays empty.
def conditionText (condition : String) : String :=
  let trimmed := Text.trimStart condition
  let upper := (Text.toUpper trimmed).toList
  let complete := "ON ".toList.isPrefixOf upper || "USING ".toList.isPrefixOf upper
  if trimmed.isEmpty || complete then trimmed else "ON " ++ trimmed

def text (kind table condition : String) : String :=
  let head := kindText kind ++ " " ++ table
  if condition.isEmpty then head else head ++ " " ++ condition

end Join

end SqlCompose
