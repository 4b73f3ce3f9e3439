import SqlCompose.Dialect

namespace SqlCompose.Dialect

def dropPhrase (phrase : String) (s : List Char) : Option (List Char) :=
  if phrase.toList.isPrefixOf s then some (s.drop phrase.length) else none

def readPhrase (phrase : String) (s : List Char) : Option (Nat × List Char) :=
  (dropPhrase phrase s).bind Text.readNumeral

def readOptional (phrase : String) (s : List Char) : Option (Nat × List Char) :=
  match dropPhrase phrase s with
  | some rest => Text.readNumeral rest
  | none => some (0, s)

-- Limit and offset of the texts after SELECT and at the end. None stands for no window that
-- can be read; a limit of 0 is none at all.
def readWindow (d : Dialect) (early late : List Char) : Option (Nat × Nat) :=
  if d = sqlsrv then
    match early, late with
    | [], [] => some (0, 0)
    | early, [] => do
      let (limit, rest) ← readPhrase " TOP " early
      if rest.isEmpty then some (limit, 0) else none
    | [], late => do
      let (offset, rest) ← readPhrase " OFFSET " late
      let (limit, rest) ← readPhrase " ROWS FETCH NEXT " rest
      if rest = " ROWS ONLY".toList then some (limit, offset) else none
    | _, _ => none
  else if early.isEmpty then do
    let (limit, rest) ← readOptional " LIMIT " late
    let (offset, rest) ← readOptional " OFFSET " rest
    if rest.isEmpty then some (limit, offset) else none
  else none

end SqlCompose.Dialect
