import SqlCompose.Dialect

namespace SqlCompose.Dialect

-- The rest of an identifier after its opening quote: a doubled closing quote is one character.
def scanBody (close : Char) : List Char → Option (List Char × List Char)
  | [] => none
  | [c] => if c = close then some ([], []) else none
  | c :: next :: rest =>
    if c = close then
      if next = close then (scanBody close rest).map fun (name, rest) => (close :: name, rest)
      else some ([], next :: rest)
    else (scanBody close (next :: rest)).map fun (name, rest) => (c :: name, rest)

def scan (d : Dialect) : List Char → Option (List Char × List Char)
  | [] => none
  | c :: rest => if c = d.openQuote then scanBody d.closeQuote rest else none

end SqlCompose.Dialect
