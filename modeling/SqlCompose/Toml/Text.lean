import SqlCompose.Text.Hex

namespace SqlCompose.Toml
open Text (hexNumber?)

def isSpace (c : Char) : Bool := c == ' ' || c == '\t'

def skipSpaces (s : List Char) : List Char := s.dropWhile isSpace

def isControl (c : Char) : Bool := (c.toNat < 0x20 && c != '\t') || c.toNat == 0x7f

def shortEscape? : Char → Option Char
  | 'b' => some '\x08'
  | 't' => some '\t'
  | 'n' => some '\n'
  | 'f' => some '\x0c'
  | 'r' => some '\r'
  | 'e' => some '\x1b'
  | '"' => some '"'
  | '\\' => some '\\'
  | _ => none

def scalar? (digits : List Char) : Option Char := do
  let n ← hexNumber? digits
  if n.isValidChar then some (Char.ofNat n) else none

def prepend (c : Char) : Option (List Char × List Char) → Option (List Char × List Char) :=
  Option.map fun (text, rest) => (c :: text, rest)

def readBasic : List Char → Option (List Char × List Char)
  | [] => none
  | '"' :: rest => some ([], rest)
  | '\\' :: 'x' :: a :: b :: rest => do prepend (← scalar? [a, b]) (readBasic rest)
  | '\\' :: 'u' :: a :: b :: c :: d :: rest => do
    prepend (← scalar? [a, b, c, d]) (readBasic rest)
  | '\\' :: 'U' :: a :: b :: c :: d :: e :: f :: g :: h :: rest => do
    prepend (← scalar? [a, b, c, d, e, f, g, h]) (readBasic rest)
  | '\\' :: c :: rest => do prepend (← shortEscape? c) (readBasic rest)
  | c :: rest => if isControl c || c == '\\' then none else prepend c (readBasic rest)

def readLiteral : List Char → Option (List Char × List Char)
  | [] => none
  | '\'' :: rest => some ([], rest)
  | c :: rest => if isControl c then none else prepend c (readLiteral rest)

def endsLine (s : List Char) : Bool :=
  match skipSpaces s with
  | '\n' :: _ => true
  | '\r' :: '\n' :: _ => true
  | _ => false

-- Lines within three quotes; up to two more quotes may stand before the closing ones. While folding, after a
-- backslash at the end of a line, blanks and line ends are left out.
def readLines (folding : Bool) : List Char → Option (List Char × List Char)
  | [] => none
  | '"' :: '"' :: '"' :: '"' :: '"' :: rest => some (['"', '"'], rest)
  | '"' :: '"' :: '"' :: '"' :: rest => some (['"'], rest)
  | '"' :: '"' :: '"' :: rest => some ([], rest)
  | '\r' :: '\n' :: rest =>
    if folding then readLines true rest else prepend '\r' (prepend '\n' (readLines false rest))
  | '\n' :: rest => if folding then readLines true rest else prepend '\n' (readLines false rest)
  | '\\' :: 'x' :: a :: b :: rest => do prepend (← scalar? [a, b]) (readLines false rest)
  | '\\' :: 'u' :: a :: b :: c :: d :: rest => do
    prepend (← scalar? [a, b, c, d]) (readLines false rest)
  | '\\' :: 'U' :: a :: b :: c :: d :: e :: f :: g :: h :: rest => do
    prepend (← scalar? [a, b, c, d, e, f, g, h]) (readLines false rest)
  | '\\' :: rest =>
    if endsLine rest then readLines true rest
    else
      match rest with
      | c :: rest => do prepend (← shortEscape? c) (readLines false rest)
      | [] => none
  | c :: rest =>
    if isControl c then none
    else if folding && isSpace c then readLines true rest
    else prepend c (readLines false rest)

def readLiteralLines : List Char → Option (List Char × List Char)
  | [] => none
  | '\'' :: '\'' :: '\'' :: '\'' :: '\'' :: rest => some (['\'', '\''], rest)
  | '\'' :: '\'' :: '\'' :: '\'' :: rest => some (['\''], rest)
  | '\'' :: '\'' :: '\'' :: rest => some ([], rest)
  | '\r' :: '\n' :: rest => prepend '\r' (prepend '\n' (readLiteralLines rest))
  | '\n' :: rest => prepend '\n' (readLiteralLines rest)
  | c :: rest => if isControl c then none else prepend c (readLiteralLines rest)

def dropFirstLineEnd : List Char → List Char
  | '\n' :: rest => rest
  | '\r' :: '\n' :: rest => rest
  | s => s

def readString : List Char → Option (List Char × List Char)
  | '"' :: '"' :: '"' :: rest => readLines false (dropFirstLineEnd rest)
  | '"' :: rest => readBasic rest
  | '\'' :: '\'' :: '\'' :: rest => readLiteralLines (dropFirstLineEnd rest)
  | '\'' :: rest => readLiteral rest
  | _ => none

def isBare (c : Char) : Bool := c.isAlphanum || c == '_' || c == '-'

def readBare (s : List Char) : Option (List Char × List Char) :=
  match s.takeWhile isBare with
  | [] => none
  | key => some (key, s.dropWhile isBare)

def readKey : List Char → Option (List Char × List Char)
  | '"' :: rest => readBasic rest
  | '\'' :: rest => readLiteral rest
  | s => readBare s

def readKeys : (most : Nat) → List Char → Option (List String × String × List Char)
  | 0, _ => none
  | most + 1, s => do
    let (key, rest) ← readKey s
    match skipSpaces rest with
    | '.' :: rest =>
      let (path, last, rest) ← readKeys most (skipSpaces rest)
      some (String.ofList key :: path, last, rest)
    | rest => some ([], String.ofList key, rest)

def maxKeys : Nat := 80

def readPath (s : List Char) : Option (List String × String × List Char) := readKeys maxKeys s

end SqlCompose.Toml
