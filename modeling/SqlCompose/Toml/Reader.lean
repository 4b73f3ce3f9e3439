import SqlCompose.Toml.Scalar
import SqlCompose.Toml.Text

namespace SqlCompose.Toml

def readLineEnd : List Char → Option (List Char)
  | [] => some []
  | '\n' :: rest => some rest
  | '\r' :: '\n' :: rest => some rest
  | _ => none

def skipComment (s : List Char) : List Char :=
  match s with
  | '#' :: rest => rest.dropWhile fun c => !isControl c
  | _ => s

def finishLine (s : List Char) : Option (List Char) := readLineEnd (skipComment (skipSpaces s))

def skipBetween (comment : Bool) : List Char → List Char
  | [] => []
  | '\n' :: rest => skipBetween false rest
  | '\r' :: '\n' :: rest => skipBetween false rest
  | '#' :: rest => skipBetween true rest
  | c :: rest =>
    if isSpace c || (comment && !isControl c) then skipBetween comment rest else c :: rest

def between (s : List Char) : List Char := skipBetween false s

def maxDepth : Nat := 80

mutual

-- The fuel is spent on every call; twice the length of the text always suffices.
def readValue : (fuel depth : Nat) → List Char → Option (Item × List Char)
  | 0, _, _ => none
  | fuel + 1, depth, s =>
    match s with
    | '"' :: _ | '\'' :: _ =>
      (readString s).map fun (text, rest) => (.string (String.ofList text), rest)
    | '[' :: rest =>
      if depth < maxDepth then
        (readItems fuel (depth + 1) rest).map fun (items, rest) => (.array items, rest)
      else none
    | '\x7b' :: rest =>
      if depth < maxDepth then
        (readFields fuel (depth + 1) [] rest).map fun (fields, rest) =>
          (.table .inline fields, rest)
      else none
    | _ =>
      let (word, rest) := spanWord s
      (scalarItem? word).map (·, rest)

def readItems : (fuel depth : Nat) → List Char → Option (List Item × List Char)
  | 0, _, _ => none
  | fuel + 1, depth, s =>
    match between s with
    | ']' :: rest => some ([], rest)
    | s => do
      let (item, rest) ← readValue fuel depth s
      match between rest with
      | ',' :: rest =>
        let (items, rest) ← readItems fuel depth rest
        some (item :: items, rest)
      | ']' :: rest => some ([item], rest)
      | _ => none

def readFields : (fuel depth : Nat) → Fields → List Char → Option (Fields × List Char)
  | 0, _, _, _ => none
  | fuel + 1, depth, fields, s =>
    match between s with
    | '\x7d' :: rest => some (fields, rest)
    | s => do
      let (path, key, rest) ← readPath s
      match between rest with
      | '=' :: rest =>
        let (item, rest) ← readValue fuel depth (between rest)
        let fields ← assign item path key fields
        match between rest with
        | ',' :: rest => readFields fuel depth fields rest
        | '\x7d' :: rest => some (fields, rest)
        | _ => none
      | _ => none

end

structure Progress where
  root : Fields := []
  header : List String := []

def readHeader (opening : String → Fields → Option Fields) (p : Progress) (s : List Char) :
    Option (Progress × List Char) := do
  let (path, key, rest) ← readPath (skipSpaces s)
  let root ← within path (opening key) p.root
  some (⟨root, path ++ [key]⟩, rest)

def readAssignment (fuel : Nat) (p : Progress) (s : List Char) :
    Option (Progress × List Char) := do
  let (path, key, rest) ← readPath s
  match rest with
  | '=' :: rest =>
    let (item, rest) ← readValue (2 * fuel + 2) 0 (skipSpaces rest)
    let root ← within p.header (assign item path key) p.root
    some ({ p with root := root }, rest)
  | _ => none

def readExpression (fuel : Nat) (p : Progress) : List Char → Option (Progress × List Char)
  | '[' :: '[' :: rest => do
    let (p, rest) ← readHeader openRow p rest
    match rest with
    | ']' :: ']' :: rest => some (p, rest)
    | _ => none
  | '[' :: rest => do
    let (p, rest) ← readHeader openTable p rest
    match rest with
    | ']' :: rest => some (p, rest)
    | _ => none
  | s => readAssignment fuel p s

def readDocument : Nat → Progress → List Char → Option Fields
  | 0, p, s => if s.isEmpty then some p.root else none
  | fuel + 1, p, s =>
    match skipSpaces s with
    | [] => some p.root
    | s@('\n' :: _) | s@('\r' :: _) | s@('#' :: _) => do
      let rest ← finishLine s
      readDocument fuel p rest
    | s => do
      let (p, rest) ← readExpression fuel p s
      let rest ← finishLine rest
      readDocument fuel p rest

def read (s : String) : Option Fields :=
  match s.toList with
  | '\ufeff' :: rest => readDocument rest.length {} rest
  | rest => readDocument rest.length {} rest

end SqlCompose.Toml
