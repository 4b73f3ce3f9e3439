import SqlCompose.Text.Numeral

namespace SqlCompose.Placeholder
open Text (spanDigits)

def isNameChar (c : Char) : Bool := c.isAlphanum || c == '_'

-- As drivers find it: a colon with the longest run of letters, digits and underscores.
def read : List Char → Option (List Char × List Char)
  | ':' :: rest =>
    match rest.takeWhile isNameChar with
    | [] => none
    | name => some (name, rest.dropWhile isNameChar)
  | _ => none

def readGenerated : List Char → Option (List Char)
  | '_' :: rest =>
    match spanDigits rest with
    | (ordinal, '_' :: rest) =>
      match spanDigits rest with
      | (sequence, '_' :: _) =>
        if ordinal.isEmpty || sequence.isEmpty then none
        else some ('_' :: ordinal ++ '_' :: sequence ++ ['_'])
      | _ => none
    | _ => none
  | _ => none

def isGenerated (key : String) : Bool := readGenerated key.toList == some key.toList

def generatedIn : List Char → List String
  | [] => []
  | c :: rest =>
    match if c = ':' then readGenerated rest else none with
    | some key => String.ofList key :: generatedIn rest
    | none => generatedIn rest

end SqlCompose.Placeholder
