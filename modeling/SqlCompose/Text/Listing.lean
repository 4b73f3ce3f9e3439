namespace SqlCompose.Text

def joined (separator : String) : List String → String
  | [] => ""
  | [item] => item
  | item :: rest => item ++ separator ++ joined separator rest

def listing (glue : String) : List String → String
  | [] => ""
  | items => " " ++ joined (glue ++ " ") items

def lengthenLast (text : String) : List String → List String
  | [] => [text]
  | [last] => [last ++ text]
  | first :: rest => first :: lengthenLast text rest

end SqlCompose.Text
