import SqlCompose.Text.Hex

namespace SqlCompose.Toml

def escapeChar (c : Char) : List Char :=
  match c with
  | '"' => ['\\', '"']
  | '\\' => ['\\', '\\']
  | '\x08' => ['\\', 'b']
  | '\t' => ['\\', 't']
  | '\n' => ['\\', 'n']
  | '\x0c' => ['\\', 'f']
  | '\r' => ['\\', 'r']
  | c =>
    if c.toNat < 0x20 ∨ c.toNat = 0x7f then
      '\\' :: 'u' :: (Text.hexDigits 4 c.toNat).map Char.toUpper
    else [c]

-- Always a basic string. Other writers may take a literal string or one of several lines for quotes, backslashes and
-- line ends: what is proved of saved configurations is proved of them too.
def writeString (s : String) : String :=
  String.ofList ('"' :: s.toList.flatMap escapeChar ++ ['"'])

def line (key value : String) : String := key ++ " = " ++ value ++ "\n"

end SqlCompose.Toml
