import SqlCompose.Param
import SqlCompose.Text.Hex

namespace SqlCompose.Json

def escapeChar (c : Char) : List Char :=
  match c with
  | '"' => ['\\', '"']
  | '\\' => ['\\', '\\']
  | '\x08' => ['\\', 'b']
  | '\x0c' => ['\\', 'f']
  | '\n' => ['\\', 'n']
  | '\r' => ['\\', 'r']
  | '\t' => ['\\', 't']
  | c => if c.toNat < 0x20 then '\\' :: 'u' :: Text.hexDigits 4 c.toNat else [c]

def writeString (s : String) : String :=
  String.ofList ('"' :: s.toList.flatMap escapeChar ++ ['"'])

-- Floats have no written form here.
def writeValue? : Value → Option String
  | .null => some "null"
  | .bool b => some (if b then "true" else "false")
  | .int i => some (Text.signedNumeral i.toInt)
  | .float _ => none
  | .str s => some (writeString s)

def writeParam? (p : Param) : Option String :=
  (writeValue? p.value).map fun value =>
    "\x7b\"value\":" ++ value ++ ",\"param_type\":" ++ writeString p.type.name ++ "\x7d"

end SqlCompose.Json
