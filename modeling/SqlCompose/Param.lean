import SqlCompose.Diagnostic
import SqlCompose.Text.Upper
import SqlCompose.Value

namespace SqlCompose

inductive ParamType where
  | null
  | int
  | str
  | bool
  deriving DecidableEq, Repr, Inhabited

structure UnknownParamType where
  given : String
  deriving DecidableEq, Repr

def UnknownParamType.diagnostic (e : UnknownParamType) : Diagnostic where
  message := some ("Unknown parameter type: " ++ e.given)
  code := "mapper_statement::param_type"
  help := "Use one of null, int, str or bool (PDO codes 0, 1, 2, 5)"

namespace ParamType

def all : List ParamType := [null, int, str, bool]

def name : ParamType → String
  | null => "null"
  | int => "int"
  | str => "str"
  | bool => "bool"

def code : ParamType → Int
  | null => 0
  | int => 1
  | str => 2
  | bool => 5

-- Floats travel as text, since a driver may not keep their digits.
def infer : Value → ParamType
  | .null => null
  | .bool _ => bool
  | .int _ => int
  | .float _ => str
  | .str _ => str

def ofExactName? (s : String) : Option ParamType := all.find? (·.name == s)

def ofName? (s : String) : Option ParamType :=
  match Text.toLowerAscii s with
  | "integer" => some int
  | "string" => some str
  | "boolean" => some bool
  | lower => ofExactName? lower

def parse (s : String) : Except UnknownParamType ParamType :=
  match ofName? s with
  | some t => .ok t
  | none => .error ⟨s⟩

def ofCode (n : Int) : Except UnknownParamType ParamType :=
  match all.find? (·.code == n) with
  | some t => .ok t
  | none => .error ⟨Text.signedNumeral n⟩

theorem ofExactName?_name (t : ParamType) : ofExactName? t.name = some t := by cases t <;> rfl

end ParamType

structure Param where
  value : Value
  type : ParamType
  deriving DecidableEq, Repr, Inhabited

namespace Param

def make (value : Value) (type : Option ParamType) : Param :=
  ⟨value, type.getD (ParamType.infer value)⟩

def same (p q : Param) : Bool := p.value.same q.value && p.type == q.type

end Param

end SqlCompose
