import SqlCompose.Dialect
import SqlCompose.Json.Number
import SqlCompose.Json.Reader
import SqlCompose.Param

namespace SqlCompose.Json

namespace Tree

def null? : Tree → Option Value
  | .null => some .null
  | _ => none

def bool? : Tree → Option Value
  | .bool b => some (.bool b)
  | _ => none

def int? : Tree → Option Value
  | .number l => l.word?.map .int
  | _ => none

def float? : Tree → Option Value
  | .number l => l.double?.map .float
  | _ => none

def str? : Tree → Option Value
  | .string units => (text? units).map .str
  | _ => none

-- Tried in this order, which decides for the integers alone: they are floats too.
def variants : List (Tree → Option Value) := [null?, bool?, int?, float?, str?]

def value? (t : Tree) : Option Value := variants.findSome? (· t)

theorem value?_eq (t : Tree) :
    t.value? =
      match t with
      | .null => some .null
      | .bool b => some (.bool b)
      | .number l => l.value?
      | .string units => (text? units).map .str
      | .array _ | .object _ => none := by
  cases t with
  | null | bool | array | object => rfl
  | number l =>
    show ([none, none, l.word?.map .int, l.double?.map .float, none] : List (Option Value)).findSome? id = l.value?
    rw [Literal.value?]
    cases l.word? with
    | none => cases l.double? <;> rfl
    | some i => rfl
  | string units =>
    show ([none, none, none, none, (text? units).map .str] : List (Option Value)).findSome? id = (text? units).map .str
    cases text? units <;> rfl

def name? : Tree → Option String
  | .string units => text? units
  | .object [(units, .null)] => text? units
  | _ => none

def paramType? (t : Tree) : Option ParamType := t.name?.bind ParamType.ofExactName?

def dialect? (t : Tree) : Option Dialect := t.name?.bind Dialect.ofExactName?

def field? (fields : List (String × Tree)) (name : String) : Option Tree :=
  match fields.filter (·.1 == name) with
  | [(_, t)] => some t
  | _ => none

def param? : Tree → Option Param
  | .object fields => do
    let fields ← fields.mapM fun (units, t) => (text? units).map (·, t)
    let value ← (← field? fields "value").value?
    let type ← (← field? fields "param_type").paramType?
    some ⟨value, type⟩
  | .array [value, type] => do
    let value ← value.value?
    let type ← type.paramType?
    some ⟨value, type⟩
  | _ => none

end Tree

def readValue (s : String) : Option Value := (read s).bind Tree.value?

def readParamBy (read : String → Option Tree) (s : String) : Option Param := (read s).bind Tree.param?

def readParam (s : String) : Option Param := readParamBy read s

def readParamType (s : String) : Option ParamType := (read s).bind Tree.paramType?

def readDialect (s : String) : Option Dialect := (read s).bind Tree.dialect?

end SqlCompose.Json
