import SqlCompose.Config.Basic
import SqlCompose.Toml.Reader
import SqlCompose.Toml.Writer

namespace SqlCompose

inductive FileState where
  | missing
  | inaccessible
  | bytes (content : ByteArray)

namespace Config

def defaultPath : String := "mapper.toml"

def path (environment : Option String) : String := environment.getD defaultPath

def driverField (fields : Toml.Fields) : Except ConfigError String :=
  match Toml.lookup "driver" fields with
  | none => .ok ({} : Config).driver
  | some (.string driver) => .ok driver
  | some _ => .error .unreadableDocument

def perPageField (fields : Toml.Fields) : Except ConfigError UInt64 :=
  match Toml.lookup "per_page" fields with
  | none => .ok ({} : Config).perPage
  | some (.integer n) =>
    if 0 ≤ n ∧ n < UInt64.size then .ok (UInt64.ofNat n.toNat) else .error .unreadableDocument
  | some _ => .error .unreadableDocument

def ofToml (read : String → Option Toml.Fields) (text : String) : Except ConfigError Config :=
  match read text with
  | none => .error .unreadableDocument
  | some fields => do
    let driver ← driverField fields
    let perPage ← perPageField fields
    .ok ⟨driver, perPage⟩

def ofFile (read : String → Option Toml.Fields) : FileState → Except ConfigError Config
  | .missing => .ok {}
  | .inaccessible => .error .inaccessibleFile
  | .bytes content =>
    match String.fromUTF8? content with
    | some text => ofToml read text
    | none => .error .inaccessibleFile

def loadBy (read : String → Option Toml.Fields) (file : FileState) (environment : Option String) :
    Except ConfigError Config :=
  (ofFile read file).bind fun c => c.resolve environment

def load (file : FileState) (environment : Option String) : Except ConfigError Config :=
  loadBy Toml.read file environment

def toToml (c : Config) : String :=
  Toml.line "driver" (Toml.writeString c.driver) ++
    Toml.line "per_page" (Text.numeral c.perPage.toNat)

def save (c : Config) : FileState := .bytes c.toToml.toUTF8

end Config

structure Installation where
  config : Option Config := none
  deriving DecidableEq, Repr

namespace Installation

def current (i : Installation) : Config := i.config.getD {}

def init (i : Installation) (file : FileState) (environment : Option String) :
    Installation × Option ConfigError :=
  match Config.load file environment with
  | .ok c => (⟨some c⟩, none)
  | .error e => (i, some e)

end Installation

end SqlCompose
