import SqlCompose.Config.Error
import SqlCompose.Text.Blank

namespace SqlCompose

structure Config where
  driver : String := "sqlite"
  perPage : UInt64 := 10
  deriving DecidableEq, Repr, Inhabited

namespace Config

def settle (c : Config) (environment : Option String) : Config :=
  { c with driver := Text.trim (environment.getD c.driver) }

def check (c : Config) : Except ConfigError Unit :=
  if c.driver.isEmpty then .error .emptyDriver
  else if c.perPage = 0 then .error (.invalidPerPage c.perPage)
  else .ok ()

def resolve (c : Config) (environment : Option String) : Except ConfigError Config :=
  (c.settle environment).check.map fun _ => c.settle environment

end Config

end SqlCompose
