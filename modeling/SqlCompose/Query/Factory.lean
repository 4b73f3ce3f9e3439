import SqlCompose.Config.Basic
import SqlCompose.Query.Connection
import SqlCompose.Statement.Basic

namespace SqlCompose

structure Factory where
  dialect : Dialect
  perPage : UInt64 := Paging.standardPerPage
  counter : String := Counters.shared
  deriving DecidableEq, Repr, Inhabited

namespace Factory

def ofDriver (driver : String) : Factory := { dialect := .ofDriver driver }

def ofConfig (config : Config) : Factory :=
  { ofDriver config.driver with perPage := config.perPage }

def ofConnection (driver : String) (installed : Config) : Factory :=
  { ofDriver driver with perPage := installed.perPage }

def withCounter (f : Factory) (counter : String) : Factory := { f with counter := counter }

def withPerPage (f : Factory) (n : UInt64) : Factory := { f with perPage := n }

def create (f : Factory) (kind : StatementKind) (ordinal : UInt64) : Statement :=
  (Statement.new kind f.dialect f.counter ordinal).withDefaultPerPage f.perPage

end Factory

end SqlCompose
