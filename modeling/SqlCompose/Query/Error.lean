import SqlCompose.Config.Error

namespace SqlCompose

inductive QueryError where
  | unknownOperation (name : String)
  | connection (reason : String)
  | config (cause : ConfigError)
  deriving DecidableEq, Repr

def QueryError.diagnostic : QueryError → Diagnostic
  | .unknownOperation name =>
    ⟨some ("Unknown method: [" ++ name ++ "]"), "mapper_query::unknown_operation",
      "Use one of the fetch* or yield* operations, e.g. fetchAll or yieldPairs"⟩
  | .connection reason =>
    ⟨some ("Connection error: " ++ reason), "mapper_query::connection",
      "Check that the database is reachable and the statement is valid for the driver"⟩
  | .config cause => cause.diagnostic

end SqlCompose
