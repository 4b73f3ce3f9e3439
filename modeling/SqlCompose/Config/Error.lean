import SqlCompose.Diagnostic
import SqlCompose.Text.Numeral

namespace SqlCompose

inductive ConfigError where
  | invalidPerPage (n : UInt64)
  | emptyDriver
  | unreadableDocument
  | inaccessibleFile
  deriving DecidableEq, Repr

def ConfigError.diagnostic : ConfigError → Diagnostic
  | .invalidPerPage n =>
    ⟨some ("Invalid per_page value: " ++ Text.numeral n.toNat), "mapper_config::invalid_per_page",
      "per_page must be greater than zero"⟩
  | .emptyDriver =>
    ⟨some "Database driver must not be empty", "mapper_config::empty_driver",
      "Set driver to one of mysql, pgsql, sqlite or sqlsrv"⟩
  | .unreadableDocument =>
    ⟨none, "mapper_config::toml_deserialize", "Check your mapper.toml syntax and structure"⟩
  | .inaccessibleFile =>
    ⟨none, "mapper_config::io", "Check file permissions and that the config path exists"⟩

end SqlCompose
