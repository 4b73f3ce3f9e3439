import SqlCompose.Bind.Map
import SqlCompose.Query.Error
import SqlCompose.Query.Fetch

namespace SqlCompose

-- α is what performing a statement gives, β what fetching its rows gives.
structure Connection (α β : Type) where
  driver : String
  perform : String → BindMap → Except QueryError α
  fetch : Fetch → String → BindMap → Except QueryError β
  lastInsertId : Option String → Except QueryError String

end SqlCompose
