import SqlCompose.Container.OrderedMap
import SqlCompose.Param

namespace SqlCompose

abbrev BindMap := OrderedMap String Param

def BindMap.same (m n : BindMap) : Bool :=
  m.keys == n.keys && (m.values.zip n.values).all fun (p, q) => p.same q

end SqlCompose
