import SqlCompose.Container.OrderedMap

namespace SqlCompose

structure Counters where
  last : OrderedMap String UInt64 := .empty
  deriving DecidableEq, Repr, Inhabited

namespace Counters

def shared : String := "global"

def current (c : Counters) (name : String) : UInt64 := (c.last.get? name).getD 0

def draw (c : Counters) (name : String) : UInt64 × Counters :=
  let ordinal := c.current name + 1
  (ordinal, ⟨c.last.insert name ordinal⟩)

theorem current_draw (c : Counters) (name other : String) :
    (c.draw name).2.current other =
      if name = other then c.current name + 1 else c.current other := by
  simp only [draw, current, OrderedMap.get?_insert]
  split <;> rfl

end Counters

end SqlCompose
