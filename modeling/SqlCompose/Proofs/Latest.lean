import Mathlib.Data.List.DropRight

namespace SqlCompose.Log

variable {α β : Type}

def latest? (tells : α → Option β) (log : List α) : Option β := (log.filterMap tells).getLast?

def since (ends : α → Bool) (log : List α) : List α := log.rtakeWhile fun x => !ends x

@[simp] theorem latest?_nil (tells : α → Option β) : latest? tells [] = none := rfl

@[simp] theorem latest?_concat (tells : α → Option β) (log : List α) (x : α) :
    latest? tells (log ++ [x]) = (tells x).or (latest? tells log) := by
  cases there : tells x <;> simp [latest?, there]

@[simp] theorem since_nil (ends : α → Bool) : since ends [] = [] := by simp [since]

@[simp] theorem since_concat (ends : α → Bool) (log : List α) (x : α) :
    since ends (log ++ [x]) = if ends x then [] else since ends log ++ [x] := by
  cases there : ends x <;> simp [since, there]

theorem latest?_eq_none {tells : α → Option β} {log : List α} :
    latest? tells log = none ↔ ∀ x ∈ log, tells x = none := by
  simp [latest?]

end SqlCompose.Log
