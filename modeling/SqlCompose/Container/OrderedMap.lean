namespace SqlCompose

-- Storing under a present key replaces the value where it stands; a key that was
-- erased and stored again goes to the end.
structure OrderedMap (κ α : Type) where
  entries : List (κ × α) := []
  deriving DecidableEq, Repr, Inhabited

namespace OrderedMap

variable {κ α : Type} [DecidableEq κ]

def lookup (key : κ) : List (κ × α) → Option α
  | [] => none
  | (k, a) :: rest => if k = key then some a else lookup key rest

def put (key : κ) (value : α) : List (κ × α) → List (κ × α)
  | [] => [(key, value)]
  | (k, a) :: rest => if k = key then (k, value) :: rest else (k, a) :: put key value rest

def drop (key : κ) : List (κ × α) → List (κ × α)
  | [] => []
  | (k, a) :: rest => if k = key then rest else (k, a) :: drop key rest

def empty : OrderedMap κ α := ⟨[]⟩

def get? (m : OrderedMap κ α) (key : κ) : Option α := lookup key m.entries

def contains (m : OrderedMap κ α) (key : κ) : Bool := (m.get? key).isSome

def insert (m : OrderedMap κ α) (key : κ) (value : α) : OrderedMap κ α := ⟨put key value m.entries⟩

def erase (m : OrderedMap κ α) (key : κ) : OrderedMap κ α := ⟨drop key m.entries⟩

def insertAll (m : OrderedMap κ α) (entries : List (κ × α)) : OrderedMap κ α :=
  entries.foldl (fun m e => m.insert e.1 e.2) m

def ofList (entries : List (κ × α)) : OrderedMap κ α := empty.insertAll entries

def merge (m incoming : OrderedMap κ α) : OrderedMap κ α := m.insertAll incoming.entries

omit [DecidableEq κ] in
def keys (m : OrderedMap κ α) : List κ := m.entries.map Prod.fst

omit [DecidableEq κ] in
def values (m : OrderedMap κ α) : List α := m.entries.map Prod.snd

omit [DecidableEq κ] in
def size (m : OrderedMap κ α) : Nat := m.entries.length

omit [DecidableEq κ] in
def isEmpty (m : OrderedMap κ α) : Bool := m.entries.isEmpty

theorem lookup_put (key other : κ) (value : α) (es : List (κ × α)) :
    lookup other (put key value es) = if key = other then some value else lookup other es := by
  induction es with
  | nil => simp [put, lookup]
  | cons e rest ih =>
    obtain ⟨k, a⟩ := e
    by_cases hk : k = key
    · subst hk; by_cases ho : k = other <;> simp [put, lookup, ho]
    · by_cases ho : k = other
      · subst ho; simp [put, lookup, hk, Ne.symm hk]
      · simp [put, lookup, hk, ho, ih]

theorem keys_put (key : κ) (value : α) (es : List (κ × α)) :
    (put key value es).map Prod.fst =
      if key ∈ es.map Prod.fst then es.map Prod.fst else es.map Prod.fst ++ [key] := by
  induction es with
  | nil => simp [put]
  | cons e rest ih =>
    obtain ⟨k, a⟩ := e
    by_cases hk : k = key
    · simp [put, hk]
    · by_cases hm : key ∈ rest.map Prod.fst <;> simp_all [put, Ne.symm hk]

theorem keys_drop (key : κ) (es : List (κ × α)) :
    (drop key es).map Prod.fst = (es.map Prod.fst).erase key := by
  induction es with
  | nil => rfl
  | cons e rest ih =>
    obtain ⟨k, a⟩ := e
    by_cases hk : k = key
    · simp [drop, hk]
    · simp [drop, hk, ih]

theorem get?_insert (m : OrderedMap κ α) (key other : κ) (value : α) :
    (m.insert key value).get? other = if key = other then some value else m.get? other :=
  lookup_put key other value m.entries

theorem keys_insert (m : OrderedMap κ α) (key : κ) (value : α) :
    (m.insert key value).keys = if key ∈ m.keys then m.keys else m.keys ++ [key] :=
  keys_put key value m.entries

theorem keys_erase (m : OrderedMap κ α) (key : κ) : (m.erase key).keys = m.keys.erase key :=
  keys_drop key m.entries

end OrderedMap

end SqlCompose
