import SqlCompose.Proofs.Latest
import SqlCompose.Proofs.Maps

namespace SqlCompose.OrderedMap

open Log (latest? since)

variable {κ α : Type} [DecidableEq κ]

def held? (key : κ) (e : κ × α) : Option α := if e.1 = key then some e.2 else none

theorem ofList_append (es more : List (κ × α)) : ofList (es ++ more) = (ofList es).insertAll more :=
  List.foldl_append ..

theorem nodup_ofList (es : List (κ × α)) : (ofList es).keys.Nodup := nodup_insertAll List.nodup_nil

theorem get?_ofList (es : List (κ × α)) (key : κ) : (ofList es).get? key = latest? (held? key) es := by
  induction es using List.reverseRecOn with
  | nil => rfl
  | append_singleton earlier e ih =>
    have stored : ofList (earlier ++ [e]) = (ofList earlier).insert e.1 e.2 := ofList_append earlier [e]
    rw [stored, get?_insert, ih, Log.latest?_concat, held?]
    split <;> rfl

theorem keys_ofList (es : List (κ × α)) : (ofList es).keys = (es.map Prod.fst).eraseDups := by
  induction es using List.reverseRecOn with
  | nil => rfl
  | append_singleton earlier e ih =>
    have stored : ofList (earlier ++ [e]) = (ofList earlier).insert e.1 e.2 := ofList_append earlier [e]
    rw [stored, keys_insert, ih, List.map_append, List.eraseDups_append]
    by_cases present : e.1 ∈ earlier.map Prod.fst <;> simp [present, List.removeAll, List.eraseDups_cons]

def change (m : OrderedMap κ α) (c : κ × Option α) : OrderedMap κ α :=
  match c.2 with
  | some value => m.insert c.1 value
  | none => m.erase c.1

def changeAll (m : OrderedMap κ α) (changes : List (κ × Option α)) : OrderedMap κ α := changes.foldl change m

def stored? (key : κ) (c : κ × Option α) : Option α := if c.1 = key then c.2 else none

def erases (key : κ) (c : κ × Option α) : Bool := c.1 = key ∧ c.2.isNone

theorem changeAll_append (m : OrderedMap κ α) (changes more : List (κ × Option α)) :
    m.changeAll (changes ++ more) = (m.changeAll changes).changeAll more := List.foldl_append ..

theorem nodup_changeAll {m : OrderedMap κ α} (nodup : m.keys.Nodup) (changes : List (κ × Option α)) :
    (m.changeAll changes).keys.Nodup := by
  induction changes generalizing m with
  | nil => exact nodup
  | cons c rest ih =>
    obtain ⟨key, value⟩ := c
    cases value with
    | some value => exact ih (nodup_insert nodup)
    | none => exact ih (nodup_erase nodup)

theorem get?_change_of_ne (m : OrderedMap κ α) {c : κ × Option α} {key : κ} (other : c.1 ≠ key) :
    (m.change c).get? key = m.get? key := by
  obtain ⟨k, value⟩ := c
  cases value with
  | some value => exact (get?_insert m k key value).trans (if_neg other)
  | none => exact get?_erase_of_ne m other

theorem get?_changeAll_of_absent {changes : List (κ × Option α)} {key : κ} (absent : key ∉ changes.map Prod.fst)
    (m : OrderedMap κ α) : (m.changeAll changes).get? key = m.get? key := by
  induction changes generalizing m with
  | nil => rfl
  | cons c rest ih =>
    obtain ⟨different, absent⟩ := not_or.mp (mt List.mem_cons.mpr absent)
    exact (ih absent (m.change c)).trans (m.get?_change_of_ne (Ne.symm different))

-- A key holds what was stored for it last, unless it has been erased since.
theorem get?_changeAll (changes : List (κ × Option α)) (key : κ) :
    ((empty : OrderedMap κ α).changeAll changes).get? key = latest? (stored? key) (since (erases key) changes) := by
  induction changes using List.reverseRecOn with
  | nil => rfl
  | append_singleton earlier c ih =>
    obtain ⟨other, value⟩ := c
    rw [changeAll_append, Log.since_concat]
    by_cases same : other = key
    · subst same
      cases value with
      | some value =>
        have stored := get?_insert ((empty : OrderedMap κ α).changeAll earlier) other other value
        simpa [changeAll, change, erases, stored?] using stored
      | none =>
        have erased : (((empty : OrderedMap κ α).changeAll earlier).erase other).get? other = none :=
          get?_erase_self (nodup_changeAll (m := empty) List.nodup_nil earlier)
        simpa [changeAll, change, erases] using erased
    · have kept : (((empty : OrderedMap κ α).changeAll earlier).change (other, value)).get? key =
          ((empty : OrderedMap κ α).changeAll earlier).get? key := get?_change_of_ne _ same
      rw [ih] at kept
      simpa [changeAll, erases, stored?, same] using kept

end SqlCompose.OrderedMap
