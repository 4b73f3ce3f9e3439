import SqlCompose.Proofs.Reading
import SqlCompose.Statement.Insert
import SqlCompose.Statement.Update

namespace SqlCompose

namespace Text

def number? (s : String) : Option Nat :=
  match readNumeral s.toList with
  | some (n, []) => some n
  | _ => none

theorem number?_numeral (n : Nat) : number? (numeral n) = some n := by
  have read := readNumeral_numeral n ends_nil
  rw [List.append_nil] at read
  rw [number?, read]

end Text

namespace Value

def number? : Value → Option Int
  | .int i => some i.toInt
  | .str s => (Text.number? s).map Int.ofNat
  | .null | .bool _ | .float _ => none

inductive OfWord (n : UInt64) : Value → Prop where
  | small {i : Int64} (below : n.toNat < 9223372036854775808) (same : i.toInt = n.toNat) : OfWord n (.int i)
  | large (beyond : 9223372036854775808 ≤ n.toNat) : OfWord n (.str (Text.numeral n.toNat))

theorem ofWord_form (n : UInt64) : OfWord n (ofWord n) := by
  unfold ofWord
  split
  · rename_i below
    have bits : n.toInt64.toBitVec.toNat = n.toNat := rfl
    have bound : n.toNat < 9223372036854775808 := below
    exact .small bound (BitVec.toInt_eq_toNat_of_lt (by omega))
  · exact .large (Nat.le_of_not_lt ‹_›)

namespace OfWord

variable {n : UInt64} {v : Value}

theorem text_eq (form : OfWord n v) : v.text = Text.numeral n.toNat := by
  cases form with
  | small below same => exact congrArg Text.signedNumeral same
  | large beyond => rfl

theorem number_eq (form : OfWord n v) : v.number? = some (n.toNat : Int) := by
  cases form with
  | small below same => exact congrArg some same
  | large beyond => exact congrArg (Option.map Int.ofNat) (Text.number?_numeral n.toNat)

theorem int_iff (form : OfWord n v) : (∃ i, v = .int i) ↔ n.toNat < 9223372036854775808 := by
  cases form with
  | small below => exact ⟨fun _ => below, fun _ => ⟨_, rfl⟩⟩
  | large beyond => exact ⟨fun ⟨_, is⟩ => (nomatch is), fun below => absurd beyond (Nat.not_le_of_lt below)⟩

theorem str_iff (form : OfWord n v) : (∃ s, v = .str s) ↔ 9223372036854775808 ≤ n.toNat := by
  cases form with
  | small below => exact ⟨fun ⟨_, is⟩ => (nomatch is), fun beyond => absurd beyond (Nat.not_le_of_lt below)⟩
  | large beyond => exact ⟨fun _ => beyond, fun _ => ⟨_, rfl⟩⟩

theorem infer_eq (form : OfWord n v) : ParamType.infer v = if n.toNat < 9223372036854775808 then .int else .str := by
  cases form with
  | small below => exact (if_pos below).symm
  | large beyond => exact (if_neg (Nat.not_lt_of_le beyond)).symm

end OfWord

theorem text_ofWord_inj {m n : UInt64} : (ofWord m).text = (ofWord n).text ↔ m = n := by
  refine ⟨fun same => ?_, fun same => same ▸ rfl⟩
  rw [(ofWord_form m).text_eq, (ofWord_form n).text_eq] at same
  exact UInt64.toNat_inj.mp (Text.numeral_injective same)

end Value

def Registry.number? (r : Registry) (key : String) : Option Int := (r.values.get? key).bind (·.value.number?)

theorem Registry.number?_bind (r : Registry) (key : String) (v : Value) (type : Option ParamType) :
    (r.bind key v type).number? key = v.number? := by
  rw [number?, bind, OrderedMap.get?_insert, if_pos rfl]
  rfl

def BoundColumns.number? (b : BoundColumns) (column : String) : Option Nat :=
  (b.assignments.get? column).bind Text.number?

theorem BoundColumns.number?_literal (b : BoundColumns) (column text : String) :
    (b.literal column text).number? column = Text.number? text := by
  rw [number?, literal, OrderedMap.get?_insert, if_pos rfl]
  rfl

-- A word keeps its number as the literal of a column, as the value of a column in INSERT and UPDATE, and under a
-- generated key, whatever type is forced on it there.
theorem words_keep_their_number (n : UInt64) :
    (Value.ofWord n).text = Text.numeral n.toNat ∧
      ((∃ i, Value.ofWord n = .int i) ↔ n.toNat < 9223372036854775808) ∧
      ((∃ s, Value.ofWord n = .str s) ↔ 9223372036854775808 ≤ n.toNat) ∧
      Param.make (Value.ofWord n) none = ⟨Value.ofWord n, if n.toNat < 9223372036854775808 then .int else .str⟩ ∧
      (∀ m, Value.ofWord m = Value.ofWord n ↔ m = n) ∧
      (∀ m, (Value.ofWord m).text = (Value.ofWord n).text ↔ m = n) ∧
      (∀ (s : Insert) (c : String) type,
        let set := s.apply (.column (.literal c (Value.ofWord n).text))
        let bound := s.apply (.column (.assign c (some (Value.ofWord n, type))))
        BoundColumns.number? ⟨set.assignments, set.registry⟩ c = some n.toNat ∧
          bound.registry.number? c = some (n.toNat : Int)) ∧
      (∀ (s : Update) (c : String) type,
        let set := s.apply (.column (.literal c (Value.ofWord n).text))
        let bound := s.apply (.column (.assign c (some (Value.ofWord n, type))))
        BoundColumns.number? ⟨set.assignments, set.registry⟩ c = some n.toNat ∧
          bound.registry.number? c = some (n.toNat : Int)) ∧
      ∀ (r : Registry) type,
        (r.inline (.scalar (Value.ofWord n) type)).2.number? r.nextKey.text = some (n.toNat : Int) := by
  have form := Value.ofWord_form n
  have written : Text.number? (Value.ofWord n).text = some n.toNat := by rw [form.text_eq, Text.number?_numeral]
  have literal (b : BoundColumns) (c : String) : (b.literal c (Value.ofWord n).text).number? c = some n.toNat :=
    (b.number?_literal c (Value.ofWord n).text).trans written
  have bound (r : Registry) (key : String) (type : Option ParamType) :
      (r.bind key (Value.ofWord n) type).number? key = some (n.toNat : Int) :=
    (r.number?_bind key (Value.ofWord n) type).trans form.number_eq
  refine ⟨form.text_eq, form.int_iff, form.str_iff, congrArg (Param.mk _) form.infer_eq, fun m => ?values,
    fun m => Value.text_ofWord_inj, fun s c type => ⟨literal _ c, bound _ c type⟩,
    fun s c type => ⟨literal _ c, bound _ c type⟩, fun r type => bound _ _ type⟩
  case values => exact ⟨fun same => Value.text_ofWord_inj.mp (congrArg Value.text same), fun same => same ▸ rfl⟩

example : Value.ofWord 9223372036854775807 = .int 9223372036854775807 ∧
    Value.ofWord 9223372036854775808 = .str "9223372036854775808" := by decide

end SqlCompose
