import Mathlib.Data.List.DropRight
import SqlCompose.Json.Reader
import SqlCompose.Proofs.Reading

namespace SqlCompose.Json

open Text (Digits SignText isDigit hexNumber? ofDigits spanDigits spanDigits_append)

def Blanks (s : List Char) : Prop := ∀ c ∈ s, isBlank c = true

-- The grammar is apart from the reader. This is what stands between the quotes of a string,
-- with its code points and UTF-16 units.
inductive UnitsText : List Char → Units → Prop where
  | nil : UnitsText [] []
  | plain (printable : 0x20 ≤ c.toNat) (quote : c ≠ '"') (escape : c ≠ '\\') (rest : UnitsText s units) :
      UnitsText (c :: s) (c.toNat :: units)
  | short (meant : shortEscape? c = some n) (rest : UnitsText s units) : UnitsText ('\\' :: c :: s) (n :: units)
  | code (meant : hexNumber? [a, b, c, d] = some n) (rest : UnitsText s units) :
      UnitsText ('\\' :: 'u' :: a :: b :: c :: d :: s) (n :: units)

inductive WholeText : List Char → Prop where
  | zero : WholeText ['0']
  | digits (digits : Digits ds) (first : ds.head? ≠ some '0') : WholeText ds

inductive FractionText : List Char → List Char → Prop where
  | none : FractionText [] []
  | digits (digits : Digits ds) : FractionText ('.' :: ds) ds

inductive ExponentText : List Char → Option Int → Prop where
  | none : ExponentText [] .none
  | small (sign : SignText s negative) (digits : Digits ds) :
      ExponentText ('e' :: (s ++ ds)) (some (if negative then -ofDigits ds else ofDigits ds))
  | capital (sign : SignText s negative) (digits : Digits ds) :
      ExponentText ('E' :: (s ++ ds)) (some (if negative then -ofDigits ds else ofDigits ds))

inductive LiteralText : List Char → Literal → Prop where
  | positive (whole : WholeText ds) (fraction : FractionText f fs) (exponent : ExponentText e n) :
      LiteralText (ds ++ (f ++ e)) ⟨false, ds, fs, n⟩
  | negative (whole : WholeText ds) (fraction : FractionText f fs) (exponent : ExponentText e n) :
      LiteralText ('-' :: (ds ++ (f ++ e))) ⟨true, ds, fs, n⟩

mutual

inductive ValueText : List Char → Tree → Prop where
  | null : ValueText "null".toList .null
  | yes : ValueText "true".toList (.bool true)
  | no : ValueText "false".toList (.bool false)
  | number (literal : LiteralText s l) : ValueText s (.number l)
  | string (text : UnitsText s units) : ValueText ('"' :: (s ++ ['"'])) (.string units)
  | noItems (blanks : Blanks s) : ValueText ('[' :: (s ++ [']'])) (.array [])
  | items (items : ItemsText s ts) : ValueText ('[' :: (s ++ [']'])) (.array ts)
  | noFields (blanks : Blanks s) : ValueText ('\x7b' :: (s ++ ['\x7d'])) (.object [])
  | fields (fields : FieldsText s fs) : ValueText ('\x7b' :: (s ++ ['\x7d'])) (.object fs)

inductive ItemText : List Char → Tree → Prop where
  | mk (before : Blanks b) (value : ValueText s t) (after : Blanks a) : ItemText (b ++ (s ++ a)) t

inductive ItemsText : List Char → List Tree → Prop where
  | last (item : ItemText s t) : ItemsText s [t]
  | more (item : ItemText s t) (rest : ItemsText s' ts) : ItemsText (s ++ ',' :: s') (t :: ts)

inductive FieldText : List Char → Units × Tree → Prop where
  | mk (before : Blanks b) (key : UnitsText k units) (after : Blanks a) (item : ItemText s t) :
      FieldText (b ++ ('"' :: (k ++ '"' :: (a ++ ':' :: s)))) (units, t)

inductive FieldsText : List Char → List (Units × Tree) → Prop where
  | last (field : FieldText s f) : FieldsText s [f]
  | more (field : FieldText s f) (rest : FieldsText s' fs) : FieldsText (s ++ ',' :: s') (f :: fs)

end

-- What follows a value: the end, a blank, or what goes on with a list or ends it.
def Apart (rest : List Char) : Prop := ∀ c ∈ rest.head?, c ∈ [' ', '\n', '\t', '\r', ',', ']', '\x7d']

theorem apart_nil : Apart [] := by simp [Apart]

theorem apart_cons {c : Char} (among : c ∈ [' ', '\n', '\t', '\r', ',', ']', '\x7d']) (rest : List Char) :
    Apart (c :: rest) := by
  intro d first
  exact Option.some.inj first ▸ among

theorem skipBlanks_append {b : List Char} (blanks : Blanks b) (s : List Char) : skipBlanks (b ++ s) = skipBlanks s :=
  List.dropWhile_append_of_pos blanks

theorem skipBlanks_solid {c : Char} (solid : isBlank c = false) (s : List Char) : skipBlanks (c :: s) = c :: s :=
  List.dropWhile_cons_of_neg (by simp [solid])

theorem readUnits_text {s : List Char} {units : Units} (text : UnitsText s units) (rest : List Char) :
    readUnits (s ++ '"' :: rest) = some (units, rest) := by
  induction text with
  | nil => rfl
  | @plain c s units printable quote escape _ ih =>
    have shown : (c.toNat < 0x20 || c == '\\') = false := by simp [escape, Nat.not_lt.mpr printable]
    rw [List.cons_append, readUnits, shown, ih]
    · rfl
    · exact quote
    · intro _ _ _ _ _ same
      exact absurd same escape
    · intro _ _ same
      exact absurd same escape
  | @short c n s units meant _ ih =>
    have other : c ≠ 'u' := fun same => by
      rw [same] at meant
      cases meant
    rw [List.cons_append, List.cons_append, readUnits, meant, ih]
    · rfl
    · intro _ _ _ _ _ same
      exact absurd same other
  | code meant _ ih =>
    simp only [List.cons_append, readUnits, meant, ih]
    rfl

theorem first_digit {ds : List Char} (digits : Digits ds) : ∃ d ds', ds = d :: ds' ∧ isDigit d = true := by
  obtain ⟨filled, digits⟩ := digits
  cases ds with
  | nil => exact absurd rfl filled
  | cons d ds => exact ⟨d, ds, rfl, digits d (List.mem_cons_self ..)⟩

theorem ne_of_digit {c d : Char} (digit : isDigit d = true) (other : isDigit c = false) : d ≠ c := by
  rintro rfl
  rw [other] at digit
  cases digit

theorem WholeText.isDigits {ds : List Char} (whole : WholeText ds) : Digits ds := by
  cases whole with
  | zero => exact ⟨List.cons_ne_nil _ _, by simp [isDigit]⟩
  | digits digits _ => exact digits

theorem readDigits_append {ds rest : List Char} (digits : Digits ds) (ends : Text.Ends rest) :
    readDigits (ds ++ rest) = some (ds, rest) := by
  rw [readDigits, spanDigits_append digits ends]
  obtain ⟨d, ds, rfl, _⟩ := first_digit digits
  rfl

theorem readWhole_append {ds rest : List Char} (whole : WholeText ds) (ends : Text.Ends rest) :
    readWhole (ds ++ rest) = some (ds, rest) := by
  cases whole with
  | zero =>
    cases rest with
    | nil => rfl
    | cons c rest =>
      have other : isDigit c = false := ends c rfl
      simp [readWhole, other]
  | digits digits first =>
    rw [← readDigits_append digits ends]
    cases ds with
    | nil => exact absurd rfl digits.1
    | cons d ds =>
      rw [List.cons_append, readWhole]
      intro _ same
      exact first (congrArg some (List.cons.inj same).1)

theorem readFraction_append {f fs rest : List Char} (fraction : FractionText f fs) (ends : Text.Ends rest)
    (other : rest.head? ≠ some '.') : readFraction (f ++ rest) = some (fs, rest) := by
  cases fraction with
  | none =>
    cases rest with
    | nil => rfl
    | cons c rest =>
      rw [List.nil_append, readFraction]
      intro _ same
      exact other (by simp [same])
  | digits digits => exact readDigits_append digits ends

theorem readSign_append {s ds : List Char} {negative : Bool} (sign : SignText s negative) (digits : Digits ds)
    (rest : List Char) : readSign (s ++ (ds ++ rest)) = (negative, ds ++ rest) := by
  cases sign with
  | none =>
    obtain ⟨d, ds, rfl, digit⟩ := first_digit digits
    rw [List.nil_append, List.cons_append, readSign]
    · exact fun _ same => ne_of_digit digit rfl (List.cons.inj same).1
    · exact fun _ same => ne_of_digit digit rfl (List.cons.inj same).1
  | plus => rfl
  | minus => rfl

theorem readExponent_append {e rest : List Char} {n : Option Int} (exponent : ExponentText e n) (ends : Text.Ends rest)
    (other : ∀ c ∈ rest.head?, c ≠ 'e' ∧ c ≠ 'E') : readExponent (e ++ rest) = some (n, rest) := by
  cases exponent with
  | none =>
    cases rest with
    | nil => rfl
    | cons c rest =>
      obtain ⟨small, capital⟩ := other c rfl
      simp [readExponent, small, capital]
  | small sign digits =>
    rw [List.cons_append, List.append_assoc, readExponent]
    simp [readSign_append sign digits, readDigits_append digits ends]
  | capital sign digits =>
    rw [List.cons_append, List.append_assoc, readExponent]
    simp [readSign_append sign digits, readDigits_append digits ends]

theorem FractionText.ends {f fs t : List Char} (fraction : FractionText f fs) (ends : Text.Ends t) :
    Text.Ends (f ++ t) := by
  cases fraction with
  | none => exact ends
  | digits _ => exact Text.ends_cons (by decide) _

theorem ExponentText.ends {e t : List Char} {n : Option Int} (exponent : ExponentText e n) (ends : Text.Ends t) :
    Text.Ends (e ++ t) := by
  cases exponent with
  | none => exact ends
  | small | capital => exact Text.ends_cons (by decide) _

theorem ExponentText.no_point {e t : List Char} {n : Option Int} (exponent : ExponentText e n)
    (other : t.head? ≠ some '.') : (e ++ t).head? ≠ some '.' := by
  cases exponent with
  | none => exact other
  | small | capital => simp

namespace Apart

variable {rest : List Char}

theorem ends (apart : Apart rest) : Text.Ends rest := by
  intro c first
  have among := apart c first
  simp only [List.mem_cons, List.not_mem_nil, or_false] at among
  rcases among with rfl | rfl | rfl | rfl | rfl | rfl | rfl <;> rfl

theorem no_point (apart : Apart rest) : rest.head? ≠ some '.' := by
  intro first
  have among := apart '.' first
  simp at among

theorem no_exponent (apart : Apart rest) : ∀ c ∈ rest.head?, c ≠ 'e' ∧ c ≠ 'E' := by
  intro c first
  have among := apart c first
  constructor
  · rintro rfl
    simp at among
  · rintro rfl
    simp at among

end Apart

theorem readLiteral_append {s rest : List Char} {l : Literal} (literal : LiteralText s l) (apart : Apart rest) :
    readLiteral (s ++ rest) = some (l, rest) := by
  have number {ds f e fs : List Char} {n : Option Int} (whole : WholeText ds) (fraction : FractionText f fs)
      (exponent : ExponentText e n) :
      readWhole (ds ++ (f ++ (e ++ rest))) = some (ds, f ++ (e ++ rest)) ∧
        readFraction (f ++ (e ++ rest)) = some (fs, e ++ rest) ∧ readExponent (e ++ rest) = some (n, rest) :=
    ⟨readWhole_append whole (fraction.ends (exponent.ends apart.ends)),
      readFraction_append fraction (exponent.ends apart.ends) (exponent.no_point apart.no_point),
      readExponent_append exponent apart.ends apart.no_exponent⟩
  cases literal with
  | positive whole fraction exponent =>
    obtain ⟨first, second, third⟩ := number whole fraction exponent
    obtain ⟨d, ds, rfl, digit⟩ := first_digit whole.isDigits
    simp only [List.cons_append, List.append_assoc, readLiteral] at first ⊢
    split
    · rename_i same
      exact absurd (List.cons.inj same).1 (ne_of_digit digit rfl)
    · simp only [first, second, third, Option.bind_eq_bind, Option.bind_some]
  | negative whole fraction exponent =>
    obtain ⟨first, second, third⟩ := number whole fraction exponent
    simp only [List.cons_append, List.append_assoc, readLiteral, first, second, third, Option.bind_eq_bind,
      Option.bind_some]

theorem Apart.blanks {a rest : List Char} (blanks : Blanks a) (apart : Apart rest) : Apart (a ++ rest) := by
  cases a with
  | nil => exact apart
  | cons c a =>
    intro d first
    have blank : isBlank d = true := blanks d (by simp_all)
    simp only [isBlank, Bool.or_eq_true, beq_iff_eq] at blank
    rcases blank with ((rfl | rfl) | rfl) | rfl <;> simp

theorem LiteralText.first {s : List Char} {l : Literal} (literal : LiteralText s l) :
    ∃ c s', s = c :: s' ∧ ∀ d, isDigit d = false → d ≠ '-' → c ≠ d := by
  cases literal with
  | positive whole _ _ =>
    obtain ⟨d, ds, rfl, digit⟩ := first_digit whole.isDigits
    exact ⟨d, _, rfl, fun _ odd _ => ne_of_digit digit odd⟩
  | negative => exact ⟨'-', _, rfl, fun _ _ other => other.symm⟩

theorem solid_of_ne {c : Char} (space : c ≠ ' ') (line : c ≠ '\n') (tab : c ≠ '\t') (carriage : c ≠ '\r') :
    isBlank c = false := by
  simp [isBlank, space, line, tab, carriage]

theorem ValueText.first {s : List Char} {t : Tree} (value : ValueText s t) :
    ∃ c s', s = c :: s' ∧ isBlank c = false ∧ c ≠ ']' ∧ c ≠ '\x7d' := by
  cases value with
  | number literal =>
    obtain ⟨c, s', rfl, other⟩ := literal.first
    have solid : isBlank c = false := solid_of_ne (other _ rfl (by decide)) (other _ rfl (by decide))
      (other _ rfl (by decide)) (other _ rfl (by decide))
    exact ⟨c, s', rfl, solid, other _ rfl (by decide), other _ rfl (by decide)⟩
  | null => exact ⟨'n', _, rfl, rfl, by decide, by decide⟩
  | yes => exact ⟨'t', _, rfl, rfl, by decide, by decide⟩
  | no => exact ⟨'f', _, rfl, rfl, by decide, by decide⟩
  | string => exact ⟨'"', _, rfl, rfl, by decide, by decide⟩
  | noItems | items => exact ⟨'[', _, rfl, rfl, by decide, by decide⟩
  | noFields | fields => exact ⟨'\x7b', _, rfl, rfl, by decide, by decide⟩

theorem readTree_literal {s rest : List Char} {l : Literal} (literal : LiteralText s l) (fuel : Nat)
    (apart : Apart rest) : readTree (fuel + 1) (s ++ rest) = some (.number l, rest) := by
  have read := readLiteral_append literal apart
  obtain ⟨c, s', rfl, solid, _, _⟩ := (ValueText.number literal).first
  obtain ⟨_, _, is, other⟩ := literal.first
  obtain ⟨rfl, rfl⟩ := List.cons.inj is
  rw [List.cons_append] at read ⊢
  rw [readTree, skipBlanks_solid solid]
  split
  iterate 6
    · rename_i same
      exact absurd (List.cons.inj same).1 (other _ rfl (by decide))
  · rw [read, Option.map_some]

theorem readTree_skipBlanks (fuel : Nat) (s : List Char) : readTree fuel (skipBlanks s) = readTree fuel s := by
  have again : skipBlanks (skipBlanks s) = skipBlanks s := List.dropWhile_idempotent ..
  cases fuel with
  | zero => rfl
  | succ fuel => rw [readTree, readTree, again]

theorem readFields_skipBlanks (fuel : Nat) (s : List Char) : readFields fuel (skipBlanks s) = readFields fuel s := by
  have again : skipBlanks (skipBlanks s) = skipBlanks s := List.dropWhile_idempotent ..
  cases fuel with
  | zero => rfl
  | succ fuel => rw [readFields, readFields, again]

theorem readItems_skipBlanks (fuel : Nat) (s : List Char) : readItems fuel (skipBlanks s) = readItems fuel s := by
  cases fuel with
  | zero => rfl
  | succ fuel => rw [readItems, readItems, readTree_skipBlanks]

theorem ItemText.first {s : List Char} {t : Tree} (item : ItemText s t) (rest : List Char) :
    ∃ c s', skipBlanks (s ++ rest) = c :: s' ∧ c ≠ ']' := by
  cases item with
  | mk before value after =>
    obtain ⟨c, s', rfl, solid, other, _⟩ := value.first
    rw [List.append_assoc, skipBlanks_append before]
    exact ⟨c, _, skipBlanks_solid solid _, other⟩

theorem ItemsText.first {s : List Char} {ts : List Tree} (items : ItemsText s ts) (rest : List Char) :
    ∃ c s', skipBlanks (s ++ rest) = c :: s' ∧ c ≠ ']' := by
  cases items with
  | last item => exact item.first rest
  | more item _ =>
    rw [List.append_assoc]
    exact item.first _

theorem FieldText.first {s : List Char} {f : Units × Tree} (field : FieldText s f) (rest : List Char) :
    ∃ s', skipBlanks (s ++ rest) = '"' :: s' := by
  cases field with
  | mk before key after item =>
    rw [List.append_assoc, skipBlanks_append before]
    exact ⟨_, skipBlanks_solid rfl _⟩

theorem FieldsText.first {s : List Char} {fs : List (Units × Tree)} (fields : FieldsText s fs) (rest : List Char) :
    ∃ s', skipBlanks (s ++ rest) = '"' :: s' := by
  cases fields with
  | last field => exact field.first rest
  | more field _ =>
    rw [List.append_assoc]
    exact field.first _

mutual

-- Every character of a text is worth two calls. A list of items or fields has its own call beside those of its
-- parts; a field, its item and the value of that are read with the same fuel.
theorem ValueText.read {s : List Char} {t : Tree} (value : ValueText s t) (fuel : Nat) (enough : 2 * s.length ≤ fuel)
    (rest : List Char) (apart : Apart rest) : readTree fuel (s ++ rest) = some (t, rest) := by
  obtain ⟨c, s', filled, _⟩ := value.first
  have positive : 0 < s.length := by simp [filled]
  obtain ⟨fuel, rfl⟩ : ∃ n, fuel = n + 1 := ⟨fuel - 1, by omega⟩
  cases value with
  | null | yes | no => rfl
  | number literal => exact readTree_literal literal fuel apart
  | string text =>
    rw [List.cons_append, List.append_assoc, readTree, skipBlanks_solid rfl]
    simp only [List.singleton_append, readUnits_text text, Option.map_some]
  | @noItems b blanks =>
    have inside : skipBlanks (b ++ ']' :: rest) = ']' :: rest :=
      (skipBlanks_append blanks _).trans (skipBlanks_solid rfl rest)
    rw [List.cons_append, List.append_assoc, readTree, skipBlanks_solid rfl]
    simp only [List.singleton_append, inside]
  | items items =>
    simp only [List.length_cons, List.length_append, List.length_nil] at enough
    have read := items.read fuel (by omega) rest
    obtain ⟨c, s', begins, other⟩ := items.first (']' :: rest)
    rw [← readItems_skipBlanks, begins] at read
    rw [List.cons_append, List.append_assoc, readTree, skipBlanks_solid rfl]
    simp only [List.singleton_append, begins]
    split
    · rename_i same
      exact absurd (List.cons.inj same).1 other
    · rw [read, Option.map_some]
  | @noFields b blanks =>
    have inside : skipBlanks (b ++ '\x7d' :: rest) = '\x7d' :: rest :=
      (skipBlanks_append blanks _).trans (skipBlanks_solid rfl rest)
    rw [List.cons_append, List.append_assoc, readTree, skipBlanks_solid rfl]
    simp only [List.singleton_append, inside]
  | fields fields =>
    simp only [List.length_cons, List.length_append, List.length_nil] at enough
    have read := fields.read fuel (by omega) rest
    obtain ⟨s', begins⟩ := fields.first ('\x7d' :: rest)
    rw [← readFields_skipBlanks, begins] at read
    rw [List.cons_append, List.append_assoc, readTree, skipBlanks_solid rfl]
    simp only [List.singleton_append, begins]
    split
    · rename_i same
      exact absurd (List.cons.inj same).1 (by decide)
    · rw [read, Option.map_some]
termination_by (fuel, 0)

theorem ItemText.read {s : List Char} {t : Tree} (item : ItemText s t) (fuel : Nat) (enough : 2 * s.length ≤ fuel)
    (rest : List Char) (apart : Apart rest) :
    ∃ rest', readTree fuel (s ++ rest) = some (t, rest') ∧ skipBlanks rest' = skipBlanks rest := by
  cases item with
  | @mk b s t a before value after =>
    simp only [List.length_append] at enough
    have read := value.read fuel (by omega) (a ++ rest) (apart.blanks after)
    refine ⟨a ++ rest, ?_, skipBlanks_append after rest⟩
    rw [List.append_assoc, List.append_assoc, ← readTree_skipBlanks, skipBlanks_append before, readTree_skipBlanks]
    exact read
termination_by (fuel, 1)

theorem ItemsText.read {s : List Char} {ts : List Tree} (items : ItemsText s ts) (fuel : Nat)
    (enough : 2 * s.length + 1 ≤ fuel) (rest : List Char) : readItems fuel (s ++ ']' :: rest) = some (ts, rest) := by
  obtain ⟨fuel, rfl⟩ : ∃ n, fuel = n + 1 := ⟨fuel - 1, by omega⟩
  cases items with
  | last item =>
    obtain ⟨_, read, after⟩ := item.read fuel (by omega) (']' :: rest) (apart_cons (by decide) _)
    rw [readItems]
    simp only [read, Option.bind_eq_bind, Option.bind_some, after, skipBlanks_solid (c := ']') rfl]
  | @more s t s' ts item items =>
    simp only [List.length_append, List.length_cons] at enough
    obtain ⟨_, read, after⟩ := item.read fuel (by omega) (',' :: (s' ++ ']' :: rest)) (apart_cons (by decide) _)
    have later := items.read fuel (by omega) rest
    rw [readItems, List.append_assoc, List.cons_append]
    simp only [read, Option.bind_eq_bind, Option.bind_some, after, skipBlanks_solid (c := ',') rfl, later]
termination_by (fuel, 0)

theorem FieldText.read {s : List Char} {f : Units × Tree} (field : FieldText s f) (fuel : Nat)
    (enough : 2 * s.length ≤ fuel) (rest : List Char) (apart : Apart rest) :
    ∃ key afterKey item rest', skipBlanks (s ++ rest) = '"' :: key ∧ readUnits key = some (f.1, afterKey) ∧
      skipBlanks afterKey = ':' :: item ∧ readTree fuel item = some (f.2, rest') ∧
      skipBlanks rest' = skipBlanks rest := by
  cases field with
  | @mk b k units a s t before key after item =>
    simp only [List.length_append, List.length_cons] at enough
    obtain ⟨rest', read, last⟩ := item.read fuel (by omega) rest apart
    refine ⟨k ++ '"' :: (a ++ ':' :: (s ++ rest)), a ++ ':' :: (s ++ rest), s ++ rest, rest', ?_,
      readUnits_text key _, ?_, read, last⟩
    · rw [List.append_assoc, skipBlanks_append before]
      simp [skipBlanks_solid (c := '"') rfl]
    · exact (skipBlanks_append after _).trans (skipBlanks_solid rfl _)
termination_by (fuel, 2)

theorem FieldsText.read {s : List Char} {fs : List (Units × Tree)} (fields : FieldsText s fs) (fuel : Nat)
    (enough : 2 * s.length + 1 ≤ fuel) (rest : List Char) :
    readFields fuel (s ++ '\x7d' :: rest) = some (fs, rest) := by
  obtain ⟨fuel, rfl⟩ : ∃ n, fuel = n + 1 := ⟨fuel - 1, by omega⟩
  cases fields with
  | last field =>
    obtain ⟨_, _, _, _, begins, key, colon, item, after⟩ :=
      field.read fuel (by omega) ('\x7d' :: rest) (apart_cons (by decide) _)
    rw [readFields, begins]
    simp only [key, colon, item, Option.bind_eq_bind, Option.bind_some, after, skipBlanks_solid (c := '\x7d') rfl]
  | @more s f s' fs field fields =>
    simp only [List.length_append, List.length_cons] at enough
    obtain ⟨_, _, _, _, begins, key, colon, item, after⟩ :=
      field.read fuel (by omega) (',' :: (s' ++ '\x7d' :: rest)) (apart_cons (by decide) _)
    have later := fields.read fuel (by omega) rest
    rw [readFields, List.append_assoc, List.cons_append, begins]
    simp only [key, colon, item, Option.bind_eq_bind, Option.bind_some, after, skipBlanks_solid (c := ',') rfl, later]
termination_by (fuel, 0)

end

theorem read_document {s : String} {t : Tree} (document : ItemText s.toList t) : read s = some t := by
  have enough : 2 * s.toList.length ≤ 2 * s.length + 2 := by rw [String.length_toList]; omega
  obtain ⟨rest, read, after⟩ := document.read _ enough [] apart_nil
  rw [List.append_nil] at read
  simp only [Json.read, read, Option.bind_eq_bind, Option.bind_some, after]
  rfl

end SqlCompose.Json
