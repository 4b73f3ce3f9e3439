import SqlCompose.Proofs.Maps
import SqlCompose.Proofs.Reading
import SqlCompose.Proofs.TomlTexts
import SqlCompose.Toml.Reader

namespace SqlCompose.Toml

open Text (SignText hexValue? isDigit)

inductive DigitsText (accepts : Char → Bool) : List Char → List Char → Prop where
  | last (digit : accepts c = true) : DigitsText accepts [c] [c]
  | more (digit : accepts c = true) (rest : DigitsText accepts s ds) : DigitsText accepts (c :: s) (c :: ds)
  | apart (digit : accepts c = true) (rest : DigitsText accepts s ds) : DigitsText accepts (c :: '_' :: s) (c :: ds)

-- Decimals have a sign, if any, and no leading zeros, numbers of other bases neither.
inductive IntegerText : List Char → Int → Prop where
  | decimal (sign : SignText s negative) (digits : DigitsText isDigit d ds) (first : d = ['0'] ∨ d.head? ≠ some '0') :
      IntegerText (s ++ d) (if negative then -ofBase 10 ds else ofBase 10 ds)
  | hexadecimal (digits : DigitsText (fun c => (hexValue? c).isSome) d ds) :
      IntegerText ('0' :: 'x' :: d) (ofBase 16 ds)
  | octal (digits : DigitsText (fun c => '0' ≤ c && c ≤ '7') d ds) : IntegerText ('0' :: 'o' :: d) (ofBase 8 ds)
  | binary (digits : DigitsText (fun c => c == '0' || c == '1') d ds) : IntegerText ('0' :: 'b' :: d) (ofBase 2 ds)

inductive ValueText : List Char → Item → Prop where
  | string (text : StringText s t) : ValueText s (.string (String.ofList t))
  | integer (text : IntegerText s n) (signed : Number.isSigned n = true) : ValueText s (.integer n)

inductive KeyText : List Char → List Char → Prop where
  | bare (filled : s ≠ []) (bare : ∀ c ∈ s, isBare c = true) : KeyText s s
  | basic (text : BasicText s t) : KeyText ('"' :: (s ++ ['"'])) t
  | literal (raw : Raw s) : KeyText ('\'' :: (s ++ ['\''])) s

inductive CommentText : List Char → Prop where
  | none : CommentText []
  | comment (printable : ∀ c ∈ s, isControl c = false) : CommentText ('#' :: s)

-- A line without its end, and its field if it has one: the grammar of documents
-- without tables, apart from the reader.
inductive LineText : List Char → Option (String × Item) → Prop where
  | blank (before : Spaces a) (comment : CommentText s) : LineText (a ++ s) none
  | field (before : Spaces a) (key : KeyText k name) (afterKey : Spaces b) (beforeValue : Spaces d)
      (value : ValueText v item) (after : Spaces e) (comment : CommentText s) :
      LineText (a ++ (k ++ (b ++ '=' :: (d ++ (v ++ (e ++ s)))))) (some (String.ofList name, item))

inductive DocumentText : List Char → Fields → Prop where
  | last (line : LineText s field) : DocumentText s field.toList
  | more (line : LineText s field) (ends : LineEnd e) (rest : DocumentText s' fields) :
      DocumentText (s ++ (e ++ s')) (field.toList ++ fields)

inductive Ending : List Char → List Char → Prop where
  | document : Ending [] []
  | line (ends : LineEnd e) : Ending (e ++ rest) rest

variable {accepts : Char → Bool} {s ds rest : List Char} {n : Int} {c : Char}

theorem DigitsText.first (digits : DigitsText accepts s ds) : ∃ c s', s = c :: s' ∧ accepts c = true := by
  cases digits with
  | last digit | more digit _ | apart digit _ => exact ⟨_, _, rfl, digit⟩

theorem digits?_text (plain : accepts '_' = false) (digits : DigitsText accepts s ds) :
    digits? accepts s = some ds := by
  have whole : separated accepts s = true ∧ s.filter (· != '_') = ds := by
    induction digits with
    | @last c digit =>
      have other : c ≠ '_' := fun is => by simp [is, plain] at digit
      simp [separated, digit, other]
    | @more c s ds digit rest ih =>
      have other : c ≠ '_' := fun is => by simp [is, plain] at digit
      obtain ⟨d, s, rfl, next⟩ := rest.first
      have apart : d ≠ '_' := fun is => by simp [is, plain] at next
      refine ⟨?_, ?_⟩
      · rw [separated, digit, ih.1]
        · rfl
        · simp
        · exact fun _ same => absurd (List.cons.inj same).1 apart
      · rw [List.filter_cons_of_pos (by simp [other]), ih.2]
    | @apart c s ds digit rest ih =>
      have other : c ≠ '_' := fun is => by simp [is, plain] at digit
      refine ⟨?_, ?_⟩
      · rw [separated, digit, ih.1]
        rfl
      · rw [List.filter_cons_of_pos (by simp [other]), List.filter_cons_of_neg (by simp), ih.2]
  rw [digits?, if_pos whole.1, whole.2]

theorem DigitsText.all {p : Char → Prop} (digits : DigitsText accepts s ds) (each : ∀ c, accepts c = true → p c)
    (apart : p '_') : ∀ c ∈ s, p c := by
  induction digits with
  | last digit => simpa using each _ digit
  | more digit _ ih => exact List.forall_mem_cons.mpr ⟨each _ digit, ih⟩
  | apart digit _ ih => exact List.forall_mem_cons.mpr ⟨each _ digit, List.forall_mem_cons.mpr ⟨apart, ih⟩⟩

theorem isWordChar_of_hex (hex : (hexValue? c).isSome = true) : isWordChar c = true ∧ c ≠ '-' := by
  refine ⟨?_, ?_⟩
  · have kinds : c.isAlphanum = (('A' ≤ c ∧ c ≤ 'Z') || 'a' ≤ c && c ≤ 'z' || '0' ≤ c && c ≤ '9') := rfl
    have alphanumeric : c.isAlphanum = true := by
      simp only [kinds, Bool.or_eq_true, Bool.and_eq_true, decide_eq_true_eq]
      unfold hexValue? at hex
      split at hex
      · exact .inr ‹_›
      · split at hex
        · rename_i small
          exact .inl (.inr ⟨small.1, Char.le_trans small.2 (by decide)⟩)
        · split at hex
          · rename_i capital
            exact .inl (.inl ⟨capital.1, Char.le_trans capital.2 (by decide)⟩)
          · cases hex
    simp [isWordChar, alphanumeric]
  · rintro rfl
    cases hex

theorem isWordChar_of_digit (digit : isDigit c = true) : isWordChar c = true ∧ c ≠ '-' := by
  simp only [isDigit, Bool.and_eq_true, decide_eq_true_eq] at digit
  exact isWordChar_of_hex (by simp [hexValue?, digit])

theorem octal_digit (octal : ('0' ≤ c && c ≤ '7') = true) : isDigit c = true := by
  simp only [Bool.and_eq_true, decide_eq_true_eq] at octal
  simp only [isDigit, Bool.and_eq_true, decide_eq_true_eq]
  exact ⟨octal.1, Char.le_trans octal.2 (by decide)⟩

theorem binary_digit (binary : (c == '0' || c == '1') = true) : isDigit c = true := by
  simp only [Bool.or_eq_true, beq_iff_eq] at binary
  rcases binary with rfl | rfl <;> rfl

theorem IntegerText.word (text : IntegerText s n) :
    ∃ c s', s = c :: s' ∧ (isDigit c = true ∨ c = '+' ∨ c = '-') ∧ ∀ d ∈ s', isWordChar d = true ∧ d ≠ '-' := by
  have apart : isWordChar '_' = true ∧ '_' ≠ '-' := by decide
  cases text with
  | decimal signed digits _ =>
    have all := digits.all (fun _ => isWordChar_of_digit) apart
    cases signed with
    | none =>
      obtain ⟨c, d, rfl, digit⟩ := digits.first
      exact ⟨c, d, rfl, .inl digit, (List.forall_mem_cons.mp all).2⟩
    | plus => exact ⟨_, _, rfl, .inr (.inl rfl), all⟩
    | minus => exact ⟨_, _, rfl, .inr (.inr rfl), all⟩
  | hexadecimal digits =>
    have all := digits.all (fun _ => isWordChar_of_hex) apart
    exact ⟨_, _, rfl, .inl rfl, List.forall_mem_cons.mpr ⟨by decide, all⟩⟩
  | octal digits =>
    have all := digits.all (fun c octal => isWordChar_of_digit (octal_digit octal)) apart
    exact ⟨_, _, rfl, .inl rfl, List.forall_mem_cons.mpr ⟨by decide, all⟩⟩
  | binary digits =>
    have all := digits.all (fun c binary => isWordChar_of_digit (binary_digit binary)) apart
    exact ⟨_, _, rfl, .inl rfl, List.forall_mem_cons.mpr ⟨by decide, all⟩⟩

theorem splitSign_text {sign d : List Char} {negative : Bool} (signed : SignText sign negative)
    (digits : DigitsText isDigit d ds) : splitSign (sign ++ d) = (negative, d) := by
  cases signed with
  | none =>
    obtain ⟨c, d, rfl, digit⟩ := digits.first
    rw [List.nil_append, splitSign]
    · rintro _ is
      rw [(List.cons.inj is).1] at digit
      cases digit
    · rintro _ is
      rw [(List.cons.inj is).1] at digit
      cases digit
  | plus => rfl
  | minus => rfl

theorem wholeDigits?_text (digits : DigitsText isDigit s ds) (first : s = ['0'] ∨ s.head? ≠ some '0') :
    wholeDigits? s = some ds := by
  rcases first with rfl | first
  · cases digits with
    | last _ => rfl
    | more _ rest => cases rest
  · rw [wholeDigits?, digits?_text (by decide) digits]
    · rintro rfl
      exact first rfl
    · rintro _ rfl
      exact first rfl

theorem integer?_text (text : IntegerText s n) : integer? s = some n := by
  cases text with
  | hexadecimal digits | octal digits | binary digits =>
    simp only [integer?, digits?_text (by decide) digits, Option.map_some]
  | @decimal sign negative d ds signed digits first =>
    have other (x : Char) (rest : List Char) : sign ++ d ≠ '0' :: x :: rest := by
      cases signed with
      | none =>
        rintro rfl
        rcases first with single | first
        · cases single
        · exact first rfl
      | plus | minus => exact fun is => absurd (List.cons.inj is).1 (by decide)
    rw [integer?]
    · simp only [splitSign_text signed digits, wholeDigits?_text digits first, Option.map_some]
    · exact other _
    · exact other _
    · exact other _

theorem readDate_word (apart : ∀ d ∈ s, d ≠ '-') : readDate (c :: s) = none := by
  unfold readDate
  split
  · rename_i is
    exact absurd rfl (apart '-' (by simp [(List.cons.inj is).2]))
  · rfl

theorem spanWord_append (word : ∀ d ∈ c :: s, isWordChar d = true) (undated : readDate (c :: s) = none)
    (ends : ∀ d ∈ rest.head?, isWordChar d = false) : spanWord (c :: s ++ rest) = (c :: s, rest) := by
  obtain ⟨taken, left⟩ := Text.run_append word ends
  simp only [spanWord, taken, left, undated]

theorem inRange_of_isSigned (signed : Number.isSigned n = true) : inRange n = true := by
  have bounds := Number.isSigned_iff.mp signed
  simp only [inRange, Bool.and_eq_true, decide_eq_true_eq]
  omega

theorem scalarItem?_text (text : IntegerText s n) (signed : Number.isSigned n = true) :
    scalarItem? s = some (.integer n) := by
  obtain ⟨c, rest, rfl, first, _⟩ := text.word
  have other (d : Char) (word : List Char) (letter : isDigit d = false ∧ d ≠ '+' ∧ d ≠ '-') :
      c :: rest ≠ d :: word := by
    intro is
    obtain ⟨rfl, _⟩ := List.cons.inj is
    simp [letter] at first
  have yes : c :: rest ≠ "true".toList := other 't' _ (by decide)
  have no : c :: rest ≠ "false".toList := other 'f' _ (by decide)
  rw [scalarItem?, if_neg yes, if_neg no, integer?_text text]
  simp only [inRange_of_isSigned signed, if_true]

-- What may follow a value: the end of the document, a space, a comment or a line end.
def After (rest : List Char) : Prop := ∀ c ∈ rest.head?, c ∈ [' ', '\t', '#', '\n', '\r']

theorem After.apart (after : After rest) : ∀ c ∈ rest.head?, isWordChar c = false ∧ c ≠ '"' ∧ c ≠ '\'' := by
  intro c first
  have among := after c first
  simp only [List.mem_cons, List.not_mem_nil, or_false] at among
  rcases among with rfl | rfl | rfl | rfl | rfl <;> decide

theorem StringText.first {t : List Char} (text : StringText s t) : ∃ s', s = '"' :: s' ∨ s = '\'' :: s' := by
  cases text with
  | basic | basicLines => exact ⟨_, .inl rfl⟩
  | literal | rawLines => exact ⟨_, .inr rfl⟩

theorem readValue_string {t : List Char} (text : StringText s t) (after : After rest) (fuel depth : Nat) :
    readValue (fuel + 1) depth (s ++ rest) = some (.string (String.ofList t), rest) := by
  have read := readString_text text fun c first => (after.apart c first).2
  obtain ⟨s, rfl | rfl⟩ := text.first
  · rw [List.cons_append] at read ⊢
    rw [readValue, read, Option.map_some]
  · rw [List.cons_append] at read ⊢
    rw [readValue, read, Option.map_some]

theorem readValue_integer (text : IntegerText s n) (signed : Number.isSigned n = true) (after : After rest)
    (fuel depth : Nat) : readValue (fuel + 1) depth (s ++ rest) = some (.integer n, rest) := by
  have scalar := scalarItem?_text text signed
  obtain ⟨c, s, rfl, first, word⟩ := text.word
  have begins : isWordChar c = true := by
    rcases first with digit | rfl | rfl
    · exact (isWordChar_of_digit digit).1
    · rfl
    · rfl
  have whole := spanWord_append (List.forall_mem_cons.mpr ⟨begins, fun d among => (word d among).1⟩)
    (readDate_word fun d among => (word d among).2) fun d next => (after.apart d next).1
  have other (d : Char) (rest' : List Char) (mark : isWordChar d = false) : c :: s ++ rest ≠ d :: rest' := by
    intro is
    rw [(List.cons.inj is).1, mark] at begins
    cases begins
  rw [readValue]
  · simp only [whole, scalar, Option.map_some]
  · exact fun rest' => other _ rest' rfl
  · exact fun rest' => other _ rest' rfl
  · exact fun rest' => other _ rest' rfl
  · exact fun rest' => other _ rest' rfl

theorem readValue_text {item : Item} (value : ValueText s item) (after : After rest) (fuel depth : Nat) :
    readValue (fuel + 1) depth (s ++ rest) = some (item, rest) := by
  cases value with
  | string text => exact readValue_string text after fuel depth
  | integer text signed => exact readValue_integer text signed after fuel depth

theorem skipSpaces_append {a : List Char} (spaces : Spaces a) (solid : ∀ c ∈ rest.head?, isSpace c = false) :
    skipSpaces (a ++ rest) = rest := (Text.run_append spaces solid).2

theorem ValueText.first {item : Item} (value : ValueText s item) : ∃ c s', s = c :: s' ∧ isSpace c = false := by
  cases value with
  | string text =>
    obtain ⟨s, rfl | rfl⟩ := text.first
    · exact ⟨_, _, rfl, rfl⟩
    · exact ⟨_, _, rfl, rfl⟩
  | integer text _ =>
    obtain ⟨c, s, rfl, first, _⟩ := text.word
    refine ⟨c, s, rfl, ?_⟩
    rw [← Bool.not_eq_true, isSpace_iff]
    rintro (rfl | rfl)
    · simp [isDigit] at first
    · simp [isDigit] at first

theorem KeyText.first {k name : List Char} (key : KeyText k name) :
    ∃ c k', k = c :: k' ∧ c ∉ [' ', '\t', '\n', '\r', '#', '[', '\ufeff'] := by
  cases key with
  | bare filled bare =>
    obtain ⟨c, k, rfl⟩ := List.exists_cons_of_ne_nil filled
    refine ⟨c, k, rfl, fun among => ?_⟩
    have own : isBare c = true := bare c (List.mem_cons_self ..)
    simp only [List.mem_cons, List.not_mem_nil, or_false] at among
    rcases among with rfl | rfl | rfl | rfl | rfl | rfl | rfl
    all_goals cases own
  | basic text => exact ⟨_, _, rfl, by decide⟩
  | literal raw => exact ⟨_, _, rfl, by decide⟩

theorem readKey_text {k name : List Char} (key : KeyText k name) (ends : ∀ c ∈ rest.head?, isBare c = false) :
    readKey (k ++ rest) = some (name, rest) := by
  cases key with
  | bare filled bare =>
    obtain ⟨c, k, rfl⟩ := List.exists_cons_of_ne_nil filled
    obtain ⟨taken, left⟩ := Text.run_append bare ends
    have solid : isBare c = true := bare c (List.mem_cons_self ..)
    rw [List.cons_append] at taken left ⊢
    rw [readKey, readBare, taken, left]
    · rintro _ is
      rw [(List.cons.inj is).1] at solid
      cases solid
    · rintro _ is
      rw [(List.cons.inj is).1] at solid
      cases solid
  | basic text =>
    rw [List.cons_append, List.append_assoc, readKey]
    exact readBasic_text text rest
  | literal raw =>
    rw [List.cons_append, List.append_assoc, readKey]
    exact readLiteral_raw raw rest

theorem readPath_text {k name b : List Char} (key : KeyText k name) (spaces : Spaces b) (rest : List Char) :
    readPath (k ++ (b ++ '=' :: rest)) = some ([], String.ofList name, '=' :: rest) := by
  have equals : skipSpaces (b ++ '=' :: rest) = '=' :: rest := skipSpaces_append spaces (by simp [isSpace])
  have ends : ∀ c ∈ (b ++ '=' :: rest).head?, isBare c = false := by
    cases b with
    | nil => simp [isBare]
    | cons c b =>
      intro d first
      obtain rfl := Option.some.inj first
      rcases isSpace_iff.mp (spaces c (List.mem_cons_self ..)) with rfl | rfl <;> rfl
  show readKeys (79 + 1) _ = _
  rw [readKeys]
  simp only [readKey_text key ends, equals, Option.bind_eq_bind, Option.bind_some]
  rfl

variable {tail a k name : List Char} {item : Item} {root fields : Fields} {field : Option (String × Item)}

theorem Ending.readLineEnd (ending : Ending tail rest) : readLineEnd tail = some rest := by
  cases ending with
  | document => rfl
  | line ends => cases ends <;> rfl

theorem Ending.first (ending : Ending tail rest) : ∀ c ∈ tail.head?, c = '\n' ∨ c = '\r' := by
  cases ending with
  | document => simp
  | line ends => cases ends <;> simp

theorem CommentText.first (comment : CommentText s) (ending : Ending tail rest) :
    ∀ c ∈ (s ++ tail).head?, c = '#' ∨ c = '\n' ∨ c = '\r' := by
  cases comment with
  | none => exact fun c first => .inr (ending.first c first)
  | comment _ => simp

theorem skipComment_append (comment : CommentText s) (ending : Ending tail rest) : skipComment (s ++ tail) = tail := by
  cases comment with
  | none =>
    rw [List.nil_append]
    unfold skipComment
    split
    · have first := ending.first '#' rfl
      simp at first
    · rfl
  | comment printable =>
    refine (Text.run_append (fun c among => ?_) (fun c first => ?_)).2
    · rw [printable c among]
      rfl
    · rcases ending.first c first with rfl | rfl <;> rfl

theorem finishLine_append (spaces : Spaces a) (comment : CommentText s) (ending : Ending tail rest) :
    finishLine (a ++ (s ++ tail)) = some rest := by
  have solid : ∀ c ∈ (s ++ tail).head?, isSpace c = false := by
    intro c first
    rcases comment.first ending c first with rfl | rfl | rfl <;> rfl
  rw [finishLine, skipSpaces_append spaces solid, skipComment_append comment ending, ending.readLineEnd]

theorem readDocument_nil (fuel : Nat) (p : Progress) : readDocument fuel p [] = some p.root := by
  cases fuel <;> rfl

theorem readExpression_text {b d v : List Char} (key : KeyText k name) (afterKey : Spaces b) (beforeValue : Spaces d)
    (value : ValueText v item) (after : After rest) (fresh : lookup (String.ofList name) root = none) (fuel : Nat) :
    readExpression fuel ⟨root, []⟩ (k ++ (b ++ '=' :: (d ++ (v ++ rest)))) =
      some (⟨put (String.ofList name) item root, []⟩, rest) := by
  have path := readPath_text key afterKey (d ++ (v ++ rest))
  have next : skipSpaces (d ++ (v ++ rest)) = v ++ rest := by
    obtain ⟨c, v, rfl, solid⟩ := value.first
    exact skipSpaces_append beforeValue (by simpa using solid)
  obtain ⟨c, k, rfl, other⟩ := key.first
  have bracket : c ≠ '[' := fun is => other (by simp [is])
  rw [List.cons_append] at path ⊢
  rw [readExpression, readAssignment, path]
  · simp only [Option.bind_eq_bind, Option.bind_some, next, readValue_text value after, within, assign, fresh,
      Option.isSome_none, Bool.false_eq_true, if_false]
  · exact fun _ is => bracket (List.cons.inj is).1
  · exact fun _ is => bracket (List.cons.inj is).1

theorem After.of_parts (spaces : Spaces a) (comment : CommentText s) (ending : Ending tail rest) :
    After (a ++ (s ++ tail)) := by
  intro c first
  cases a with
  | nil => rcases comment.first ending c first with rfl | rfl | rfl <;> simp
  | cons d a =>
    obtain rfl := Option.some.inj first
    rcases isSpace_iff.mp (spaces d (List.mem_cons_self ..)) with rfl | rfl <;> simp

theorem readDocument_blank {fuel : Nat} {p : Progress} (skipped : skipSpaces s = c :: rest)
    (first : c = '#' ∨ c = '\n' ∨ c = '\r') :
    readDocument (fuel + 1) p s = (finishLine (c :: rest)).bind (readDocument fuel p) := by
  rw [readDocument, skipped]
  rcases first with rfl | rfl | rfl <;> rfl

theorem readDocument_expression {fuel : Nat} {p : Progress} (skipped : skipSpaces s = c :: rest)
    (other : c ≠ '#' ∧ c ≠ '\n' ∧ c ≠ '\r') :
    readDocument (fuel + 1) p s = (readExpression fuel p (c :: rest)).bind fun (p, rest) =>
      (finishLine rest).bind (readDocument fuel p) := by
  rw [readDocument, skipped]
  split
  · rename_i is
    cases is
  · rename_i is
    exact absurd (List.cons.inj is).1 other.2.1
  · rename_i is
    exact absurd (List.cons.inj is).1 other.2.2
  · rename_i is
    exact absurd (List.cons.inj is).1 other.1
  · rfl

-- One line, whatever ends it, takes one call.
theorem LineText.read (line : LineText s field) (ending : Ending tail rest) (fuel : Nat)
    (fresh : ∀ f ∈ field, f.1 ∉ root.map Prod.fst) :
    readDocument (fuel + 1) ⟨root, []⟩ (s ++ tail) = readDocument fuel ⟨root ++ field.toList, []⟩ rest := by
  cases line with
  | @blank a s before comment =>
    have first := comment.first ending
    have finished := finishLine_append (a := []) (by simp [Spaces]) comment ending
    have skipped : skipSpaces (a ++ (s ++ tail)) = s ++ tail := by
      refine skipSpaces_append before fun c is => ?_
      rcases first c is with rfl | rfl | rfl <;> rfl
    rw [List.append_assoc, Option.toList_none, List.append_nil]
    rw [List.nil_append] at finished
    generalize s ++ tail = left at first finished skipped
    cases left with
    | nil =>
      obtain rfl := Option.some.inj finished
      rw [readDocument, skipped, readDocument_nil]
    | cons c left =>
      rw [readDocument_blank skipped (first c rfl), finished, Option.bind_some]
  | @field a k name b d v item e s before key afterKey beforeValue value spaces comment =>
    have absent := fresh _ rfl
    have after := After.of_parts spaces comment ending
    have read := readExpression_text key afterKey beforeValue value after (OrderedMap.lookup_eq_none absent) fuel
    obtain ⟨c, k, rfl, other⟩ := key.first
    simp only [List.mem_cons, not_or] at other
    obtain ⟨space, tab, feed, carriage, comment', _⟩ := other
    have solid : isSpace c = false := by
      rw [← Bool.not_eq_true, isSpace_iff]
      exact not_or.mpr ⟨space, tab⟩
    simp only [List.append_assoc, List.cons_append] at read ⊢
    have skipped : skipSpaces (a ++ c :: (k ++ (b ++ '=' :: (d ++ (v ++ (e ++ (s ++ tail))))))) =
        c :: (k ++ (b ++ '=' :: (d ++ (v ++ (e ++ (s ++ tail)))))) := skipSpaces_append before (by simpa using solid)
    rw [readDocument_expression skipped ⟨comment', feed, carriage⟩, read, Option.bind_some]
    simp only [finishLine_append spaces comment ending, Option.bind_some, put, OrderedMap.put_of_absent absent,
      Option.toList_some]

theorem fresh_of_nodup (nodup : ((root ++ (field.toList ++ fields)).map Prod.fst).Nodup) :
    ∀ f ∈ field, f.1 ∉ root.map Prod.fst := by
  rintro f rfl there
  rw [List.map_append, List.nodup_append] at nodup
  exact nodup.2.2 f.1 there f.1 (by simp) rfl

theorem DocumentText.read (document : DocumentText s fields) {fuel : Nat} (enough : s.length ≤ fuel)
    (distinct : ((root ++ fields).map Prod.fst).Nodup) :
    readDocument fuel ⟨root, []⟩ s = some (root ++ fields) := by
  induction document generalizing fuel root with
  | @last s field line =>
    cases fuel with
    | zero =>
      have empty : s = [] := List.eq_nil_of_length_eq_zero (Nat.le_zero.mp enough)
      cases line with
      | blank => rw [empty, readDocument_nil, Option.toList_none, List.append_nil]
      | field => simp at empty
    | succ fuel =>
      have fresh := @fresh_of_nodup root [] field (by rwa [List.append_nil])
      have read := line.read .document fuel fresh
      rwa [List.append_nil, readDocument_nil] at read
  | @more s field e s' fields line ends rest ih =>
    obtain ⟨fuel, rfl, left⟩ : ∃ n, fuel = n + 1 ∧ s'.length ≤ n := by
      have filled : 0 < e.length := by cases ends <;> simp
      simp only [List.length_append] at enough
      exact ⟨fuel - 1, by omega, by omega⟩
    have later := ih left (by rwa [List.append_assoc])
    rw [line.read (.line ends) fuel (fresh_of_nodup distinct), later, List.append_assoc]

theorem LineText.first (line : LineText s field) (ending : Ending tail rest) : (s ++ tail).head? ≠ some '\ufeff' := by
  have mark {a : List Char} (spaces : Spaces a) {more : List Char} (other : more.head? ≠ some '\ufeff') :
      (a ++ more).head? ≠ some '\ufeff' := by
    cases a with
    | nil => exact other
    | cons c a =>
      intro is
      obtain rfl := Option.some.inj is
      have space := spaces _ (List.mem_cons_self ..)
      cases space
  cases line with
  | blank before comment =>
    rw [List.append_assoc]
    refine mark before fun is => ?_
    have first := comment.first ending _ is
    simp at first
  | field before key =>
    rw [List.append_assoc]
    refine mark before ?_
    obtain ⟨c, k, rfl, other⟩ := key.first
    simp_all

theorem DocumentText.first (document : DocumentText s fields) : s.head? ≠ some '\ufeff' := by
  cases document with
  | last line => simpa using line.first .document
  | more line ends _ => exact line.first (.line ends)

theorem read_document {s : String} (document : DocumentText s.toList fields) (distinct : (fields.map Prod.fst).Nodup) :
    read s = some fields := by
  have whole : readDocument s.toList.length {} s.toList = some ([] ++ fields) :=
    document.read (Nat.le_refl _) distinct
  rw [read]
  split
  · rename_i is
    exact absurd (by rw [is]; rfl) document.first
  · exact whole

end SqlCompose.Toml
