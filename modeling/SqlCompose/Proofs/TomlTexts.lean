import SqlCompose.Toml.Text

namespace SqlCompose.Toml

inductive EscapeText : List Char → Char → Prop where
  | short (meant : shortEscape? x = some c) : EscapeText [x] c
  | two (meant : scalar? [a, b] = some c) : EscapeText ['x', a, b] c
  | four (meant : scalar? [a, b, d, e] = some c) : EscapeText ['u', a, b, d, e] c
  | eight (meant : scalar? [a, b, d, e, f, g, h, i] = some c) : EscapeText ['U', a, b, d, e, f, g, h, i] c

inductive BasicText : List Char → List Char → Prop where
  | nil : BasicText [] []
  | plain (printable : isControl c = false) (quote : c ≠ '"') (escape : c ≠ '\\') (rest : BasicText s t) :
      BasicText (c :: s) (c :: t)
  | escape (escape : EscapeText e c) (rest : BasicText s t) : BasicText ('\\' :: (e ++ s)) (c :: t)

def Raw (s : List Char) : Prop := ∀ c ∈ s, isControl c = false ∧ c ≠ '\''

def Spaces (s : List Char) : Prop := ∀ c ∈ s, isSpace c = true

inductive LineEnd : List Char → Prop where
  | feed : LineEnd ['\n']
  | carriage : LineEnd ['\r', '\n']

inductive Blanks : List Char → Prop where
  | nil : Blanks []
  | space (space : isSpace c = true) (rest : Blanks s) : Blanks (c :: s)
  | lineEnd (ends : LineEnd e) (rest : Blanks s) : Blanks (e ++ s)

def Solid (s : List Char) : Prop := ∀ c ∈ s.head?, c ∉ [' ', '\t', '\n', '\r']

-- A piece of basic lines, what it stands for, and what follows it. After the last backslash of a line all blanks are
-- left out. What a carriage return before a line feed stands for is left to the reader, so that there is none here.
inductive BasicPiece : List Char → List Char → List Char → Prop where
  | plain (printable : isControl c = false) (quote : c ≠ '"') (escape : c ≠ '\\') : BasicPiece [c] [c] s
  | lineFeed : BasicPiece ['\n'] ['\n'] s
  | escape (escape : EscapeText e c) : BasicPiece ('\\' :: e) [c] s
  | fold (spaces : Spaces a) (ends : LineEnd e) (blanks : Blanks b) (solid : Solid s) :
      BasicPiece ('\\' :: (a ++ (e ++ b))) [] s

inductive RawPiece : List Char → List Char → List Char → Prop where
  | plain (printable : isControl c = false) (quote : c ≠ '\'') : RawPiece [c] [c] s
  | lineFeed : RawPiece ['\n'] ['\n'] s

inductive Lines (quote : Char) (Piece : List Char → List Char → List Char → Prop) :
    Nat → List Char → List Char → Prop where
  | nil : Lines quote Piece k [] []
  | quote (rest : Lines quote Piece k s t) : Lines quote Piece (k + 1) (quote :: s) (quote :: t)
  | piece (piece : Piece p u s) (rest : Lines quote Piece 2 s t) : Lines quote Piece k (p ++ s) (u ++ t)

inductive Enclosed (quote : Char) (Piece : List Char → List Char → List Char → Prop) :
    List Char → List Char → Prop where
  | below (ends : LineEnd e) (lines : Lines quote Piece 2 s t) : Enclosed quote Piece (e ++ s) t
  | beside (first : s.head? ≠ some '\n') (lines : Lines quote Piece 2 s t) : Enclosed quote Piece s t

inductive StringText : List Char → List Char → Prop where
  | basic (text : BasicText s t) : StringText ('"' :: (s ++ ['"'])) t
  | literal (raw : Raw s) : StringText ('\'' :: (s ++ ['\''])) s
  | basicLines (text : Enclosed '"' BasicPiece s t) :
      StringText ('"' :: '"' :: '"' :: (s ++ ['"', '"', '"'])) t
  | rawLines (text : Enclosed '\'' RawPiece s t) :
      StringText ('\'' :: '\'' :: '\'' :: (s ++ ['\'', '\'', '\''])) t

variable {s t e rest : List Char} {c : Char}

theorem isSpace_iff : isSpace c = true ↔ c = ' ' ∨ c = '\t' := by
  rw [isSpace, Bool.or_eq_true, beq_iff_eq, beq_iff_eq]

theorem short_ne {x : Char} (meant : shortEscape? x = some c) : x ∉ ['x', 'u', 'U', ' ', '\t', '\n', '\r'] := by
  simp only [List.mem_cons, List.not_mem_nil, or_false]
  rintro (rfl | rfl | rfl | rfl | rfl | rfl | rfl)
  all_goals cases meant

theorem readBasic_escape (escape : EscapeText e c) (rest : List Char) :
    readBasic ('\\' :: (e ++ rest)) = prepend c (readBasic rest) := by
  cases escape with
  | short meant =>
    have other := short_ne meant
    simp only [List.mem_cons, not_or] at other
    rw [List.singleton_append, readBasic, meant]
    · rfl
    · exact fun _ _ _ same => absurd same other.1
    · exact fun _ _ _ _ _ same => absurd same other.2.1
    · exact fun _ _ _ _ _ _ _ _ _ same => absurd same other.2.2.1
  | two meant | four meant | eight meant =>
    simp only [List.cons_append, List.nil_append, readBasic, meant]
    rfl

theorem readBasic_text (text : BasicText s t) (rest : List Char) : readBasic (s ++ '"' :: rest) = some (t, rest) := by
  induction text with
  | nil => rfl
  | @plain c s t printable quote escape _ ih =>
    have shown : (isControl c || c == '\\') = false := by simp [printable, escape]
    rw [List.cons_append, readBasic, shown, ih]
    · rfl
    · exact quote
    · exact fun _ _ _ same => absurd same escape
    · exact fun _ _ _ _ _ same => absurd same escape
    · exact fun _ _ _ _ _ _ _ _ _ same => absurd same escape
    · exact fun _ _ same => absurd same escape
  | escape escape _ ih =>
    rw [List.cons_append, List.append_assoc, readBasic_escape escape, ih]
    rfl

theorem readLiteral_raw (raw : Raw s) (rest : List Char) : readLiteral (s ++ '\'' :: rest) = some (s, rest) := by
  induction s with
  | nil => rfl
  | cons c s ih =>
    obtain ⟨⟨printable, quote⟩, raw⟩ := List.forall_mem_cons.mp raw
    rw [List.cons_append, readLiteral, printable, ih raw]
    · rfl
    · exact quote

-- What a reader of lines does in front of a rest: it ends at three quotes, and goes past a quote that begins no
-- three and past every piece. No piece begins with what has a meaning of its own.
structure ReadsLines (quote : Char) (Piece : List Char → List Char → List Char → Prop)
    (read : List Char → Option (List Char × List Char)) (rest : List Char) : Prop where
  first : ∀ {p u s}, Piece p u s → ∃ c p', p = c :: p' ∧ c ≠ quote ∧ c ≠ '\r'
  closed : ∀ n ≤ 2, read (List.replicate n quote ++ quote :: quote :: quote :: rest) =
    some (List.replicate n quote, rest)
  single : ∀ {s t}, (∀ s', s ≠ quote :: quote :: s') → read s = some (t, rest) →
    read (quote :: s) = some (quote :: t, rest)
  piece : ∀ {p u s t}, Piece p u s → read (s ++ quote :: quote :: quote :: rest) = some (t, rest) →
    read (p ++ (s ++ quote :: quote :: quote :: rest)) = some (u ++ t, rest)

theorem ReadsLines.read {quote : Char} {Piece : List Char → List Char → List Char → Prop}
    {read : List Char → Option (List Char × List Char)} (reads : ReadsLines quote Piece read rest) {k : Nat}
    (lines : Lines quote Piece k s t) (few : k ≤ 2) :
    read (s ++ quote :: quote :: quote :: rest) = some (t, rest) := by
  induction lines with
  | nil => exact reads.closed 0 (by omega)
  | piece piece _ ih =>
    rw [List.append_assoc]
    exact reads.piece piece (ih (Nat.le_refl 2))
  | quote next ih =>
    have read := ih (by omega)
    cases next with
    | nil => exact reads.closed 1 (by omega)
    | piece piece _ =>
      obtain ⟨c, p, rfl, other, _⟩ := reads.first piece
      exact reads.single (fun _ same => other (List.cons.inj same).1) read
    | quote next =>
      cases next with
      | nil => exact reads.closed 2 (by omega)
      | piece piece _ =>
        obtain ⟨c, p, rfl, other, _⟩ := reads.first piece
        exact reads.single (fun _ same => other (List.cons.inj (List.cons.inj same).2).1) read
      | quote _ => omega

theorem dropFirstLineEnd_of_first (feed : s.head? ≠ some '\n') (carriage : s.head? ≠ some '\r') :
    dropFirstLineEnd s = s := by
  unfold dropFirstLineEnd
  split
  · exact absurd rfl feed
  · exact absurd rfl carriage
  · rfl

theorem ReadsLines.enclosed {quote : Char} {Piece : List Char → List Char → List Char → Prop}
    {read : List Char → Option (List Char × List Char)} (reads : ReadsLines quote Piece read rest)
    (solid : quote ∉ ['\r', '\n']) (text : Enclosed quote Piece s t) :
    read (dropFirstLineEnd (s ++ quote :: quote :: quote :: rest)) = some (t, rest) := by
  simp only [List.mem_cons, List.not_mem_nil, or_false, not_or] at solid
  cases text with
  | below ends lines =>
    rw [List.append_assoc, ← reads.read lines (Nat.le_refl 2)]
    cases ends <;> rfl
  | beside first lines =>
    rw [dropFirstLineEnd_of_first, reads.read lines (Nat.le_refl 2)]
    · cases s with
      | nil => simp [solid.2]
      | cons c s => exact first
    · cases lines with
      | nil | quote _ => simp [solid.1]
      | piece piece _ =>
        obtain ⟨c, p, rfl, _, other⟩ := reads.first piece
        simp [other]

theorem endsLine_spaces {a : List Char} (spaces : Spaces a) (ends : LineEnd e) (rest : List Char) :
    endsLine (a ++ (e ++ rest)) = true := by
  rw [endsLine, skipSpaces, List.dropWhile_append_of_pos spaces]
  cases ends <;> rfl

theorem readLines_plain (folding : Bool) (inside : ∀ s, c :: rest ≠ '"' :: '"' :: '"' :: s) (escape : c ≠ '\\')
    (line : c ∉ ['\r', '\n']) :
    readLines folding (c :: rest) =
      if isControl c then none
      else if folding && isSpace c then readLines true rest
      else prepend c (readLines false rest) := by
  simp only [List.mem_cons, List.not_mem_nil, or_false, not_or] at line
  rw [readLines]
  · exact fun _ first next => inside _ (by rw [first, next])
  · exact fun _ first next => inside _ (by rw [first, next])
  · exact fun _ first next => inside _ (by rw [first, next])
  · exact fun _ same => absurd same line.1
  · exact line.2
  · exact fun _ _ _ same => absurd same escape
  · exact fun _ _ _ _ _ same => absurd same escape
  · exact fun _ _ _ _ _ _ _ _ _ same => absurd same escape
  · exact escape

theorem readLines_blanks {b : List Char} (blanks : Blanks b) (rest : List Char) :
    readLines true (b ++ rest) = readLines true rest := by
  induction blanks with
  | nil => rfl
  | @space c b space _ ih =>
    rcases isSpace_iff.mp space with rfl | rfl
    · rw [List.cons_append, readLines_plain true (by simp) (by decide) (by decide)]
      exact ih
    · rw [List.cons_append, readLines_plain true (by simp) (by decide) (by decide)]
      exact ih
  | lineEnd ends _ ih =>
    cases ends with
    | feed =>
      rw [List.append_assoc, List.singleton_append, readLines]
      exact ih
    | carriage =>
      rw [List.append_assoc, List.cons_append, List.singleton_append, readLines]
      exact ih

theorem readLines_fold (folding : Bool) (ends : endsLine rest = true) :
    readLines folding ('\\' :: rest) = readLines true rest := by
  cases rest with
  | nil => cases ends
  | cons c rest =>
    rw [readLines, if_pos ends]
    all_goals
      intros
      rename_i same
      obtain ⟨rfl, _⟩ := List.cons.inj same
      cases ends

theorem readLines_solid (solid : Solid s) : readLines true s = readLines false s := by
  fun_cases readLines true s with
  | case5 | case7 => simp [Solid] at solid
  | case6 _ other | case8 _ other => exact absurd rfl other
  | case12 => rw [readLines_fold false ‹_›]
  | case13 | case14 => rw [readLines, if_neg ‹_›] <;> assumption
  | case16 => simp_all [Solid, isSpace]
  | case15 | case17 =>
    rw [readLines]
    all_goals simp_all
  | _ => rw [readLines] <;> assumption

theorem readLines_escape (escape : EscapeText e c) (rest : List Char) :
    readLines false ('\\' :: (e ++ rest)) = prepend c (readLines false rest) := by
  cases escape with
  | @short x c meant =>
    have other := short_ne meant
    simp only [List.mem_cons, List.not_mem_nil, or_false, not_or] at other
    obtain ⟨two, four, eight, space, tab, feed, carriage⟩ := other
    have inside : endsLine (x :: rest) = false := by simp [endsLine, skipSpaces, isSpace, space, tab, feed, carriage]
    rw [List.singleton_append, readLines, if_neg (by simp [inside]), meant]
    · rfl
    · exact fun _ _ _ same => absurd (List.cons.inj same).1 two
    · exact fun _ _ _ _ _ same => absurd (List.cons.inj same).1 four
    · exact fun _ _ _ _ _ _ _ _ _ same => absurd (List.cons.inj same).1 eight
  | two meant | four meant | eight meant =>
    simp only [List.cons_append, List.nil_append, readLines, meant]
    rfl

theorem Spaces.blanks {a b : List Char} (spaces : Spaces a) (blanks : Blanks b) : Blanks (a ++ b) := by
  induction a with
  | nil => exact blanks
  | cons c a ih =>
    obtain ⟨space, spaces⟩ := List.forall_mem_cons.mp spaces
    exact .space space (ih spaces)

theorem ne_line (printable : isControl c = false) : c ∉ ['\r', '\n'] := by
  simp only [List.mem_cons, List.not_mem_nil, or_false, not_or]
  constructor
  all_goals
    rintro rfl
    cases printable

theorem readLiteralLines_plain (inside : ∀ s, c :: rest ≠ '\'' :: '\'' :: '\'' :: s) (line : c ∉ ['\r', '\n']) :
    readLiteralLines (c :: rest) = if isControl c then none else prepend c (readLiteralLines rest) := by
  simp only [List.mem_cons, List.not_mem_nil, or_false, not_or] at line
  rw [readLiteralLines]
  · exact fun _ first next => inside _ (by rw [first, next])
  · exact fun _ first next => inside _ (by rw [first, next])
  · exact fun _ first next => inside _ (by rw [first, next])
  · exact fun _ same => absurd same line.1
  · exact line.2

theorem readsLines_basic (other : rest.head? ≠ some '"') : ReadsLines '"' BasicPiece (readLines false) rest where
  first piece := by
    cases piece with
    | plain printable quote _ => exact ⟨_, _, rfl, quote, fun is => ne_line printable (by simp [is])⟩
    | lineFeed | escape | fold => exact ⟨_, _, rfl, by decide, by decide⟩
  closed n few := by
    have apart (s : List Char) : rest ≠ '"' :: s := fun is => other (by rw [is]; rfl)
    match n with
    | 0 =>
      rw [List.replicate_zero, List.nil_append, readLines]
      · exact fun s is => apart _ is
      · exact fun s is => apart _ is
    | 1 =>
      rw [List.replicate_one, List.singleton_append, readLines]
      exact fun s is => apart _ is
    | 2 => rfl
  single few read := by
    rw [readLines_plain false (fun s is => few s (List.cons.inj is).2) (by decide) (by decide), read]
    rfl
  piece {p u s t} piece read := by
    cases piece with
    | plain printable quote escape =>
      rw [List.singleton_append, readLines_plain false (fun s is => quote (List.cons.inj is).1) escape
        (ne_line printable), printable, read]
      rfl
    | lineFeed =>
      rw [List.singleton_append, readLines, read]
      rfl
    | escape escape =>
      rw [List.cons_append, readLines_escape escape, read]
      rfl
    | @fold a e b _ spaces ends blanks solid =>
      have whole : Blanks (a ++ (e ++ b)) := spaces.blanks (.lineEnd ends blanks)
      have next : Solid (s ++ '"' :: '"' :: '"' :: rest) := by
        cases s with
        | nil => simp [Solid]
        | cons c s => exact solid
      rw [← readLines_solid next, ← readLines_blanks whole] at read
      rw [List.cons_append, readLines_fold, read]
      · rfl
      · simp only [List.append_assoc]
        exact endsLine_spaces spaces ends _

theorem readsLines_raw (other : rest.head? ≠ some '\'') : ReadsLines '\'' RawPiece readLiteralLines rest where
  first piece := by
    cases piece with
    | plain printable quote => exact ⟨_, _, rfl, quote, fun is => ne_line printable (by simp [is])⟩
    | lineFeed => exact ⟨_, _, rfl, by decide, by decide⟩
  closed n few := by
    have apart (s : List Char) : rest ≠ '\'' :: s := fun is => other (by rw [is]; rfl)
    match n with
    | 0 =>
      rw [List.replicate_zero, List.nil_append, readLiteralLines]
      · exact fun s is => apart _ is
      · exact fun s is => apart _ is
    | 1 =>
      rw [List.replicate_one, List.singleton_append, readLiteralLines]
      exact fun s is => apart _ is
    | 2 => rfl
  single few read := by
    rw [readLiteralLines_plain (fun s is => few s (List.cons.inj is).2) (by decide), read]
    rfl
  piece piece read := by
    cases piece with
    | plain printable quote =>
      rw [List.singleton_append, readLiteralLines_plain (fun s is => quote (List.cons.inj is).1) (ne_line printable),
        printable, read]
      rfl
    | lineFeed =>
      rw [List.singleton_append, readLiteralLines, read]
      rfl

theorem readString_basic (one : ∀ s', s ≠ '"' :: '"' :: s') : readString ('"' :: s) = readBasic s := by
  rw [readString]
  exact one

theorem readString_literal (one : ∀ s', s ≠ '\'' :: '\'' :: s') : readString ('\'' :: s) = readLiteral s := by
  rw [readString]
  exact one

theorem BasicText.first (text : BasicText s t) : s.head? ≠ some '"' := by
  cases text with
  | nil => simp
  | plain _ quote _ _ => simpa using quote
  | escape _ _ => simp

theorem readString_text (text : StringText s t) (other : ∀ c ∈ rest.head?, c ≠ '"' ∧ c ≠ '\'') :
    readString (s ++ rest) = some (t, rest) := by
  have basic : rest.head? ≠ some '"' := fun is => (other _ is).1 rfl
  have literal : rest.head? ≠ some '\'' := fun is => (other _ is).2 rfl
  cases text with
  | @basic s _ text =>
    rw [List.cons_append, List.append_assoc, List.singleton_append, readString_basic, readBasic_text text]
    rintro s' is
    cases s with
    | nil => exact basic (by simp_all)
    | cons c s => exact text.first (by simp_all)
  | literal raw =>
    rw [List.cons_append, List.append_assoc, List.singleton_append, readString_literal, readLiteral_raw raw]
    rintro s' is
    cases t with
    | nil => exact literal (by simp_all)
    | cons c s => exact (raw c (List.mem_cons_self ..)).2 (List.cons.inj is).1
  | basicLines text =>
    rw [List.cons_append, List.cons_append, List.cons_append, List.append_assoc, readString]
    exact (readsLines_basic basic).enclosed (by decide) text
  | rawLines text =>
    rw [List.cons_append, List.cons_append, List.cons_append, List.append_assoc, readString]
    exact (readsLines_raw literal).enclosed (by decide) text

example : readString "\"\"\"\na \\\n  b\"\"\"\"".toList = some ("a b\"".toList, []) := by decide +kernel

end SqlCompose.Toml
