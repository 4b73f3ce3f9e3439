import SqlCompose.Dialect.Quoted
import SqlCompose.Proofs.Columns
import SqlCompose.Proofs.Occurrences

namespace SqlCompose

theorem Text.toList_joined (separator : String) (items : List String) :
    (joined separator items).toList = separator.toList.intercalate (items.map String.toList) := by
  induction items with
  | nil => rfl
  | cons item rest ih =>
    cases rest with
    | nil => simp [joined]
    | cons next rest =>
      show (item ++ separator ++ joined separator (next :: rest)).toList = _
      rw [List.map_cons, List.map_cons, List.intercalate_cons_cons, ← List.map_cons, ← ih, String.toList_append,
        String.toList_append]

namespace Dialect

theorem intercalate_pathParts (name : List Char) : ['.'].intercalate (pathParts name) = name := by
  induction name with
  | nil => rfl
  | cons c rest ih =>
    obtain ⟨first, parts, read, _, _⟩ := pathParts_infix rest
    unfold pathParts
    split
    · rename_i point
      rw [read] at ih ⊢
      rw [List.intercalate_cons_cons, ih, point]
      rfl
    · rw [read] at ih ⊢
      cases parts with
      | nil => simpa using ih
      | cons next parts =>
        rw [List.intercalate_cons_cons] at ih ⊢
        exact congrArg (c :: ·) ih

variable {d : Dialect} {s name rest : List Char}

theorem separator_ne (d : Dialect) {c : Char} (separates : c ∈ [' ', ')', ',', '.']) : c ≠ d.closeQuote := by
  rintro rfl
  revert separates
  cases d <;> decide

def Past (d : Dialect) (rest : List Char) : Prop := ∀ c ∈ rest.head?, c ≠ d.closeQuote

theorem past_cons {c : Char} (other : c ≠ d.closeQuote) (rest : List Char) : d.Past (c :: rest) := by
  simpa [Past] using other

-- A name with its closing quotes doubled, up to a closing quote that stands alone.
theorem scanBody_quoted (close : Char) (name : List Char) (stops : ∀ c ∈ rest.head?, c ≠ close) :
    scanBody close ((name.flatMap fun c => if c = close then [c, c] else [c]) ++ close :: rest) =
      some (name, rest) := by
  induction name with
  | nil =>
    cases rest with
    | nil => simp [scanBody]
    | cons next rest => simp [scanBody, stops next rfl]
  | cons c name ih =>
    rw [List.flatMap_cons, List.append_assoc]
    split
    · rename_i same
      subst same
      simp [scanBody, ih]
    · rename_i other
      generalize (name.flatMap fun c => if c = close then [c, c] else [c]) ++ close :: rest = text at ih
      cases text with
      | nil => simp [scanBody] at ih
      | cons next text => simp [scanBody, other, ih]

theorem scan_quoteChars (d : Dialect) (name : List Char) (past : d.Past rest) :
    d.scan (d.quoteChars name ++ rest) = some (name, rest) := by
  rw [quoteChars, List.append_assoc, List.cons_append, List.singleton_append]
  exact (if_pos rfl).trans (scanBody_quoted d.closeQuote name past)

theorem scanBody_shorter {close : Char} (scanned : scanBody close s = some (name, rest)) : rest.length < s.length := by
  fun_induction scanBody close s generalizing name rest with
  | case1 => cases scanned
  | case2 => cases scanned; simp
  | case3 => cases scanned
  | case4 rest' ih =>
    obtain ⟨⟨_, _⟩, there, same⟩ := Option.map_eq_some_iff.mp scanned
    cases same
    have := ih there
    simp
    omega
  | case5 => cases scanned; simp
  | case6 c next rest' other ih =>
    obtain ⟨⟨_, _⟩, there, same⟩ := Option.map_eq_some_iff.mp scanned
    cases same
    have := ih there
    simp at this ⊢
    omega

theorem scan_shorter (scanned : d.scan s = some (name, rest)) : rest.length < s.length := by
  cases s with
  | nil => cases scanned
  | cons c s =>
    rw [scan] at scanned
    split at scanned
    · exact Nat.lt_succ_of_lt (scanBody_shorter scanned)
    · cases scanned

def scanNames (d : Dialect) (separator : String) (s : List Char) : Option (List (List Char) × List Char) :=
  match _ : d.scan s with
  | none => none
  | some (name, rest) =>
    match _ : dropPhrase separator rest with
    | none => some ([name], rest)
    | some more => (scanNames d separator more).map fun x => (name :: x.1, x.2)
termination_by s.length
decreasing_by exact Nat.lt_of_le_of_lt (dropPhrase_length ‹_›) (scan_shorter ‹_›)

def scanColumns (d : Dialect) (s : List Char) : Option (List (List Char) × List Char) :=
  match dropPhrase ") VALUES (" s with
  | some rest => some ([], rest)
  | none => do
    let (columns, rest) ← d.scanNames ", " s
    let rest ← dropPhrase ") VALUES (" rest
    some (columns, rest)

def scanInsert (d : Dialect) (s : List Char) : Option (String × List String × List Char) := do
  let rest ← dropPhrase "INSERT INTO " s
  let (parts, rest) ← d.scanNames "." rest
  let rest ← dropPhrase " (" rest
  let (columns, rest) ← d.scanColumns rest
  some (String.ofList (['.'].intercalate parts), columns.map String.ofList, rest)

theorem scanNames_eq (d : Dialect) (separator : String) (s : List Char) :
    d.scanNames separator s = (d.scan s).bind fun x =>
      match dropPhrase separator x.2 with
      | none => some ([x.1], x.2)
      | some more => (d.scanNames separator more).map fun y => (x.1 :: y.1, y.2) := by
  rw [scanNames]
  split
  · rename_i unquoted
    rw [unquoted]
    rfl
  · rename_i scanned
    rw [scanned, Option.bind_some]
    split <;> rename_i parted <;> simp only [parted]

theorem scanNames_intercalate {c : Char} {tail : List Char} {names : List (List Char)} (separator : String)
    (spelled : separator.toList = c :: tail) (other : c ≠ d.closeQuote) (filled : names ≠ [])
    (past : d.Past rest) (last : dropPhrase separator rest = none) :
    d.scanNames separator (separator.toList.intercalate (names.map d.quoteChars) ++ rest) = some (names, rest) := by
  induction names with
  | nil => exact absurd rfl filled
  | cons name more ih =>
    cases more with
    | nil =>
      rw [List.map_singleton, List.intercalate_singleton, scanNames_eq, d.scan_quoteChars name past, Option.bind_some]
      simp only [last]
    | cons next more =>
      have parted (s : List Char) : d.Past (separator.toList ++ s) := by
        rw [spelled]
        exact past_cons other _
      rw [List.map_cons, List.map_cons, List.intercalate_cons_cons, List.append_assoc, List.append_assoc,
        ← List.map_cons, scanNames_eq, d.scan_quoteChars name (parted _), Option.bind_some]
      simp only [dropPhrase_append, ih (List.cons_ne_nil _ _), Option.map_some]

theorem toList_quoted (d : Dialect) (separator : String) (names : List (List Char)) :
    (Text.joined separator (names.map fun name => d.quote (String.ofList name))).toList =
      separator.toList.intercalate (names.map d.quoteChars) := by
  rw [Text.toList_joined, List.map_map]
  congr 2
  funext name
  simp [quote]

theorem intercalate_opens (d : Dialect) (separator name : List Char) (more : List (List Char)) :
    ∃ tail, separator.intercalate (d.quoteChars name :: more) = d.openQuote :: tail := by
  cases more with
  | nil => exact ⟨_, List.intercalate_singleton⟩
  | cons next more => exact ⟨_, List.intercalate_cons_cons⟩

theorem scanColumns_quoted (d : Dialect) (columns : List String) (rest : List Char) :
    d.scanColumns ((Text.joined ", " (columns.map d.quote)).toList ++ (") VALUES (".toList ++ rest)) =
      some (columns.map String.toList, rest) := by
  have chars : (Text.joined ", " (columns.map d.quote)).toList =
      ", ".toList.intercalate ((columns.map String.toList).map d.quoteChars) := by
    rw [← toList_quoted, List.map_map]
    simp [Function.comp_def]
  cases columns with
  | nil =>
    show scanColumns d (") VALUES (".toList ++ rest) = _
    rw [scanColumns, dropPhrase_append]
    rfl
  | cons column more =>
    have past : d.Past (") VALUES (".toList ++ rest) := past_cons (c := ')') (d.separator_ne (by simp)) _
    have names := scanNames_intercalate (d := d) (c := ',') ", " rfl (d.separator_ne (by simp))
      (List.cons_ne_nil column.toList (more.map String.toList)) past rfl
    -- A quote opens here, so the list does not end at once.
    have opened : dropPhrase ") VALUES (" ((Text.joined ", " ((column :: more).map d.quote)).toList ++
        (") VALUES (".toList ++ rest)) = none := by
      obtain ⟨tail, begins⟩ := d.intercalate_opens ", ".toList column.toList ((more.map String.toList).map d.quoteChars)
      rw [chars, List.map_cons, List.map_cons, begins]
      cases d <;> rfl
    rw [scanColumns, opened, chars, List.map_cons]
    simp only [names, dropPhrase_append, Option.bind_eq_bind, Option.bind_some]

theorem toList_insert {s : Insert} (plain : s.clauses.flags.isEmpty = true) :
    s.sql.toList = "INSERT INTO ".toList ++ (".".toList.intercalate
      ((pathParts s.table.toList).map s.dialect.quoteChars) ++ (" (".toList ++
        ((Text.joined ", " (s.assignments.keys.map s.dialect.quote)).toList ++ (") VALUES (".toList ++
          (Text.trimStart (Text.listing "," s.assignments.values) ++ ")" ++
            s.clauses.renderReturning).toList)))) := by
  have flags : s.clauses.flags.render = "" := by
    rw [Flags.render, List.isEmpty_iff.mp plain]
    rfl
  have opens : "INSERT INTO ".toList = "INSERT".toList ++ ("".toList ++ " INTO ".toList) := by decide
  unfold Insert.sql
  rw [flags, Insert.columnList, ← toList_quoted, ← quotePath, opens]
  simp only [String.toList_append, List.append_assoc]

theorem scanInsert_sql {s : Insert} (plain : s.clauses.flags.isEmpty = true) :
    s.dialect.scanInsert s.sql.toList = some (s.table, s.assignments.keys,
      (Text.trimStart (Text.listing "," s.assignments.values) ++ ")" ++ s.clauses.renderReturning).toList) := by
  obtain ⟨first, parts, read, _, _⟩ := pathParts_infix s.table.toList
  have filled : pathParts s.table.toList ≠ [] := read ▸ List.cons_ne_nil _ _
  have table (more : List Char) := scanNames_intercalate (d := s.dialect) (c := '.') "." rfl
    (s.dialect.separator_ne (by simp)) filled
    (past_cons (c := ' ') (s.dialect.separator_ne (by simp)) ('(' :: more)) rfl
  have opened (more : List Char) : " (".toList ++ more = ' ' :: '(' :: more := rfl
  rw [toList_insert plain, scanInsert]
  simp only [dropPhrase_append, Option.bind_eq_bind, Option.bind_some]
  rw [opened, table, ← opened]
  simp only [dropPhrase_append, Option.bind_some, scanColumns_quoted, intercalate_pathParts, List.map_map]
  simp [Function.comp_def]

end Dialect

namespace Insert

-- A quoted name ends where it was made to end, whatever it holds. So an INSERT without flags says its table
-- and its columns, and none says those of another.
theorem quoted_names_recovered :
    (∀ (d : Dialect) (name : String) (rest : List Char), d.Past rest →
      d.scan ((d.quote name).toList ++ rest) = some (name.toList, rest)) ∧
    (∀ s : Insert, s.clauses.flags.isEmpty = true →
      s.dialect.scanInsert s.sql.toList = some (s.table, s.assignments.keys,
        (Text.trimStart (Text.listing "," s.assignments.values) ++ ")" ++ s.clauses.renderReturning).toList)) ∧
    ∀ s t : Insert, s.clauses.flags.isEmpty = true → t.clauses.flags.isEmpty = true → s.dialect = t.dialect →
      s.sql = t.sql → s.table = t.table ∧ s.assignments.keys = t.assignments.keys := by
  refine ⟨fun d name rest past => ?_, fun s plain => Dialect.scanInsert_sql plain, ?_⟩
  · rw [Dialect.quote, String.toList_ofList]
    exact d.scan_quoteChars name.toList past
  intro s t plain plain' dialects texts
  have read := Dialect.scanInsert_sql plain
  rw [dialects, texts, Dialect.scanInsert_sql plain'] at read
  simp only [Option.some.injEq, Prod.mk.injEq] at read
  exact ⟨read.1.symm, read.2.1.symm⟩

def deceptive (ordinal : UInt64) (v : Value) : Insert :=
  ((Insert.new .sqlsrv "main" ordinal).apply (.table "a].[b"))
    |>.apply (.column (.assignMany [.value "x], [y" v, .name "", .name ") VALUES ("]))

theorem quoted_names_recovered_deceptive :
    let s := deceptive 1 (.int 1)
    let t := deceptive 2 .null
    (Dialect.sqlsrv.Past ", [b]".toList ∧
      Dialect.sqlsrv.scan ((Dialect.sqlsrv.quote "a]").toList ++ ", [b]".toList) = some ("a]".toList, ", [b]".toList)) ∧
    s.clauses.flags.isEmpty = true ∧
      s.sql = "INSERT INTO [a]]].[[b] ([x]], [y], [], [) VALUES (]) VALUES (:x], [y, :, :) VALUES ()" ∧
      s.dialect.scanInsert s.sql.toList =
        some ("a].[b", ["x], [y", "", ") VALUES ("], ":x], [y, :, :) VALUES ()".toList) ∧
    t.clauses.flags.isEmpty = true ∧ s.dialect = t.dialect ∧ s.sql = t.sql ∧ s ≠ t ∧ s.table = t.table ∧
      s.assignments.keys = t.assignments.keys := by
  intro s t
  obtain ⟨scanned, recovered, injective⟩ := quoted_names_recovered
  have past : Dialect.sqlsrv.Past ", [b]".toList := Dialect.past_cons (c := ',') (by decide) _
  have spelled : s.sql = "INSERT INTO [a]]].[[b] ([x]], [y], [], [) VALUES (]) VALUES (:x], [y, :, :) VALUES ()" := by
    decide +kernel
  have spelled' : t.sql = "INSERT INTO [a]]].[[b] ([x]], [y], [], [) VALUES (]) VALUES (:x], [y, :, :) VALUES ()" := by
    decide +kernel
  have same := spelled.trans spelled'.symm
  have read := recovered s rfl
  have said : s.table = "a].[b" ∧ s.assignments.keys = ["x], [y", "", ") VALUES ("] ∧
      Text.trimStart (Text.listing "," s.assignments.values) ++ ")" ++ s.clauses.renderReturning =
        ":x], [y, :, :) VALUES ()" := by
    decide +kernel
  rw [said.1, said.2.1, said.2.2] at read
  exact ⟨⟨past, scanned .sqlsrv "a]" _ past⟩, rfl, spelled, read, rfl, rfl, same, by decide +kernel,
    injective s t rfl rfl rfl same⟩

end Insert

end SqlCompose
