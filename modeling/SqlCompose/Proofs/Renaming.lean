import SqlCompose.Proofs.LikeRuns

namespace SqlCompose

namespace Key

def shift (n m : UInt64) (k : Key) : Key := ⟨k.ordinal - n + m, k.sequence⟩

def ofChars? (s : List Char) : Option Key :=
  match s with
  | '_' :: rest =>
    match Text.readNumeral rest with
    | some (ordinal, '_' :: rest) =>
      match Text.readNumeral rest with
      | some (sequence, _) =>
        let k : Key := ⟨.ofNat ordinal, .ofNat sequence⟩
        if k.text.toList = s then some k else none
      | none => none
    | _ => none
  | _ => none

-- A key that can be generated is renamed, and a name that a caller chose is not.
def rename (f : Key → Key) (key : String) : String :=
  match ofChars? key.toList with
  | some k => (f k).text
  | none => key

variable {f g : Key → Key} {key : String}

theorem ofChars?_text (k : Key) : ofChars? k.text.toList = some k := by
  have whole : k.text.toList = '_' :: ((Text.numeral k.ordinal.toNat).toList ++
      '_' :: ((Text.numeral k.sequence.toNat).toList ++ '_' :: [])) := by
    simp [toList_text, Placeholder.form]
  have first := Text.readNumeral_numeral k.ordinal.toNat
    (Text.ends_cons (c := '_') rfl ((Text.numeral k.sequence.toNat).toList ++ '_' :: []))
  have second := Text.readNumeral_numeral k.sequence.toNat (Text.ends_cons (c := '_') rfl [])
  rw [whole]
  simp only [ofChars?, first, second, UInt64.ofNat_toNat]
  exact if_pos whole

theorem toList_of_ofChars? {s : List Char} {k : Key} (read : ofChars? s = some k) : s = k.text.toList := by
  unfold ofChars? at read
  split at read
  · split at read
    · split at read
      · dsimp only at read
        split at read
        · rename_i same
          cases read
          exact same.symm
        · cases read
      · cases read
    · cases read
  · cases read

theorem rename_text (f : Key → Key) (k : Key) : rename f k.text = (f k).text := by
  rw [rename, ofChars?_text]

theorem rename_other (foreign : ofChars? key.toList = none) : rename f key = key := by
  rw [rename, foreign]

theorem rename_parts (f : Key → Key) (key : String) :
    (∃ k : Key, key = k.text ∧ rename f key = (f k).text) ∨
      (∀ k : Key, key ≠ k.text) ∧ rename f key = key := by
  cases read : ofChars? key.toList with
  | some k =>
    have same : key = k.text := String.toList_inj.mp (toList_of_ofChars? read)
    exact .inl ⟨k, same, same ▸ rename_text f k⟩
  | none =>
    refine .inr ⟨fun k same => ?_, rename_other read⟩
    rw [same, ofChars?_text] at read
    cases read

theorem ofChars?_starts {s : List Char} (starts : s.head? ≠ some '_') : ofChars? s = none := by
  unfold ofChars?
  split
  · exact absurd rfl starts
  · rfl

theorem rename_rename (inverse : ∀ k, g (f k) = k) (key : String) : rename g (rename f key) = key := by
  cases read : ofChars? key.toList with
  | none => rw [rename_other read, rename_other read]
  | some k =>
    have same : key = k.text := String.toList_inj.mp (toList_of_ofChars? read)
    rw [same, rename_text, rename_text, inverse]

theorem shift_shift (n m : UInt64) (k : Key) : shift m n (shift n m k) = k := by
  have back : k.ordinal - n + m - m + n = k.ordinal := by grind
  cases k
  simp only [shift, back]

end Key

namespace Placeholder

variable {f : Key → Key}

def renameFrom (f : Key → Key) : Nat → List Char → List Char
  | _, [] => []
  | skip + 1, _ :: rest => renameFrom f skip rest
  | 0, c :: rest =>
    match if c = ':' then readGenerated rest else none with
    | some key => c :: (Key.rename f (String.ofList key)).toList ++ renameFrom f key.length rest
    | none => c :: renameFrom f 0 rest

def rename (f : Key → Key) (sql : String) : String := String.ofList (renameFrom f 0 sql.toList)

theorem renameFrom_drop (f : Key → Key) (skip : Nat) (s : List Char) :
    renameFrom f skip s = renameFrom f 0 (s.drop skip) := by
  induction s generalizing skip with
  | nil => cases skip <;> rfl
  | cons c rest ih =>
    cases skip with
    | zero => rfl
    | succ skip => exact ih skip

theorem renameFrom_other {c : Char} {rest : List Char}
    (foreign : (if c = ':' then readGenerated rest else none) = none) :
    renameFrom f 0 (c :: rest) = c :: renameFrom f 0 rest := by
  rw [renameFrom, foreign]

theorem renameFrom_head (f : Key → Key) (c : Char) (rest : List Char) :
    ∃ tail, renameFrom f 0 (c :: rest) = c :: tail := by
  rw [renameFrom]
  split
  · exact ⟨_, rfl⟩
  · exact ⟨_, rfl⟩

theorem renameFrom_generated (f : Key → Key) (k : Key) (rest : List Char) :
    renameFrom f 0 (k.placeholder.toList ++ rest) = (f k).placeholder.toList ++ renameFrom f 0 rest := by
  have own : readGenerated k.text.toList = some k.text.toList := isGenerated_iff.mp k.text_isGenerated
  have read : readGenerated (k.text.toList ++ rest) = some k.text.toList :=
    readGenerated_iff.mpr ⟨own, List.prefix_append _ _⟩
  have split (k : Key) : k.placeholder.toList = ':' :: k.text.toList := Text.toList_colon k.text
  rw [split, split, List.cons_append, renameFrom, if_pos rfl, read]
  simp only [String.ofList_toList, Key.rename_text, List.cons_append]
  rw [renameFrom_drop, List.drop_left]

theorem renameFrom_plain {s : List Char} (plain : ':' ∉ s) (rest : List Char) :
    renameFrom f 0 (s ++ rest) = s ++ renameFrom f 0 rest := by
  induction s with
  | nil => rfl
  | cons c s ih =>
    obtain ⟨other, plain⟩ := not_or.mp (mt List.mem_cons.mpr plain)
    rw [List.cons_append, renameFrom_other (if_neg (Ne.symm other)), ih plain]
    rfl

-- A text is renamed to another, whatever admissible text follows it.
def Renames (f : Key → Key) (after : List Char → Prop) (t t' : String) : Prop :=
  ∀ rest, after rest → renameFrom f 0 (t.toList ++ rest) = t'.toList ++ renameFrom f 0 rest

abbrev Anything : List Char → Prop := fun _ => True

abbrev NoUnderscore (rest : List Char) : Prop := rest.head? ≠ some '_'

theorem NoUnderscore.append {s t : List Char} (left : NoUnderscore s) (right : NoUnderscore t) :
    NoUnderscore (s ++ t) := by
  cases s with
  | nil => exact right
  | cons c s => exact left

namespace Renames

variable {after : List Char → Prop} {s s' t t' : String}

theorem plain (plain : Text.Plain t) : Renames f after t t :=
  fun rest _ => renameFrom_plain plain rest

theorem rename_eq (renames : Renames f after t t') (nothing : after []) : rename f t = t' := by
  have whole := renames [] nothing
  simp only [List.append_nil] at whole
  rw [rename, whole]
  exact (congrArg String.ofList (List.append_nil _)).trans String.ofList_toList

theorem toList_eq (renames : Renames f after t t') (nothing : after []) :
    t'.toList = renameFrom f 0 t.toList := by
  rw [← renames.rename_eq nothing, rename, String.toList_ofList]

theorem append (left : Renames f Anything s s') (right : Renames f after t t') :
    Renames f after (s ++ t) (s' ++ t') := by
  intro rest next
  simp only [String.toList_append, List.append_assoc]
  rw [left _ trivial, right rest next]

theorem glue (left : Renames f NoUnderscore s s') (right : Renames f NoUnderscore t t')
    (head : t.toList.head? ≠ some '_') : Renames f NoUnderscore (s ++ t) (s' ++ t') := by
  intro rest next
  have first : NoUnderscore (t.toList ++ rest) := NoUnderscore.append head next
  simp only [String.toList_append, List.append_assoc]
  rw [left _ first, right rest next]

theorem placeholder (k : Key) : Renames f Anything k.placeholder (f k).placeholder :=
  fun rest _ => renameFrom_generated f k rest

theorem column {c : String} (plain : Text.Plain c) (first : c.toList.head? ≠ some '_') :
    Renames f NoUnderscore (":" ++ c) (":" ++ c) := by
  intro rest next
  have starts : NoUnderscore (c.toList ++ rest) := NoUnderscore.append first next
  have unread : readGenerated (c.toList ++ rest) = none := by
    unfold readGenerated
    split
    · rename_i tail same
      rw [same] at starts
      exact absurd rfl starts
    · rfl
  rw [Text.toList_colon, List.cons_append, renameFrom_other ((if_pos rfl).trans unread), renameFrom_plain plain]
  rfl

theorem dropBlanks {cs cs' : List Char} (nothing : after [])
    (renames : ∀ rest, after rest → renameFrom f 0 (cs ++ rest) = cs' ++ renameFrom f 0 rest) :
    ∀ rest, after rest → renameFrom f 0 (cs.dropWhile Text.isBlank ++ rest) =
      cs'.dropWhile Text.isBlank ++ renameFrom f 0 rest := by
  have whole : cs' = renameFrom f 0 cs := by
    have alone := renames [] nothing
    rw [List.append_nil, renameFrom, List.append_nil] at alone
    exact alone.symm
  induction cs generalizing cs' with
  | nil =>
    rw [whole]
    exact fun rest _ => rfl
  | cons c cs ih =>
    by_cases blank : Text.isBlank c = true
    · have other : c ≠ ':' := by
        rintro rfl
        cases blank
      have first (rest : List Char) : renameFrom f 0 (c :: rest) = c :: renameFrom f 0 rest :=
        renameFrom_other (if_neg other)
      rw [first] at whole
      rw [whole, List.dropWhile_cons_of_pos blank, List.dropWhile_cons_of_pos blank]
      refine ih (fun rest next => ?_) rfl
      have there := renames rest next
      rw [whole, List.cons_append, first, List.cons_append] at there
      exact (List.cons.inj there).2
    · obtain ⟨tail, head⟩ := renameFrom_head f c cs
      rw [head] at whole
      rw [whole] at renames ⊢
      rwa [List.dropWhile_cons_of_neg blank, List.dropWhile_cons_of_neg blank]

theorem trimStart (renames : Renames f after t t') (nothing : after []) :
    Renames f after (Text.trimStart t) (Text.trimStart t') := by
  intro rest next
  rw [Text.toList_trimStart, Text.toList_trimStart]
  exact dropBlanks nothing renames rest next

theorem spaced (renames : Renames f Anything t t') :
    Renames f Anything (if t.isEmpty then "" else " " ++ t) (if t'.isEmpty then "" else " " ++ t') := by
  have whole := renames.toList_eq trivial
  have same : t.isEmpty = t'.isEmpty := by
    rw [Bool.eq_iff_iff, String.isEmpty_iff, String.isEmpty_iff, ← String.toList_inj, ← String.toList_inj, whole]
    cases t.toList with
    | nil => exact .rfl
    | cons c rest =>
      obtain ⟨tail, head⟩ := renameFrom_head f c rest
      rw [head]
      exact ⟨nofun, nofun⟩
  rw [← same]
  split
  · exact .plain Text.plain_empty
  · exact (Renames.plain (by decide)).append renames

end Renames

end Placeholder

open Placeholder (Renames Anything NoUnderscore)

abbrev Chosen (name : String) : Prop := name.toList.head? ≠ some '_'

namespace Key

theorem rename_chosen {f : Key → Key} {key : String} (chosen : Chosen key) : rename f key = key :=
  rename_other (ofChars?_starts chosen)

theorem shift_unique (n m : UInt64) :
    Relator.BiUnique fun k k' => k' = rename (shift n m) k := by
  constructor
  · intro k l k' left right
    have back := rename_rename (shift_shift n m)
    rw [← back k, ← back l, ← left, ← right]
  · exact fun _ _ _ left right => left.trans right.symm

end Key

-- A renaming of generated keys that takes some ordinals to others, and how the values bound on
-- one side are to those bound on the other.
structure Renumbering where
  rename : Key → Key
  ordinal : UInt64 → UInt64 → Prop
  counter : String → Prop
  binds : BindMap → BindMap → Prop
  renames : ∀ {o o'}, ordinal o o' → ∀ q, rename ⟨o, q⟩ = ⟨o', q⟩
  unbound : binds .empty .empty
  brought : ∀ {m : BindMap}, (∀ k ∈ m.keys, Chosen k) → binds m m
  named : ∀ {m m' : BindMap} {k} (p : Param), binds m m' → Chosen k → binds (m.insert k p) (m'.insert k p)
  generated : ∀ {m m' : BindMap} {o o'} (q) (p : Param), binds m m' → ordinal o o' →
    binds (m.insert (Key.mk o q).text p) (m'.insert (Key.mk o' q).text p)
  erased : ∀ {m m' : BindMap} {k}, binds m m' → Chosen k → binds (m.erase k) (m'.erase k)
  merged : ∀ {m m' n n' : BindMap}, binds m m' → binds n n' → binds (m.merge n) (m'.merge n')

def Likeness.renaming (r : Renumbering) : Likeness where
  text := Renames r.rename Anything
  fragment := Renames r.rename NoUnderscore
  binds := r.binds
  ordinal := r.ordinal
  dialect := Eq
  window _ _ := True
  counter := r.counter
  marks := [':']
  bound := Chosen
  reserved := Text.colon_reserved
  same without := .plain (Text.plain_iff.mpr without)
  append left right := left.append right
  trimStart renames := renames.trimStart trivial
  spaced renames := renames.spaced
  quoted dialect without := dialect ▸ .plain (Dialect.quote_plain _ (Text.plain_iff.mpr without))
  early dialect _ := dialect ▸ .plain (Dialect.earlyWindow_plain _ _ _)
  late dialect _ := dialect ▸ .plain (Dialect.lateWindow_plain _ _ _)
  placeholder {_ _ q} ordinal := r.renames ordinal q ▸ .placeholder _
  unbound := r.unbound
  brought := r.brought
  named := r.named
  generated := r.generated
  erased := r.erased
  merged := r.merged
  whole renames rest _ := renames rest trivial
  column without chosen := .column (Text.plain_iff.mpr without) chosen
  lead left right := left.append right
  glue left right head := left.glue right head
  trimFragment renames := renames.trimStart nofun

def Renumbering.shifting (counter : String) (n m : UInt64) : Renumbering where
  rename := Key.shift n m
  ordinal o o' := o' = o - n + m
  counter name := name = counter
  binds held held' := held.Alike (fun k k' => k' = Key.rename (Key.shift n m) k) Eq held'
  renames ordinal _ := by
    rw [ordinal]
    rfl
  unbound := .nil
  brought given := List.forall₂_same.mpr fun x member =>
    ⟨(Key.rename_chosen (given x.1 (OrderedMap.mem_keys_of_mem member))).symm, rfl⟩
  named p alike chosen := alike.insert (Key.shift_unique n m) (Key.rename_chosen chosen).symm rfl
  generated q p alike ordinal := by
    refine alike.insert (Key.shift_unique n m) ?_ rfl
    rw [ordinal, Key.rename_text]
    rfl
  erased alike chosen := alike.erase (Key.shift_unique n m) (Key.rename_chosen chosen).symm
  merged alike incoming := alike.merge (Key.shift_unique n m) incoming

abbrev Likeness.renumbering (counter : String) (n m : UInt64) : Likeness := .renaming (.shifting counter n m)

def Session.startingAt (s : Session) (counter : String) (n : UInt64) : Session :=
  { s with counters := ⟨s.counters.last.insert counter n⟩ }

def View.renamed (f : Key → Key) (v : View) : View :=
  { v with
    sql := Placeholder.rename f v.sql
    values := ⟨v.values.entries.map fun x => (Key.rename f x.1, x.2)⟩ }

theorem Statement.Alike.view_renamed {r : Renumbering} {st st' : Statement} (alike : st.Alike (.renaming r) st')
    (values : st.values.Alike (fun k k' => k' = Key.rename r.rename k) Eq st'.values) :
    st'.view = st.view.renamed r.rename := by
  have sql : Renames r.rename NoUnderscore st.sql st'.sql := alike.sql (.inr trivial)
  have shown : st'.values = ⟨st.values.entries.map fun x => (Key.rename r.rename x.1, x.2)⟩ :=
    congrArg OrderedMap.mk (OrderedMap.Alike.entries_eq values)
  simp only [Statement.view, View.renamed, ← alike.kind, ← alike.paging, sql.rename_eq nofun, shown]

variable {counter : String} {n m : UInt64}

theorem Statement.Alike.renamed {st st' : Statement} (alike : st.Alike (.renumbering counter n m) st') :
    st'.view = st.view.renamed (Key.shift n m) := alike.view_renamed alike.registry.values

theorem Session.startingAt_alike {s : Session} (empty : s.slots = .empty) (counter : String) (n m : UInt64) :
    (s.startingAt counter n).Alike (.renumbering counter n m) (s.startingAt counter m) where
  slots := by
    rw [startingAt, startingAt, empty]
    exact .nil
  counters name same := by
    have current (n : UInt64) : (s.startingAt counter n).counters.current name = n := by
      simp only [Counters.current, startingAt, OrderedMap.get?_insert, if_pos same.symm, Option.getD_some]
    rw [current, current]
    change m = n - n + m
    grind
  factory := by
    have same (f : Factory) : f.Alike (.renumbering counter n m) f := ⟨rfl, rfl, rfl⟩
    change Option.Rel _ s.factory s.factory
    cases s.factory with
    | none => exact .none
    | some f => exact .some (same f)
  driver := rfl
  installed := rfl
  drawn {o o'} ordinal := by
    change o' = o - n + m at ordinal
    change o' + 1 = o + 1 - n + m
    grind

theorem Command.Alike.refl (dialects : ∀ d, L.dialect d d) (c : Command) : c.Alike L c := by
  cases c with
  | create name kind maker asQuery =>
    cases maker with
    | standalone => exact .create (.standalone (dialects _))
    | current => exact .create .current
    | connection => exact .create .connection
  | useFactory f => exact .useFactory ⟨dialects _, rfl, rfl⟩
  | call => exact .call
  | subSelect => exact .subSelect
  | clone => exact .clone
  | unbind => exact .unbind
  | embed => exact .embed

-- From another value of the counter a program gives the same statements, but for the ordinals of the
-- generated keys, and fails where it fails.
theorem Session.ordinals_only_name {s : Session} (empty : s.slots = .empty) (counter : String) (n m : UInt64)
    {commands : List Command}
    (oneCounter : (s.startingAt counter n).Throughout (Command.DrawsFrom (· = counter)) commands)
    (given : ∀ c ∈ commands, c.Given [':'] Chosen) :
    ((s.startingAt counter m).run commands).map views =
      ((s.startingAt counter n).run commands).map fun s =>
        s.views.map fun x => (x.1, x.2.renamed (Key.shift n m)) := by
  have fits := oneCounter.mono fun s c member drawn =>
    (⟨given c member, drawn, fun _ _ => trivial⟩ : c.Fits (.renumbering counter n m) s)
  have same (c : Command) : c.Alike (.renumbering counter n m) c := .refl (fun _ => rfl) c
  have together := (startingAt_alike empty counter n m).run (List.forall₂_same.mpr fun c _ => same c) fits
  refine (together.map_eq fun _ _ alike => ?_).symm
  have shown := alike.views (R := fun v v' => v' = v.renamed (Key.shift n m)) fun _ _ => Statement.Alike.renamed
  exact (List.eq_map_alike (shown.imp fun _ _ view => Prod.ext view.1.symm view.2)).symm

def clonedAndJoined : List Command := [
  .create "s" .select (.standalone "mysql" "main") false,
  .call "s" (.select (.filter (.equals [.column "id" (.list [.int 1, .int 2] none)]))),
  .clone "s" "c",
  .call "c" (.select (.setAlias "x")),
  .call "c" (.select (.filter (.condition (.add .or "n > " (some (.scalar (.int 3) none)))))),
  .call "s" (.select (.union false)),
  .call "s" (.select (.table (.text "t"))),
  .call "s" (.select (.join "left" (.statement (.slot "c")) "x.id = " (some (.scalar (.int 4) none)))),
  .create "u" .update (.standalone "mysql" "main") false,
  .call "u" (.update (.table "t")),
  .call "u" (.update (.column (.assign "n" (some (.int 5, none))))),
  .call "u" (.update (.filter (.ctes (.define "w" [] (.statement (.cloneOf "s")))))),
  .call "u" (.update (.filter (.equals [.column "id" (.scalar (.int 6) none)])))]

theorem Session.ordinals_only_name_clonedAndJoined :
    (({} : Session).startingAt "main" 8).Throughout (Command.DrawsFrom (· = "main")) clonedAndJoined ∧
      (∀ c ∈ clonedAndJoined, c.Given [':'] Chosen) ∧
      ((({} : Session).startingAt "main" 8).run clonedAndJoined).map (fun s => s.views.map fun x => x.2.sql) =
        .ok ["SELECT * WHERE id IN (:_9_1_, :_9_2_) UNION SELECT * FROM t " ++
            "LEFT JOIN (SELECT * WHERE id IN (:_9_1_, :_9_2_) OR n > :_10_3_) AS x ON x.id = :_9_3_",
          "WITH \x60w\x60 AS (SELECT * WHERE id IN (:_9_1_, :_9_2_) UNION SELECT * FROM t " ++
            "LEFT JOIN (SELECT * WHERE id IN (:_9_1_, :_9_2_) OR n > :_10_3_) AS x ON x.id = :_9_3_) " ++
            "UPDATE t SET \x60n\x60 = :n WHERE id = :_11_1_"] ∧
      ((({} : Session).startingAt "main" 99).run clonedAndJoined).map views =
        ((({} : Session).startingAt "main" 8).run clonedAndJoined).map fun s =>
          s.views.map fun x => (x.1, x.2.renamed (Key.shift 8 99)) := by
  have oneCounter : (({} : Session).startingAt "main" 8).Throughout (Command.DrawsFrom (· = "main"))
      clonedAndJoined := by decide +kernel
  have given : ∀ c ∈ clonedAndJoined, c.Given [':'] Chosen := by decide +kernel
  exact ⟨oneCounter, given, by decide +kernel, ordinals_only_name rfl "main" 8 99 oneCounter given⟩

end SqlCompose
