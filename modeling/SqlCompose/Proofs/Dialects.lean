import SqlCompose.Proofs.LikeRuns

namespace SqlCompose

-- Two dialects whose texts differ by a change of characters, as long as callers keep to names without the marks and
-- no window is shown but those that both dialects write alike.
structure Requoting where
  change : Char → Char
  left : Dialect
  right : Dialect
  marks : List Char
  window : UInt64 → UInt64 → Prop
  reserved : marks ⊆ Text.reserved
  colon : ':' ∉ marks
  blank : ∀ c, Text.isBlank (change c) = Text.isBlank c
  fixes : ∀ {c}, c ∉ marks → change c = c
  quoted : ∀ {name}, Text.Without marks name → (left.quote name).map change = right.quote name
  early : ∀ {limit offset}, window limit offset →
    left.earlyWindow limit offset = right.earlyWindow limit offset
  late : ∀ {limit offset}, window limit offset →
    left.lateWindow limit offset = right.lateWindow limit offset

namespace Text

variable {f : Char → Char}

theorem map_append (f : Char → Char) (s t : String) : (s ++ t).map f = s.map f ++ t.map f := by
  rw [← String.toList_inj]
  simp

theorem map_trimStart (blank : ∀ c, isBlank (f c) = isBlank c) (s : String) :
    (trimStart s).map f = trimStart (s.map f) := by
  rw [← String.toList_inj]
  simp only [String.toList_map, toList_trimStart, List.dropWhile_map]
  exact congrArg (fun p => (s.toList.dropWhile p).map f) (funext fun c => (blank c).symm)

theorem map_same {marks : List Char} (fixes : ∀ {c}, c ∉ marks → f c = c) {s : String}
    (without : Without marks s) : s.map f = s := by
  rw [← String.toList_inj, String.toList_map]
  have each : ∀ c ∈ s.toList, f c = id c := fun c member => fixes fun marked => without c marked member
  rw [List.map_congr_left each, List.map_id]

end Text

namespace Requoting

variable (r : Requoting)

theorem colon_same : (":").map r.change = ":" := by
  refine Text.map_same r.fixes fun c marked member => r.colon ?_
  have is : c = ':' := List.mem_singleton.mp member
  exact is ▸ marked

theorem placeholder_same (k : Key) : k.placeholder.map r.change = k.placeholder := by
  rw [Key.placeholder, Text.map_append, r.colon_same, Text.map_same r.fixes (k.text_without.mono r.reserved)]

theorem spaced_same (s : String) : (if s.isEmpty then "" else " " ++ s).map r.change =
    if (s.map r.change).isEmpty then "" else " " ++ s.map r.change := by
  have empty : (s.map r.change).isEmpty = s.isEmpty := by
    rw [Bool.eq_iff_iff, String.isEmpty_iff, String.isEmpty_iff, ← String.toList_inj, ← String.toList_inj,
      String.toList_map]
    exact List.map_eq_nil_iff
  have blank : (" ").map r.change = " " := Text.map_same r.fixes (Text.Without.mono r.reserved (by decide))
  rw [empty]
  split
  · exact Text.map_same r.fixes (Text.without_empty _)
  · rw [Text.map_append, blank]

end Requoting

namespace Likeness

def anyText : Likeness where
  text _ _ := True
  fragment _ _ := True
  binds := Eq
  ordinal := Eq
  dialect _ _ := True
  window _ _ := True
  counter _ := True
  marks := []
  bound _ := True
  reserved := List.nil_subset _
  same _ := trivial
  append _ _ := trivial
  trimStart _ := trivial
  spaced _ := trivial
  quoted _ _ := trivial
  early _ _ := trivial
  late _ _ := trivial
  placeholder _ := trivial
  unbound := rfl
  brought _ := rfl
  named p same _ := congrArg (OrderedMap.insert · _ p) same
  generated q p same ordinal := by rw [same, ordinal]
  erased same _ := congrArg (OrderedMap.erase · _) same
  merged same incoming := congrArg₂ OrderedMap.merge same incoming
  whole _ := trivial
  column _ _ := trivial
  lead _ _ := trivial
  glue _ _ _ := trivial
  trimFragment _ := trivial

def requoting (r : Requoting) : Likeness where
  text s t := s.map r.change = t
  fragment s t := s.map r.change = t
  binds := Eq
  ordinal := Eq
  dialect d d' := d = r.left ∧ d' = r.right
  window := r.window
  counter _ := True
  marks := r.marks
  bound _ := True
  reserved := r.reserved
  same without := Text.map_same r.fixes without
  append left right := by rw [Text.map_append, left, right]
  trimStart text := by rw [Text.map_trimStart r.blank, text]
  spaced text := by rw [r.spaced_same, text]
  quoted dialect without := by
    rw [dialect.1, dialect.2]
    exact r.quoted without
  early dialect window := by
    rw [dialect.1, dialect.2, ← r.early window]
    exact Text.map_same r.fixes ((Dialect.earlyWindow_without _ _ _).mono r.reserved)
  late dialect window := by
    rw [dialect.1, dialect.2, ← r.late window]
    exact Text.map_same r.fixes ((Dialect.lateWindow_without _ _ _).mono r.reserved)
  placeholder ordinal := by rw [ordinal, r.placeholder_same]
  unbound := rfl
  brought _ := rfl
  named p same _ := congrArg (OrderedMap.insert · _ p) same
  generated q p same ordinal := by rw [same, ordinal]
  erased same _ := congrArg (OrderedMap.erase · _) same
  merged same incoming := congrArg₂ OrderedMap.merge same incoming
  whole text := text
  column without _ := by rw [Text.map_append, r.colon_same, Text.map_same r.fixes without]
  lead left right := by rw [Text.map_append, left, right]
  glue left right _ := by rw [Text.map_append, left, right]
  trimFragment text := by rw [Text.map_trimStart r.blank, text]

end Likeness

namespace Dialect

def standard : List Dialect := [pgsql, sqlite, ansi]

theorem standard_quotes : ∀ d ∈ standard, d.openQuote = '"' ∧ d.closeQuote = '"' ∧ d ≠ sqlsrv := by
  decide

variable {d d' : Dialect}

theorem quote_standard (left : d ∈ standard) (right : d' ∈ standard) (name : String) :
    d.quote name = d'.quote name := by
  obtain ⟨opens, closes, _⟩ := standard_quotes d left
  obtain ⟨opens', closes', _⟩ := standard_quotes d' right
  simp only [quote, quoteChars, opens, closes, opens', closes']

theorem earlyWindow_none (other : d ≠ sqlsrv) (limit offset : UInt64) : d.earlyWindow limit offset = "" :=
  if_neg fun early => other early.1

theorem lateWindow_same (other : d ≠ sqlsrv) (other' : d' ≠ sqlsrv) (limit offset : UInt64) :
    d.lateWindow limit offset = d'.lateWindow limit offset := by
  simp only [lateWindow, if_neg other, if_neg other']

theorem earlyWindow_zero (d : Dialect) : d.earlyWindow 0 0 = "" := if_neg fun early => early.2.1 rfl

theorem lateWindow_zero (d : Dialect) : d.lateWindow 0 0 = "" := by
  cases d <;> rfl

theorem quoteChars_plain {name : List Char} (plain : d.closeQuote ∉ name) :
    d.quoteChars name = d.openQuote :: name ++ [d.closeQuote] := by
  have single : ∀ c ∈ name, (if c = d.closeQuote then [c, c] else [c]) = [c] :=
    fun c member => if_neg fun (same : c = d.closeQuote) => plain (same ▸ member)
  rw [quoteChars, List.flatMap_congr single, List.flatMap_singleton']

theorem quote_map {f : Char → Char} {marks : List Char} {name : String}
    (fixes : ∀ {c}, c ∉ marks → f c = c) (opens : f d.openQuote = d'.openQuote)
    (closes : f d.closeQuote = d'.closeQuote) (marked : d.closeQuote ∈ marks) (marked' : d'.closeQuote ∈ marks)
    (without : Text.Without marks name) : (d.quote name).map f = d'.quote name := by
  have inside : name.toList.map f = name.toList := by
    rw [← String.toList_map, Text.map_same fixes without]
  rw [quote, quote, quoteChars_plain (without _ marked), quoteChars_plain (without _ marked'),
    ← String.toList_inj]
  simp [inside, opens, closes]

end Dialect

namespace Requoting

def standard {left right : Dialect} (standardLeft : left ∈ Dialect.standard)
    (standardRight : right ∈ Dialect.standard) : Requoting where
  change := id
  left := left
  right := right
  marks := []
  window _ _ := True
  reserved := List.nil_subset _
  colon := List.not_mem_nil
  blank _ := rfl
  fixes _ := rfl
  quoted _ := by
    rw [Dialect.quote_standard standardLeft standardRight]
    exact Text.map_same (fun _ => rfl) (Text.without_nil _)
  early _ := by
    rw [Dialect.earlyWindow_none (Dialect.standard_quotes _ standardLeft).2.2,
      Dialect.earlyWindow_none (Dialect.standard_quotes _ standardRight).2.2]
  late _ :=
    Dialect.lateWindow_same (Dialect.standard_quotes _ standardLeft).2.2
      (Dialect.standard_quotes _ standardRight).2.2 _ _

def unify (quotes : List Char) (c : Char) : Char := if c ∈ quotes then '"' else c

def toAnsi (d : Dialect) (quotes : List Char) (window : UInt64 → UInt64 → Prop)
    (reserved : quotes ⊆ Text.reserved) (colon : ':' ∉ quotes)
    (opens : d.openQuote ∈ quotes) (closes : d.closeQuote ∈ quotes)
    (early : ∀ {limit offset}, window limit offset → d.earlyWindow limit offset = "")
    (late : ∀ {limit offset}, window limit offset →
      d.lateWindow limit offset = Dialect.ansi.lateWindow limit offset) : Requoting where
  change := unify quotes
  left := d
  right := .ansi
  marks := '"' :: quotes
  window := window
  reserved := List.cons_subset.mpr ⟨by decide, reserved⟩
  colon := fun member => (List.mem_cons.mp member).elim (by decide) colon
  blank c := by
    unfold unify
    split
    · rename_i quoted
      have solid : ∀ c ∈ Text.reserved, Text.isBlank c = false := by simp [Text.reserved, Text.isBlank]
      rw [solid c (reserved quoted)]
      rfl
    · rfl
  fixes unmarked := if_neg fun quoted => unmarked (List.mem_cons_of_mem _ quoted)
  quoted without := by
    refine Dialect.quote_map (fun unmarked => ?_) (if_pos opens) (if_pos closes)
      (List.mem_cons_of_mem _ closes) (List.mem_cons_self ..) without
    exact if_neg fun quoted => unmarked (List.mem_cons_of_mem _ quoted)
  early shown := (early shown).trans (Dialect.earlyWindow_none (by decide) _ _).symm
  late := late

def backticks : Requoting :=
  toAnsi .mysql ['\x60'] (fun _ _ => True) (by decide) (by decide) (by decide) (by decide)
    (fun _ => Dialect.earlyWindow_none (by decide) _ _)
    (fun _ => Dialect.lateWindow_same (by decide) (by decide) _ _)

def brackets : Requoting :=
  toAnsi .sqlsrv ['[', ']'] (fun limit offset => limit = 0 ∧ offset = 0) (by decide) (by decide) (by decide)
    (by decide) (fun none => by rw [none.1, none.2, Dialect.earlyWindow_zero])
    (fun none => by rw [none.1, none.2, Dialect.lateWindow_zero, Dialect.lateWindow_zero])

end Requoting

def Factory.onDriver (driver : String) (f : Factory) : Factory := { f with dialect := .ofDriver driver }

def Maker.onDriver (driver : String) : Maker → Maker
  | .standalone _ counter => .standalone driver counter
  | maker => maker

def Command.onDriver (driver : String) : Command → Command
  | .create name kind maker asQuery => .create name kind (maker.onDriver driver) asQuery
  | .useFactory f => .useFactory (f.onDriver driver)
  | c => c

namespace Session

def onDriver (s : Session) (driver : String) : Session :=
  { s with factory := s.factory.map (·.onDriver driver), driver := driver }

def runOn (s : Session) (commands : List Command) (driver : String) : Except Fault Session :=
  (s.onDriver driver).run (commands.map (·.onDriver driver))

end Session

variable {L : Likeness} {left right : String}

theorem Factory.onDriver_alike (dialect : L.dialect (.ofDriver left) (.ofDriver right)) (f : Factory) :
    (f.onDriver left).Alike L (f.onDriver right) := .made dialect _ _

theorem Command.onDriver_alike (dialect : L.dialect (.ofDriver left) (.ofDriver right)) (c : Command) :
    (c.onDriver left).Alike L (c.onDriver right) := by
  cases c with
  | create name kind maker asQuery =>
    cases maker with
    | standalone => exact .create (.standalone dialect)
    | current => exact .create .current
    | connection => exact .create .connection
  | useFactory f => exact .useFactory (f.onDriver_alike dialect)
  | call => exact .call
  | subSelect => exact .subSelect
  | clone => exact .clone
  | unbind => exact .unbind
  | embed => exact .embed

theorem Session.onDriver_alike {s : Session} (empty : s.slots = .empty)
    (dialect : L.dialect (.ofDriver left) (.ofDriver right)) (same : L.ordinal = Eq) :
    (s.onDriver left).Alike L (s.onDriver right) where
  slots := by
    rw [onDriver, onDriver, empty]
    exact .nil
  counters name _ := by rw [same]; rfl
  factory := by
    unfold onDriver
    cases s.factory with
    | none => exact .none
    | some f => exact .some (f.onDriver_alike dialect)
  driver := dialect
  installed := rfl
  drawn drawn := by rw [same] at drawn ⊢; rw [drawn]

theorem Command.Given.onDriver {marks : List Char} {bound : String → Prop} {c : Command}
    (given : c.Given marks bound) (driver : String) : (c.onDriver driver).Given marks bound := by
  cases c with
  | call => exact given
  | create | useFactory | subSelect | clone | unbind | embed => trivial

theorem Command.given_unmarked (c : Command) : c.Given [] fun _ => True := by
  have embedded (r : Reference) : r.Given [] fun _ => True := by
    cases r with
    | rendered e => exact ⟨Text.without_nil _, fun _ _ => trivial⟩
    | slot | cloneOf => trivial
  cases c with
  | call name call =>
    intro u _
    cases u with
    | text | table => exact Text.without_nil _
    | column => exact ⟨Text.without_nil _, trivial⟩
    | absorb r => exact embedded r
    | bind | unbind | generate | handOut | clear | reset => trivial
  | create | useFactory | subSelect | clone | unbind | embed => trivial

theorem Command.drawsFrom_any {counter : String → Prop} (any : ∀ name, counter name) (s : Session) (c : Command) :
    c.DrawsFrom counter s := by
  unfold DrawsFrom
  split
  · split
    · exact any _
    · trivial
  · trivial

-- A program on two drivers stays side by side in every likeness of their dialects.
theorem Session.runOn_alike (dialect : L.dialect (.ofDriver left) (.ofDriver right))
    (same : L.ordinal = Eq) (any : ∀ name, L.counter name) {s : Session} (empty : s.slots = .empty)
    {commands : List Command}
    (given : ∀ c ∈ commands, c.Given L.marks L.bound)
    (shown : (s.onDriver left).Throughout (fun s c => ∀ sel ∈ c.shows s, sel.toDraft.Within L)
      (commands.map (·.onDriver left))) :
    Agrees (Session.Alike L) (s.runOn commands left) (s.runOn commands right) := by
  have like : List.Forall₂ (Command.Alike L) (commands.map (·.onDriver left)) (commands.map (·.onDriver right)) := by
    rw [List.forall₂_map_left_iff, List.forall₂_map_right_iff]
    exact List.forall₂_same.mpr fun c _ => c.onDriver_alike dialect
  refine (onDriver_alike empty dialect same).run like (shown.mono fun s c member within => ⟨?_, ?_, within⟩)
  · obtain ⟨c, there, rfl⟩ := List.mem_map.mp member
    exact (given c there).onDriver left
  · exact c.drawsFrom_any any s

namespace View

def bare (v : View) : View := { v with sql := "" }

def requoted (f : Char → Char) (v : View) : View := { v with sql := v.sql.map f }

theorem requoted_id (v : View) : v.requoted id = v := by
  have same : v.sql.map id = v.sql := Text.map_same (fun _ => rfl) (Text.without_nil v.sql)
  rw [requoted, same]

def windowless (v : View) : Bool := v.paging.all fun p => p.limit = 0 ∧ p.offset = 0

def Shows (window : UInt64 → UInt64 → Prop) (v : View) : Prop := ∀ p ∈ v.paging, window p.limit p.offset

theorem shows_of_windowless {v : View} (unwindowed : v.windowless = true) :
    v.Shows fun limit offset => limit = 0 ∧ offset = 0 := by
  intro p member
  have shown : v.paging = some p := member
  simpa [windowless, shown] using unwindowed

end View

theorem Statement.within_of_shows {st : Statement} (shown : st.view.Shows L.window) :
    st.paging? = none ∨ st.draft.Within L := by
  cases st with
  | insert => exact .inl rfl
  | select | update | delete => exact .inr (shown _ rfl)

theorem Statement.Alike.bare {st st' : Statement} (alike : st.Alike L st') (binds : L.binds = Eq) :
    st.view.bare = st'.view.bare := by
  have values : st.values = st'.values := binds ▸ alike.registry.values
  simp only [Statement.view, View.bare, alike.kind, alike.paging, values]

theorem Statement.Alike.requoted {r : Requoting} {st st' : Statement} (alike : st.Alike (.requoting r) st')
    (shown : st.view.Shows r.window) : st.view.requoted r.change = st'.view := by
  have text : st.sql.map r.change = st'.sql := alike.sql (within_of_shows shown)
  have others : st.view.bare = st'.view.bare := alike.bare rfl
  simp only [Statement.view, View.requoted, View.bare, View.mk.injEq] at others ⊢
  exact ⟨others.1, text, others.2.2⟩

namespace Session

def viewsOn (s : Session) (commands : List Command) (driver : String) : Except Fault (List (String × View)) :=
  (s.runOn commands driver).map views

def Renders (test : View → Bool) (s : Session) (c : Command) : Prop :=
  ∀ sel ∈ c.shows s, test (Statement.select sel).view = true

instance {test : View → Bool} (s : Session) : DecidablePred (Renders test s) :=
  fun c => inferInstanceAs (Decidable (∀ sel ∈ c.shows s, _))

variable {s : Session} {commands : List Command}

theorem viewsOn_alike {R : View → View → Prop}
    (together : Agrees (Session.Alike L) (s.runOn commands left) (s.runOn commands right))
    (each : ∀ st st' : Statement, st.Alike L st' → R st.view st'.view) :
    Agrees (List.Forall₂ fun x y => x.1 = y.1 ∧ R x.2 y.2) (s.viewsOn commands left)
      (s.viewsOn commands right) :=
  together.map fun _ _ alike => alike.views each

-- Each text whose window may be shown is found in the other one.
theorem viewsOn_requoted (r : Requoting) (onLeft : Dialect.ofDriver left = r.left)
    (onRight : Dialect.ofDriver right = r.right) (empty : s.slots = .empty)
    (given : ∀ c ∈ commands, c.Given r.marks fun _ => True)
    (shown : (s.onDriver left).Throughout (fun s c => ∀ sel ∈ c.shows s, (Statement.select sel).view.Shows r.window)
      (commands.map (·.onDriver left))) :
    Agrees (List.Forall₂ fun x y => x.1 = y.1 ∧ x.2.paging = y.2.paging ∧
        (x.2.Shows r.window → x.2.requoted r.change = y.2))
      (s.viewsOn commands left) (s.viewsOn commands right) := by
  have together : Agrees (Session.Alike (.requoting r)) (s.runOn commands left) (s.runOn commands right) :=
    runOn_alike (L := .requoting r) ⟨onLeft, onRight⟩ rfl (fun _ => trivial) empty given
      (shown.mono fun _ _ _ shows sel stands => shows sel stands _ rfl)
  exact viewsOn_alike (R := fun v v' => v.paging = v'.paging ∧ (v.Shows r.window → v.requoted r.change = v'))
    together fun _ _ alike => ⟨alike.paging, alike.requoted⟩

theorem viewsOn_requoted_always (r : Requoting) (onLeft : Dialect.ofDriver left = r.left)
    (onRight : Dialect.ofDriver right = r.right) (always : ∀ limit offset, r.window limit offset)
    (empty : s.slots = .empty) (given : ∀ c ∈ commands, c.Given r.marks fun _ => True) :
    (s.viewsOn commands left).map (List.map fun x => (x.1, x.2.requoted r.change)) = s.viewsOn commands right := by
  have shown : (s.onDriver left).Throughout
      (fun s c => ∀ sel ∈ c.shows s, (Statement.select sel).view.Shows r.window) (commands.map (·.onDriver left)) :=
    throughout_of (fun _ _ _ _ _ _ _ => always _ _) _
  have same := (viewsOn_requoted r onLeft onRight empty given shown).map_eq
    (f := List.map fun x => (x.1, x.2.requoted r.change)) (g := id) fun _ _ alike =>
      (List.eq_map_alike (alike.imp fun x y same =>
        Prod.ext same.1.symm (same.2.2 fun p _ => always p.limit p.offset).symm)).symm
  rwa [Except.map_id] at same

theorem viewsOn_standard {d d' : Dialect} (standard : d ∈ Dialect.standard) (standard' : d' ∈ Dialect.standard)
    (onLeft : Dialect.ofDriver left = d) (onRight : Dialect.ofDriver right = d') (empty : s.slots = .empty) :
    s.viewsOn commands left = s.viewsOn commands right := by
  have same := viewsOn_requoted_always (.standard standard standard') onLeft onRight (fun _ _ => trivial) empty
    fun c (_ : c ∈ commands) => c.given_unmarked
  have kept : (fun x : String × View => (x.1, x.2.requoted id)) = id := funext fun x => by
    rw [View.requoted_id]
    rfl
  simpa only [Requoting.standard, kept, List.map_id_fun, Except.map_id, id_eq] using same

-- A program gives the same statements on two dialects, but for the quotes of identifiers and the row
-- windows, and fails on both or on neither.
theorem dialects_diverge_in_quotes_and_windows {s : Session} (empty : s.slots = .empty)
    (commands : List Command) (left right : String) :
    ((s.viewsOn commands left).map (List.map fun x => (x.1, x.2.bare)) =
      (s.viewsOn commands right).map (List.map fun x => (x.1, x.2.bare))) ∧
    (Dialect.ofDriver left ∈ Dialect.standard → Dialect.ofDriver right ∈ Dialect.standard →
      s.viewsOn commands left = s.viewsOn commands right) ∧
    (Dialect.ofDriver left = .mysql → Dialect.ofDriver right = .ansi →
      (∀ c ∈ commands, c.Given ['"', '\x60'] fun _ => True) →
      (s.viewsOn commands left).map (List.map fun x => (x.1, x.2.requoted (Requoting.unify ['\x60']))) =
        s.viewsOn commands right) ∧
    (Dialect.ofDriver left = .sqlsrv → Dialect.ofDriver right = .ansi →
      (∀ c ∈ commands, c.Given ['"', '[', ']'] fun _ => True) →
      (s.onDriver left).Throughout (Renders View.windowless) (commands.map (·.onDriver left)) →
      (s.viewsOn commands left).map (fun views => (views.filter (·.2.windowless)).map fun x =>
          (x.1, x.2.requoted (Requoting.unify ['[', ']']))) =
        (s.viewsOn commands right).map (List.filter (·.2.windowless))) := by
  refine ⟨?_, fun onLeft onRight => ?_, fun onLeft onRight given => ?_,
    fun onLeft onRight given unwindowed => ?_⟩
  · have shown : (s.onDriver left).Throughout (fun s c => ∀ sel ∈ c.shows s, sel.toDraft.Within .anyText)
      (commands.map (·.onDriver left)) := throughout_of (fun _ _ _ _ _ => trivial) _
    have together : Agrees (Session.Alike .anyText) (s.runOn commands left) (s.runOn commands right) :=
      runOn_alike trivial rfl (fun _ => trivial) empty (fun c _ => c.given_unmarked) shown
    have bare := viewsOn_alike (R := fun v v' => v.bare = v'.bare) together fun _ _ alike => alike.bare rfl
    refine bare.map_eq fun _ _ alike => ?_
    rw [← List.forall₂_eq_eq_eq, List.forall₂_map_left_iff, List.forall₂_map_right_iff]
    exact alike.imp fun x y same => Prod.ext same.1 same.2
  · exact viewsOn_standard onLeft onRight rfl rfl empty
  · exact viewsOn_requoted_always .backticks onLeft onRight (fun _ _ => trivial) empty given
  · have shown := unwindowed.mono (Q := fun s c => ∀ sel ∈ c.shows s,
        (Statement.select sel).view.Shows Requoting.brackets.window)
      fun _ _ _ renders sel stands => View.shows_of_windowless (renders sel stands)
    refine (viewsOn_requoted .brackets onLeft onRight empty given shown).map_eq fun _ _ alike => ?_
    refine (List.eq_map_alike ((List.filter_alike alike fun x y same => ?_).imp fun x y same => ?_)).symm
    · rw [View.windowless, View.windowless, same.2.1]
    · exact Prod.ext same.2.1.symm (same.2.2.2 (View.shows_of_windowless same.1)).symm

end Session

def acrossDialects : List Command := [
  .create "c" .select (.standalone "" "main") false,
  .call "c" (.select (.columnsAs [("t.n", "amount")])),
  .call "c" (.select (.table (.text "t"))),
  .call "c" (.select (.filter (.equals [.column "id" (.scalar (.int 1) none)]))),
  .call "c" (.select (.union true)),
  .call "c" (.select (.table (.text "v"))),
  .create "i" .insert (.standalone "" "main") false,
  .call "i" (.insert (.table "app.log")),
  .call "i" (.insert (.column (.assign "n" (some (.int 2, none))))),
  .create "u" .update (.standalone "" "main") false,
  .call "u" (.update (.table "t")),
  .call "u" (.update (.column (.literal "n" "n + 1"))),
  .call "u" (.update (.filter (.ctes (.define "w" ["n"] (.statement (.cloneOf "c")))))),
  .call "u" (.update (.filter (.equals [.column "id" (.scalar (.int 3) none)]))),
  .call "c" (.select (.filter (.paging (.limit 5))))]

theorem Session.dialects_diverge_in_quotes_and_windows_embeddedUnion :
    (∀ c ∈ acrossDialects, c.Given ['"', '\x60'] fun _ => True) ∧
    (∀ c ∈ acrossDialects, c.Given ['"', '[', ']'] fun _ => True) ∧
    (({} : Session).onDriver "sqlsrv").Throughout (Renders View.windowless)
      (acrossDialects.map (·.onDriver "sqlsrv")) ∧
    (({} : Session).viewsOn acrossDialects "sqlsrv").map (List.map fun x => x.2.sql) =
      .ok ["SELECT t.n AS amount FROM t WHERE id = :_1_1_ UNION ALL SELECT TOP 5 * FROM v",
        "INSERT INTO [app].[log] ([n]) VALUES (:n)",
        "WITH [w] ([n]) AS (SELECT t.n AS amount FROM t WHERE id = :_1_1_ UNION ALL SELECT * FROM v) " ++
          "UPDATE t SET [n] = n + 1 WHERE id = :_3_1_"] ∧
    ({} : Session).viewsOn acrossDialects "postgres" = ({} : Session).viewsOn acrossDialects "sqlite" ∧
    (({} : Session).viewsOn acrossDialects "mysql").map
        (List.map fun x => (x.1, x.2.requoted (Requoting.unify ['\x60']))) =
      ({} : Session).viewsOn acrossDialects "odbc" ∧
    (({} : Session).viewsOn acrossDialects "sqlsrv").map (fun views => (views.filter (·.2.windowless)).map fun x =>
        (x.1, x.2.requoted (Requoting.unify ['[', ']']))) =
      (({} : Session).viewsOn acrossDialects "odbc").map (List.filter (·.2.windowless)) := by
  have noBacktick : ∀ c ∈ acrossDialects, c.Given ['"', '\x60'] fun _ => True := by decide +kernel
  have noBracket : ∀ c ∈ acrossDialects, c.Given ['"', '[', ']'] fun _ => True := by decide +kernel
  have unlimited : (({} : Session).onDriver "sqlsrv").Throughout (Renders View.windowless)
      (acrossDialects.map (·.onDriver "sqlsrv")) := by decide +kernel
  have standard := (dialects_diverge_in_quotes_and_windows (s := {}) rfl acrossDialects "postgres" "sqlite").2.1
    (by decide +kernel) (by decide +kernel)
  have backticks := (dialects_diverge_in_quotes_and_windows (s := {}) rfl acrossDialects "mysql" "odbc").2.2.1
    (by decide +kernel) (by decide +kernel) noBacktick
  have brackets := (dialects_diverge_in_quotes_and_windows (s := {}) rfl acrossDialects "sqlsrv" "odbc").2.2.2
    (by decide +kernel) (by decide +kernel) noBracket unlimited
  exact ⟨noBacktick, noBracket, unlimited, by decide +kernel, standard, backticks, brackets⟩

end SqlCompose
