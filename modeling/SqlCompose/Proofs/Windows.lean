import SqlCompose.Proofs.Lineages
import SqlCompose.Proofs.Members
import SqlCompose.Proofs.Reach
import SqlCompose.Proofs.Reading

namespace SqlCompose

namespace Dialect

open Text (numeral Ends ends_nil ends_cons)

variable {d : Dialect} {limit offset : UInt64}

theorem earlyWindow_standard (standard : d ≠ .sqlsrv) (limit offset : UInt64) : d.earlyWindow limit offset = "" :=
  if_neg fun top => standard top.1

theorem readWindow_standard (standard : d ≠ .sqlsrv) (limit offset : UInt64) :
    d.readWindow (d.earlyWindow limit offset).toList (d.lateWindow limit offset).toList =
      some (limit.toNat, offset.toNat) := by
  -- The limit ends where the blank before OFFSET stands, or at the end.
  have later : Ends (if offset = 0 then "" else " OFFSET " ++ numeral offset.toNat).toList ∧
      dropPhrase " LIMIT " (if offset = 0 then "" else " OFFSET " ++ numeral offset.toNat).toList = none := by
    split
    · exact ⟨ends_nil, rfl⟩
    · rw [String.toList_append]
      exact ⟨ends_cons (c := ' ') rfl _, rfl⟩
  have first := readOptional_append " LIMIT " limit later.1 later.2
  have second := readOptional_append " OFFSET " offset ends_nil rfl
  rw [List.append_nil] at second
  rw [earlyWindow_standard standard, lateWindow, if_neg standard, String.toList_append]
  unfold readWindow
  rw [if_neg standard, if_pos (by rfl), first]
  show ((readOptional " OFFSET " _).bind _) = _
  rw [second]
  rfl

theorem sqlsrv_top (limited : limit ≠ 0) :
    earlyWindow .sqlsrv limit 0 = " TOP " ++ numeral limit.toNat ∧ lateWindow .sqlsrv limit 0 = "" :=
  ⟨if_pos ⟨rfl, limited, rfl⟩, by simp [lateWindow]⟩

theorem sqlsrv_fetch (limited : limit ≠ 0) (later : offset ≠ 0) :
    earlyWindow .sqlsrv limit offset = "" ∧
      lateWindow .sqlsrv limit offset =
        " OFFSET " ++ numeral offset.toNat ++ " ROWS FETCH NEXT " ++ numeral limit.toNat ++ " ROWS ONLY" :=
  ⟨if_neg fun top => later top.2.2, by simp [lateWindow, limited, later]⟩

theorem readWindow_sqlsrv (limited : limit ≠ 0) (offset : UInt64) :
    readWindow .sqlsrv (earlyWindow .sqlsrv limit offset).toList (lateWindow .sqlsrv limit offset).toList =
      some (limit.toNat, offset.toNat) := by
  by_cases zero : offset = 0
  · have top := readPhrase_append " TOP " limit.toNat ends_nil
    rw [List.append_nil] at top
    rw [zero, (sqlsrv_top limited).1, (sqlsrv_top limited).2, String.toList_append]
    unfold readWindow
    show ((readPhrase " TOP " _).bind _) = _
    rw [top]
    rfl
  · have only : Ends " ROWS ONLY".toList := ends_cons (c := ' ') rfl _
    have second := readPhrase_append " ROWS FETCH NEXT " limit.toNat only
    have fetch : Ends (" ROWS FETCH NEXT ".toList ++ ((numeral limit.toNat).toList ++ " ROWS ONLY".toList)) :=
      ends_cons (c := ' ') rfl _
    have first := readPhrase_append " OFFSET " offset.toNat fetch
    rw [(sqlsrv_fetch limited zero).1, (sqlsrv_fetch limited zero).2]
    simp only [String.toList_append, List.append_assoc]
    unfold readWindow
    show ((readPhrase " OFFSET " _).bind _) = _
    rw [first]
    show ((readPhrase " ROWS FETCH NEXT " _).bind _) = _
    rw [second]
    rfl

theorem readWindow_window (limited : limit ≠ 0) (d : Dialect) (offset : UInt64) :
    d.readWindow (d.earlyWindow limit offset).toList (d.lateWindow limit offset).toList =
      some (limit.toNat, offset.toNat) := by
  by_cases sqlsrv : d = .sqlsrv
  · rw [sqlsrv]
    exact readWindow_sqlsrv limited offset
  · exact readWindow_standard sqlsrv limit offset

theorem earlyWindow_eq_empty (limited : limit ≠ 0) (d : Dialect) (offset : UInt64) :
    d.earlyWindow limit offset = "" ↔ d.lateWindow limit offset ≠ "" := by
  by_cases sqlsrv : d = .sqlsrv
  · subst sqlsrv
    by_cases zero : offset = 0
    · rw [zero, (sqlsrv_top limited).1, (sqlsrv_top limited).2]
      simp
    · rw [(sqlsrv_fetch limited zero).1, (sqlsrv_fetch limited zero).2]
      simp
  · rw [earlyWindow_standard sqlsrv, lateWindow, if_neg sqlsrv, if_neg limited]
    simp

end Dialect

theorem Paging.Reads.window {d : UInt64} {calls : List PagingCall} {p : Paging} (reads : p.Reads d calls)
    (numbered : p.page ≠ 0) (near : p.perPage.toNat * (p.page.toNat - 1) < UInt64.size) :
    p.limit = p.perPage ∧ p.offset.toNat = p.perPage.toNat * (p.page.toNat - 1) := by
  obtain ⟨n, paged⟩ := not_forall_not.mp (mt reads.page_eq_zero.mpr numbered)
  obtain ⟨rfl, limit, offset⟩ := reads.paged n paged
  exact ⟨limit, by omega⟩

theorem reads_hereditary :
    Hereditary .free (fun st => ∀ p ∈ st.paging?, ∃ d calls, Paging.Reads d calls p) fun _ => True where
  created f kind ordinal := by
    cases kind with
    | insert => exact nofun
    | select | update | delete =>
      rintro p ⟨⟩
      exact ⟨f.perPage, [], .new f.perPage⟩
  subSelect sel ordinal := by
    rintro p ⟨⟩
    exact ⟨_, [], .new sel.clauses.paging.default⟩
  clone st ordinal reads := by cases st <;> exact reads
  embedded _ _ := trivial
  brought _ _ := trivial
  composed st st' call reads _ _ composed := by
    intro p shown
    rw [Statement.compose_paging composed] at shown
    obtain ⟨before, there, rfl⟩ := Option.map_eq_some_iff.mp shown
    obtain ⟨d, calls, read⟩ := reads before there
    cases call.paging? with
    | none => exact ⟨d, calls, read⟩
    | some c => exact ⟨d, calls ++ [c], read.step c⟩

namespace Select

variable {s : Select}

-- The text of a select around the two places of its row window: up to the place behind SELECT and its flags, from
-- there to the place near the end, and what follows that.
def lead (s : Select) : String :=
  s.front ++ (if s.aliasName.isEmpty then "" else "(") ++ "SELECT" ++ s.clauses.flags.render

def middle (s : Select) : String :=
  s.columnsText ++ s.clauses.tables.render ++ s.clauses.conditions.render "WHERE" ++
    Clauses.renderBy "GROUP" s.clauses.group ++ s.clauses.having.render "HAVING" ++
    Clauses.renderBy "ORDER" s.clauses.order

def trail (s : Select) : String :=
  (if s.forUpdate then " FOR UPDATE" else "") ++ if s.aliasName.isEmpty then "" else ") AS " ++ s.aliasName

def earlyWindow (s : Select) : String := s.dialect.earlyWindow s.clauses.paging.limit s.clauses.paging.offset

def windowed (s : Select) (p : Paging) : Select := { s with clauses.paging := p }

theorem windowed_sql (s : Select) (p : Paging) :
    (s.windowed p).sql =
      s.lead ++ (s.windowed p).earlyWindow ++ s.middle ++ (s.windowed p).lateWindow ++ s.trail := by
  have inner : (s.windowed p).body = "SELECT" ++ s.clauses.flags.render ++ (s.windowed p).earlyWindow ++ s.middle ++
      (s.windowed p).lateWindow ++ if s.forUpdate then " FOR UPDATE" else "" := by
    unfold body middle
    simp only [String.append_assoc]
    rfl
  have named : (s.windowed p).sql = s.front ++
      if s.aliasName.isEmpty then (s.windowed p).body else "(" ++ (s.windowed p).body ++ ") AS " ++ s.aliasName := by
    rw [sql_front, alone_sql]
    rfl
  rw [named, inner, lead, trail]
  split <;> simp only [String.append_assoc, String.append_empty]

def window? (s : Select) : Option (Nat × Nat) := s.dialect.readWindow s.earlyWindow.toList s.lateWindow.toList

def Takes (s : Select) (row : Nat) : Prop :=
  ∃ limit offset, s.window? = some (limit, offset) ∧ offset ≤ row ∧ (limit ≠ 0 → row < offset + limit)

theorem takes_iff {limit offset row : Nat} (window : s.window? = some (limit, offset)) (limited : limit ≠ 0) :
    s.Takes row ↔ offset ≤ row ∧ row < offset + limit := by
  simp [Takes, window, limited]

theorem page_window {d : UInt64} {calls : List PagingCall} (reads : s.clauses.paging.Reads d calls)
    (numbered : 1 ≤ s.clauses.paging.page.toNat) (filled : 1 ≤ s.clauses.paging.perPage.toNat)
    (near : s.clauses.paging.perPage.toNat * (s.clauses.paging.page.toNat - 1) < UInt64.size) :
    s.window? = some (s.clauses.paging.perPage.toNat,
      s.clauses.paging.perPage.toNat * (s.clauses.paging.page.toNat - 1)) := by
  have paged : s.clauses.paging.page ≠ 0 := UInt64.pos_iff_ne_zero.mp numbered
  obtain ⟨limit, offset⟩ := reads.window paged near
  have limited : s.clauses.paging.limit ≠ 0 := UInt64.pos_iff_ne_zero.mp (limit ▸ filled)
  rw [← offset, ← limit]
  exact s.dialect.readWindow_window limited _

theorem page_of_row {size page row : Nat} (filled : 1 ≤ size) (numbered : 1 ≤ page) :
    row / size + 1 = page ↔ size * (page - 1) ≤ row ∧ row < size * page := by
  obtain ⟨earlier, rfl⟩ := Nat.exists_eq_add_of_le' numbered
  rw [Nat.add_right_cancel_iff, Nat.div_eq_iff filled, Nat.add_sub_cancel, Nat.mul_comm earlier, Nat.mul_add]
  omega

-- Limit and offset are read back from the text in every dialect, so a page of a select has the rows that its number
-- and its size give, and each row is on one page.
theorem windows_denote_pages :
    (∀ (d : Dialect) (limit offset : UInt64), 0 < limit →
      (d.earlyWindow limit offset = "" ↔ d.lateWindow limit offset ≠ "") ∧
        d.readWindow (d.earlyWindow limit offset).toList (d.lateWindow limit offset).toList =
          some (limit.toNat, offset.toNat)) ∧
    (∀ (d : Dialect) (limit offset : UInt64), d ≠ .sqlsrv →
      d.readWindow (d.earlyWindow limit offset).toList (d.lateWindow limit offset).toList =
        some (limit.toNat, offset.toNat)) ∧
    ∀ (start next : Session) (commands : List Command) (sel : Select), start.slots = .empty →
      Session.run start commands = .ok next → sel ∈ next.selects →
      let page := sel.clauses.paging.page.toNat
      let size := sel.clauses.paging.perPage.toNat
      (∀ p, (sel.windowed p).sql =
        sel.lead ++ (sel.windowed p).earlyWindow ++ sel.middle ++ (sel.windowed p).lateWindow ++ sel.trail) ∧
      (1 ≤ page → 1 ≤ size → size * (page - 1) < UInt64.size →
        sel.window? = some (size, size * (page - 1)) ∧
          (∀ row, sel.Takes row ↔ size * (page - 1) ≤ row ∧ row < size * page) ∧
          ∀ row, sel.Takes row ↔ row / size + 1 = page) := by
  refine ⟨fun d limit offset positive => ?_, fun d limit offset standard => d.readWindow_standard standard _ _, ?_⟩
  · have limited := UInt64.pos_iff_ne_zero.mp positive
    exact ⟨d.earlyWindow_eq_empty limited offset, d.readWindow_window limited offset⟩
  intro start next commands sel empty ran stands page size
  refine ⟨sel.windowed_sql, fun numbered filled near => ?_⟩
  obtain ⟨d, calls, reads⟩ := reads_hereditary.reached empty ran _ (Session.mem_selects.mp stands) _ rfl
  have window := page_window reads numbered filled near
  have past : size * (page - 1) + size = size * page := by
    rw [← Nat.mul_succ, Nat.succ_eq_add_one, Nat.sub_add_cancel numbered]
  have takes (row : Nat) : sel.Takes row ↔ size * (page - 1) ≤ row ∧ row < size * page := by
    rw [takes_iff window (Nat.ne_of_gt filled), past]
  exact ⟨window, takes, fun row => (takes row).trans (page_of_row filled numbered).symm⟩

def pagedTwice : List Command := [
  .create "a" .select (.standalone "sqlsrv" "main") false,
  .call "a" (.select (.distinct true)),
  .call "a" (.select (.columns ["n"])),
  .call "a" (.select (.filter (.paging (.page 1)))),
  .call "a" (.select (.filter (.paging (.perPage 4)))),
  .call "a" (.select (.setAlias "x")),
  .clone "a" "b",
  .call "b" (.select (.filter (.paging (.page 2)))),
  .create "c" .select (.standalone "mysql" "main") true,
  .call "c" (.select (.filter (.paging (.limit 9)))),
  .call "c" (.select (.union true)),
  .call "c" (.select (.filter (.paging (.perPage 4)))),
  .call "c" (.select (.filter (.paging (.page 2)))),
  .call "c" (.select (.forUpdate true))]

theorem windows_denote_pages_otherDialect :
    (0 < (0xffffffffffffffff : UInt64) ∧
      Dialect.readWindow .sqlsrv (Dialect.earlyWindow .sqlsrv 0xffffffffffffffff 7).toList
        (Dialect.lateWindow .sqlsrv 0xffffffffffffffff 7).toList = some (0xffffffffffffffff, 7)) ∧
    (Dialect.ansi ≠ .sqlsrv ∧
      Dialect.readWindow .ansi (Dialect.earlyWindow .ansi 0 7).toList (Dialect.lateWindow .ansi 0 7).toList =
        some (0, 7)) ∧
    ∃ next a b c, Session.run {} pagedTwice = .ok next ∧ (a ∈ next.selects ∧ b ∈ next.selects ∧ c ∈ next.selects) ∧
      a.sql = "(SELECT DISTINCT TOP 4 n) AS x" ∧
      b.sql = "(SELECT DISTINCT n OFFSET 4 ROWS FETCH NEXT 4 ROWS ONLY) AS x" ∧
      c.sql = "SELECT * LIMIT 9 UNION ALL SELECT * LIMIT 4 OFFSET 4 FOR UPDATE" ∧
      (∀ row, a.Takes row ↔ row / 4 + 1 = 1) ∧ (∀ row, b.Takes row ↔ row / 4 + 1 = 2) ∧
      ∀ row, c.Takes row ↔ row / 4 + 1 = 2 := by
  obtain ⟨limited, standard, pages⟩ := windows_denote_pages
  refine ⟨⟨by decide, (limited .sqlsrv 0xffffffffffffffff 7 (by decide)).2⟩,
    ⟨by decide, standard .ansi 0 7 (by decide)⟩, ?_⟩
  have reached : Session.Reaches {} pagedTwice fun next =>
      (∃ a ∈ next.selects, a.sql = "(SELECT DISTINCT TOP 4 n) AS x" ∧
        a.clauses.paging.page = 1 ∧ a.clauses.paging.perPage = 4) ∧
      (∃ b ∈ next.selects, b.sql = "(SELECT DISTINCT n OFFSET 4 ROWS FETCH NEXT 4 ROWS ONLY) AS x" ∧
        b.clauses.paging.page = 2 ∧ b.clauses.paging.perPage = 4) ∧
      ∃ c ∈ next.selects, c.sql = "SELECT * LIMIT 9 UNION ALL SELECT * LIMIT 4 OFFSET 4 FOR UPDATE" ∧
        c.clauses.paging.page = 2 ∧ c.clauses.paging.perPage = 4 := by
    decide +kernel
  obtain ⟨next, ran, ⟨a, standsA, sqlA, pageA, sizeA⟩, ⟨b, standsB, sqlB, pageB, sizeB⟩, c, standsC, sqlC, pageC,
    sizeC⟩ := reached.exists
  have rows {sel : Select} {page : UInt64} (stands : sel ∈ next.selects) (size : sel.clauses.paging.perPage = 4)
      (is : sel.clauses.paging.page = page) (near : 1 ≤ page.toNat ∧ 4 * (page.toNat - 1) < UInt64.size) (row : Nat) :
      sel.Takes row ↔ row / 4 + 1 = page.toNat := by
    have taken := (pages {} next pagedTwice sel rfl ran stands).2
    rw [is, size] at taken
    exact (taken near.1 (by decide) near.2).2.2 row
  exact ⟨next, a, b, c, ran, ⟨standsA, standsB, standsC⟩, sqlA, sqlB, sqlC,
    rows standsA sizeA pageA (by decide), rows standsB sizeB pageB (by decide), rows standsC sizeC pageC (by decide)⟩

end Select

end SqlCompose
