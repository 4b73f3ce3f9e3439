import SqlCompose.Clause.Paging
import SqlCompose.Proofs.Latest

namespace SqlCompose

open Log (latest? since)

namespace PagingCall

def limit? : PagingCall → Option UInt64
  | .limit n => some n
  | _ => none

def offset? : PagingCall → Option UInt64
  | .offset n => some n
  | _ => none

def perPage? : PagingCall → Option UInt64
  | .perPage n | .defaultPerPage n => some n
  | _ => none

def defaultPerPage? : PagingCall → Option UInt64
  | .defaultPerPage n => some n
  | _ => none

def isReset (c : PagingCall) : Bool := c = .reset

def authority? : PagingCall → Option PagingCall
  | .page n => some (.page n)
  | .reset => some .reset
  | .limit _ | .offset _ | .perPage _ | .defaultPerPage _ => none

def isAuthority (c : PagingCall) : Bool := c.authority?.isSome

-- The latest page or reset was this page, and neither a limit nor an offset has come since.
def Paged (calls : List PagingCall) (n : UInt64) : Prop :=
  latest? authority? calls = some (.page n) ∧ 0 < n ∧
    ∀ c ∈ since isAuthority calls, c.limit? = none ∧ c.offset? = none

instance (calls : List PagingCall) (n : UInt64) : Decidable (Paged calls n) :=
  inferInstanceAs (Decidable (_ ∧ _ ∧ ∀ c ∈ _, _))

theorem paged_concat (calls : List PagingCall) (c : PagingCall) (n : UInt64) :
    Paged (calls ++ [c]) n ↔
      match c with
      | .page m => m = n ∧ 0 < n
      | .perPage _ | .defaultPerPage _ => Paged calls n
      | .limit _ | .offset _ | .reset => False := by
  cases c with
  | page | reset => simp [Paged, isAuthority, authority?]
  | limit | offset => simp [Paged, isAuthority, authority?, limit?, offset?]
  | perPage | defaultPerPage =>
    rw [Paged, Log.latest?_concat, Log.since_concat]
    refine and_congr .rfl (and_congr .rfl ⟨fun all => (List.forall_mem_append.mp all).1, fun all => ?_⟩)
    exact List.forall_mem_append.mpr ⟨all, List.forall_mem_singleton.mpr ⟨rfl, rfl⟩⟩

end PagingCall

open PagingCall

namespace Paging

def ShowsPage (p : Paging) (n : UInt64) : Prop :=
  p.page = n ∧ p.limit = p.perPage ∧ p.offset.toNat = min (p.perPage.toNat * (n.toNat - 1)) (UInt64.size - 1)

def ShowsRows (p : Paging) (limit offset : Option UInt64) : Prop :=
  p.page = 0 ∧ p.limit = limit.getD 0 ∧ p.offset = offset.getD 0

theorem recompute_page {p : Paging} (numbered : p.page ≠ 0) : p.recompute.ShowsPage p.page := by
  have bounded : min (p.perPage.toNat * (p.page.toNat - 1)) Number.maxWord < UInt64.size :=
    Nat.lt_of_le_of_lt (Nat.min_le_right _ _) (by decide)
  have offset : (firstRow p.perPage p.page).toNat = min (p.perPage.toNat * (p.page.toNat - 1)) (UInt64.size - 1) :=
    UInt64.toNat_ofNat_of_lt' bounded
  simp [ShowsPage, recompute, numbered, offset]

theorem setPerPage_page {p : Paging} (numbered : p.page ≠ 0) (n : UInt64) : (p.setPerPage n).ShowsPage p.page := by
  rw [setPerPage, if_neg numbered]
  exact recompute_page (p := { p with perPage := n }) numbered

theorem apply_default (p : Paging) (c : PagingCall) :
    (p.apply c).default = c.defaultPerPage?.getD p.default := by
  cases c <;> simp only [apply, setLimit, setOffset, setPage, setPerPage, setDefaultPerPage, recompute] <;>
    repeat (first | rfl | split)

theorem apply_perPage (p : Paging) (c : PagingCall) :
    (p.apply c).perPage = if c.isReset then p.default else c.perPage?.getD p.perPage := by
  cases c <;> simp only [apply, setLimit, setOffset, setPage, setPerPage, setDefaultPerPage, recompute] <;>
    repeat (first | rfl | split)

structure Reads (d : UInt64) (calls : List PagingCall) (p : Paging) : Prop where
  default : p.default = (latest? defaultPerPage? calls).getD d
  perPage : p.perPage = (latest? perPage? (since isReset calls)).getD p.default
  paged : ∀ n, Paged calls n → p.ShowsPage n
  unpaged : (∀ n, ¬ Paged calls n) →
    p.ShowsRows (latest? limit? (since isAuthority calls)) (latest? offset? (since isAuthority calls))

namespace Reads

variable {d : UInt64} {calls : List PagingCall} {p : Paging}

theorem new (d : UInt64) : Reads d [] (.new d) where
  default := rfl
  perPage := by simp [Paging.new]
  paged n paged := by simp [Paged] at paged
  unpaged _ := by simp [ShowsRows, Paging.new]

theorem page_eq_zero (reads : Reads d calls p) : p.page = 0 ↔ ∀ n, ¬ Paged calls n := by
  constructor
  · intro unset n paged
    have positive := paged.2.1
    rw [← (reads.paged n paged).1, unset] at positive
    exact absurd positive (by decide)
  · exact fun unpaged => (reads.unpaged unpaged).1

theorem asked (reads : Reads d calls p) :
    (p.page = 0 ∧ p.ShowsRows (latest? limit? (since isAuthority calls)) (latest? offset? (since isAuthority calls))) ∨
      (p.page ≠ 0 ∧ latest? limit? (since isAuthority calls) = none ∧
        latest? offset? (since isAuthority calls) = none) := by
  by_cases unset : p.page = 0
  · exact .inl ⟨unset, reads.unpaged (reads.page_eq_zero.mp unset)⟩
  · obtain ⟨n, paged⟩ := not_forall_not.mp (mt reads.page_eq_zero.mpr unset)
    exact .inr ⟨unset, Log.latest?_eq_none.mpr fun c there => (paged.2.2 c there).1,
      Log.latest?_eq_none.mpr fun c there => (paged.2.2 c there).2⟩

theorem step (reads : Reads d calls p) (c : PagingCall) : Reads d (calls ++ [c]) (p.apply c) where
  default := by
    rw [apply_default, reads.default, Log.latest?_concat]
    cases c.defaultPerPage? <;> rfl
  perPage := by
    rw [apply_perPage, apply_default, reads.perPage, Log.since_concat]
    cases c <;> simp [isReset, perPage?, defaultPerPage?]
  paged n paged := by
    rw [paged_concat] at paged
    cases c with
    | limit | offset | reset => cases paged
    | page m =>
      obtain ⟨rfl, positive⟩ := paged
      exact recompute_page (p := { p with page := m }) (UInt64.pos_iff_ne_zero.mp positive)
    | perPage m =>
      obtain ⟨shown, _, _⟩ := reads.paged n paged
      have numbered : p.page ≠ 0 := fun unset => reads.page_eq_zero.mp unset n paged
      exact shown ▸ setPerPage_page numbered m
    | defaultPerPage m =>
      obtain ⟨shown, _, _⟩ := reads.paged n paged
      have numbered : p.page ≠ 0 := fun unset => reads.page_eq_zero.mp unset n paged
      exact shown ▸ setPerPage_page (p := { p with default := m }) numbered m
  unpaged never := by
    simp only [paged_concat] at never
    rw [Log.since_concat]
    cases c with
    | limit n =>
      rcases reads.asked with ⟨unpaged, _, _, offset⟩ | ⟨paged, _, offset⟩
      · simp [ShowsRows, apply, setLimit, unpaged, isAuthority, authority?, limit?, offset?, offset]
      · simp [ShowsRows, apply, setLimit, paged, isAuthority, authority?, limit?, offset?, offset]
    | offset n =>
      rcases reads.asked with ⟨unpaged, _, limit, _⟩ | ⟨paged, limit, _⟩
      · simp [ShowsRows, apply, setOffset, unpaged, isAuthority, authority?, limit?, offset?, limit]
      · simp [ShowsRows, apply, setOffset, paged, isAuthority, authority?, limit?, offset?, limit]
    | page n =>
      have unset : n = 0 := by_contra fun positive => never n ⟨rfl, UInt64.pos_iff_ne_zero.mpr positive⟩
      simp [ShowsRows, apply, setPage, recompute, unset, isAuthority, authority?]
    | reset => simp [ShowsRows, apply, Paging.reset, Paging.new, isAuthority, authority?]
    | perPage n | defaultPerPage n =>
      obtain ⟨unpaged, limit, offset⟩ := reads.unpaged never
      simp [ShowsRows, apply, setDefaultPerPage, setPerPage, unpaged, limit, offset, isAuthority, authority?, limit?,
        offset?]

theorem run (d : UInt64) (calls : List PagingCall) : Reads d calls (calls.foldl apply (.new d)) := by
  induction calls using List.reverseRecOn with
  | nil => exact new d
  | append_singleton earlier c ih =>
    rw [List.foldl_concat]
    exact ih.step c

end Reads

-- Either a page is in force, and gives limit and offset, or both are what was asked
-- for since the latest page or reset.
theorem last_authority_decides (d : UInt64) (calls : List PagingCall) :
    let p := calls.foldl apply (.new d)
    (∀ n, Paged calls n →
      p.page = n ∧ p.limit = p.perPage ∧ p.offset.toNat = min (p.perPage.toNat * (n.toNat - 1)) (UInt64.size - 1)) ∧
    ((∀ n, ¬ Paged calls n) →
      p.page = 0 ∧ p.limit = (latest? limit? (since isAuthority calls)).getD 0 ∧
        p.offset = (latest? offset? (since isAuthority calls)).getD 0) ∧
    p.perPage = (latest? perPage? (since isReset calls)).getD p.default ∧
    p.default = (latest? defaultPerPage? calls).getD d := by
  have reads := Reads.run d calls
  exact ⟨reads.paged, reads.unpaged, reads.perPage, reads.default⟩

def distantPage : List PagingCall :=
  [.page 2, .offset 7, .defaultPerPage 40, .reset, .limit 9, .page 4, .perPage 0x8000000000000000]

theorem last_authority_decides_distantPage :
    let p := distantPage.foldl apply (.new 25)
    Paged distantPage 4 ∧ p.page = 4 ∧ p.limit = 0x8000000000000000 ∧ p.offset = 0xffffffffffffffff ∧
      p.perPage = 0x8000000000000000 ∧ p.default = 40 := by
  have paged : Paged distantPage 4 := by decide
  obtain ⟨window, _, perPage, default⟩ := last_authority_decides 25 distantPage
  obtain ⟨page, limit, offset⟩ := window 4 paged
  have size : (distantPage.foldl apply (.new 25)).perPage = 0x8000000000000000 := perPage
  rw [size] at limit offset
  exact ⟨paged, page, limit, UInt64.toNat_inj.mp offset, size, default⟩

end Paging

end SqlCompose
