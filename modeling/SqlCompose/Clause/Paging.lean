import SqlCompose.Number.Power

namespace SqlCompose

-- Whichever was set last decides: a page computes limit and offset, and setting either of them leaves page mode.
structure Paging where
  limit : UInt64 := 0
  offset : UInt64 := 0
  page : UInt64 := 0
  perPage : UInt64
  default : UInt64
  deriving DecidableEq, Repr, Inhabited

namespace Paging

def standardPerPage : UInt64 := 10

def new (perPage : UInt64) : Paging := { perPage := perPage, default := perPage }

def firstRow (perPage page : UInt64) : UInt64 :=
  UInt64.ofNat (min (perPage.toNat * (page.toNat - 1)) Number.maxWord)

def recompute (p : Paging) : Paging :=
  if p.page = 0 then { p with limit := 0, offset := 0 }
  else { p with limit := p.perPage, offset := firstRow p.perPage p.page }

def setLimit (p : Paging) (n : UInt64) : Paging :=
  if p.page = 0 then { p with limit := n } else { p with limit := n, page := 0, offset := 0 }

def setOffset (p : Paging) (n : UInt64) : Paging :=
  if p.page = 0 then { p with offset := n } else { p with offset := n, page := 0, limit := 0 }

def setPage (p : Paging) (n : UInt64) : Paging := { p with page := n }.recompute

def setPerPage (p : Paging) (n : UInt64) : Paging :=
  let p := { p with perPage := n }
  if p.page = 0 then p else p.recompute

def setDefaultPerPage (p : Paging) (n : UInt64) : Paging :=
  { p with default := n }.setPerPage n

def reset (p : Paging) : Paging := .new p.default

end Paging

inductive PagingCall where
  | limit (n : UInt64)
  | offset (n : UInt64)
  | page (n : UInt64)
  | perPage (n : UInt64)
  | defaultPerPage (n : UInt64)
  | reset
  deriving DecidableEq, Repr

def Paging.apply (p : Paging) : PagingCall → Paging
  | .limit n => p.setLimit n
  | .offset n => p.setOffset n
  | .page n => p.setPage n
  | .perPage n => p.setPerPage n
  | .defaultPerPage n => p.setDefaultPerPage n
  | .reset => p.reset

end SqlCompose
