import Outreach.Fault

/-!
# Paging

A long list is handed out page by page. Pages are counted from one, and a page holds one to a
hundred entries.
-/

namespace Outreach.Paging

variable {α : Type}

/-- How many entries a page holds if nothing is said. -/
def usualLimit : Nat := 10

/-- How many entries a page holds at most. -/
def maxLimit : Nat := 100

/-- Which page is wanted. -/
structure Request where
  page : Nat
  limit : Nat
  one_le_page : 1 ≤ page
  one_le_limit : 1 ≤ limit
  limit_le_max : limit ≤ maxLimit

/-- The wanted page, if there can be such: the page is looked at before the limit. -/
def Request.of (page? limit? : Option Nat) : Except Fault Request :=
  let page := page?.getD 1
  let limit := limit?.getD usualLimit
  if hp : 1 ≤ page then
    if hl : 1 ≤ limit ∧ limit ≤ maxLimit then .ok ⟨page, limit, hp, hl.1, hl.2⟩
    else .error .limitOutOfRange
  else .error .pageBelowOne

structure Page (α : Type) where
  data : List α
  currentPage : Nat
  totalPages : Nat
  /-- How many entries there are on all pages. -/
  totalItems : Nat

def Page.hasNext (p : Page α) : Bool := p.currentPage < p.totalPages

/-- There are pages in front of the page. -/
def Page.hasPrevious (p : Page α) : Bool := 1 < p.currentPage

/-- How many pages a number of entries fills. -/
def Request.pages (r : Request) (items : Nat) : Nat := (items + r.limit - 1) / r.limit

def Request.slice (r : Request) (items : List α) : Page α where
  data := (items.drop ((r.page - 1) * r.limit)).take r.limit
  currentPage := r.page
  totalPages := r.pages items.length
  totalItems := items.length

def Page.toJson (f : α → Json) (p : Page α) : Json :=
  .object [("data", .ofList f p.data),
    ("pagination", .object [("currentPage", .ofSize p.currentPage),
      ("totalPages", .ofSize p.totalPages), ("totalItems", .ofSize p.totalItems),
      ("hasNextPage", .bool p.hasNext), ("hasPrevPage", .bool p.hasPrevious)])]

end Outreach.Paging
