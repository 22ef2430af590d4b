import BackendProdReady.Database.Pagination

/-!
# Pagination metadata of a response

`PaginationMeta.create` beside the metadata that the repository computes for the
same page.  The two count the pages of an empty result differently: it has one
page in the repository and none in a response.
-/

namespace BackendProdReady.Api.Pagination

open BackendProdReady.Lib.Windows
open BackendProdReady.Database.Pagination

structure PaginationMeta where
  page : Int
  perPage : Int
  total : Int
  totalPages : Int
  hasNext : Bool
  hasPrev : Bool
deriving DecidableEq

def PaginationMeta.create (page perPage total : Int) : PaginationMeta :=
  let totalPages := if perPage > 0 then (total + perPage - 1).fdiv perPage else 0
  { page, perPage, total, totalPages, hasNext := page < totalPages, hasPrev := page > 1 }

variable {α β : Type}

theorem create_totalPages {size : Nat} (hsize : 0 < size) (page : Int) (total : Nat) :
    (PaginationMeta.create page size total).totalPages = windowCount size total := by
  have hsum : (total : Int) + size - 1 = ((total + size - 1 : Nat) : Int) := by omega
  have hpositive : (size : Int) > 0 := by omega
  simp only [PaginationMeta.create, if_pos hpositive]
  rw [Int.fdiv_eq_ediv_of_nonneg _ (by omega), hsum, windowCount, Int.natCast_div]

theorem create_hasNext {size : Nat} (hsize : 0 < size) (i total : Nat) :
    (PaginationMeta.create (i + 1 : Nat) size total).hasNext = true ↔
      (i + 1) * size < total := by
  have hnext : (PaginationMeta.create (i + 1 : Nat) size total).hasNext = true ↔
      ((i + 1 : Nat) : Int) < (PaginationMeta.create (i + 1 : Nat) size total).totalPages := by
    simp [PaginationMeta.create]
  rw [hnext, create_totalPages hsize, Int.ofNat_lt]
  exact lt_windowCount_iff hsize (i + 1) total

structure SameMetadata (result : PaginatedResult α) (mapped : PaginatedResult β) : Prop where
  currentPage : mapped.currentPage = result.currentPage
  totalPages : mapped.totalPages = result.totalPages
  totalResults : mapped.totalResults = result.totalResults
  pageSize : mapped.pageSize = result.pageSize
  hasNext : mapped.hasNext = result.hasNext
  hasPrevious : mapped.hasPrevious = result.hasPrevious

theorem mapPaginatedResult_sameMetadata (result : PaginatedResult α) (mapper : α → β) :
    SameMetadata result (mapPaginatedResult result mapper) :=
  ⟨rfl, rfl, rfl, rfl, rfl, rfl⟩

/-- How the metadata of a response stands to the repository's, for a result of
`total` items. -/
structure Agrees (response : PaginationMeta) (result : PaginatedResult α) (total : Nat) :
    Prop where
  hasNext : response.hasNext = result.hasNext
  hasPrevious : response.hasPrev = result.hasPrevious
  totalPages : 0 < total → response.totalPages = result.totalPages
  emptyPages : total = 0 → response.totalPages = 0 ∧ result.totalPages = 1

theorem create_agrees (rows : List α) {perPage page : Int} (hsize : 1 ≤ perPage)
    (hpage : 1 ≤ page) :
    ∃ result, paginatedSelectWithMetadata rows perPage page = .ok result ∧
      Agrees (.create page perPage rows.length) result rows.length ∧
      ∀ {β : Type} (mapper : α → β), SameMetadata result (mapPaginatedResult result mapper) := by
  lift perPage to Nat using by omega with size
  obtain ⟨i, rfl⟩ : ∃ i : Nat, page = (i + 1 : Nat) := ⟨page.toNat - 1, by omega⟩
  have hpos : 0 < size := by omega
  refine ⟨countedPage rows size i, paginatedSelectWithMetadata_eq rows hpos i, ?_,
    mapPaginatedResult_sameMetadata _⟩
  constructor
  case hasNext =>
    rw [Bool.eq_iff_iff, create_hasNext hpos, countedPage, decide_eq_true_eq]
  case hasPrevious =>
    have hprevious : ((i + 1 : Nat) : Int) > 1 ↔ 0 < i := by omega
    simp only [PaginationMeta.create, countedPage, hprevious]
  case totalPages =>
    intro htotal
    rw [create_totalPages hpos, countedPage, pageCount, if_pos htotal]
  case emptyPages =>
    intro htotal
    constructor
    · have hnone := (lt_windowCount_iff hpos 0 rows.length).not
      rw [create_totalPages hpos]
      omega
    · rw [countedPage, pageCount, if_neg (by omega)]
      rfl

theorem create_agrees_on_second_page :
    ∃ result, paginatedSelectWithMetadata [1, 2, 3, 4, 5] 2 2 = .ok result ∧
      Agrees (.create 2 2 5) result 5 ∧
      ∀ {β : Type} (mapper : Nat → β), SameMetadata result (mapPaginatedResult result mapper) :=
  create_agrees [1, 2, 3, 4, 5] (by decide) (by decide)

/-- An empty result has one page in the repository and none in the response. -/
theorem empty_result_pages :
    ¬ ∀ (rows : List Nat) (perPage page : Int) (result : PaginatedResult Nat),
      1 ≤ perPage → 1 ≤ page → paginatedSelectWithMetadata rows perPage page = .ok result →
      (PaginationMeta.create page perPage rows.length).totalPages = result.totalPages ∧
        (PaginationMeta.create page perPage rows.length).hasNext = result.hasNext ∧
        (PaginationMeta.create page perPage rows.length).hasPrev = result.hasPrevious := by
  intro h
  have hempty := h [] 20 1 (countedPage [] 20 0) (by decide) (by decide) rfl
  exact absurd hempty.1 (by decide)

end BackendProdReady.Api.Pagination
