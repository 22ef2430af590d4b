import BackendProdReady.Lib.Windows
import Mathlib.Tactic.Lift

/-!
# Pagination of a query

The two paginated selects of the base repository over the ordered result of a
statement, and `map_paginated_result`.  LIMIT and OFFSET are a slice of that
result, its count is its length.
-/

namespace BackendProdReady.Database.Pagination

open BackendProdReady.Lib.Windows

/-! ## Source -/

structure PaginatedResult (α : Type) where
  items : List α
  currentPage : Int
  totalPages : Int
  totalResults : Int
  pageSize : Int
  hasNext : Bool
  hasPrevious : Bool
deriving DecidableEq

inductive SelectError
  | zeroDivision
  | negativeOffset
  | negativeLimit
deriving DecidableEq

variable {α β : Type}

def floorDiv (a b : Int) : Except SelectError Int :=
  if b = 0 then .error .zeroDivision else .ok (a.fdiv b)

def limitOffset (rows : List α) (limit offset : Int) : Except SelectError (List α) :=
  if offset < 0 then .error .negativeOffset
  else if limit < 0 then .error .negativeLimit
  else .ok ((rows.drop offset.toNat).take limit.toNat)

/-- `total_pages`; an empty result has one page. -/
def totalPages (totalResults pageSize : Int) : Except SelectError Int :=
  if totalResults > 0 then floorDiv (totalResults + pageSize - 1) pageSize else .ok 1

def paginatedSelectWithMetadata (rows : List α) (pageSize pageNumber : Int) :
    Except SelectError (PaginatedResult α) := do
  let totalResults : Int := rows.length
  let totalPages ← totalPages totalResults pageSize
  let items ← limitOffset rows pageSize ((pageNumber - 1) * pageSize)
  return {
    items := items
    currentPage := pageNumber
    totalPages := totalPages
    totalResults := totalResults
    pageSize := pageSize
    hasNext := pageNumber < totalPages
    hasPrevious := pageNumber > 1 }

/-- One item more than a page is fetched, and dropped again. -/
def paginatedSelectFast (rows : List α) (pageSize pageNumber : Int) :
    Except SelectError (PaginatedResult α) := do
  let fetched ← limitOffset rows (pageSize + 1) ((pageNumber - 1) * pageSize)
  let hasNext : Bool := (fetched.length : Int) > pageSize
  return {
    items := if hasNext then fetched.take pageSize.toNat else fetched
    currentPage := pageNumber
    totalPages := -1
    totalResults := -1
    pageSize := pageSize
    hasNext := hasNext
    hasPrevious := pageNumber > 1 }

def mapPaginatedResult (paginatedResult : PaginatedResult α) (mapper : α → β) :
    PaginatedResult β where
  items := paginatedResult.items.map mapper
  currentPage := paginatedResult.currentPage
  totalPages := paginatedResult.totalPages
  totalResults := paginatedResult.totalResults
  pageSize := paginatedResult.pageSize
  hasNext := paginatedResult.hasNext
  hasPrevious := paginatedResult.hasPrevious

/-! ## A page as a window -/

def pageCount (size length : Nat) : Nat := if 0 < length then windowCount size length else 1

theorem lt_pageCount_iff {size : Nat} (hsize : 0 < size) (i length : Nat) :
    i + 1 < pageCount size length ↔ (i + 1) * size < length := by
  unfold pageCount
  split_ifs with hlength
  · exact lt_windowCount_iff hsize (i + 1) length
  · omega

theorem length_le_pageCount_mul {size : Nat} (hsize : 0 < size) (length : Nat) :
    length ≤ pageCount size length * size := by
  unfold pageCount
  split_ifs with hlength
  · exact length_le_windowCount_mul hsize length
  · omega

theorem limitOffset_window (rows : List α) (limit size i : Nat) :
    limitOffset rows limit ((((i + 1 : Nat) : Int) - 1) * size) =
      .ok ((rows.drop (i * size)).take limit) := by
  have hoffset : (((i + 1 : Nat) : Int) - 1) * size = ((i * size : Nat) : Int) := by
    push_cast
    rw [Int.add_sub_cancel]
  rw [hoffset, limitOffset, if_neg (by omega), if_neg (by omega)]
  rfl

/-- Page `i + 1` of the counted pagination. -/
def countedPage (rows : List α) (size i : Nat) : PaginatedResult α where
  items := window size i rows
  currentPage := (i + 1 : Nat)
  totalPages := pageCount size rows.length
  totalResults := rows.length
  pageSize := size
  hasNext := (i + 1) * size < rows.length
  hasPrevious := 0 < i

theorem totalPages_eq {size : Nat} (hsize : 0 < size) (length : Nat) :
    totalPages length size = .ok (pageCount size length : Int) := by
  unfold totalPages pageCount
  by_cases hlength : 0 < length
  · rw [if_pos (by omega), if_pos hlength, floorDiv, if_neg (by omega),
      Int.fdiv_eq_ediv_of_nonneg _ (by omega), windowCount]
    have hsum : (length : Int) + size - 1 = ((length + size - 1 : Nat) : Int) := by omega
    rw [hsum, Int.natCast_div]
  · rw [if_neg (by omega), if_neg hlength]
    rfl

theorem paginatedSelectWithMetadata_eq (rows : List α) {size : Nat} (hsize : 0 < size) (i : Nat) :
    paginatedSelectWithMetadata rows size (i + 1 : Nat) = .ok (countedPage rows size i) := by
  have hnext : (((i + 1 : Nat) : Int) < pageCount size rows.length) ↔
      (i + 1) * size < rows.length := by
    rw [Int.ofNat_lt]
    exact lt_pageCount_iff hsize i rows.length
  have hprevious : ((i + 1 : Nat) : Int) > 1 ↔ 0 < i := by omega
  unfold paginatedSelectWithMetadata
  simp only [totalPages_eq hsize, limitOffset_window, bind, Except.bind, pure, Except.pure, hnext,
    hprevious]
  rfl

theorem paginatedSelectFast_eq (rows : List α) (size i : Nat) :
    paginatedSelectFast rows size (i + 1 : Nat) =
      .ok { countedPage rows size i with totalPages := -1, totalResults := -1 } := by
  have hmore : ((((rows.drop (i * size)).take (size + 1)).length : Nat) : Int) > size ↔
      (i + 1) * size < rows.length := by
    rw [gt_iff_lt, Int.ofNat_lt]
    exact size_lt_length_take_succ_iff size i rows
  have hitems : (if (i + 1) * size < rows.length then
        ((rows.drop (i * size)).take (size + 1)).take size
      else (rows.drop (i * size)).take (size + 1)) = window size i rows := by
    unfold window
    split_ifs with hlt
    · rw [List.take_take, Nat.min_eq_left (Nat.le_succ size)]
    · -- nothing comes after the window, so one more is no more
      rw [Nat.succ_mul] at hlt
      rw [List.take_of_length_le, List.take_of_length_le]
      · rw [List.length_drop]
        omega
      · rw [List.length_drop]
        omega
  have hprevious : ((i + 1 : Nat) : Int) > 1 ↔ 0 < i := by omega
  have hlimit : (size : Int) + 1 = ((size + 1 : Nat) : Int) := rfl
  unfold paginatedSelectFast
  simp only [hlimit, limitOffset_window, bind, Except.bind, pure, Except.pure, hmore, hprevious,
    Int.toNat_natCast, decide_eq_true_eq, hitems]
  rfl

/-! ## The pages partition the result -/

/-- `page p` is what the counted pagination returns for page number `p`. -/
structure Partitions (rows : List α) (pageSize : Int) (page : Int → PaginatedResult α)
    (totalPages : Nat) : Prop where
  selected : ∀ p ≥ 1, paginatedSelectWithMetadata rows pageSize p = .ok (page p)
  totalPages_eq : ∀ p ≥ 1, (page p).totalPages = totalPages
  concatenated :
    ((List.range totalPages).map fun i => (page (i + 1 : Nat)).items).flatten = rows
  full : ∀ p : Int, 1 ≤ p → p < totalPages → ((page p).items.length : Int) = pageSize
  /-- Some item comes after the slice of the page. -/
  hasNext_iff : ∀ p ≥ 1, (page p).hasNext = true ↔
    ∃ j : Nat, p * pageSize ≤ j ∧ j < rows.length
  hasPrevious_iff : ∀ p ≥ 1, (page p).hasPrevious = true ↔ 1 < p
  beyond : ∀ p : Int, totalPages < p → (page p).items = []

theorem pageCount_pos {size : Nat} (hsize : 0 < size) (length : Nat) :
    0 < pageCount size length := by
  unfold pageCount
  split_ifs with hlength
  · rw [lt_windowCount_iff hsize]
    omega
  · exact Nat.one_pos

theorem pages_partition (rows : List α) {pageSize : Int} (hsize : 1 ≤ pageSize) :
    ∃ page totalPages, Partitions rows pageSize page totalPages := by
  lift pageSize to Nat using by omega with size
  have hpos : 0 < size := by omega
  -- page number `p` is the window `p - 1`
  have hnumber : ∀ p : Int, 1 ≤ p → ∃ i : Nat, p = (i + 1 : Nat) ∧ p.toNat - 1 = i :=
    fun p hp => ⟨p.toNat - 1, by omega, rfl⟩
  refine ⟨fun p => countedPage rows size (p.toNat - 1), pageCount size rows.length, ?_⟩
  constructor
  case selected =>
    intro p hp
    obtain ⟨i, rfl, hi⟩ := hnumber p hp
    rw [hi]
    exact paginatedSelectWithMetadata_eq rows hpos i
  case totalPages_eq => exact fun _ _ => rfl
  case concatenated =>
    exact flatten_windows_of_le (length_le_pageCount_mul hpos rows.length)
  case full =>
    intro p hp hlast
    obtain ⟨i, rfl, hi⟩ := hnumber p hp
    rw [hi]
    have hlt : (i + 1) * size < rows.length :=
      (lt_pageCount_iff hpos i rows.length).mp (Int.ofNat_lt.mp hlast)
    exact congrArg Nat.cast (length_window_of_le hlt.le)
  case hasNext_iff =>
    intro p hp
    obtain ⟨i, rfl, hi⟩ := hnumber p hp
    rw [hi]
    simp only [countedPage, decide_eq_true_eq]
    constructor
    · intro hlt
      exact ⟨(i + 1) * size, by push_cast; rfl, hlt⟩
    · rintro ⟨j, hj, hlt⟩
      have hle : (i + 1) * size ≤ j := by exact_mod_cast hj
      omega
  case hasPrevious_iff =>
    intro p hp
    obtain ⟨i, rfl, hi⟩ := hnumber p hp
    rw [hi]
    simp only [countedPage, decide_eq_true_eq]
    omega
  case beyond =>
    intro p hlt
    have hcount := pageCount_pos hpos rows.length
    obtain ⟨i, rfl, hi⟩ := hnumber p (by omega)
    rw [hi]
    have hle : pageCount size rows.length ≤ i := by omega
    exact window_eq_nil_of_le
      ((length_le_pageCount_mul hpos rows.length).trans (Nat.mul_le_mul_right size hle))

theorem pages_partition_of_five :
    1 ≤ (2 : Int) ∧ ∃ page totalPages, Partitions [10, 11, 12, 13, 14] 2 page totalPages :=
  ⟨by decide, pages_partition [10, 11, 12, 13, 14] (by decide)⟩

/-! ## The pagination without a count -/

structure SamePage (counted fast : PaginatedResult α) : Prop where
  items : fast.items = counted.items
  hasNext : fast.hasNext = counted.hasNext
  hasPrevious : fast.hasPrevious = counted.hasPrevious
  currentPage : fast.currentPage = counted.currentPage
  pageSize : fast.pageSize = counted.pageSize

theorem fast_samePage (rows : List α) {pageSize pageNumber : Int} (hsize : 1 ≤ pageSize)
    (hnumber : 1 ≤ pageNumber) :
    ∃ counted fast, paginatedSelectWithMetadata rows pageSize pageNumber = .ok counted ∧
      paginatedSelectFast rows pageSize pageNumber = .ok fast ∧ SamePage counted fast := by
  lift pageSize to Nat using by omega with size
  obtain ⟨i, rfl⟩ : ∃ i : Nat, pageNumber = (i + 1 : Nat) := ⟨pageNumber.toNat - 1, by omega⟩
  exact ⟨_, _, paginatedSelectWithMetadata_eq rows (by omega) i, paginatedSelectFast_eq rows size i,
    ⟨rfl, rfl, rfl, rfl, rfl⟩⟩

theorem fast_samePage_of_full_page :
    ∃ counted fast, paginatedSelectWithMetadata ["a", "b", "c", "d"] 2 2 = .ok counted ∧
      paginatedSelectFast ["a", "b", "c", "d"] 2 2 = .ok fast ∧ SamePage counted fast :=
  fast_samePage ["a", "b", "c", "d"] (by decide) (by decide)

end BackendProdReady.Database.Pagination
