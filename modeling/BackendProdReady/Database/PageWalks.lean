import BackendProdReady.Database.Pagination
import BackendProdReady.Lib.Runs
import BackendProdReady.Lib.WindowWalks
import Mathlib.Data.List.Induction

/-!
# Walking through pages

A caller asks for one page after the other while `has_next` says that there is one, and
meanwhile other transactions insert and delete rows of the result.  Each statement sees the
rows of its own time, so between the count of `paginated_select_with_metadata` and its page the
result can change as well.
-/

namespace BackendProdReady.Database.PageWalks

open BackendProdReady.Lib.Runs
open BackendProdReady.Lib.Windows
open BackendProdReady.Lib
open BackendProdReady.Lib.WindowWalks (Walk AllBut)
open BackendProdReady.Database.Pagination

variable {α : Type}

/-! ## The statements of a select -/

inductive Select
  | withMetadata
  | fast

/-- `paginated_select_with_metadata` after its count, which has seen `totalResults` rows. -/
def paginatedSelectCounted (totalResults : Int) (rows : List α) (pageSize pageNumber : Int) :
    Except SelectError (PaginatedResult α) := do
  let totalPages ← totalPages totalResults pageSize
  let items ← limitOffset rows pageSize ((pageNumber - 1) * pageSize)
  return {
    items := items
    currentPage := pageNumber
    totalPages := totalPages
    totalResults := totalResults
    pageSize := pageSize
    hasNext := pageNumber < totalPages
    hasPrevious := pageNumber > 1 }

/-- Where the rows do not change in between. -/
theorem paginatedSelectCounted_length (rows : List α) (pageSize pageNumber : Int) :
    paginatedSelectCounted rows.length rows pageSize pageNumber =
      paginatedSelectWithMetadata rows pageSize pageNumber := rfl

theorem paginatedSelectCounted_eq (total : Nat) (rows : List α) {size : Nat} (hsize : 0 < size)
    (i : Nat) :
    paginatedSelectCounted total rows size (i + 1 : Nat) =
      .ok { countedPage rows size i with
        totalPages := pageCount size total
        totalResults := total
        hasNext := (i + 1) * size < total } := by
  have hnext : (((i + 1 : Nat) : Int) < pageCount size total) ↔ (i + 1) * size < total := by
    rw [Int.ofNat_lt]
    exact lt_pageCount_iff hsize i total
  have hprevious : ((i + 1 : Nat) : Int) > 1 ↔ 0 < i := by omega
  unfold paginatedSelectCounted
  simp only [totalPages_eq hsize, limitOffset_window, bind, Except.bind, pure, Except.pure, hnext,
    hprevious]
  rfl

/-! ## Walks -/

inductive Phase
  | ready
  /-- The count has seen so many rows, and its page is to be read. -/
  | counted (totalResults : Nat)
  | finished

structure State (α : Type) where
  /-- The ordered result of the statement, as it is now. -/
  rows : List α
  received : List (PaginatedResult α)
  phase : Phase

def State.collected (s : State α) : List α := s.received.flatMap PaginatedResult.items

/-- A row that moves is deleted and inserted. -/
inductive Event (α : Type)
  | insert (i : Nat) (row : α)
  | delete (i : Nat) (row : α)
  | count
  | page

def start (rows : List α) : State α := ⟨rows, [], .ready⟩

def State.insert (s : State α) (i : Nat) (row : α) : State α :=
  { s with rows := s.rows.take i ++ row :: s.rows.drop i }

def State.delete (s : State α) (i : Nat) : State α := { s with rows := s.rows.eraseIdx i }

def State.count (s : State α) : State α := { s with phase := .counted s.rows.length }

def State.receive (s : State α) : Except SelectError (PaginatedResult α) → Option (State α)
  | .error _ => none
  | .ok result =>
      some { s with
        received := s.received ++ [result]
        phase := if result.hasNext then .ready else .finished }

def State.pageNumber (s : State α) : Nat := s.received.length + 1

/-- What happens until the walk is over. -/
def step [DecidableEq α] (select : Select) (size : Nat) (s : State α) (event : Event α) :
    Option (State α) :=
  match s.phase, event with
  | .finished, _ => none
  | _, .insert i row => some (s.insert i row)
  | _, .delete i row => if s.rows[i]? = some row then some (s.delete i) else none
  | .ready, .count =>
      match select with
      | .withMetadata => some s.count
      | .fast => none
  | .ready, .page =>
      match select with
      | .withMetadata => none
      | .fast => s.receive (paginatedSelectFast s.rows size s.pageNumber)
  | .counted totalResults, .page =>
      s.receive (paginatedSelectCounted totalResults s.rows size s.pageNumber)
  | .counted _, .count => none

def Step [DecidableEq α] (select : Select) (size : Nat) :
    State α → Event α → State α → Prop := StepOf (step select size)

/-! ## What happened on the way -/

def Event.isInsert : Event α → Bool
  | .insert .. => true
  | _ => false

def Event.isDelete : Event α → Bool
  | .delete .. => true
  | _ => false

def insertions (events : List (Event α)) : Nat := events.countP Event.isInsert

def deletions (events : List (Event α)) : Nat := events.countP Event.isDelete

/-- The insertions after the last count. -/
def sinceCount (events : List (Event α)) : Nat :=
  events.foldl
    (fun n event =>
      match event with
      | .insert .. => n + 1
      | .count => 0
      | _ => n)
    0

/-- The insertions that the last answer about `has_next` has not seen. -/
def late (select : Select) (events : List (Event α)) : Nat :=
  match select with
  | .withMetadata => sinceCount events
  | .fast => 0

/-- The rows for which `kept` holds are neither inserted nor deleted. -/
def Event.Spares (kept : α → Bool) : Event α → Prop
  | .insert _ row | .delete _ row => kept row = false
  | _ => True

theorem insertions_concat (events : List (Event α)) (event : Event α) :
    insertions (events ++ [event]) = insertions events + if event.isInsert then 1 else 0 := by
  rw [insertions, List.countP_append, List.countP_singleton]
  rfl

theorem deletions_concat (events : List (Event α)) (event : Event α) :
    deletions (events ++ [event]) = deletions events + if event.isDelete then 1 else 0 := by
  rw [deletions, List.countP_append, List.countP_singleton]
  rfl

theorem sinceCount_concat (events : List (Event α)) (event : Event α) :
    sinceCount (events ++ [event]) =
      match event with
      | .insert .. => sinceCount events + 1
      | .count => 0
      | _ => sinceCount events := by
  rw [sinceCount, List.foldl_append]
  rfl

/-! ## Steps -/

section Steps

variable [DecidableEq α] {select : Select} {size : Nat} {s s' : State α} {event : Event α}

/-- The length that `has_next` of the next page speaks about. -/
def State.seen (s : State α) : Nat :=
  match s.phase with
  | .counted totalResults => totalResults
  | _ => s.rows.length

def State.next (size : Nat) (s : State α) (result : PaginatedResult α) : State α :=
  { s with
    received := s.received ++ [result]
    phase := if (s.received.length + 1) * size < s.seen then .ready else .finished }

omit [DecidableEq α] in
theorem receive_ok {result : PaginatedResult α}
    (hnext : result.hasNext = decide ((s.received.length + 1) * size < s.seen)) :
    s.receive (.ok result) = some (s.next size result) := by
  simp [State.receive, State.next, hnext]

theorem step_page (hsize : 0 < size) (h : step select size s .page = some s') :
    ∃ result, s' = s.next size result ∧ result.items = window size s.received.length s.rows := by
  cases hphase : s.phase with
  | finished => simp [step, hphase] at h
  | ready =>
      cases select with
      | withMetadata => simp [step, hphase] at h
      | fast =>
          have hseen : s.seen = s.rows.length := by rw [State.seen, hphase]
          simp only [step, hphase, State.pageNumber, paginatedSelectFast_eq] at h
          rw [receive_ok (s := s) (by rw [hseen]; rfl)] at h
          exact ⟨_, (Option.some.inj h).symm, rfl⟩
  | counted totalResults =>
      have hseen : s.seen = totalResults := by rw [State.seen, hphase]
      simp only [step, hphase, State.pageNumber, paginatedSelectCounted_eq _ _ hsize] at h
      rw [receive_ok (s := s) (by rw [hseen])] at h
      exact ⟨_, (Option.some.inj h).symm, rfl⟩

/-- All that a step can be. -/
theorem step_cases (hsize : 0 < size) (h : Step select size s event s') :
    s.phase ≠ .finished ∧
      match event with
      | .insert i row => s' = s.insert i row
      | .delete i row => s.rows[i]? = some row ∧ s' = s.delete i
      | .count => select = .withMetadata ∧ s.phase = .ready ∧ s' = s.count
      | .page =>
          ∃ result, s' = s.next size result ∧
            result.items = window size s.received.length s.rows := by
  have hnot : s.phase ≠ .finished := by
    intro hphase
    simp [Step, StepOf, step, hphase] at h
  refine ⟨hnot, ?_⟩
  cases event with
  | page => exact step_page hsize h
  | insert i row =>
      cases hphase : s.phase with
      | finished => exact absurd hphase hnot
      | _ => simpa [Step, StepOf, step, hphase, eq_comm] using h
  | delete i row =>
      cases hphase : s.phase with
      | finished => exact absurd hphase hnot
      | _ => simpa [Step, StepOf, step, hphase, eq_comm] using h
  | count =>
      cases hphase : s.phase with
      | finished => exact absurd hphase hnot
      | counted totalResults => simp [Step, StepOf, step, hphase] at h
      | ready =>
          cases select with
          | fast => simp [Step, StepOf, step, hphase] at h
          | withMetadata => simpa [Step, StepOf, step, hphase, eq_comm] using h

end Steps

/-! ## What a walk has seen -/

section Invariant

variable (select : Select) (size : Nat) (rows : List α)

def State.walk (s : State α) : Walk α := ⟨s.rows, s.received.length, s.collected⟩

/-- What the phase says about the rows that come after the last page. -/
def PhaseInv (events : List (Event α)) (s : State α) : Phase → Prop
  | .ready => 0 < s.received.length → s.received.length * size < rows.length + insertions events
  | .counted totalResults =>
      select = .withMetadata ∧ s.rows.length ≤ totalResults + sinceCount events ∧
        totalResults ≤ rows.length + insertions events ∧
          (0 < s.received.length → s.received.length * size < rows.length + insertions events)
  | .finished => s.rows.length ≤ s.received.length * size + late select events

structure Inv (events : List (Event α)) (s : State α) : Prop where
  seen : ∀ kept : α → Bool, (∀ event ∈ events, event.Spares kept) →
    WindowWalks.Inv kept size rows (insertions events) (deletions events) s.walk
  length : s.rows.length ≤ rows.length + insertions events
  origin : ∀ row, row ∈ s.rows ∨ row ∈ s.collected → row ∈ rows ∨ ∃ i, .insert i row ∈ events
  phase : PhaseInv select size rows events s s.phase
  asked : 1 < s.received.length →
    (s.received.length - 1) * size < rows.length + insertions events

theorem inv_start : Inv select size rows [] (start rows) where
  seen kept _ := WindowWalks.inv_start kept size rows
  length := Nat.le_refl _
  origin row hrow := by
    rcases hrow with hrow | hrow
    · exact .inl hrow
    · cases hrow
  phase h := by cases h
  asked h := by cases h

variable {select size rows} {events : List (Event α)} {s : State α} {event : Event α}

theorem spares_concat {kept : α → Bool} (h : ∀ e ∈ events ++ [event], e.Spares kept) :
    (∀ e ∈ events, e.Spares kept) ∧ event.Spares kept :=
  ⟨fun e he => h e (List.mem_append_left _ he), h event (by simp)⟩

theorem origin_concat {row : α} (h : row ∈ rows ∨ ∃ i, .insert i row ∈ events) :
    row ∈ rows ∨ ∃ i, .insert i row ∈ events ++ [event] := by
  refine h.imp_right ?_
  rintro ⟨i, hmem⟩
  exact ⟨i, List.mem_append_left _ hmem⟩

theorem Inv.insert (h : Inv select size rows events s) (hnot : s.phase ≠ .finished) (i : Nat)
    (row : α) : Inv select size rows (events ++ [.insert i row]) (s.insert i row) := by
  have hinsertions : insertions (events ++ [.insert i row]) = insertions events + 1 :=
    insertions_concat events _
  have hdeletions : deletions (events ++ [.insert i row]) = deletions events :=
    deletions_concat events _
  have hlength : (s.insert i row).rows.length = s.rows.length + 1 := by
    rw [State.insert, List.length_append, List.length_cons, ← Nat.add_assoc,
      ← List.length_append, List.take_append_drop]
  constructor
  case seen =>
    intro kept hspares
    obtain ⟨hbefore, hrow⟩ := spares_concat hspares
    rw [hinsertions, hdeletions]
    exact (h.seen kept hbefore).insert i hrow
  case length =>
    have hold := h.length
    rw [hlength, hinsertions]
    omega
  case origin =>
    intro r hr
    have hcases : (r ∈ s.rows ∨ r ∈ s.collected) ∨ r = row := by
      rcases hr with hr | hr
      · rcases List.mem_append.mp hr with htake | hrest
        · exact .inl (.inl (List.mem_of_mem_take htake))
        · rcases List.mem_cons.mp hrest with heq | hdrop
          · exact .inr heq
          · exact .inl (.inl (List.mem_of_mem_drop hdrop))
      · exact .inl (.inr hr)
    rcases hcases with hold | rfl
    · exact origin_concat (h.origin r hold)
    · exact .inr ⟨i, by simp⟩
  case phase =>
    have hold := h.phase
    show PhaseInv select size rows _ _ s.phase
    cases hphase : s.phase with
    | finished => exact absurd hphase hnot
    | ready =>
        rw [hphase] at hold
        intro hpos
        have hready := hold hpos
        show s.received.length * size < _
        omega
    | counted totalResults =>
        rw [hphase] at hold
        obtain ⟨hselect, hcount, htotal, hready⟩ := hold
        have hsince : sinceCount (events ++ [.insert i row]) = sinceCount events + 1 :=
          sinceCount_concat events _
        refine ⟨hselect, by omega, by omega, fun hpos => ?_⟩
        have hlast := hready hpos
        show s.received.length * size < _
        omega
  case asked =>
    intro hpages
    have hold := h.asked hpages
    show (s.received.length - 1) * size < _
    omega

theorem Inv.delete (h : Inv select size rows events s) (hnot : s.phase ≠ .finished) {i : Nat}
    {row : α} (hrow : s.rows[i]? = some row) :
    Inv select size rows (events ++ [.delete i row]) (s.delete i) := by
  have hinsertions : insertions (events ++ [.delete i row]) = insertions events :=
    insertions_concat events _
  have hdeletions : deletions (events ++ [.delete i row]) = deletions events + 1 :=
    deletions_concat events _
  have hsub : (s.delete i).rows.Sublist s.rows := List.eraseIdx_sublist s.rows i
  have hlength : (s.delete i).rows.length ≤ s.rows.length := hsub.length_le
  constructor
  case seen =>
    intro kept hspares
    obtain ⟨hbefore, hspared⟩ := spares_concat hspares
    rw [hinsertions, hdeletions]
    exact (h.seen kept hbefore).delete hrow hspared
  case length =>
    have hold := h.length
    omega
  case origin =>
    intro r hr
    exact origin_concat (h.origin r (hr.imp_left fun hmem => hsub.subset hmem))
  case phase =>
    have hold := h.phase
    show PhaseInv select size rows _ _ s.phase
    cases hphase : s.phase with
    | finished => exact absurd hphase hnot
    | ready =>
        rw [hphase] at hold
        intro hpos
        rw [hinsertions]
        exact hold hpos
    | counted totalResults =>
        rw [hphase] at hold
        obtain ⟨hselect, hcount, htotal, hready⟩ := hold
        have hsince : sinceCount (events ++ [.delete i row]) = sinceCount events :=
          sinceCount_concat events _
        refine ⟨hselect, by omega, by omega, fun hpos => ?_⟩
        rw [hinsertions]
        exact hready hpos
  case asked =>
    intro hpages
    rw [hinsertions]
    exact h.asked hpages

theorem Inv.count (h : Inv .withMetadata size rows events s) (hready : s.phase = .ready) :
    Inv .withMetadata size rows (events ++ [.count]) s.count := by
  have hinsertions : insertions (events ++ [.count]) = insertions events :=
    insertions_concat events _
  have hdeletions : deletions (events ++ [.count]) = deletions events := deletions_concat events _
  constructor
  case seen =>
    intro kept hspares
    rw [hinsertions, hdeletions]
    exact h.seen kept (spares_concat hspares).1
  case length =>
    rw [hinsertions]
    exact h.length
  case origin =>
    intro r hr
    exact origin_concat (h.origin r hr)
  case phase =>
    have hold := h.phase
    rw [hready] at hold
    refine ⟨rfl, Nat.le_add_right _ _, ?_, ?_⟩
    · rw [hinsertions]
      exact h.length
    · rw [hinsertions]
      exact hold
  case asked =>
    intro hpages
    rw [hinsertions]
    exact h.asked hpages

theorem Inv.seen_bounds (h : Inv select size rows events s) (hnot : s.phase ≠ .finished) :
    s.seen ≤ rows.length + insertions events ∧
      s.rows.length ≤ s.seen + late select events ∧
        (0 < s.received.length → s.received.length * size < rows.length + insertions events) := by
  have hphase := h.phase
  unfold State.seen
  cases hcase : s.phase with
  | finished => exact absurd hcase hnot
  | ready =>
      rw [hcase] at hphase
      exact ⟨h.length, Nat.le_add_right _ _, hphase⟩
  | counted totalResults =>
      rw [hcase] at hphase
      obtain ⟨rfl, hcount, htotal, hready⟩ := hphase
      exact ⟨htotal, hcount, hready⟩

theorem collected_next (size : Nat) (s : State α) (result : PaginatedResult α) :
    (s.next size result).collected = s.collected ++ result.items := by
  rw [State.collected, State.next, List.flatMap_append, List.flatMap_singleton]
  rfl

theorem Inv.page (h : Inv select size rows events s) (hnot : s.phase ≠ .finished)
    {result : PaginatedResult α} (hitems : result.items = window size s.received.length s.rows) :
    Inv select size rows (events ++ [.page]) (s.next size result) := by
  have hinsertions : insertions (events ++ [.page]) = insertions events :=
    insertions_concat events _
  have hdeletions : deletions (events ++ [.page]) = deletions events := deletions_concat events _
  have hlate : late select (events ++ [.page]) = late select events := by
    cases select with
    | fast => rfl
    | withMetadata => exact sinceCount_concat events _
  have hpages : (s.next size result).received.length = s.received.length + 1 := by
    rw [State.next, List.length_append, List.length_singleton]
  obtain ⟨hseen, hrows, hready⟩ := h.seen_bounds hnot
  constructor
  case seen =>
    intro kept hspares
    have hwalk : (s.next size result).walk = s.walk.read size := by
      rw [State.walk, hpages, collected_next, hitems]
      rfl
    rw [hinsertions, hdeletions, hwalk]
    exact (h.seen kept (spares_concat hspares).1).read
  case length =>
    rw [hinsertions]
    exact h.length
  case origin =>
    intro r hr
    apply origin_concat
    rcases hr with hr | hr
    · exact h.origin r (.inl hr)
    · rw [collected_next, hitems] at hr
      rcases List.mem_append.mp hr with hold | hnew
      · exact h.origin r (.inr hold)
      · exact h.origin r (.inl (List.mem_of_mem_drop (List.mem_of_mem_take hnew)))
  case phase =>
    rw [State.next]
    split_ifs with hnext
    · intro _
      show (s.received ++ [result]).length * size < _
      rw [hinsertions, List.length_append, List.length_singleton]
      exact hnext.trans_le hseen
    · show s.rows.length ≤ (s.received ++ [result]).length * size + _
      rw [hlate, List.length_append, List.length_singleton]
      omega
  case asked =>
    rw [hpages, hinsertions, Nat.add_sub_cancel]
    intro hlast
    exact hready (by omega)

theorem inv_step [DecidableEq α] (hsize : 0 < size) (h : Inv select size rows events s)
    {s' : State α} (hstep : Step select size s event s') :
    Inv select size rows (events ++ [event]) s' := by
  obtain ⟨hnot, hcase⟩ := step_cases hsize hstep
  cases event with
  | insert i row =>
      have hinsert : s' = s.insert i row := hcase
      rw [hinsert]
      exact h.insert hnot i row
  | delete i row =>
      obtain ⟨hrow, rfl⟩ := hcase
      exact h.delete hnot hrow
  | count =>
      obtain ⟨rfl, hready, rfl⟩ := hcase
      exact h.count hready
  | page =>
      obtain ⟨result, rfl, hitems⟩ := hcase
      exact h.page hnot hitems

theorem inv_run [DecidableEq α] (hsize : 0 < size)
    (hrun : Run (Step select size) (start rows) events s) :
    Inv select size rows events s := by
  induction hrun with
  | refl => exact inv_start select size rows
  | tail _ hlast ih => exact inv_step hsize ih hlast

/-! ## The contract of a walk -/

structure WalkContract [DecidableEq α] (select : Select) (size : Nat) (rows : List α)
    (events : List (Event α)) (s : State α) : Prop where
  /-- A walk that is over has found, in their order, all rows that stayed but as many as were
  deleted, and as were inserted after the last count. -/
  found : s.phase = .finished → ∀ kept : α → Bool, (∀ event ∈ events, event.Spares kept) →
    AllBut (deletions events + late select events) (rows.filter kept) (s.collected.filter kept)
  repeats : ∀ kept : α → Bool, (∀ event ∈ events, event.Spares kept) →
    (s.collected.filter kept).length ≤ (rows.filter kept).length + insertions events
  undisturbed : s.phase = .finished → insertions events = 0 → deletions events = 0 →
    s.collected = rows
  origin : ∀ row ∈ s.collected, row ∈ rows ∨ ∃ i, .insert i row ∈ events
  /-- No page is asked for without need. -/
  asked : 1 < s.received.length →
    (s.received.length - 1) * size < rows.length + insertions events
  /-- No statement is refused. -/
  goesOn : s.phase ≠ .finished → (step select size s .count).isSome ∨
    (step select size s .page).isSome

theorem spares_of_no_edit (hinsertions : insertions events = 0)
    (hdeletions : deletions events = 0) :
    ∀ event ∈ events, event.Spares fun _ => true := by
  intro event hevent
  cases event with
  | insert i row => exact absurd rfl (List.countP_eq_zero.mp hinsertions _ hevent)
  | delete i row => exact absurd rfl (List.countP_eq_zero.mp hdeletions _ hevent)
  | count => trivial
  | page => trivial

theorem sinceCount_of_no_insertion (h : insertions events = 0) : sinceCount events = 0 := by
  induction events using List.reverseRecOn with
  | nil => rfl
  | append_singleton events event ih =>
      rw [insertions_concat] at h
      rw [sinceCount_concat]
      cases event with
      | insert i row => simp [Event.isInsert] at h
      | delete i row => exact ih (by omega)
      | count => rfl
      | page => exact ih (by omega)

theorem Inv.goesOn [DecidableEq α] (hsize : 0 < size) (hnot : s.phase ≠ .finished) :
    (step select size s .count).isSome ∨ (step select size s .page).isSome := by
  cases hphase : s.phase with
  | finished => exact absurd hphase hnot
  | ready =>
      cases select with
      | withMetadata => simp [step, hphase]
      | fast =>
          right
          simp only [step, hphase, State.pageNumber, paginatedSelectFast_eq]
          rfl
  | counted totalResults =>
      right
      simp only [step, hphase, State.pageNumber, paginatedSelectCounted_eq _ _ hsize]
      rfl

theorem page_walk [DecidableEq α] (hsize : 0 < size)
    (hrun : Run (Step select size) (start rows) events s) :
    WalkContract select size rows events s := by
  have hinv := inv_run hsize hrun
  have hfound : s.phase = .finished → ∀ kept : α → Bool,
      (∀ event ∈ events, event.Spares kept) →
      AllBut (deletions events + late select events) (rows.filter kept)
        (s.collected.filter kept) := by
    intro hfinished kept hspares
    have hphase := hinv.phase
    rw [hfinished] at hphase
    exact (hinv.seen kept hspares).found_all hphase
  have hrepeats : ∀ kept : α → Bool, (∀ event ∈ events, event.Spares kept) →
      (s.collected.filter kept).length ≤ (rows.filter kept).length + insertions events :=
    fun kept hspares => (hinv.seen kept hspares).repeats_all
  refine ⟨hfound, hrepeats, ?_, fun row hrow => hinv.origin row (.inr hrow), hinv.asked,
    Inv.goesOn hsize⟩
  intro hfinished hinsertions hdeletions
  have hspares := spares_of_no_edit hinsertions hdeletions
  have hlate : late select events = 0 := by
    cases select with
    | fast => rfl
    | withMetadata => exact sinceCount_of_no_insertion hinsertions
  have hall := hfound hfinished _ hspares
  have hlength := hrepeats _ hspares
  rw [hdeletions, hlate, List.filter_true, List.filter_true] at hall
  rw [hinsertions, List.filter_true, List.filter_true] at hlength
  exact hall.eq hlength

end Invariant

/-- A row that has been read is deleted, and the next one moves past the end of its page. -/
def deletionEvents : List (Event Nat) := [.count, .page, .delete 0 1, .count, .page]

theorem page_walk_deletion : ∃ s : State Nat,
    WalkContract .withMetadata 2 [1, 2, 3, 4] deletionEvents s ∧ s.phase = .finished ∧
      s.collected = [1, 2, 4] :=
  have hrun : Run (Step .withMetadata 2) (start [1, 2, 3, 4]) deletionEvents _ :=
    run_of_foldlM rfl
  ⟨_, page_walk (by decide) hrun, rfl, rfl⟩

end BackendProdReady.Database.PageWalks
