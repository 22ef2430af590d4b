import BackendProdReady.Api.AdmissionControl
import BackendProdReady.Lib.Tasks

/-!
# Concurrent pattern deletions

On Redis, `delete_pattern` runs inside `async with self._deletion_semaphore`.  A deletion
that finds no free slot is queued; the end of another one hands its slot to the first in
the queue that has none, and a deletion that is cancelled after it was handed a slot passes
it on.  The event loop resumes the deletions in the order in which they were handed their
slots.  A deletion served by the in-memory fallback takes no slot.
-/

namespace BackendProdReady.Cache.DeletionSlots

open BackendProdReady.Lib.Runs
open BackendProdReady.Lib.Tasks
open BackendProdReady.Api.AdmissionControl (Semaphore Waiter)

/-! ## `delete_pattern` and its semaphore -/

def maxConcurrentDeletions : Nat := 5

inductive Ending
  | returned (deleted : Nat)
  | raised
  | cancelled
deriving DecidableEq

/-- Where a call of `delete_pattern` stands after `_ensure_connected`. -/
inductive Deletion
  | acquiring
  /-- Inside `async with self._deletion_semaphore`. -/
  | deleting
  /-- In `InMemoryCache.delete_pattern`. -/
  | inMemory
  | cancelledWaiting
  | ended (ending : Ending)
deriving DecidableEq

/-- From the choice of the backend to the first suspension. -/
def deletePattern (semaphore : Semaphore) (number : Nat) (usingFallback : Bool) :
    Semaphore × Deletion :=
  if usingFallback then (semaphore, .inMemory)
  else
    let acquired := semaphore.acquire number
    (acquired.1, if acquired.2 then .deleting else .acquiring)

structure World where
  semaphore : Semaphore
  deletions : List Deletion
deriving DecidableEq

inductive Event
  | arrive (usingFallback : Bool)
  | resumeAcquire (i : Nat)
  | cancelAcquire (i : Nat)
  | finish (i : Nat) (ending : Ending)
deriving DecidableEq

def start : World := ⟨.new maxConcurrentDeletions, []⟩

def step (w : World) : Event → Option World
  | .arrive usingFallback =>
      let segment := deletePattern w.semaphore w.deletions.length usingFallback
      some ⟨segment.1, w.deletions ++ [segment.2]⟩
  | .resumeAcquire i =>
      if (w.semaphore.waiters.find? Waiter.woken).map Waiter.request = some i then
        some ⟨w.semaphore.resume i, w.deletions.set i .deleting⟩
      else none
  | .cancelAcquire i =>
      match w.deletions[i]? with
      | some .acquiring => some ⟨w.semaphore.cancel i, w.deletions.set i .cancelledWaiting⟩
      | _ => none
  | .finish i ending =>
      match w.deletions[i]? with
      | some .deleting => some ⟨w.semaphore.release, w.deletions.set i (.ended ending)⟩
      | some .inMemory => some ⟨w.semaphore, w.deletions.set i (.ended ending)⟩
      | _ => none

def Step : World → Event → World → Prop := StepOf step

def deleting (w : World) : Nat := w.deletions.countP (· = .deleting)

/-! ## The queue of the semaphore -/

section Queue

def handed (semaphore : Semaphore) : Nat := semaphore.waiters.countP Waiter.woken

def queued (semaphore : Semaphore) : List Nat := semaphore.waiters.map Waiter.request

/-- In the order of arrival, and slots were handed out from the front. -/
def Ordered (semaphore : Semaphore) : Prop :=
  semaphore.waiters.Pairwise fun a b =>
    a.request < b.request ∧ (b.woken = true → a.woken = true)

/-- A free slot beside a sleeping waiter is passed on by a waiter that is awake. -/
structure FairQueue (semaphore : Semaphore) : Prop where
  nonneg : 0 ≤ semaphore.value
  ordered : Ordered semaphore
  passedOn : 0 < semaphore.value → ∀ v ∈ semaphore.waiters, v.woken = false →
    ∃ u ∈ semaphore.waiters, u.woken = true

variable {semaphore : Semaphore}

theorem wakeFirst_cases (waiters : List Waiter) :
    (Semaphore.wakeFirst waiters = none ∧ ∀ v ∈ waiters, v.woken = true) ∨
      ∃ front v back, waiters = front ++ v :: back ∧ (∀ u ∈ front, u.woken = true) ∧
        v.woken = false ∧
        Semaphore.wakeFirst waiters = some (front ++ { v with woken := true } :: back) := by
  induction waiters with
  | nil => exact .inl ⟨rfl, by simp⟩
  | cons v rest ih =>
      cases hv : v.woken with
      | false => exact .inr ⟨[], v, rest, rfl, by simp, hv, by simp [Semaphore.wakeFirst, hv]⟩
      | true =>
          rcases ih with ⟨hnone, hall⟩ | ⟨front, u, back, hrest, hfront, hu, hwake⟩
          · refine .inl ⟨by simp [Semaphore.wakeFirst, hv, hnone], ?_⟩
            simpa [hv] using hall
          · refine .inr ⟨v :: front, u, back, by rw [hrest]; rfl, ?_, hu, ?_⟩
            · simpa [hv] using hfront
            · simp [Semaphore.wakeFirst, hv, hwake]

/-- A free slot goes to the first waiter that sleeps, if there is one. -/
theorem wakeUpNext_fair (hpos : 0 < semaphore.value) (h : Ordered semaphore) :
    FairQueue semaphore.wakeUpNext ∧ queued semaphore.wakeUpNext = queued semaphore ∧
      semaphore.wakeUpNext.value + handed semaphore.wakeUpNext =
        semaphore.value + handed semaphore := by
  obtain ⟨value, waiters⟩ := semaphore
  unfold Semaphore.wakeUpNext
  rcases wakeFirst_cases waiters with ⟨hnone, hall⟩ | ⟨front, v, back, rfl, hfront, hv, hwake⟩
  · rw [hnone]
    refine ⟨⟨le_of_lt hpos, h, fun _ v hv hasleep => ?_⟩, rfl, rfl⟩
    rw [hall v hv] at hasleep
    cases hasleep
  · rw [hwake]
    unfold Ordered at h
    rw [List.pairwise_append, List.pairwise_cons] at h
    obtain ⟨hbefore, ⟨hafter, hback⟩, hacross⟩ := h
    refine ⟨⟨by simp only at hpos ⊢; omega, ?_, fun _ _ _ _ => ?_⟩, ?_, ?_⟩
    · refine List.pairwise_append.mpr ⟨hbefore, List.pairwise_cons.mpr ⟨?_, hback⟩, ?_⟩
      · exact fun b hb => ⟨(hafter b hb).1, fun _ => rfl⟩
      · intro a ha b hb
        refine ⟨?_, fun _ => hfront a ha⟩
        rcases List.mem_cons.mp hb with rfl | hb
        · exact (hacross a ha v List.mem_cons_self).1
        · exact (hacross a ha b (List.mem_cons_of_mem _ hb)).1
    · exact ⟨{ v with woken := true }, by simp, rfl⟩
    · simp [queued]
    · simp only [handed, List.countP_append, List.countP_cons, hv]
      simp
      omega

/-- Where the slot of a deletion that ends goes. -/
theorem release_cases (semaphore : Semaphore) :
    ((∀ v ∈ semaphore.waiters, v.woken = true) ∧
      semaphore.release = ⟨semaphore.value + 1, semaphore.waiters⟩) ∨
      ∃ front v back, semaphore.waiters = front ++ v :: back ∧ (∀ u ∈ front, u.woken = true) ∧
        v.woken = false ∧
        semaphore.release = ⟨semaphore.value, front ++ { v with woken := true } :: back⟩ := by
  unfold Semaphore.release Semaphore.wakeUpNext
  rcases wakeFirst_cases semaphore.waiters with
    ⟨hnone, hall⟩ | ⟨front, v, back, hsplit, hfront, hv, hwake⟩
  · exact .inl ⟨hall, by rw [hnone]⟩
  · exact .inr ⟨front, v, back, hsplit, hfront, hv, by simp [hwake]⟩

theorem release_fair (hnonneg : 0 ≤ semaphore.value) (h : Ordered semaphore) :
    FairQueue semaphore.release ∧ queued semaphore.release = queued semaphore ∧
      semaphore.release.value + handed semaphore.release =
        semaphore.value + handed semaphore + 1 := by
  have hfree : 0 < ({ semaphore with value := semaphore.value + 1 } : Semaphore).value := by
    change 0 < semaphore.value + 1
    omega
  obtain ⟨hfair, hqueued, hsum⟩ := wakeUpNext_fair hfree h
  refine ⟨hfair, hqueued, hsum.trans ?_⟩
  change semaphore.value + 1 + (handed semaphore : Int) = _
  omega

theorem acquire_fair {number : Nat} (h : FairQueue semaphore)
    (hlast : ∀ i ∈ queued semaphore, i < number) :
    FairQueue (semaphore.acquire number).1 ∧
      ((semaphore.acquire number).2 = true ∧
          queued (semaphore.acquire number).1 = queued semaphore ∧
          (semaphore.acquire number).1.value + handed (semaphore.acquire number).1 + 1 =
            semaphore.value + handed semaphore ∨
        (semaphore.acquire number).2 = false ∧
          queued (semaphore.acquire number).1 = queued semaphore ++ [number] ∧
          (semaphore.acquire number).1.value + handed (semaphore.acquire number).1 =
            semaphore.value + handed semaphore) := by
  obtain ⟨value, waiters⟩ := semaphore
  cases hlocked : (⟨value, waiters⟩ : Semaphore).locked with
  | false =>
      rw [Semaphore.acquire_of_not_locked hlocked]
      simp only [Semaphore.locked, Bool.or_eq_false_iff, beq_eq_false_iff_ne] at hlocked
      have hempty : waiters = [] := by simpa using hlocked.2
      have hnonneg : 0 ≤ value := h.nonneg
      subst hempty
      refine ⟨⟨?_, .nil, by simp⟩, .inl ⟨rfl, rfl, ?_⟩⟩
      · change 0 ≤ value - 1
        have hne := hlocked.1
        omega
      · change value - 1 + (0 : Nat) + 1 = value + (0 : Nat)
        omega
  | true =>
      have hacquire : (⟨value, waiters⟩ : Semaphore).acquire number =
          (⟨value, waiters ++ [⟨number, false⟩]⟩, false) := by
        rw [Semaphore.acquire, if_pos hlocked]
      rw [hacquire]
      refine ⟨⟨h.nonneg, ?_, ?_⟩, .inr ⟨rfl, ?_, ?_⟩⟩
      · refine List.pairwise_append.mpr ⟨h.ordered, List.pairwise_singleton _ _, ?_⟩
        intro a ha b hb
        rw [List.mem_singleton.mp hb]
        exact ⟨hlast _ (List.mem_map_of_mem ha), by simp⟩
      · -- A free slot locks out newcomers only while somebody is queued.
        intro hpos _ _ _
        have hpos' : 0 < value := hpos
        have hne : waiters ≠ [] := by
          intro hempty
          simp only [Semaphore.locked, hempty, List.isEmpty_nil, Bool.not_true, Bool.or_false,
            beq_iff_eq] at hlocked
          omega
        obtain ⟨v, hv⟩ := List.exists_mem_of_ne_nil _ hne
        cases hwoken : v.woken with
        | true => exact ⟨v, List.mem_append_left _ hv, hwoken⟩
        | false =>
            obtain ⟨u, hu, hu'⟩ := h.passedOn hpos v hv hwoken
            exact ⟨u, List.mem_append_left _ hu, hu'⟩
      · simp [queued]
      · simp [handed, List.countP_append]

/-- The waiter of a request, of which there is one. -/
theorem eq_of_request_eq (h : Ordered semaphore) {u v : Waiter} (hu : u ∈ semaphore.waiters)
    (hv : v ∈ semaphore.waiters) (heq : u.request = v.request) : u = v := by
  obtain ⟨front, back, hsplit⟩ := List.append_of_mem hu
  unfold Ordered at h
  rw [hsplit, List.pairwise_append, List.pairwise_cons] at h
  rw [hsplit, List.mem_append, List.mem_cons] at hv
  obtain ⟨-, ⟨hafter, -⟩, hacross⟩ := h
  rcases hv with hfront | rfl | hback
  · have hlt := (hacross v hfront u List.mem_cons_self).1
    omega
  · rfl
  · have hlt := (hafter v hback).1
    omega

def without (semaphore : Semaphore) (request : Nat) : Semaphore :=
  { semaphore with waiters := semaphore.waiters.filter (·.request != request) }

theorem mem_without {request : Nat} {v : Waiter} :
    v ∈ (without semaphore request).waiters ↔ v ∈ semaphore.waiters ∧ v.request ≠ request := by
  simp [without]

theorem ordered_without (h : Ordered semaphore) (request : Nat) :
    Ordered (without semaphore request) :=
  List.Pairwise.filter _ h

theorem queued_without (semaphore : Semaphore) (request : Nat) :
    queued (without semaphore request) = (queued semaphore).filter (· != request) := by
  simp [queued, without, List.filter_map, Function.comp_def]

theorem handed_without (h : Ordered semaphore) {v : Waiter} (hv : v ∈ semaphore.waiters) :
    handed (without semaphore v.request) + (if v.woken then 1 else 0) = handed semaphore := by
  obtain ⟨value, waiters⟩ := semaphore
  obtain ⟨front, back, rfl⟩ := List.append_of_mem hv
  unfold Ordered at h
  rw [List.pairwise_append, List.pairwise_cons] at h
  obtain ⟨-, ⟨hafter, -⟩, hacross⟩ := h
  have hfront : front.filter (·.request != v.request) = front := by
    refine List.filter_eq_self.mpr fun a ha => ?_
    have hlt := (hacross a ha v List.mem_cons_self).1
    simpa using Nat.ne_of_lt hlt
  have hback : back.filter (·.request != v.request) = back := by
    refine List.filter_eq_self.mpr fun b hb => ?_
    have hlt := (hafter b hb).1
    simpa using Nat.ne_of_gt hlt
  have hfilter : (front ++ v :: back).filter (·.request != v.request) = front ++ back := by
    simp [hfront, hback]
  simp only [handed, without, hfilter, List.countP_append, List.countP_cons]
  omega

theorem resume_fair (h : FairQueue semaphore) {v : Waiter} (hv : v ∈ semaphore.waiters)
    (hwoken : v.woken = true) :
    FairQueue (semaphore.resume v.request) ∧
      queued (semaphore.resume v.request) = (queued semaphore).filter (· != v.request) ∧
      (semaphore.resume v.request).value + handed (semaphore.resume v.request) + 1 =
        semaphore.value + handed semaphore := by
  have hordered := ordered_without h.ordered v.request
  have hcount := handed_without h.ordered hv
  rw [if_pos hwoken] at hcount
  have hresume : semaphore.resume v.request =
      if 0 < semaphore.value then (without semaphore v.request).wakeUpNext
      else without semaphore v.request := rfl
  by_cases hpos : 0 < semaphore.value
  · have hvalue : 0 < (without semaphore v.request).value := hpos
    obtain ⟨hfair, hqueued, hsum⟩ := wakeUpNext_fair hvalue hordered
    rw [hresume, if_pos hpos]
    refine ⟨hfair, hqueued.trans (queued_without _ _), ?_⟩
    rw [hsum]
    change semaphore.value + _ + 1 = _
    omega
  · rw [hresume, if_neg hpos]
    refine ⟨⟨h.nonneg, hordered, fun hfree => absurd hfree hpos⟩, queued_without _ _, ?_⟩
    change semaphore.value + _ + 1 = _
    omega

/-- A cancelled waiter gives back what it was handed. -/
theorem cancel_fair (h : FairQueue semaphore) {v : Waiter} (hv : v ∈ semaphore.waiters) :
    FairQueue (semaphore.cancel v.request) ∧
      queued (semaphore.cancel v.request) = (queued semaphore).filter (· != v.request) ∧
      (semaphore.cancel v.request).value + handed (semaphore.cancel v.request) =
        semaphore.value + handed semaphore := by
  have hordered := ordered_without h.ordered v.request
  have hcount := handed_without h.ordered hv
  have hhanded : (semaphore.waiters.any fun w => w.request == v.request && w.woken) = v.woken := by
    rw [Bool.eq_iff_iff]
    simp only [List.any_eq_true, Bool.and_eq_true, beq_iff_eq]
    constructor
    · rintro ⟨w, hw, heq, hwoken⟩
      rwa [← eq_of_request_eq h.ordered hw hv heq]
    · exact fun hwoken => ⟨v, hv, rfl, hwoken⟩
  have hcancel : semaphore.cancel v.request =
      if v.woken then (without semaphore v.request).release
      else without semaphore v.request := by
    rw [← hhanded]
    rfl
  rw [hcancel]
  cases hwoken : v.woken with
  | true =>
      have hvalue : 0 ≤ (without semaphore v.request).value := h.nonneg
      obtain ⟨hfair, hqueued, hsum⟩ := release_fair hvalue hordered
      rw [if_pos rfl]
      rw [hwoken, if_pos rfl] at hcount
      refine ⟨hfair, hqueued.trans (queued_without _ _), ?_⟩
      rw [hsum]
      change semaphore.value + _ + 1 = _
      omega
  | false =>
      rw [if_neg (by simp)]
      rw [hwoken, if_neg (by simp)] at hcount
      refine ⟨⟨h.nonneg, hordered, fun hpos w hw hasleep => ?_⟩, queued_without _ _, ?_⟩
      · obtain ⟨u, hu, hawake⟩ := h.passedOn hpos w (mem_without.mp hw).1 hasleep
        refine ⟨u, mem_without.mpr ⟨hu, fun heq => ?_⟩, hawake⟩
        rw [eq_of_request_eq h.ordered hu hv heq, hwoken] at hawake
        cases hawake
      · change semaphore.value + _ = _
        omega

/-- Slots were handed out from the front. -/
theorem woken_front (h : Ordered semaphore) {v : Waiter}
    (hfirst : semaphore.waiters.find? Waiter.woken = some v) :
    ∃ back, semaphore.waiters = v :: back ∧ v.woken = true := by
  obtain ⟨hwoken, front, back, hsplit, hfront⟩ := List.find?_eq_some_iff_append.mp hfirst
  cases front with
  | nil => exact ⟨back, hsplit, hwoken⟩
  | cons u front =>
      unfold Ordered at h
      rw [hsplit, List.cons_append, List.pairwise_cons] at h
      have hawake := (h.1 v (by simp)).2 hwoken
      simp [hawake] at hfront

theorem le_of_head (h : Ordered semaphore) {v : Waiter} {back : List Waiter}
    (hhead : semaphore.waiters = v :: back) : ∀ i ∈ queued semaphore, v.request ≤ i := by
  unfold Ordered at h
  rw [hhead, List.pairwise_cons] at h
  intro i hi
  rw [queued, hhead, List.map_cons, List.mem_cons] at hi
  rcases hi with rfl | hi
  · exact Nat.le_refl _
  · obtain ⟨u, hu, rfl⟩ := List.mem_map.mp hi
    exact Nat.le_of_lt (h.1 u hu).1

end Queue

/-! ## What every step preserves -/

/-- The queue holds the deletions that wait, and every slot is free, handed over or used. -/
structure Inv (w : World) : Prop where
  queue : FairQueue w.semaphore
  waiting : ∀ i, w.deletions[i]? = some .acquiring ↔ i ∈ queued w.semaphore
  slots : w.semaphore.value + handed w.semaphore + deleting w = maxConcurrentDeletions

section Steps

variable {w w' : World}

theorem exists_waiter {i : Nat} (h : i ∈ queued w.semaphore) :
    ∃ v ∈ w.semaphore.waiters, v.request = i :=
  List.mem_map.mp h

theorem inv_start : Inv start where
  queue := ⟨by decide, .nil, by simp [start, Semaphore.new]⟩
  waiting := by simp [start, queued, Semaphore.new]
  slots := by decide

theorem inv_arrive (h : Inv w) (usingFallback : Bool) :
    Inv ⟨(deletePattern w.semaphore w.deletions.length usingFallback).1,
      w.deletions ++ [(deletePattern w.semaphore w.deletions.length usingFallback).2]⟩ := by
  have hslots := h.slots
  have hlast : ∀ i ∈ queued w.semaphore, i < w.deletions.length := fun i hi =>
    (List.getElem?_eq_some_iff.mp ((h.waiting i).mpr hi)).1
  unfold deletePattern
  cases usingFallback with
  | true =>
      refine ⟨h.queue, fun i => ?_, ?_⟩
      · rw [if_pos rfl, getElem?_append_singleton_iff, ← h.waiting]
        simp
      · simp only [if_true, deleting, countP_append_singleton] at hslots ⊢
        simpa using hslots
  | false =>
      obtain ⟨hfair, ⟨htaken, hqueued, hsum⟩ | ⟨htaken, hqueued, hsum⟩⟩ :=
        acquire_fair h.queue hlast
      · refine ⟨hfair, fun i => ?_, ?_⟩
        · simp only [Bool.false_eq_true, if_false, htaken, if_true]
          rw [getElem?_append_singleton_iff, hqueued, ← h.waiting]
          simp
        · simp only [Bool.false_eq_true, if_false, htaken, if_true, deleting,
            countP_append_singleton] at hslots ⊢
          simp only [decide_true, if_true]
          omega
      · refine ⟨hfair, fun i => ?_, ?_⟩
        · simp only [Bool.false_eq_true, if_false, htaken]
          rw [getElem?_append_singleton_iff, hqueued, List.mem_append, ← h.waiting]
          simp
        · simp only [Bool.false_eq_true, if_false, htaken, deleting,
            countP_append_singleton] at hslots ⊢
          simp only [reduceCtorEq, decide_false, Bool.false_eq_true, if_false]
          omega

/-- A deletion leaves the queue for a phase that is not `acquiring`. -/
theorem waiting_set (h : Inv w) {i : Nat} {phase : Deletion} (hi : i ∈ queued w.semaphore)
    (hphase : phase ≠ .acquiring) (j : Nat) :
    (w.deletions.set i phase)[j]? = some .acquiring ↔
      j ∈ (queued w.semaphore).filter (· != i) := by
  rw [getElem?_set_eq_some_iff ((h.waiting i).mpr hi), List.mem_filter, ← h.waiting]
  split_ifs with hj
  · simp [hj, Ne.symm hphase]
  · simp [hj]

theorem resume_cases (h : Inv w) {i : Nat} (hstep : Step w (.resumeAcquire i) w') :
    (∃ v back, w.semaphore.waiters = v :: back ∧ v.request = i ∧ v.woken = true) ∧
      w' = ⟨w.semaphore.resume i, w.deletions.set i .deleting⟩ := by
  simp only [Step, StepOf, step] at hstep
  split_ifs at hstep with hfirst
  obtain ⟨v, hv, hi⟩ := Option.map_eq_some_iff.mp hfirst
  obtain ⟨back, hhead, hwoken⟩ := woken_front h.queue.ordered hv
  exact ⟨⟨v, back, hhead, hi, hwoken⟩, (Option.some.inj hstep).symm⟩

theorem inv_resume (h : Inv w) {i : Nat} (hstep : Step w (.resumeAcquire i) w') : Inv w' := by
  obtain ⟨⟨v, back, hhead, rfl, hwoken⟩, rfl⟩ := resume_cases h hstep
  have hv : v ∈ w.semaphore.waiters := by simp [hhead]
  have hqueued : v.request ∈ queued w.semaphore := List.mem_map_of_mem hv
  obtain ⟨hfair, hqueue, hsum⟩ := resume_fair h.queue hv hwoken
  refine ⟨hfair, fun j => ?_, ?_⟩
  · rw [hqueue]
    exact waiting_set h hqueued (by simp) j
  · have hslots := h.slots
    have hcount := countP_set_add (· = Deletion.deleting)
      ((h.waiting v.request).mpr hqueued) .deleting
    simp only [reduceCtorEq, decide_false, Bool.false_eq_true, if_false, decide_true,
      if_true] at hcount
    simp only [deleting] at hslots ⊢
    omega

theorem inv_cancel (h : Inv w) {i : Nat} (hstep : Step w (.cancelAcquire i) w') : Inv w' := by
  simp only [Step, StepOf, step] at hstep
  split at hstep
  · rename_i hphase
    obtain rfl := Option.some.inj hstep
    have hqueued := (h.waiting i).mp hphase
    obtain ⟨v, hv, rfl⟩ := exists_waiter hqueued
    obtain ⟨hfair, hqueue, hsum⟩ := cancel_fair h.queue hv
    refine ⟨hfair, fun j => ?_, ?_⟩
    · rw [hqueue]
      exact waiting_set h hqueued (by simp) j
    · have hslots := h.slots
      have hcount := countP_set_add (· = Deletion.deleting) hphase .cancelledWaiting
      simp only [reduceCtorEq, decide_false, Bool.false_eq_true, if_false] at hcount
      simp only [deleting] at hslots ⊢
      omega
  · cases hstep

theorem waiting_set_ended (h : Inv w) {i : Nat} {phase : Deletion} {ending : Ending}
    (hi : w.deletions[i]? = some phase) (hphase : phase ≠ .acquiring) (j : Nat) :
    (w.deletions.set i (.ended ending))[j]? = some .acquiring ↔ j ∈ queued w.semaphore := by
  rw [getElem?_set_eq_some_iff hi, ← h.waiting]
  split_ifs with hj
  · rw [hj, hi]
    simp [hphase]
  · rfl

theorem inv_finish (h : Inv w) {i : Nat} {ending : Ending}
    (hstep : Step w (.finish i ending) w') : Inv w' := by
  have hslots := h.slots
  simp only [Step, StepOf, step] at hstep
  split at hstep
  · rename_i hphase
    obtain rfl := Option.some.inj hstep
    obtain ⟨hfair, hqueue, hsum⟩ := release_fair h.queue.nonneg h.queue.ordered
    refine ⟨hfair, fun j => ?_, ?_⟩
    · rw [hqueue]
      exact waiting_set_ended h hphase (by simp) j
    · have hcount := countP_set_add (· = Deletion.deleting) hphase (.ended ending)
      simp only [decide_true, if_true, reduceCtorEq, decide_false, Bool.false_eq_true,
        if_false] at hcount
      simp only [deleting] at hslots ⊢
      omega
  · rename_i hphase
    obtain rfl := Option.some.inj hstep
    refine ⟨h.queue, waiting_set_ended h hphase (by simp), ?_⟩
    have hcount := countP_set_add (· = Deletion.deleting) hphase (.ended ending)
    simp only [reduceCtorEq, decide_false, Bool.false_eq_true, if_false] at hcount
    simp only [deleting] at hslots ⊢
    omega
  · cases hstep

theorem inv_step (w : World) (e : Event) (w' : World) (h : Inv w) (hstep : Step w e w') :
    Inv w' := by
  cases e with
  | arrive usingFallback =>
      obtain rfl := Option.some.inj hstep
      exact inv_arrive h usingFallback
  | resumeAcquire i => exact inv_resume h hstep
  | cancelAcquire i => exact inv_cancel h hstep
  | finish i ending => exact inv_finish h hstep

end Steps

/-! ## The slots over every run -/

def Waits (w : World) (i : Nat) : Prop := w.deletions[i]? = some .acquiring

def IsHanded (w : World) (i : Nat) : Prop :=
  ∃ v ∈ w.semaphore.waiters, v.request = i ∧ v.woken = true

/-- A newcomer runs at once exactly where a slot is free and nobody is queued. -/
structure ArrivalContract (w w' : World) : Prop where
  runs : deleting w < maxConcurrentDeletions → (∀ i, ¬ Waits w i) →
    w'.deletions = w.deletions ++ [.deleting]
  waits : (deleting w = maxConcurrentDeletions ∨ ∃ i, Waits w i) →
    w'.deletions = w.deletions ++ [.acquiring]

/-- However a deletion ends, its slot goes to the first in the queue that has none, or is
free again. -/
structure FinishContract (w : World) (i : Nat) (ending : Ending) (w' : World) : Prop where
  ended : w'.deletions = w.deletions.set i (.ended ending)
  slot :
    (∃ j, Waits w j ∧ ¬ IsHanded w j ∧ (∀ k < j, Waits w k → IsHanded w k) ∧ IsHanded w' j) ∨
      (∀ j, Waits w j → IsHanded w j) ∧ w'.semaphore.value = w.semaphore.value + 1

structure SlotContract (w : World) : Prop where
  bound : deleting w ≤ maxConcurrentDeletions
  conserved : w.semaphore.value + handed w.semaphore + deleting w = maxConcurrentDeletions
  arrives : ∃ w', Step w (.arrive false) w' ∧ ArrivalContract w w'
  inMemory : Step w (.arrive true) ⟨w.semaphore, w.deletions ++ [.inMemory]⟩
  /-- While a deletion waits, every slot is in use or somebody can resume with one. -/
  noLostWakeup : ∀ i, Waits w i →
    deleting w = maxConcurrentDeletions ∨ ∃ j w', Step w (.resumeAcquire j) w'
  /-- Only the first in the queue goes on. -/
  firstInFirstOut : ∀ i w', Step w (.resumeAcquire i) w' →
    Waits w i ∧ (∀ j < i, ¬ Waits w j) ∧ w'.deletions = w.deletions.set i .deleting
  finishes : ∀ i ending, w.deletions[i]? = some .deleting →
    ∃ w', Step w (.finish i ending) w' ∧ FinishContract w i ending w'
  finishesInMemory : ∀ i ending, w.deletions[i]? = some .inMemory →
    Step w (.finish i ending) ⟨w.semaphore, w.deletions.set i (.ended ending)⟩
  cancels : ∀ i, Waits w i →
    ∃ w', Step w (.cancelAcquire i) w' ∧ w'.deletions = w.deletions.set i .cancelledWaiting
  allFree : (∀ phase ∈ w.deletions, phase ≠ .acquiring ∧ phase ≠ .deleting) →
    w.semaphore = .new maxConcurrentDeletions

theorem resumes_of_handed {w : World} (h : 0 < handed w.semaphore) :
    ∃ i w', Step w (.resumeAcquire i) w' := by
  obtain ⟨v, hv, hwoken⟩ := List.countP_pos_iff.mp h
  obtain ⟨first, hfirst⟩ := Option.isSome_iff_exists.mp
    (List.find?_isSome.mpr ⟨v, hv, hwoken⟩)
  exact ⟨first.request, _, if_pos (by rw [hfirst, Option.map_some])⟩

theorem not_locked_iff {w : World} (h : Inv w) :
    w.semaphore.locked = false ↔
      deleting w < maxConcurrentDeletions ∧ ∀ i, ¬ Waits w i := by
  have hslots := h.slots
  have hnonneg := h.queue.nonneg
  simp only [Semaphore.locked, Bool.or_eq_false_iff, beq_eq_false_iff_ne, Bool.not_eq_false',
    List.isEmpty_iff]
  constructor
  · rintro ⟨hvalue, hempty⟩
    refine ⟨by omega, fun i hi => ?_⟩
    have hqueued := (h.waiting i).mp hi
    simp [queued, hempty] at hqueued
  · rintro ⟨hfree, hnone⟩
    have hempty : w.semaphore.waiters = [] := by
      refine List.eq_nil_iff_forall_not_mem.mpr fun v hv => ?_
      exact hnone v.request ((h.waiting _).mpr (List.mem_map_of_mem hv))
    have hhanded : handed w.semaphore = 0 := by simp [handed, hempty]
    exact ⟨by omega, hempty⟩

theorem arrivalContract {w : World} (h : Inv w) :
    ∃ w', Step w (.arrive false) w' ∧ ArrivalContract w w' := by
  refine ⟨_, rfl, ?_, ?_⟩
  · intro hfree hnone
    have hlocked := (not_locked_iff h).mpr ⟨hfree, hnone⟩
    simp [deletePattern, Semaphore.acquire_of_not_locked hlocked]
  · intro hfull
    have hlocked : w.semaphore.locked = true := by
      rw [← Bool.not_eq_false, not_locked_iff h, not_and_or, Nat.not_lt]
      exact hfull.imp (fun heq => Nat.le_of_eq heq.symm) fun ⟨i, hi⟩ hnone => hnone i hi
    simp [deletePattern, Semaphore.acquire, hlocked]

theorem isHanded_iff {w : World} (h : Inv w) {v : Waiter} (hv : v ∈ w.semaphore.waiters) :
    IsHanded w v.request ↔ v.woken = true := by
  constructor
  · rintro ⟨u, hu, heq, hwoken⟩
    rwa [← eq_of_request_eq h.queue.ordered hu hv heq]
  · exact fun hwoken => ⟨v, hv, rfl, hwoken⟩

theorem finishContract {w : World} (h : Inv w) {i : Nat} (ending : Ending)
    (hi : w.deletions[i]? = some .deleting) :
    ∃ w', Step w (.finish i ending) w' ∧ FinishContract w i ending w' := by
  refine ⟨⟨w.semaphore.release, w.deletions.set i (.ended ending)⟩,
    by simp [Step, StepOf, step, hi], rfl, ?_⟩
  rcases release_cases w.semaphore with ⟨hall, hrelease⟩ | ⟨front, v, back, hsplit, hfront, hv,
    hrelease⟩
  · refine .inr ⟨fun j hj => ?_, by rw [hrelease]⟩
    obtain ⟨u, hu, rfl⟩ := exists_waiter ((h.waiting j).mp hj)
    exact (isHanded_iff h hu).mpr (hall u hu)
  · have hmem : v ∈ w.semaphore.waiters := by simp [hsplit]
    refine .inl ⟨v.request, (h.waiting _).mpr (List.mem_map_of_mem hmem), ?_, ?_, ?_⟩
    · rw [isHanded_iff h hmem, hv]
      exact Bool.false_ne_true
    · intro k hk hwaits
      obtain ⟨u, hu, rfl⟩ := exists_waiter ((h.waiting k).mp hwaits)
      refine (isHanded_iff h hu).mpr (hfront u ?_)
      have hordered := h.queue.ordered
      unfold Ordered at hordered
      rw [hsplit, List.pairwise_append, List.pairwise_cons] at hordered
      rw [hsplit, List.mem_append, List.mem_cons] at hu
      obtain ⟨-, ⟨hafter, -⟩, -⟩ := hordered
      rcases hu with hbefore | rfl | hbehind
      · exact hbefore
      · exact absurd hk (Nat.lt_irrefl _)
      · exact absurd hk (Nat.lt_asymm (hafter u hbehind).1)
    · exact ⟨{ v with woken := true }, by simp [hrelease], rfl, rfl⟩

theorem all_free_of_ended {w : World} (h : Inv w)
    (hended : ∀ phase ∈ w.deletions, phase ≠ .acquiring ∧ phase ≠ .deleting) :
    w.semaphore = .new maxConcurrentDeletions := by
  have hempty : w.semaphore.waiters = [] := by
    by_contra hne
    obtain ⟨v, hv⟩ := List.exists_mem_of_ne_nil _ hne
    have hwaits := (h.waiting v.request).mpr (List.mem_map_of_mem hv)
    exact (hended _ (List.mem_of_getElem? hwaits)).1 rfl
  have hnone : deleting w = 0 := by
    refine List.countP_eq_zero.mpr fun phase hphase => ?_
    simpa using (hended phase hphase).2
  have hhanded : handed w.semaphore = 0 := by simp [handed, hempty]
  have hslots := h.slots
  rw [hnone, hhanded] at hslots
  have hvalue : w.semaphore.value = maxConcurrentDeletions := by simpa using hslots
  calc w.semaphore = ⟨w.semaphore.value, w.semaphore.waiters⟩ := rfl
    _ = .new maxConcurrentDeletions := by rw [hvalue, hempty]; rfl

theorem slotContract {w : World} (h : Inv w) : SlotContract w where
  bound := by
    have hslots := h.slots
    have hnonneg := h.queue.nonneg
    omega
  conserved := h.slots
  arrives := arrivalContract h
  inMemory := rfl
  noLostWakeup := by
    intro i hi
    obtain ⟨v, hv, rfl⟩ := exists_waiter ((h.waiting i).mp hi)
    by_cases hhanded : 0 < handed w.semaphore
    · exact .inr (resumes_of_handed hhanded)
    · refine .inl ?_
      have hnone : ∀ u ∈ w.semaphore.waiters, ¬ u.woken = true := fun u hu hwoken =>
        hhanded (List.countP_pos_iff.mpr ⟨u, hu, hwoken⟩)
      have hfull : ¬ 0 < w.semaphore.value := fun hfree => by
        obtain ⟨u, hu, hwoken⟩ := h.queue.passedOn hfree v hv (by simpa using hnone v hv)
        exact hnone u hu hwoken
      have hslots := h.slots
      have hnonneg := h.queue.nonneg
      omega
  firstInFirstOut := by
    intro i w' hstep
    obtain ⟨⟨v, back, hhead, rfl, -⟩, rfl⟩ := resume_cases h hstep
    have hv : v.request ∈ queued w.semaphore := by simp [queued, hhead]
    refine ⟨(h.waiting _).mpr hv, fun j hj hwaits => ?_, rfl⟩
    have hle := le_of_head h.queue.ordered hhead j ((h.waiting j).mp hwaits)
    omega
  finishes := fun _ ending hi => finishContract h ending hi
  finishesInMemory := fun i ending hi => by simp [Step, StepOf, step, hi]
  cancels := fun i hi => ⟨⟨w.semaphore.cancel i, w.deletions.set i .cancelledWaiting⟩,
    by simp only [Step, StepOf, step, (show w.deletions[i]? = some .acquiring from hi)], rfl⟩
  allFree := all_free_of_ended h

/-- At most five pattern deletions run on Redis at once, over every interleaving of
arrivals, ends, failures and cancellations; no slot is lost, none stays free while a
deletion waits for it, and the deletions go on in the order in which they came. -/
theorem deletion_slots {es : List Event} {w : World} (hrun : Run Step start es w) :
    SlotContract w :=
  slotContract (hrun.invariant inv_step inv_start)

/-- Six deletions, the first of which has ended: the sixth has been handed its slot. -/
def sixArrivals : World :=
  ⟨⟨0, [⟨5, true⟩]⟩, .ended (.returned 3) :: .replicate 4 .deleting ++ [.acquiring]⟩

theorem deletion_slots_sixArrivals : Waits sixArrivals 5 ∧ SlotContract sixArrivals :=
  have hrun : Run Step start (.replicate 6 (.arrive false) ++ [.finish 0 (.returned 3)])
      sixArrivals := run_of_foldlM (by decide)
  ⟨rfl, deletion_slots hrun⟩

end BackendProdReady.Cache.DeletionSlots
