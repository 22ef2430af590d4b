import BackendProdReady.Lib.Windows

/-!
# Windows of a list that changes

A reader takes one window after the other while items come and go.  The items that stay keep
their order, so the end of the last window cuts them in two: a deletion takes at most one of
them past the cut unread, and an insertion brings at most one of them back.
-/

namespace BackendProdReady.Lib.WindowWalks

open BackendProdReady.Lib.Windows

variable {α : Type*}

/-! ## Lists that share all but some items -/

/-- All but `n` items of `xs` are in `ys`, in the same order. -/
def AllBut (n : Nat) (xs ys : List α) : Prop :=
  ∃ common : List α, common.Sublist xs ∧ common.Sublist ys ∧ xs.length ≤ common.length + n

namespace AllBut

variable {n : Nat} {xs ys zs : List α}

theorem nil (ys : List α) : AllBut 0 [] ys := ⟨[], .slnil, List.nil_sublist ys, Nat.le_refl _⟩

theorem append (h : AllBut n xs ys) (zs : List α) : AllBut n (xs ++ zs) (ys ++ zs) := by
  obtain ⟨common, hxs, hys, hlength⟩ := h
  refine ⟨common ++ zs, hxs.append (.refl zs), hys.append (.refl zs), ?_⟩
  rw [List.length_append, List.length_append]
  omega

/-- Items that were not read. -/
theorem append_left (h : AllBut n xs ys) {k : Nat} (hzs : zs.length ≤ k) :
    AllBut (n + k) (xs ++ zs) ys := by
  obtain ⟨common, hxs, hys, hlength⟩ := h
  refine ⟨common, hxs.trans (List.sublist_append_left xs zs), hys, ?_⟩
  rw [List.length_append]
  omega

theorem of_append (h : AllBut n (xs ++ zs) ys) : AllBut n xs ys := by
  obtain ⟨common, hsub, hys, hlength⟩ := h
  obtain ⟨first, last, rfl, hxs, hzs⟩ := List.sublist_append_iff.mp hsub
  refine ⟨first, hxs, (List.sublist_append_left first last).trans hys, ?_⟩
  have hlast : last.length ≤ zs.length := hzs.length_le
  rw [List.length_append, List.length_append] at hlength
  omega

theorem eq (h : AllBut 0 xs ys) (hlength : ys.length ≤ xs.length) : ys = xs := by
  obtain ⟨common, hxs, hys, hcommon⟩ := h
  have hsame : common = xs := hxs.eq_of_length_le hcommon
  subst hsame
  exact (hys.eq_of_length_le hlength).symm

end AllBut

/-! ## One item more -/

/-- An item that does not count moves at most one that counts past the cut. -/
theorem filter_take_insert {p : α → Bool} {a : α} (ha : p a = false) (pre post : List α)
    (n : Nat) :
    ∃ last : List α, last.length ≤ 1 ∧
      ((pre ++ post).take n).filter p = ((pre ++ a :: post).take n).filter p ++ last := by
  simp only [List.take_append, List.filter_append, List.append_assoc, List.append_cancel_left_eq]
  cases n - pre.length with
  | zero => exact ⟨[], Nat.zero_le 1, rfl⟩
  | succ k =>
      refine ⟨post[k]?.toList.filter p, ?_, ?_⟩
      · apply (List.length_filter_le _ _).trans
        cases post[k]? with
        | none => exact Nat.zero_le 1
        | some b => exact Nat.le_refl 1
      · rw [List.take_add_one, List.take_succ_cons, List.filter_append, List.filter_cons_of_neg]
        simp [ha]

/-! ## Walks -/

structure Walk (α : Type*) where
  items : List α
  /-- How many windows have been read. -/
  windows : Nat
  collected : List α

namespace Walk

def start (items : List α) : Walk α := ⟨items, 0, []⟩

def insert (w : Walk α) (i : Nat) (a : α) : Walk α :=
  { w with items := w.items.take i ++ a :: w.items.drop i }

def delete (w : Walk α) (i : Nat) : Walk α := { w with items := w.items.eraseIdx i }

def read (size : Nat) (w : Walk α) : Walk α :=
  { w with
    windows := w.windows + 1
    collected := w.collected ++ window size w.windows w.items }

/-- The items before the end of the last window. -/
def passed (size : Nat) (w : Walk α) : List α := w.items.take (w.windows * size)

theorem passed_read (size : Nat) (w : Walk α) :
    (w.read size).passed size = w.passed size ++ window size w.windows w.items := by
  show w.items.take ((w.windows + 1) * size) = _
  rw [Nat.succ_mul, List.take_add]
  rfl

end Walk

/-- What a walk has seen of the items for which `p` holds. -/
structure Inv (p : α → Bool) (size : Nat) (init : List α) (inserted deleted : Nat)
    (w : Walk α) : Prop where
  items : w.items.filter p = init.filter p
  found : AllBut deleted ((w.passed size).filter p) (w.collected.filter p)
  repeats : (w.collected.filter p).length ≤ ((w.passed size).filter p).length + inserted

section Steps

variable {p : α → Bool} {size inserted deleted : Nat} {init : List α} {w : Walk α}

theorem inv_start (p : α → Bool) (size : Nat) (init : List α) :
    Inv p size init 0 0 (.start init) where
  items := rfl
  found := by
    rw [Walk.passed, Walk.start, Nat.zero_mul]
    exact .nil _
  repeats := Nat.zero_le _

theorem Inv.read (h : Inv p size init inserted deleted w) :
    Inv p size init inserted deleted (w.read size) where
  items := h.items
  found := by
    rw [Walk.passed_read, Walk.read, List.filter_append, List.filter_append]
    exact h.found.append _
  repeats := by
    have hrepeats := h.repeats
    rw [Walk.passed_read, Walk.read, List.filter_append, List.filter_append, List.length_append,
      List.length_append]
    omega

theorem Inv.insert (h : Inv p size init inserted deleted w) (i : Nat) {a : α}
    (ha : p a = false) : Inv p size init (inserted + 1) deleted (w.insert i a) := by
  obtain ⟨last, hlast, hcut⟩ := filter_take_insert ha (w.items.take i) (w.items.drop i)
    (w.windows * size)
  rw [List.take_append_drop] at hcut
  have hpassed : (w.passed size).filter p = ((w.insert i a).passed size).filter p ++ last := hcut
  have hlength := congrArg List.length hpassed
  rw [List.length_append] at hlength
  constructor
  case items =>
    rw [← h.items, Walk.insert, List.filter_append, List.filter_cons_of_neg (by simp [ha]),
      ← List.filter_append, List.take_append_drop]
  case found =>
    have hfound := h.found
    rw [hpassed] at hfound
    exact hfound.of_append
  case repeats =>
    have hrepeats : (w.collected.filter p).length ≤ _ := h.repeats
    show (w.collected.filter p).length ≤ _
    omega

theorem Inv.delete (h : Inv p size init inserted deleted w) {i : Nat} {a : α}
    (hitem : w.items[i]? = some a) (ha : p a = false) :
    Inv p size init inserted (deleted + 1) (w.delete i) := by
  -- the items of before are those of now with one inserted
  have hbefore : w.items = w.items.take i ++ a :: w.items.drop (i + 1) := by
    obtain ⟨hlt, heq⟩ := List.getElem?_eq_some_iff.mp hitem
    rw [← heq, List.getElem_cons_drop, List.take_append_drop]
  have hafter : (w.delete i).items = w.items.take i ++ w.items.drop (i + 1) :=
    List.eraseIdx_eq_take_drop_succ w.items i
  obtain ⟨last, hlast, hcut⟩ := filter_take_insert ha (w.items.take i) (w.items.drop (i + 1))
    (w.windows * size)
  rw [← hbefore, ← hafter] at hcut
  have hpassed : ((w.delete i).passed size).filter p = (w.passed size).filter p ++ last := hcut
  have hlength := congrArg List.length hpassed
  rw [List.length_append] at hlength
  constructor
  case items =>
    rw [← h.items, hafter, hbefore, List.filter_append, List.filter_append,
      List.filter_cons_of_neg (by simp [ha]), ← hbefore]
  case found =>
    rw [hpassed]
    exact h.found.append_left hlast
  case repeats =>
    have hrepeats : (w.collected.filter p).length ≤ _ := h.repeats
    show (w.collected.filter p).length ≤ _
    omega

/-! ## The whole walk -/

theorem Inv.found_all (h : Inv p size init inserted deleted w) {late : Nat}
    (hlast : w.items.length ≤ w.windows * size + late) :
    AllBut (deleted + late) (init.filter p) (w.collected.filter p) := by
  have hsplit : init.filter p = (w.passed size).filter p ++
      (w.items.drop (w.windows * size)).filter p := by
    rw [← h.items, Walk.passed, ← List.filter_append, List.take_append_drop]
  have hrest : ((w.items.drop (w.windows * size)).filter p).length ≤ late := by
    apply (List.length_filter_le _ _).trans
    rw [List.length_drop]
    omega
  rw [hsplit]
  exact h.found.append_left hrest

theorem Inv.repeats_all (h : Inv p size init inserted deleted w) :
    (w.collected.filter p).length ≤ (init.filter p).length + inserted := by
  have hpassed : ((w.passed size).filter p).length ≤ (w.items.filter p).length :=
    ((List.take_sublist _ _).filter p).length_le
  have hrepeats := h.repeats
  rw [← h.items]
  omega

end Steps

end BackendProdReady.Lib.WindowWalks
