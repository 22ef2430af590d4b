import Mathlib.Logic.Function.Basic
import Mathlib.Tactic.Common

/-!
# Key-value stores whose entries expire

An entry without an expiry lives until it is removed; one that expires at `t` is
live up to and including `t`.  The map may still hold an entry after its expiry;
reading goes through `find`, which sees live entries only, so what has expired
stays unseen as the clock moves on.
-/

namespace BackendProdReady.Lib.ExpiringStore

structure Entry (β : Type) where
  value : β
  expiry : Option Nat
deriving DecidableEq

namespace Entry

variable {β : Type}

def live (entry : Entry β) (now : Nat) : Bool :=
  match entry.expiry with
  | none => true
  | some t => now ≤ t

theorem live_iff {entry : Entry β} {t : Nat} (h : entry.expiry = some t) (now : Nat) :
    entry.live now = true ↔ now ≤ t := by
  simp [live, h]

theorem live_of_le {entry : Entry β} {now later : Nat} (hle : now ≤ later)
    (h : entry.live later = true) : entry.live now = true := by
  unfold live at h ⊢
  split
  · rfl
  · simp_all
    omega

end Entry

abbrev Store (κ β : Type) := κ → Option (Entry β)

namespace Store

variable {κ β : Type} [DecidableEq κ]

def find (s : Store κ β) (now : Nat) (k : κ) : Option β :=
  match s k with
  | none => none
  | some entry => if entry.live now then some entry.value else none

def put (s : Store κ β) (k : κ) (entry : Entry β) : Store κ β :=
  Function.update s k (some entry)

def remove (s : Store κ β) (k : κ) : Store κ β :=
  Function.update s k none

@[simp] theorem put_self (s : Store κ β) (k : κ) (entry : Entry β) :
    s.put k entry k = some entry := by
  simp [put]

@[simp] theorem remove_self (s : Store κ β) (k : κ) : s.remove k k = none := by
  simp [remove]

theorem put_of_ne {k l : κ} (h : l ≠ k) (s : Store κ β) (entry : Entry β) :
    s.put k entry l = s l := by
  simp [put, h]

theorem remove_of_ne {k l : κ} (h : l ≠ k) (s : Store κ β) : s.remove k l = s l := by
  simp [remove, h]

theorem find_put_self (s : Store κ β) (k : κ) (entry : Entry β) (now : Nat) :
    (s.put k entry).find now k = if entry.live now then some entry.value else none := by
  simp [find]

omit [DecidableEq κ] in
theorem find_of_live {s : Store κ β} {now : Nat} {k : κ} {entry : Entry β}
    (hk : s k = some entry) (hlive : entry.live now = true) :
    s.find now k = some entry.value := by
  simp [find, hk, hlive]

omit [DecidableEq κ] in
theorem find_eq_some {s : Store κ β} {now : Nat} {k : κ} {v : β} (h : s.find now k = some v) :
    ∃ entry, s k = some entry ∧ entry.live now = true ∧ entry.value = v := by
  unfold find at h
  split at h
  · cases h
  · rename_i entry hk
    split_ifs at h with hlive
    exact ⟨entry, hk, hlive, Option.some.inj h⟩

omit [DecidableEq κ] in
theorem find_eq_none_iff {s : Store κ β} {now : Nat} {k : κ} :
    s.find now k = none ↔ ∀ entry, s k = some entry → entry.live now = false := by
  unfold find
  cases s k with
  | none => simp
  | some entry => simp

omit [DecidableEq κ] in
/-- What has expired stays expired. -/
theorem find_eq_none_of_le {s : Store κ β} {now later : Nat} {k : κ} (hle : now ≤ later)
    (h : s.find now k = none) : s.find later k = none := by
  rw [find_eq_none_iff] at h ⊢
  intro entry hk
  cases hlive : entry.live later with
  | false => rfl
  | true => simpa [h entry hk] using Entry.live_of_le hle hlive

omit [DecidableEq κ] in
theorem find_congr {s t : Store κ β} {k : κ} (h : s k = t k) (now : Nat) :
    s.find now k = t.find now k := by
  simp [find, h]

end Store

end BackendProdReady.Lib.ExpiringStore
