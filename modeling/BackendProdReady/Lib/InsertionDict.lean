import Mathlib.Tactic.Common

/-!
# Dictionaries in insertion order

Assigning to a key that is there replaces its value in place; a new key goes to
the end.
-/

namespace BackendProdReady.Lib.InsertionDict

variable {κ ν : Type} [DecidableEq κ]

abbrev Dict (κ ν : Type) := List (κ × ν)

namespace Dict

def find : Dict κ ν → κ → Option ν
  | [], _ => none
  | (l, w) :: d, k => if l = k then some w else find d k

def assign : Dict κ ν → κ → ν → Dict κ ν
  | [], k, v => [(k, v)]
  | (l, w) :: d, k, v => if l = k then (k, v) :: d else (l, w) :: assign d k v

def removeIf (drop : κ → Bool) (d : Dict κ ν) : Dict κ ν := d.filter fun p => !drop p.1

theorem find_assign_self (d : Dict κ ν) (k : κ) (v : ν) : find (assign d k v) k = some v := by
  induction d with
  | nil => simp [assign, find]
  | cons p d ih =>
      obtain ⟨l, w⟩ := p
      by_cases hl : l = k
      · simp [assign, find, hl]
      · simp [assign, find, hl, ih]

theorem find_assign_of_ne (d : Dict κ ν) {k l : κ} (h : k ≠ l) (v : ν) :
    find (assign d k v) l = find d l := by
  induction d with
  | nil => simp [assign, find, h]
  | cons p d ih =>
      obtain ⟨m, w⟩ := p
      by_cases hm : m = k
      · subst hm
        simp [assign, find, h]
      · simp [assign, find, hm, ih]

omit [DecidableEq κ] in
theorem removeIf_cons (drop : κ → Bool) (k : κ) (v : ν) (d : Dict κ ν) :
    removeIf drop ((k, v) :: d) =
      if drop k then removeIf drop d else (k, v) :: removeIf drop d := by
  cases hdrop : drop k <;> simp [removeIf, hdrop]

theorem find_removeIf (drop : κ → Bool) (d : Dict κ ν) (k : κ) :
    find (removeIf drop d) k = if drop k then none else find d k := by
  induction d with
  | nil => simp [removeIf, find]
  | cons p d ih =>
      obtain ⟨l, w⟩ := p
      rw [removeIf_cons]
      by_cases hl : l = k
      · subst hl
        cases hdrop : drop l <;> simp [find, ih, hdrop]
      · cases hdrop : drop l <;> simp [find, hl, ih]

theorem find_removeIf_of_kept {drop : κ → Bool} {k : κ} (h : drop k = false) (d : Dict κ ν) :
    find (removeIf drop d) k = find d k := by
  simp [find_removeIf, h]

theorem find_removeIf_eq (d : Dict κ ν) (k l : κ) :
    find (removeIf (· = k) d) l = if l = k then none else find d l := by
  simp only [find_removeIf, decide_eq_true_eq]

theorem mem_of_find {d : Dict κ ν} {k : κ} {v : ν} (h : find d k = some v) : (k, v) ∈ d := by
  induction d with
  | nil => cases h
  | cons p d ih =>
      obtain ⟨l, w⟩ := p
      rw [find] at h
      split_ifs at h with hl
      · subst hl
        simp [Option.some.inj h]
      · exact List.mem_cons_of_mem _ (ih h)

theorem mem_assign {d : Dict κ ν} {k : κ} {v : ν} {e : κ × ν} (h : e ∈ assign d k v) :
    e = (k, v) ∨ e ∈ d := by
  induction d with
  | nil => exact .inl (List.mem_singleton.mp h)
  | cons p d ih =>
      obtain ⟨l, w⟩ := p
      rw [assign] at h
      split_ifs at h
      · rcases List.mem_cons.mp h with h | h
        · exact .inl h
        · exact .inr (List.mem_cons_of_mem _ h)
      · rcases List.mem_cons.mp h with rfl | h
        · exact .inr List.mem_cons_self
        · exact (ih h).imp_right (List.mem_cons_of_mem _)

def keys (d : Dict κ ν) : List κ := d.map Prod.fst

theorem keys_assign (d : Dict κ ν) (k : κ) (v : ν) :
    keys (assign d k v) = if k ∈ keys d then keys d else keys d ++ [k] := by
  induction d with
  | nil => rfl
  | cons p d ih =>
      obtain ⟨l, w⟩ := p
      rw [assign]
      split_ifs with hl hmem hmem
      · simp [keys, hl]
      · exact absurd (by simp [keys, hl]) hmem
      · have hd : k ∈ keys d := by simpa [keys, Ne.symm hl] using hmem
        simp only [keys, List.map_cons, List.cons.injEq, true_and]
        rw [← keys, ih, if_pos hd, keys]
      · have hd : k ∉ keys d := fun hd => hmem (List.mem_cons_of_mem _ hd)
        simp only [keys, List.map_cons, List.cons_append, List.cons.injEq, true_and]
        rw [← keys, ih, if_neg hd, keys]

theorem length_assign (d : Dict κ ν) (k : κ) (v : ν) :
    (assign d k v).length = if k ∈ keys d then d.length else d.length + 1 := by
  have hkeys := congrArg List.length (keys_assign d k v)
  rw [keys, List.length_map] at hkeys
  rw [hkeys]
  split_ifs <;> simp [keys]

theorem length_assign_le {d : Dict κ ν} {n : Nat} (h : d.length < n) (k : κ) (v : ν) :
    (assign d k v).length ≤ n := by
  rw [length_assign]
  split_ifs <;> omega

theorem mem_keys_iff {d : Dict κ ν} {k : κ} : k ∈ keys d ↔ (find d k).isSome := by
  induction d with
  | nil => simp [keys, find]
  | cons p d ih =>
      obtain ⟨l, w⟩ := p
      rw [keys, List.map_cons, List.mem_cons, ← keys, ih, find]
      by_cases hl : l = k
      · simp [hl]
      · simp [hl, Ne.symm hl]

theorem assign_of_not_mem {d : Dict κ ν} {k : κ} (h : k ∉ keys d) (v : ν) :
    assign d k v = d ++ [(k, v)] := by
  induction d with
  | nil => rfl
  | cons p d ih =>
      obtain ⟨l, w⟩ := p
      obtain ⟨hl, hd⟩ := not_or.mp (fun hor => h (List.mem_cons.mpr hor))
      rw [assign, if_neg (Ne.symm hl), ih hd]
      rfl

theorem find_of_not_mem {d : Dict κ ν} {k : κ} (h : k ∉ keys d) : find d k = none := by
  cases hfind : find d k with
  | none => rfl
  | some v => exact absurd (List.mem_map_of_mem (mem_of_find hfind)) h

theorem removeIf_of_not_mem {d : Dict κ ν} {k : κ} (h : k ∉ keys d) :
    removeIf (· = k) d = d := by
  refine List.filter_eq_self.mpr fun e he => ?_
  have hne : e.1 ≠ k := fun hsame => h (hsame ▸ List.mem_map_of_mem he)
  simp [hne]

/-- With distinct keys, what is in the dictionary is found. -/
theorem find_of_mem {d : Dict κ ν} (hnodup : (keys d).Nodup) {k : κ} {v : ν}
    (h : (k, v) ∈ d) : find d k = some v := by
  induction d with
  | nil => cases h
  | cons p d ih =>
      obtain ⟨l, w⟩ := p
      obtain ⟨hl, hd⟩ := List.nodup_cons.mp hnodup
      rw [find]
      rcases List.mem_cons.mp h with hhead | htail
      · obtain ⟨rfl, rfl⟩ := Prod.mk.inj hhead
        exact if_pos rfl
      · have hne : l ≠ k := by
          rintro rfl
          exact hl (List.mem_map.mpr ⟨(l, v), htail, rfl⟩)
        rw [if_neg hne, ih hd htail]

theorem eq_nil_iff_find {d : Dict κ ν} : d = [] ↔ ∀ k, find d k = none := by
  constructor
  · rintro rfl k
    rfl
  · intro h
    cases d with
    | nil => rfl
    | cons p d =>
        have hp := h p.1
        simp [find] at hp

def mapValues {μ : Type} (f : ν → μ) (d : Dict κ ν) : Dict κ μ := d.map fun p => (p.1, f p.2)

theorem find_mapValues {μ : Type} (f : ν → μ) (d : Dict κ ν) (k : κ) :
    find (mapValues f d) k = (find d k).map f := by
  induction d with
  | nil => rfl
  | cons p d ih =>
      obtain ⟨l, w⟩ := p
      rw [mapValues, List.map_cons, ← mapValues, find, find, ih]
      split_ifs <;> rfl

def mapItems {μ : Type} (f : κ → ν → μ) (d : Dict κ ν) : Dict κ μ :=
  d.map fun p => (p.1, f p.1 p.2)

theorem find_mapItems {μ : Type} (f : κ → ν → μ) (d : Dict κ ν) (k : κ) :
    find (mapItems f d) k = (find d k).map (f k) := by
  induction d with
  | nil => rfl
  | cons p d ih =>
      obtain ⟨l, w⟩ := p
      rw [mapItems, List.map_cons, ← mapItems, find, find, ih]
      by_cases hl : l = k
      · simp [hl]
      · simp [hl]

def ofKeys (f : κ → ν) (ks : List κ) : Dict κ ν := ks.map fun k => (k, f k)

theorem find_ofKeys (f : κ → ν) (ks : List κ) (k : κ) :
    find (ofKeys f ks) k = if k ∈ ks then some (f k) else none := by
  induction ks with
  | nil => rfl
  | cons l ks ih =>
      rw [ofKeys, List.map_cons, ← ofKeys, find, ih]
      by_cases hl : l = k
      · simp [hl]
      · simp [hl, Ne.symm hl]

theorem nodup_keys_assign {d : Dict κ ν} (h : (keys d).Nodup) (k : κ) (v : ν) :
    (keys (assign d k v)).Nodup := by
  rw [keys_assign]
  split_ifs with hmem
  · exact h
  · refine List.nodup_append.mpr ⟨h, by simp, fun l hl m hm hsame => ?_⟩
    rw [hsame, List.mem_singleton.mp hm] at hl
    exact hmem hl

/-- With distinct keys, an assignment replaces at most one entry. -/
theorem forall_mem_assign {d : Dict κ ν} (hnodup : (keys d).Nodup) (P : κ → ν → Prop) (k : κ)
    (v : ν) :
    (∀ e ∈ assign d k v, P e.1 e.2) ↔ P k v ∧ ∀ e ∈ d, e.1 ≠ k → P e.1 e.2 := by
  induction d with
  | nil => simp [assign]
  | cons p d ih =>
      obtain ⟨l, w⟩ := p
      obtain ⟨hl, hd⟩ := List.nodup_cons.mp hnodup
      rw [assign]
      split_ifs with heq
      · subst heq
        have hne : ∀ e ∈ d, e.1 ≠ l := by
          rintro e he rfl
          exact hl (List.mem_map.mpr ⟨e, he, rfl⟩)
        rw [List.forall_mem_cons, List.forall_mem_cons]
        constructor
        · rintro ⟨hv, hrest⟩
          exact ⟨hv, fun hself => absurd rfl hself, fun e he _ => hrest e he⟩
        · rintro ⟨hv, -, hrest⟩
          exact ⟨hv, fun e he => hrest e he (hne e he)⟩
      · rw [List.forall_mem_cons, List.forall_mem_cons, ih hd]
        constructor
        · rintro ⟨hw, hv, hrest⟩
          exact ⟨hv, fun _ => hw, hrest⟩
        · rintro ⟨hv, hw, hrest⟩
          exact ⟨hw heq, hv, hrest⟩

def update (d : Dict κ ν) (entries : List (κ × ν)) : Dict κ ν :=
  entries.foldl (fun d e => assign d e.1 e.2) d

theorem forall_mem_update {d : Dict κ ν} (hnodup : (keys d).Nodup) {entries : List (κ × ν)}
    (hentries : (entries.map Prod.fst).Nodup) (P : κ → ν → Prop) :
    (∀ e ∈ update d entries, P e.1 e.2) ↔
      (∀ e ∈ entries, P e.1 e.2) ∧ ∀ e ∈ d, e.1 ∉ entries.map Prod.fst → P e.1 e.2 := by
  induction entries generalizing d with
  | nil => simp [update]
  | cons entry entries ih =>
      obtain ⟨k, v⟩ := entry
      obtain ⟨hk, hrest⟩ := List.nodup_cons.mp hentries
      have hstep := ih (nodup_keys_assign hnodup k v) hrest
      have hassign := forall_mem_assign hnodup
        (fun l w => l ∉ entries.map Prod.fst → P l w) k v
      rw [update, List.foldl_cons, ← update, hstep, hassign, List.forall_mem_cons]
      constructor
      · rintro ⟨hall, hv, hd⟩
        refine ⟨⟨hv hk, hall⟩, fun e he hout => ?_⟩
        rw [List.map_cons, List.mem_cons, not_or] at hout
        exact hd e he hout.1 hout.2
      · rintro ⟨⟨hv, hall⟩, hd⟩
        refine ⟨hall, fun _ => hv, fun e he hne hout => ?_⟩
        apply hd e he
        rw [List.map_cons, List.mem_cons, not_or]
        exact ⟨hne, hout⟩

omit [DecidableEq κ] in
theorem keys_removeIf_sublist (drop : κ → Bool) (d : Dict κ ν) :
    (keys (removeIf drop d)).Sublist (keys d) :=
  List.filter_sublist.map Prod.fst

end Dict

end BackendProdReady.Lib.InsertionDict
