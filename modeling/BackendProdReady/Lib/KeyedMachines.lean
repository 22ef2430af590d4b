import Mathlib.Logic.Function.Basic
import Mathlib.Tactic.Common

/-!
# Machines with one state per key

Each input goes to the state under its key, so that the answers under a key are those of one
machine that gets the inputs of the key and no others.
-/

namespace BackendProdReady.Lib.KeyedMachines

variable {κ σ ι ω : Type} [DecidableEq κ]

abbrev React (σ ι ω : Type) := σ → ι → σ × ω

def answers (react : React σ ι ω) : σ → List ι → List ω
  | _, [] => []
  | s, i :: is => (react s i).2 :: answers react (react s i).1 is

/-- The answers of one machine per key, with the inputs they are for. -/
def keyedAnswers (react : React σ ι ω) (key : ι → κ) : (κ → σ) → List ι → List (ι × ω)
  | _, [] => []
  | s, i :: is =>
      let next := react (s (key i)) i
      (i, next.2) :: keyedAnswers react key (Function.update s (key i) next.1) is

section

variable {react : React σ ι ω} {key : ι → κ}

/-- The inputs are answered one by one. -/
theorem map_fst_keyedAnswers (s : κ → σ) (is : List ι) :
    (keyedAnswers react key s is).map Prod.fst = is := by
  induction is generalizing s with
  | nil => rfl
  | cons i is ih => simp [keyedAnswers, ih]

/-- The answers under a key. -/
theorem keyedAnswers_filter (s : κ → σ) (is : List ι) (k : κ) :
    ((keyedAnswers react key s is).filter fun e => key e.1 = k).map Prod.snd =
      answers react (s k) (is.filter fun i => key i = k) := by
  induction is generalizing s with
  | nil => rfl
  | cons i is ih =>
      by_cases hi : key i = k
      · subst hi
        simp [keyedAnswers, answers, ih]
      · have hs : Function.update s (key i) (react (s (key i)) i).1 k = s k :=
          Function.update_of_ne (Ne.symm hi) _ _
        simp [keyedAnswers, hi, ih, hs]

/-- Inputs with other keys change nothing for a key. -/
theorem keyedAnswers_frame (s : κ → σ) (is : List ι) {k : κ} {drop : ι → Bool}
    (hdrop : ∀ i, drop i = true → key i ≠ k) :
    ((keyedAnswers react key s is).filter fun e => key e.1 = k).map Prod.snd =
      ((keyedAnswers react key s (is.filter (!drop ·))).filter fun e => key e.1 = k).map
        Prod.snd := by
  rw [keyedAnswers_filter, keyedAnswers_filter, List.filter_filter]
  congr 1
  refine List.filter_congr fun i _ => ?_
  by_cases hi : key i = k
  · have hkept : drop i = false := by
      rw [Bool.eq_false_iff]
      exact fun h => hdrop i h hi
    simp [hi, hkept]
  · simp [hi]

/-- If all inputs have the same key, one machine answers them. -/
theorem keyedAnswers_of_key (s : κ → σ) {is : List ι} {k : κ} (h : ∀ i ∈ is, key i = k) :
    (keyedAnswers react key s is).map Prod.snd = answers react (s k) is := by
  have hinputs : is.filter (fun i => key i = k) = is :=
    List.filter_eq_self.mpr fun i hi => by simpa using h i hi
  have hanswers : (keyedAnswers react key s is).filter (fun e => key e.1 = k) =
      keyedAnswers react key s is := by
    refine List.filter_eq_self.mpr fun e he => ?_
    have hmem : e.1 ∈ (keyedAnswers react key s is).map Prod.fst := List.mem_map_of_mem he
    rw [map_fst_keyedAnswers] at hmem
    simpa using h e.1 hmem
  calc (keyedAnswers react key s is).map Prod.snd
      = ((keyedAnswers react key s is).filter fun e => key e.1 = k).map Prod.snd := by
        rw [hanswers]
    _ = answers react (s k) (is.filter fun i => key i = k) := keyedAnswers_filter s is k
    _ = answers react (s k) is := by rw [hinputs]

end

end BackendProdReady.Lib.KeyedMachines
