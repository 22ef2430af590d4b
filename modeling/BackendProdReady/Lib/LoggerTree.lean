import Mathlib.Data.List.Basic

/-!
# Trees of loggers

A record goes to the handlers of its logger and on to those of the nearest ancestors that are
there, up to the root or to a logger that does not propagate.  A tree that has the same loggers
with the same levels, and the same handlers up to where they write, takes the same records.
-/

namespace BackendProdReady.Lib.LoggerTree

variable {N H S S' : Type*}

structure Logger (H : Type*) where
  /-- `NOTSET` is 0. -/
  level : Nat
  handlers : List H
  propagate : Bool

structure Tree (N H : Type*) where
  find : N → Option (Logger H)
  root : Logger H

structure Handler (S : Type*) where
  level : Nat
  sink : S
deriving DecidableEq

def Handler.map (f : S → S') (h : Handler S) : Handler S' := ⟨h.level, f h.sink⟩

/-! ## Records -/

/-- `getEffectiveLevel`, along the loggers from one to the root. -/
def effectiveLevel (root : Logger H) : List (Logger H) → Nat
  | [] => root.level
  | logger :: rest => if logger.level = 0 then effectiveLevel root rest else logger.level

/-- The handlers that `callHandlers` asks. -/
def callHandlers (root : Logger H) : List (Logger H) → List H
  | [] => root.handlers
  | logger :: rest =>
      logger.handlers ++ if logger.propagate then callHandlers root rest else []

namespace Tree

-- The names above a name, the nearest one first.
variable (ancestors : N → List N)

def chain (T : Tree N H) (name : N) : List (Logger H) :=
  (name :: ancestors name).filterMap T.find

/-- The handlers that write a record of a logger. -/
def emits (T : Tree N (Handler S)) (name : N) (levelno : Nat) : List (Handler S) :=
  if effectiveLevel T.root (T.chain ancestors name) ≤ levelno then
    (callHandlers T.root (T.chain ancestors name)).filter fun h => h.level ≤ levelno
  else []

end Tree

/-! ## Trees that differ in where they write -/

variable {f : S → S'}

structure Logger.Sim (f : S → S') (logger : Logger (Handler S)) (logger' : Logger (Handler S')) :
    Prop where
  level : logger'.level = logger.level
  propagate : logger'.propagate = logger.propagate
  handlers : ∀ h', h' ∈ logger'.handlers ↔ ∃ h ∈ logger.handlers, h.map f = h'

structure Tree.Sim (f : S → S') (T : Tree N (Handler S)) (T' : Tree N (Handler S')) : Prop where
  find : ∀ name, Option.Rel (Logger.Sim f) (T.find name) (T'.find name)
  root : Logger.Sim f T.root T'.root

section Sim

variable {root : Logger (Handler S)} {root' : Logger (Handler S')}
  {chain : List (Logger (Handler S))} {chain' : List (Logger (Handler S'))}

theorem effectiveLevel_sim (hroot : Logger.Sim f root root')
    (h : List.Forall₂ (Logger.Sim f) chain chain') :
    effectiveLevel root' chain' = effectiveLevel root chain := by
  induction h with
  | nil => exact hroot.level
  | cons hlogger _ ih => rw [effectiveLevel, effectiveLevel, hlogger.level, ih]

theorem mem_callHandlers_sim (hroot : Logger.Sim f root root')
    (h : List.Forall₂ (Logger.Sim f) chain chain') (h' : Handler S') :
    h' ∈ callHandlers root' chain' ↔ ∃ h ∈ callHandlers root chain, h.map f = h' := by
  induction h with
  | nil => exact hroot.handlers h'
  | @cons logger logger' rest rest' hlogger _ ih =>
      rw [callHandlers, callHandlers, List.mem_append, hlogger.handlers, hlogger.propagate]
      cases logger.propagate with
      | false => simp
      | true =>
          simp only [if_true, ih, List.mem_append]
          constructor
          · rintro (⟨h, hmem, hmap⟩ | ⟨h, hmem, hmap⟩)
            · exact ⟨h, .inl hmem, hmap⟩
            · exact ⟨h, .inr hmem, hmap⟩
          · rintro ⟨h, hmem | hmem, hmap⟩
            · exact .inl ⟨h, hmem, hmap⟩
            · exact .inr ⟨h, hmem, hmap⟩

theorem forall₂_filterMap {T : Tree N (Handler S)} {T' : Tree N (Handler S')}
    (h : T.Sim f T') (names : List N) :
    List.Forall₂ (Logger.Sim f) (names.filterMap T.find) (names.filterMap T'.find) := by
  induction names with
  | nil => exact .nil
  | cons name names ih =>
      rw [List.filterMap_cons, List.filterMap_cons]
      cases hfind : T.find name with
      | none =>
          have hrel := h.find name
          rw [hfind] at hrel
          cases hfind' : T'.find name with
          | none => exact ih
          | some logger' =>
              rw [hfind'] at hrel
              cases hrel
      | some logger =>
          have hrel := h.find name
          rw [hfind] at hrel
          cases hfind' : T'.find name with
          | none =>
              rw [hfind'] at hrel
              cases hrel
          | some logger' =>
              rw [hfind'] at hrel
              cases hrel with
              | some hlogger => exact .cons hlogger ih

/-- Every record goes where it went before, up to `f`. -/
theorem Tree.Sim.mem_emits {T : Tree N (Handler S)} {T' : Tree N (Handler S')}
    (h : T.Sim f T') (ancestors : N → List N) (name : N) (levelno : Nat) (h' : Handler S') :
    h' ∈ T'.emits ancestors name levelno ↔
      ∃ h ∈ T.emits ancestors name levelno, h.map f = h' := by
  have hchain := forall₂_filterMap h (name :: ancestors name)
  have hlevel : effectiveLevel T'.root (T'.chain ancestors name) =
      effectiveLevel T.root (T.chain ancestors name) := effectiveLevel_sim h.root hchain
  have hcall : ∀ h', h' ∈ callHandlers T'.root (T'.chain ancestors name) ↔
      ∃ h ∈ callHandlers T.root (T.chain ancestors name), h.map f = h' :=
    mem_callHandlers_sim h.root hchain
  unfold Tree.emits
  rw [hlevel]
  split_ifs with hle
  · simp only [List.mem_filter, hcall, decide_eq_true_eq]
    constructor
    · rintro ⟨⟨h, hmem, rfl⟩, hthreshold⟩
      exact ⟨h, ⟨hmem, hthreshold⟩, rfl⟩
    · rintro ⟨h, ⟨hmem, hthreshold⟩, rfl⟩
      exact ⟨⟨h, hmem, rfl⟩, hthreshold⟩
  · simp

end Sim

end BackendProdReady.Lib.LoggerTree
