import Mathlib.Data.List.Basic

/-!
# Runs of a labelled transition system

A system is a relation `step s e t`: event `e` leads from `s` to `t`.  A run is
a finite sequence of such steps.  Invariants are proved for one step and lifted
to runs here once; an assumption about the environment restricts the relation
(`Guarded`), and a run of the restricted system is a run of the full one.
-/

namespace BackendProdReady.Lib.Runs

variable {State Event : Type*}

/-- `Run step s es t`: the events `es`, in this order, lead from `s` to `t`. -/
inductive Run (step : State → Event → State → Prop) : State → List Event → State → Prop
  | refl (s : State) : Run step s [] s
  | tail {s t u : State} {es : List Event} {e : Event} :
      Run step s es t → step t e u → Run step s (es ++ [e]) u

/-- The steps of `step` that `guard` allows. -/
def Guarded (guard : State → Event → State → Prop)
    (step : State → Event → State → Prop) : State → Event → State → Prop :=
  fun s e t => step s e t ∧ guard s e t

namespace Run

variable {step step' : State → Event → State → Prop}

theorem single {s t : State} {e : Event} (h : step s e t) : Run step s [e] t :=
  .tail (.refl s) h

theorem trans {s t u : State} {es fs : List Event} (hst : Run step s es t)
    (htu : Run step t fs u) : Run step s (es ++ fs) u := by
  induction htu with
  | refl => simpa using hst
  | tail _ hstep ih =>
      rw [← List.append_assoc]
      exact .tail ih hstep

theorem inv_tail {s t : State} {es : List Event} {e : Event} (h : Run step s (es ++ [e]) t) :
    ∃ u, Run step s es u ∧ step u e t := by
  generalize hevents : es ++ [e] = events at h
  cases h with
  | refl => simp at hevents
  | tail hpre hlast =>
      obtain ⟨rfl, rfl⟩ := List.append_singleton_inj.mp hevents
      exact ⟨_, hpre, hlast⟩

theorem inv_append {s t : State} {es fs : List Event} (h : Run step s (es ++ fs) t) :
    ∃ u, Run step s es u ∧ Run step u fs t := by
  induction fs generalizing es with
  | nil => exact ⟨t, by simpa using h, .refl t⟩
  | cons f fs ih =>
      rw [List.append_cons] at h
      obtain ⟨u, hpre, hpost⟩ := ih h
      obtain ⟨r, hes, hstep⟩ := hpre.inv_tail
      exact ⟨r, hes, (single hstep).trans hpost⟩

theorem inv_nil {s t : State} (h : Run step s [] t) : t = s := by
  generalize hevents : ([] : List Event) = events at h
  cases h with
  | refl => rfl
  | tail => simp at hevents

theorem inv_cons {s t : State} {e : Event} {es : List Event} (h : Run step s (e :: es) t) :
    ∃ u, step s e u ∧ Run step u es t := by
  have hsplit : Run step s ([e] ++ es) t := h
  obtain ⟨u, hfirst, hrest⟩ := hsplit.inv_append
  have hone : Run step s ([] ++ [e]) u := hfirst
  obtain ⟨r, hrefl, hstep⟩ := hone.inv_tail
  rw [hrefl.inv_nil] at hstep
  exact ⟨u, hstep, hrest⟩

/-- A run made of steps of a smaller relation is a run of the larger one. -/
theorem mono (hsub : ∀ s e t, step s e t → step' s e t) {s t : State} {es : List Event}
    (h : Run step s es t) : Run step' s es t := by
  induction h with
  | refl => exact .refl _
  | tail _ hstep ih => exact .tail ih (hsub _ _ _ hstep)

theorem of_guarded {guard : State → Event → State → Prop} {s t : State} {es : List Event}
    (h : Run (Guarded guard step) s es t) : Run step s es t :=
  h.mono fun _ _ _ hs => hs.1

/-- What every step preserves, every run preserves. -/
theorem invariant {Inv : State → Prop}
    (hstep : ∀ s e t, Inv s → step s e t → Inv t) {s t : State} {es : List Event}
    (h : Run step s es t) (hs : Inv s) : Inv t := by
  induction h with
  | refl => exact hs
  | tail _ hlast ih => exact hstep _ _ _ ih hlast

/-- What every step shows, every event of a run shows. -/
theorem forall_mem {P : Event → Prop} (hstep : ∀ s e t, step s e t → P e) {s t : State}
    {es : List Event} (h : Run step s es t) : ∀ e ∈ es, P e := by
  induction h with
  | refl => simp
  | tail _ hlast ih =>
      intro e he
      rcases List.mem_append.mp he with hpre | hnew
      · exact ih e hpre
      · rw [List.mem_singleton.mp hnew]
        exact hstep _ _ _ hlast

/-- What every step on an allowed event preserves, every run of allowed events
preserves. -/
theorem invariant_of_forall {Inv : State → Prop} {allowed : Event → Prop}
    (hstep : ∀ s e t, allowed e → Inv s → step s e t → Inv t)
    {s t : State} {es : List Event} (h : Run step s es t)
    (hes : ∀ e ∈ es, allowed e) (hs : Inv s) : Inv t := by
  induction h with
  | refl => exact hs
  | tail _ hlast ih =>
      have hpre := ih (fun e he => hes e (by simp [he]))
      exact hstep _ _ _ (hes _ (by simp)) hpre hlast

end Run

/-! ## Executable steps -/

section Reactions

variable {Observation : Type*}

/-- The steps of an executable reaction; the label is an event and what it shows. -/
def Reaction (react : State → Event → Option (State × Observation)) (s : State)
    (label : Event × Observation) (t : State) : Prop :=
  react s label.1 = some (t, label.2)

/-- The state after an event; unchanged where it cannot happen. -/
def afterEvent (react : State → Event → Option (State × Observation)) (s : State) (e : Event) :
    State :=
  ((react s e).map Prod.fst).getD s

theorem reaction_afterEvent {react : State → Event → Option (State × Observation)} {s : State}
    {e : Event} {shown : Observation} (h : (react s e).map Prod.snd = some shown) :
    Reaction react s (e, shown) (afterEvent react s e) := by
  unfold Reaction afterEvent
  cases hreact : react s e with
  | none => simp [hreact] at h
  | some run =>
      obtain ⟨t, seen⟩ := run
      simp only [hreact, Option.map_some, Option.some.injEq] at h
      simp [h]

/-- Events that all can happen, one after the other, and that a guard allows. -/
def Replays (react : State → Event → Option (State × Observation))
    (guard : State → Event → Prop) : State → List Event → Prop
  | _, [] => True
  | s, e :: es => (react s e).isSome ∧ guard s e ∧ Replays react guard (afterEvent react s e) es

instance decidableReplays (react : State → Event → Option (State × Observation))
    (guard : State → Event → Prop) [∀ s e, Decidable (guard s e)] :
    (s : State) → (es : List Event) → Decidable (Replays react guard s es)
  | _, [] => inferInstanceAs (Decidable True)
  | s, e :: es =>
      have := decidableReplays react guard (afterEvent react s e) es
      inferInstanceAs (Decidable (_ ∧ _ ∧ _))

theorem Replays.run {react : State → Event → Option (State × Observation)}
    {guard : State → Event → Prop} {s : State} {es : List Event}
    (h : Replays react guard s es) :
    ∃ labels, Run (Guarded (fun s label _ => guard s label.1) (Reaction react)) s labels
      (es.foldl (afterEvent react) s) := by
  induction es generalizing s with
  | nil => exact ⟨[], .refl s⟩
  | cons e es ih =>
      obtain ⟨hreact, hguard, hrest⟩ := h
      obtain ⟨⟨t, shown⟩, hstep⟩ := Option.isSome_iff_exists.mp hreact
      have hshown : (react s e).map Prod.snd = some shown := by rw [hstep, Option.map_some]
      obtain ⟨labels, hrun⟩ := ih hrest
      exact ⟨_, (Run.single ⟨reaction_afterEvent hshown, hguard⟩).trans hrun⟩

end Reactions

/-! ## Executable steps without observations -/

section Steps

variable {step : State → Event → Option State}

def StepOf (step : State → Event → Option State) (s : State) (e : Event) (t : State) : Prop :=
  step s e = some t

theorem run_of_foldlM {s t : State} {es : List Event} (h : es.foldlM step s = some t) :
    Run (StepOf step) s es t := by
  induction es generalizing s with
  | nil =>
      obtain rfl := Option.some.inj h
      exact .refl s
  | cons e es ih =>
      rw [List.foldlM_cons, Option.bind_eq_bind, Option.bind_eq_some_iff] at h
      obtain ⟨u, hfirst, hrest⟩ := h
      have hone : Run (StepOf step) s [e] u := .single hfirst
      exact hone.trans (ih hrest)

end Steps

end BackendProdReady.Lib.Runs
