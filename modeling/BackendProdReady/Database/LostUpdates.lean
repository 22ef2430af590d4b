import BackendProdReady.Database.DomainUpdate

/-!
# Lost updates

The lock of `update_from_domain` comes after the object was read.  What is written
back is the whole object, so a field that another transaction changed in between
is set back to the old copy, unless the session still holds the instance and the
old copy compares equal to it.  In a run without such a stale copy no update is lost.
-/

namespace BackendProdReady.Database.LostUpdates

open BackendProdReady.Lib.Runs
open BackendProdReady.Database.DomainUpdate

/-! ## What a flush writes -/

section Flush

variable {φ V : Type} [Fintype φ] [DecidableEq φ] [DecidableEq V] {now : V}
  {values changes entity row : Row φ V}

def written (now : V) (values changes entity row : Row φ V) : Row φ V :=
  flush now entity (setAttrs entity (updateData (setFields values changes))) row

theorem written_id : written now values changes entity row .id = row .id := by
  simp [written, flush, setAttrs, updateData]

theorem written_changed {f : φ} {value : V} (hchange : changes (.own f) = some value)
    (hentity : entity (.own f) = row (.own f)) :
    written now values changes entity row (.own f) = some value := by
  have hset : setAttrs entity (updateData (setFields values changes)) (.own f) = some value := by
    simp [setAttrs, updateData, setFields, hchange]
  unfold written flush
  rw [hset]
  by_cases hsame : some value = entity (.own f)
  · rw [if_neg (not_not.mpr hsame), if_neg (by simp), ← hentity, hsame]
  · rw [if_pos hsame]

theorem written_unchanged {f : φ} (hchange : changes (.own f) = none)
    (hcopy : values (.own f) = none ∨ values (.own f) = entity (.own f)) :
    written now values changes entity row (.own f) = row (.own f) := by
  have hset : setAttrs entity (updateData (setFields values changes)) (.own f) =
      entity (.own f) := by
    rcases hcopy with hnone | hsame
    · simp [setAttrs, updateData, setFields, hchange, hnone]
    · simp only [setAttrs, updateData, setFields, hchange, hsame]
      split
      · rename_i heq
        exact heq.symm
      · rfl
  unfold written flush
  rw [hset, if_neg (by simp), if_neg (by simp)]

/-- Any other copy overwrites what a fresh instance holds. -/
theorem written_stale {f : φ} {old : V} (hchange : changes (.own f) = none)
    (hcopy : values (.own f) = some old) (hstale : some old ≠ row (.own f)) :
    written now values changes row row (.own f) = some old := by
  have hset : setAttrs row (updateData (setFields values changes)) (.own f) = some old := by
    simp [setAttrs, updateData, setFields, hchange, hcopy]
  unfold written flush
  rw [hset, if_pos hstale]

end Flush

/-! ## The invariant -/

section Invariant

variable {τ φ V : Type}

def holdsLock : Phase φ V → Bool
  | .locked _ _ _ | .flushed _ _ => true
  | _ => false

def Owns (mine : τ → Column φ → Prop) (t : τ) (changes : Row φ V) : Prop :=
  ∀ c value, changes c = some value → mine t c

/-- What a phase of `t` knows of the committed row. -/
def PhaseOk (mine : τ → Column φ → Prop) (row : Row φ V) (t : τ) : Phase φ V → Prop
  | .started | .rolledBack => True
  | .loaded values changes =>
      Owns mine t changes ∧ values .id = row .id ∧
        ∀ f, mine t (.own f) → values (.own f) = row (.own f)
  | .locked values changes entity =>
      Owns mine t changes ∧ (∀ f, mine t (.own f) → entity (.own f) = row (.own f)) ∧
        ∀ f, ¬ mine t (.own f) → values (.own f) = none ∨ values (.own f) = entity (.own f)
  | .missed _ => False
  | .flushed changes version =>
      Owns mine t changes ∧ version .id = row .id ∧
        (∀ f value, changes (.own f) = some value → version (.own f) = some value) ∧
        ∀ f, ¬ mine t (.own f) → version (.own f) = row (.own f)
  | .committed changes =>
      Owns mine t changes ∧
        ∀ f value, changes (.own f) = some value → row (.own f) = some value

structure Inv (mine : τ → Column φ → Prop) (s : State τ φ V) : Prop where
  lockHeld : ∀ t, holdsLock (s.phase t) = true → s.lock = some t
  phases : ∀ t, PhaseOk mine s.row t (s.phase t)

/-- Without the lock, a phase depends on the id and on the transaction's own columns. -/
theorem PhaseOk.of_row {mine : τ → Column φ → Prop} {row version : Row φ V} {t : τ}
    {phase : Phase φ V} (h : PhaseOk mine row t phase) (hfree : holdsLock phase = false)
    (hid : version .id = row .id)
    (hmine : ∀ f, mine t (.own f) → version (.own f) = row (.own f)) :
    PhaseOk mine version t phase := by
  cases phase with
  | started => trivial
  | loaded values changes =>
      obtain ⟨howns, hvalues, hcopies⟩ := h
      exact ⟨howns, hvalues.trans hid.symm,
        fun f hf => (hcopies f hf).trans (hmine f hf).symm⟩
  | locked values changes entity => cases hfree
  | missed changes => exact h
  | flushed changes kept => cases hfree
  | committed changes =>
      obtain ⟨howns, hwritten⟩ := h
      refine ⟨howns, fun f value hchange => ?_⟩
      rw [hmine f (howns _ _ hchange)]
      exact hwritten f value hchange
  | rolledBack => trivial

/-- No copy that would be written back is stale: what the transaction loaded and
did not change is NULL or still the value of the row. -/
def UpToDate (s : State τ φ V) (t : τ) : Prop :=
  ∀ values changes, s.phase t = .loaded values changes → ∀ f, changes (.own f) = none →
    values (.own f) = none ∨ values (.own f) = s.row (.own f)

/-- Transactions change their own columns, and a locking SELECT comes while the
session still holds the instance or no copy is stale. -/
def Allowed (mine : τ → Column φ → Prop) (s : State τ φ V) (op : Op τ φ V)
    (_ : State τ φ V) : Prop :=
  match op with
  | .load t changes => Owns mine t changes
  | .lock t kept => kept = true ∨ UpToDate s t
  | _ => True

/-- The locking SELECT finds the row, and its instance agrees with the row where
the transaction will write. -/
theorem phaseOk_locked {t : τ} {kept : Bool} {values changes : Row φ V} (h : Inv mine s)
    (hphase : s.phase t = .loaded values changes) (hallowed : kept = true ∨ UpToDate s t) :
    PhaseOk mine s.row t (.locked values changes (if kept then values else s.row)) := by
  have hloaded := h.phases t
  rw [hphase] at hloaded
  obtain ⟨howns, -, hcopies⟩ := hloaded
  cases kept with
  | true => exact ⟨howns, hcopies, fun f _ => .inr rfl⟩
  | false =>
      have hfresh : UpToDate s t := hallowed.resolve_left (by simp)
      refine ⟨howns, fun f _ => rfl, fun f hf => hfresh values changes hphase f ?_⟩
      cases hchange : changes (.own f) with
      | none => rfl
      | some value => exact absurd (howns _ _ hchange) hf

variable [DecidableEq τ]

@[simp] theorem setPhase_self (s : State τ φ V) (t : τ) (phase : Phase φ V) :
    (s.setPhase t phase).phase t = phase := by
  simp [State.setPhase]

theorem setPhase_of_ne {s : State τ φ V} {t u : τ} (h : u ≠ t) (phase : Phase φ V) :
    (s.setPhase t phase).phase u = s.phase u := by
  simp [State.setPhase, h]

theorem inv_move {mine : τ → Column φ → Prop} {s : State τ φ V} (h : Inv mine s) {t : τ}
    {phase : Phase φ V} {lock : Option τ}
    (hothers : ∀ u, u ≠ t → s.lock = some u → lock = some u)
    (hself : holdsLock phase = true → lock = some t) (hphase : PhaseOk mine s.row t phase) :
    Inv mine { s.setPhase t phase with lock := lock } where
  lockHeld u hu := by
    by_cases hut : u = t
    · subst hut
      exact hself (by simpa using hu)
    · rw [setPhase_of_ne hut] at hu
      exact hothers u hut (h.lockHeld u hu)
  phases u := by
    by_cases hut : u = t
    · subst hut
      change PhaseOk mine s.row u ((s.setPhase u phase).phase u)
      rwa [setPhase_self]
    · change PhaseOk mine s.row u ((s.setPhase t phase).phase u)
      rw [setPhase_of_ne hut]
      exact h.phases u

theorem unlock_of_ne {s : State τ φ V} {t u : τ} (hne : u ≠ t) (h : s.lock = some u) :
    s.unlock t = some u := by
  simp [State.unlock, h, hne]

theorem inv_commit (hdisjoint : ∀ t v c, t ≠ v → mine t c → ¬ mine v c) (h : Inv mine s) {t : τ}
    {changes version : Row φ V} (hphase : s.phase t = .flushed changes version) :
    Inv mine { s.setPhase t (.committed changes) with row := version, lock := s.unlock t } := by
  have hself : s.lock = some t := h.lockHeld t (by rw [hphase]; rfl)
  have hothers : ∀ v, v ≠ t → holdsLock (s.phase v) = false := by
    intro v hne
    by_contra hholds
    have hv := h.lockHeld v (by simpa using hholds)
    rw [hself] at hv
    exact hne (Option.some.inj hv).symm
  have hflushed := h.phases t
  rw [hphase] at hflushed
  obtain ⟨howns, hid, hchanged, hrest⟩ := hflushed
  constructor
  · intro v hv
    change holdsLock ((s.setPhase t (.committed changes)).phase v) = true at hv
    by_cases hvt : v = t
    · subst hvt
      rw [setPhase_self] at hv
      cases hv
    · rw [setPhase_of_ne hvt, hothers v hvt] at hv
      cases hv
  · intro v
    change PhaseOk mine version v ((s.setPhase t (.committed changes)).phase v)
    by_cases hvt : v = t
    · subst hvt
      rw [setPhase_self]
      exact ⟨howns, hchanged⟩
    · rw [setPhase_of_ne hvt]
      exact (h.phases v).of_row (hothers v hvt) hid fun f hf =>
        hrest f (hdisjoint v t _ hvt hf)

end Invariant

/-! ## Steps and runs -/

section Runs

variable {τ φ V : Type} [DecidableEq τ] [Fintype φ] [DecidableEq φ] [DecidableEq V]
  {mine : τ → Column φ → Prop} {s u : State τ φ V} {op : Op τ φ V}

omit [DecidableEq τ] in
theorem phaseOk_flushed {t : τ} {now : V} {values changes entity : Row φ V} (h : Inv mine s)
    (hphase : s.phase t = .locked values changes entity) :
    PhaseOk mine s.row t (.flushed changes (written now values changes entity s.row)) := by
  have hlocked := h.phases t
  rw [hphase] at hlocked
  obtain ⟨howns, hentity, hcopies⟩ := hlocked
  refine ⟨howns, written_id, fun f value hchange => ?_, fun f hf => ?_⟩
  · exact written_changed hchange (hentity f (howns _ _ hchange))
  · refine written_unchanged ?_ (hcopies f hf)
    cases hchange : changes (.own f) with
    | none => rfl
    | some value => exact absurd (howns _ _ hchange) hf

theorem inv_step (hdisjoint : ∀ t v c, t ≠ v → mine t c → ¬ mine v c)
    (hown : ∀ t c, mine t c → ∃ f, c = .own f) (h : Inv mine s)
    (hstep : Guarded (Allowed mine) Step s op u) : Inv mine u := by
  obtain ⟨hstep, hallowed⟩ := hstep
  cases step_cases hstep with
  | @load t changes hphase =>
      exact inv_move h (fun _ _ hlock => hlock) (fun hholds => by cases hholds)
        ⟨hallowed, rfl, fun f _ => rfl⟩
  | @miss t kept values changes hphase hid =>
      have hloaded := h.phases t
      rw [hphase] at hloaded
      obtain ⟨howns, hvalues, -⟩ := hloaded
      have hunchanged : changes .id = none := by
        cases hchange : changes .id with
        | none => rfl
        | some value =>
            obtain ⟨f, hf⟩ := hown t .id (howns _ _ hchange)
            cases hf
      simp [setFields, hunchanged, hvalues] at hid
  | @lock t kept values changes hphase hfree =>
      refine inv_move h (fun v _ hlock => ?_) (fun _ => rfl)
        (phaseOk_locked h hphase hallowed)
      rw [hfree] at hlock
      cases hlock
  | @flush t now values changes entity hphase =>
      have hself : s.lock = some t := h.lockHeld t (by rw [hphase]; rfl)
      exact inv_move h (fun _ _ hlock => hlock) (fun _ => hself) (phaseOk_flushed h hphase)
  | commit hphase => exact inv_commit hdisjoint h hphase
  | @commitMissed t changes hphase =>
      have hmissed := h.phases t
      rw [hphase] at hmissed
      exact hmissed.elim
  | rollback =>
      exact inv_move h (fun v hne hlock => unlock_of_ne hne hlock) (fun hholds => by cases hholds)
        trivial

/-! ## Main result -/

/-- Transactions with disjoint changes to columns that `update_from_domain` copies:
if each locks the row while its session holds the instance or no copy is stale,
every committed transaction's values are in the row. -/
theorem no_lost_update (hdisjoint : ∀ t v c, t ≠ v → mine t c → ¬ mine v c)
    (hown : ∀ t c, mine t c → ∃ f, c = .own f) {s₀ : State τ φ V} {ops : List (Op τ φ V)}
    (hstart : ∀ t, s₀.phase t = .started)
    (hrun : Run (Guarded (Allowed mine) Step) s₀ ops s) :
    ∀ t changes, s.phase t = .committed changes →
      ∀ c value, changes c = some value → s.row c = some value := by
  have hinit : Inv mine s₀ := by
    constructor
    · intro t hholds
      rw [hstart] at hholds
      cases hholds
    · intro t
      rw [hstart]
      trivial
  have hkeeps : ∀ (r : State τ φ V) (op : Op τ φ V) (r' : State τ φ V), Inv mine r →
      Guarded (Allowed mine) Step r op r' → Inv mine r' :=
    fun r op r' hr hstep => inv_step hdisjoint hown hr hstep
  have hinv : Inv mine s := hrun.invariant hkeeps hinit
  intro t changes hphase c value hchange
  have hcommitted := hinv.phases t
  rw [hphase] at hcommitted
  obtain ⟨howns, hwritten⟩ := hcommitted
  obtain ⟨f, rfl⟩ := hown t c (howns c value hchange)
  exact hwritten f value hchange

end Runs

/-! ## Two transactions -/

inductive Field
  | name
  | city
deriving DecidableEq

instance : Fintype Field where
  elems := {.name, .city}
  complete f := by cases f <;> decide

def sampleStart : State Bool Field Nat where
  row
    | .id => some 7
    | .createdAt | .updatedAt => some 0
    | .own _ => some 1
  lock := none
  phase _ := .started

def setTo2 (field : Field) : Row Field Nat := fun c => if c = .own field then some 2 else none

/-- Transaction `false` sets the name, transaction `true` the city. -/
def sampleFields (t : Bool) (c : Column Field) : Prop := c = .own (if t then .city else .name)

theorem owns_setTo2 (t : Bool) : Owns sampleFields t (setTo2 (if t then .city else .name)) := by
  intro c value hchange
  unfold setTo2 at hchange
  by_cases hc : c = .own (if t then .city else .name)
  · exact hc
  · rw [if_neg hc] at hchange
    cases hchange

theorem sampleFields_disjoint (t v : Bool) (c : Column Field) (hne : t ≠ v)
    (ht : sampleFields t c) : ¬ sampleFields v c := by
  intro hv
  have hsame : Column.own (if t then Field.city else .name) =
      .own (if v then .city else .name) := ht.symm.trans hv
  cases t <;> cases v <;> first | exact hne rfl | cases hsame

/-- Both read the row first; the second still holds its instance. -/
theorem no_lost_update_kept : ∃ s : State Bool Field Nat, ∃ ops,
    Run (Guarded (Allowed sampleFields) Step) sampleStart ops s ∧
      s.row (.own .name) = some 2 ∧ s.row (.own .city) = some 2 := by
  let s₁ := next sampleStart (.load false (setTo2 .name))
  let s₂ := next s₁ (.load true (setTo2 .city))
  let s₃ := next s₂ (.lock false true)
  let s₄ := next s₃ (.flush false 10)
  let s₅ := next s₄ (.commit false)
  let s₆ := next s₅ (.lock true true)
  let s₇ := next s₆ (.flush true 20)
  let s₈ := next s₇ (.commit true)
  have h₁ : Guarded (Allowed sampleFields) Step sampleStart (.load false (setTo2 .name)) s₁ :=
    ⟨step_next (by decide), owns_setTo2 false⟩
  have h₂ : Guarded (Allowed sampleFields) Step s₁ (.load true (setTo2 .city)) s₂ :=
    ⟨step_next (by decide), owns_setTo2 true⟩
  have h₃ : Guarded (Allowed sampleFields) Step s₂ (.lock false true) s₃ :=
    ⟨step_next (by decide), .inl rfl⟩
  have h₄ : Guarded (Allowed sampleFields) Step s₃ (.flush false 10) s₄ :=
    ⟨step_next (by decide), trivial⟩
  have h₅ : Guarded (Allowed sampleFields) Step s₄ (.commit false) s₅ :=
    ⟨step_next (by decide), trivial⟩
  have h₆ : Guarded (Allowed sampleFields) Step s₅ (.lock true true) s₆ :=
    ⟨step_next (by decide), .inl rfl⟩
  have h₇ : Guarded (Allowed sampleFields) Step s₆ (.flush true 20) s₇ :=
    ⟨step_next (by decide), trivial⟩
  have h₈ : Guarded (Allowed sampleFields) Step s₇ (.commit true) s₈ :=
    ⟨step_next (by decide), trivial⟩
  have hrun := ((((((Run.single h₁).tail h₂).tail h₃).tail h₄).tail h₅).tail h₆).tail h₇ |>.tail h₈
  have hkept := no_lost_update sampleFields_disjoint (fun t c hc => ⟨_, hc⟩) (fun _ => rfl) hrun
  exact ⟨s₈, _, hrun, hkept false (setTo2 .name) rfl _ _ rfl,
    hkept true (setTo2 .city) rfl _ _ rfl⟩

/-- Both read the row, the first commits its name, and the second, whose instance
is gone, writes its old copy of the name back with the new city. -/
theorem stale_copy_overwrites_name : ∃ s : State Bool Field Nat,
    Run Step sampleStart [.load false (setTo2 .name), .load true (setTo2 .city),
      .lock false false, .flush false 10, .commit false,
      .lock true false, .flush true 20, .commit true] s ∧
      s.phase false = .committed (setTo2 .name) ∧ s.phase true = .committed (setTo2 .city) ∧
      s.row (.own .name) = some 1 ∧ s.row (.own .city) = some 2 := by
  let s₁ := next sampleStart (.load false (setTo2 .name))
  let s₂ := next s₁ (.load true (setTo2 .city))
  let s₃ := next s₂ (.lock false false)
  let s₄ := next s₃ (.flush false 10)
  let s₅ := next s₄ (.commit false)
  let s₆ := next s₅ (.lock true false)
  let s₇ := next s₆ (.flush true 20)
  let s₈ := next s₇ (.commit true)
  have hrun : Run Step sampleStart _ s₈ :=
    .tail (.tail (.tail (.tail (.tail (.tail (.tail (.tail (.refl _)
      (step_next (by decide))) (step_next (by decide))) (step_next (by decide)))
      (step_next (by decide))) (step_next (by decide))) (step_next (by decide)))
      (step_next (by decide))) (step_next (by decide))
  exact ⟨s₈, hrun, rfl, rfl, by decide, by decide⟩

end BackendProdReady.Database.LostUpdates
