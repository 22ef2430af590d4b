import Mathlib.Tactic.Common

/-!
# Awaitables, timeouts and shields

What a coroutine awaits is a tree: tasks at the leaves, `asyncio.shield`, `wait_for`,
`gather(…, return_exceptions=True)` and `try`/`except` above them.  A cancellation goes
down to the tasks; a shield ends at once and leaves its inner part running on its own.

The request for a cancellation and its delivery are one event here, and a timer fires in
an event of its own, at any time.
-/

namespace BackendProdReady.Lib.Awaitables

inductive Result (ε : Type)
  | value
  | raised (e : ε)
  | cancelled
deriving DecidableEq

/-- Whether the timer of a `wait_for` has fired, and whether a cancellation came from
outside. -/
structure Interruption where
  fired : Bool
  cancelled : Bool
deriving DecidableEq

inductive Await (ε τ θ : Type)
  | done (result : Result ε)
  | task (i : τ)
  | shield (inner : Await ε τ θ)
  | waitFor (timer : θ) (seen : Interruption) (timeoutError : ε) (inner : Await ε τ θ)
  | gather (cancelling : Bool) (left right : Await ε τ θ)
  | tryExcept (handles : ε → Bool) (inner : Await ε τ θ)

variable {ε τ θ : Type}

/-! ## What ends an awaitable -/

namespace Await

/-- Each of these ends when what it awaits has ended. -/
def endShield : Await ε τ θ → Await ε τ θ
  | done r => done r
  | a => shield a

def endWaitFor (timer : θ) (seen : Interruption) (timeoutError : ε) :
    Await ε τ θ → Await ε τ θ
  | done .cancelled =>
      done (if seen.fired && !seen.cancelled then .raised timeoutError else .cancelled)
  | done r => done r
  | a => waitFor timer seen timeoutError a

def endGather (cancelling : Bool) : Await ε τ θ → Await ε τ θ → Await ε τ θ
  | done _, done _ => done (if cancelling then .cancelled else .value)
  | a, b => gather cancelling a b

def endTryExcept (handles : ε → Bool) : Await ε τ θ → Await ε τ θ
  | done (.raised e) => done (if handles e then .value else .raised e)
  | done r => done r
  | a => tryExcept handles a

def settle [DecidableEq τ] (i : τ) (r : Result ε) : Await ε τ θ → Await ε τ θ
  | done r' => done r'
  | task j => if j = i then done r else task j
  | shield a => endShield (settle i r a)
  | waitFor t s e a => endWaitFor t s e (settle i r a)
  | gather c a b => endGather c (settle i r a) (settle i r b)
  | tryExcept handles a => endTryExcept handles (settle i r a)

end Await

/-- What an event leaves of an awaitable, what runs on without it, and the tasks that were
asked to cancel. -/
structure Left (ε τ θ : Type) where
  rest : Await ε τ θ
  detached : List (Await ε τ θ)
  requested : List τ

namespace Left

def of (a : Await ε τ θ) : Left ε τ θ := ⟨a, [], []⟩

def map (f : Await ε τ θ → Await ε τ θ) (l : Left ε τ θ) : Left ε τ θ :=
  { l with rest := f l.rest }

def both (f : Await ε τ θ → Await ε τ θ → Await ε τ θ) (l m : Left ε τ θ) : Left ε τ θ :=
  ⟨f l.rest m.rest, l.detached ++ m.detached, l.requested ++ m.requested⟩

end Left

namespace Await

def cancel : Await ε τ θ → Left ε τ θ
  | done r => .of (done r)
  | task i => ⟨task i, [], [i]⟩
  | shield a => ⟨done .cancelled, [a], []⟩
  | waitFor t s e a => (cancel a).map (endWaitFor t { s with cancelled := true } e)
  | gather _ a b => .both (endGather true) (cancel a) (cancel b)
  | tryExcept handles a => (cancel a).map (endTryExcept handles)

/-- A timer fires: `wait_for` cancels what it awaits. -/
def expire [DecidableEq θ] (t : θ) : Await ε τ θ → Left ε τ θ
  | done r => .of (done r)
  | task i => .of (task i)
  | shield a => (expire t a).map endShield
  | waitFor t' s e a =>
      if t' = t ∧ s.fired = false then
        (cancel a).map (endWaitFor t' { s with fired := true } e)
      else (expire t a).map (endWaitFor t' s e)
  | gather c a b => .both (endGather c) (expire t a) (expire t b)
  | tryExcept handles a => (expire t a).map (endTryExcept handles)

/-! ## Sheltered tasks -/

def isDone : Await ε τ θ → Bool
  | done _ => true
  | _ => false

/-- A cancellation meets a shield before it meets a task. -/
def Sheltered : Await ε τ θ → Prop
  | done _ => True
  | task _ => False
  | shield _ => True
  | waitFor _ _ _ a => Sheltered a
  | gather _ a b => Sheltered a ∧ Sheltered b
  | tryExcept _ a => Sheltered a

/-- What is awaited has not ended; no timer has fired, and under each there is a shield. -/
def Safe : Await ε τ θ → Prop
  | done _ => True
  | task _ => True
  | shield a => a.isDone = false ∧ Safe a
  | waitFor _ s _ a => a.isDone = false ∧ s = ⟨false, false⟩ ∧ Sheltered a ∧ Safe a
  | gather _ a b => (a.isDone && b.isDone) = false ∧ Safe a ∧ Safe b
  | tryExcept _ a => a.isDone = false ∧ Safe a

section Ends

variable {P : Await ε τ θ → Prop} {a b : Await ε τ θ} {c : Bool} {t : θ} {s : Interruption}
  {e : ε} {handles : ε → Bool}

theorem exists_done (h : a.isDone = true) : ∃ r, a = done r := by
  cases a with
  | done r => exact ⟨r, rfl⟩
  | _ => cases h

/-- A property that `done` has, and the node too while it waits. -/
theorem endShield_of (hdone : ∀ r, P (done r)) (h : a.isDone = false → P (shield a)) :
    P (endShield a) := by
  cases a with
  | done r => exact hdone r
  | _ => exact h rfl

theorem endWaitFor_of (hdone : ∀ r, P (done r)) (h : a.isDone = false → P (waitFor t s e a)) :
    P (endWaitFor t s e a) := by
  cases a with
  | done r => cases r <;> exact hdone _
  | _ => exact h rfl

theorem endGather_of (hdone : ∀ r, P (done r))
    (h : (a.isDone && b.isDone) = false → P (gather c a b)) : P (endGather c a b) := by
  cases a with
  | done r =>
      cases b with
      | done r' => exact hdone _
      | _ => exact h rfl
  | _ => exact h rfl

theorem endTryExcept_of (hdone : ∀ r, P (done r))
    (h : a.isDone = false → P (tryExcept handles a)) : P (endTryExcept handles a) := by
  cases a with
  | done r => cases r <;> exact hdone _
  | _ => exact h rfl

end Ends

/-! ## Every event keeps the shelter -/

section Events

theorem settle_sheltered [DecidableEq τ] (i : τ) (r : Result ε) {a : Await ε τ θ}
    (h : Sheltered a) : Sheltered (settle i r a) := by
  induction a with
  | done r' => exact h
  | task j => exact h.elim
  | shield a ih => exact endShield_of (fun _ => trivial) fun _ => trivial
  | waitFor t s e a ih => exact endWaitFor_of (P := Sheltered) (fun _ => trivial) fun _ => ih h
  | gather c a b iha ihb =>
      exact endGather_of (P := Sheltered) (fun _ => trivial) fun _ => ⟨iha h.1, ihb h.2⟩
  | tryExcept handles a ih =>
      exact endTryExcept_of (P := Sheltered) (fun _ => trivial) fun _ => ih h

theorem settle_safe [DecidableEq τ] (i : τ) (r : Result ε) {a : Await ε τ θ} (h : Safe a) :
    Safe (settle i r a) := by
  induction a with
  | done r' => exact h
  | task j =>
      unfold settle
      split_ifs <;> trivial
  | shield a ih => exact endShield_of (P := Safe) (fun _ => trivial) fun hw => ⟨hw, ih h.2⟩
  | waitFor t s e a ih =>
      obtain ⟨-, hunfired, hsheltered, hsafe⟩ := h
      exact endWaitFor_of (P := Safe) (fun _ => trivial) fun hw =>
        ⟨hw, hunfired, settle_sheltered i r hsheltered, ih hsafe⟩
  | gather c a b iha ihb =>
      exact endGather_of (P := Safe) (fun _ => trivial) fun hw => ⟨hw, iha h.2.1, ihb h.2.2⟩
  | tryExcept handles a ih =>
      exact endTryExcept_of (P := Safe) (fun _ => trivial) fun hw => ⟨hw, ih h.2⟩

/-- A sheltered awaitable ends at once when it is cancelled, and no task hears of it. -/
theorem cancel_sheltered {a : Await ε τ θ} (hsheltered : Sheltered a) (h : Safe a) :
    (cancel a).requested = [] ∧
      ∃ r, (cancel a).rest = done r ∧ (a.isDone = false → r = .cancelled) := by
  induction a with
  | done r => exact ⟨rfl, r, rfl, by simp [isDone]⟩
  | task j => exact hsheltered.elim
  | shield a ih => exact ⟨rfl, .cancelled, rfl, fun _ => rfl⟩
  | waitFor t s e a ih =>
      obtain ⟨hnone, r, hrest, hr⟩ := ih hsheltered h.2.2.2
      obtain rfl := hr h.1
      refine ⟨hnone, .cancelled, ?_, fun _ => rfl⟩
      change endWaitFor t _ e (cancel a).rest = _
      rw [hrest]
      simp [endWaitFor]
  | gather c a b iha ihb =>
      obtain ⟨hnoneA, ra, hrestA, -⟩ := iha hsheltered.1 h.2.1
      obtain ⟨hnoneB, rb, hrestB, -⟩ := ihb hsheltered.2 h.2.2
      refine ⟨?_, .cancelled, ?_, fun _ => rfl⟩
      · change (cancel a).requested ++ (cancel b).requested = []
        rw [hnoneA, hnoneB]
        rfl
      · change endGather true (cancel a).rest (cancel b).rest = _
        rw [hrestA, hrestB]
        rfl
  | tryExcept handles a ih =>
      obtain ⟨hnone, r, hrest, hr⟩ := ih hsheltered h.2
      obtain rfl := hr h.1
      refine ⟨hnone, .cancelled, ?_, fun _ => rfl⟩
      change endTryExcept handles (cancel a).rest = _
      rw [hrest]
      rfl

theorem cancel_detached {a : Await ε τ θ} (h : Safe a) : ∀ d ∈ (cancel a).detached, Safe d := by
  induction a with
  | done r => simp [cancel, Left.of]
  | task j => simp [cancel]
  | shield a ih =>
      intro d hd
      rw [List.mem_singleton.mp hd]
      exact h.2
  | waitFor t s e a ih => exact ih h.2.2.2
  | gather c a b iha ihb =>
      intro d hd
      rcases List.mem_append.mp hd with hd | hd
      · exact iha h.2.1 d hd
      · exact ihb h.2.2 d hd
  | tryExcept handles a ih => exact ih h.2

/-- The timeout of something sheltered raises as soon as its timer fires. -/
theorem expire_waitFor [DecidableEq θ] {t : θ} {s : Interruption} {e : ε} {a : Await ε τ θ}
    (h : Safe (waitFor t s e a)) :
    (expire t (waitFor t s e a)).rest = done (.raised e) ∧
      (expire t (waitFor t s e a)).requested = [] ∧
      (expire t (waitFor t s e a)).detached = (cancel a).detached := by
  obtain ⟨hwaits, rfl, hsheltered, hsafe⟩ := h
  obtain ⟨hnone, r, hrest, hr⟩ := cancel_sheltered hsheltered hsafe
  obtain rfl := hr hwaits
  rw [expire, if_pos ⟨rfl, rfl⟩]
  refine ⟨?_, hnone, rfl⟩
  change endWaitFor t _ e (cancel a).rest = _
  rw [hrest]
  rfl

theorem expire_sheltered [DecidableEq θ] (t : θ) {a : Await ε τ θ} (hsheltered : Sheltered a)
    (h : Safe a) : Sheltered (expire t a).rest := by
  induction a with
  | done r => exact trivial
  | task j => exact hsheltered.elim
  | shield a ih => exact endShield_of (P := Sheltered) (fun _ => trivial) fun _ => trivial
  | waitFor t' s e a ih =>
      by_cases ht : t' = t
      · subst ht
        rw [(expire_waitFor h).1]
        trivial
      · rw [expire, if_neg fun hfires => ht hfires.1]
        exact endWaitFor_of (P := Sheltered) (fun _ => trivial) fun _ => ih hsheltered h.2.2.2
  | gather c a b iha ihb =>
      exact endGather_of (P := Sheltered) (fun _ => trivial) fun _ =>
        ⟨iha hsheltered.1 h.2.1, ihb hsheltered.2 h.2.2⟩
  | tryExcept handles a ih =>
      exact endTryExcept_of (P := Sheltered) (fun _ => trivial) fun _ => ih hsheltered h.2

/-- No timeout reaches a task. -/
theorem expire_safe [DecidableEq θ] (t : θ) {a : Await ε τ θ} (h : Safe a) :
    Safe (expire t a).rest ∧ (∀ d ∈ (expire t a).detached, Safe d) ∧
      (expire t a).requested = [] := by
  induction a with
  | done r => exact ⟨trivial, by simp [expire, Left.of], rfl⟩
  | task j => exact ⟨trivial, by simp [expire, Left.of], rfl⟩
  | shield a ih =>
      obtain ⟨hrest, hdetached, hnone⟩ := ih h.2
      exact ⟨endShield_of (P := Safe) (fun _ => trivial) fun hw => ⟨hw, hrest⟩, hdetached, hnone⟩
  | waitFor t' s e a ih =>
      by_cases ht : t' = t
      · subst ht
        obtain ⟨hrest, hnone, hdetached⟩ := expire_waitFor h
        rw [hrest, hnone, hdetached]
        exact ⟨trivial, cancel_detached h.2.2.2, rfl⟩
      · obtain ⟨-, hunfired, hsheltered, hsafe⟩ := h
        obtain ⟨hrest, hdetached, hnone⟩ := ih hsafe
        rw [expire, if_neg fun hfires => ht hfires.1]
        exact ⟨endWaitFor_of (P := Safe) (fun _ => trivial) fun hw =>
          ⟨hw, hunfired, expire_sheltered t hsheltered hsafe, hrest⟩, hdetached, hnone⟩
  | gather c a b iha ihb =>
      obtain ⟨hrestA, hdetachedA, hnoneA⟩ := iha h.2.1
      obtain ⟨hrestB, hdetachedB, hnoneB⟩ := ihb h.2.2
      refine ⟨endGather_of (P := Safe) (fun _ => trivial) fun hw => ⟨hw, hrestA, hrestB⟩, ?_, ?_⟩
      · intro d hd
        rcases List.mem_append.mp hd with hd | hd
        · exact hdetachedA d hd
        · exact hdetachedB d hd
      · change (expire t a).requested ++ (expire t b).requested = []
        rw [hnoneA, hnoneB]
        rfl
  | tryExcept handles a ih =>
      obtain ⟨hrest, hdetached, hnone⟩ := ih h.2
      exact ⟨endTryExcept_of (P := Safe) (fun _ => trivial) fun hw => ⟨hw, hrest⟩, hdetached,
        hnone⟩

end Events

/-! ## When it ends -/

section Ending

/-- Whether it has ended, once the tasks of `ended` have and the timers of `fired` fired. -/
def endsBy (ended : τ → Bool) (fired : θ → Bool) : Await ε τ θ → Bool
  | done _ => true
  | task i => ended i
  | shield a => endsBy ended fired a
  | waitFor t _ _ a => fired t || endsBy ended fired a
  | gather _ a b => endsBy ended fired a && endsBy ended fired b
  | tryExcept _ a => endsBy ended fired a

variable (ended : τ → Bool) (fired : θ → Bool)

theorem endsBy_endShield (a : Await ε τ θ) :
    endsBy ended fired (endShield a) = endsBy ended fired a := by
  cases a <;> rfl

theorem endsBy_endWaitFor (t : θ) (s : Interruption) (e : ε) (a : Await ε τ θ) :
    endsBy ended fired (endWaitFor t s e a) = (fired t || endsBy ended fired a) := by
  cases a with
  | done r => cases r <;> simp [endWaitFor, endsBy]
  | _ => rfl

theorem endsBy_endGather (c : Bool) (a b : Await ε τ θ) :
    endsBy ended fired (endGather c a b) = (endsBy ended fired a && endsBy ended fired b) := by
  cases a with
  | done r => cases b <;> rfl
  | _ => rfl

theorem endsBy_endTryExcept (handles : ε → Bool) (a : Await ε τ θ) :
    endsBy ended fired (endTryExcept handles a) = endsBy ended fired a := by
  cases a with
  | done r => cases r <;> rfl
  | _ => rfl

theorem endsBy_settle [DecidableEq τ] (i : τ) (r : Result ε) (a : Await ε τ θ) :
    endsBy ended fired (settle i r a) = endsBy (fun j => decide (j = i) || ended j) fired a := by
  induction a with
  | done r' => rfl
  | task j =>
      unfold settle
      split_ifs with hj <;> simp [endsBy, hj]
  | shield a ih => rw [settle, endsBy_endShield, ih, endsBy]
  | waitFor t s e a ih => rw [settle, endsBy_endWaitFor, ih, endsBy]
  | gather c a b iha ihb => rw [settle, endsBy_endGather, iha, ihb, endsBy]
  | tryExcept handles a ih => rw [settle, endsBy_endTryExcept, ih, endsBy]

theorem endsBy_expire [DecidableEq θ] (t : θ) {a : Await ε τ θ} (h : Safe a) :
    endsBy ended fired (expire t a).rest =
      endsBy ended (fun t' => decide (t' = t) || fired t') a := by
  induction a with
  | done r => rfl
  | task j => rfl
  | shield a ih => exact (endsBy_endShield ended fired _).trans (ih h.2)
  | waitFor t' s e a ih =>
      by_cases ht : t' = t
      · subst ht
        rw [(expire_waitFor h).1]
        simp [endsBy]
      · rw [expire, if_neg fun hfires => ht hfires.1]
        refine (endsBy_endWaitFor ended fired t' s e _).trans ?_
        rw [ih h.2.2.2]
        simp [endsBy, ht]
  | gather c a b iha ihb =>
      refine (endsBy_endGather ended fired c _ _).trans ?_
      rw [iha h.2.1, ihb h.2.2, endsBy]
  | tryExcept handles a ih => exact (endsBy_endTryExcept ended fired handles _).trans (ih h.2)

theorem isDone_eq_endsBy {a : Await ε τ θ} (h : Safe a) :
    a.isDone = endsBy (fun _ => false) (fun _ => false) a := by
  induction a with
  | done r => rfl
  | task j => rfl
  | shield a ih => exact h.1.symm.trans (ih h.2)
  | waitFor t s e a ih =>
      rw [endsBy, Bool.false_or, ← ih h.2.2.2, h.1]
      rfl
  | gather c a b iha ihb =>
      rw [endsBy, ← iha h.2.1, ← ihb h.2.2, h.1]
      rfl
  | tryExcept handles a ih => exact h.1.symm.trans (ih h.2)

end Ending

/-! ## How it can end -/

section Results

/-- The ways in which it can end when it is not cancelled from outside. -/
def Yields : Await ε τ θ → Result ε → Prop
  | done r => (· = r)
  | task _ => fun _ => True
  | shield a => Yields a
  | waitFor _ _ e a => fun r => Yields a r ∨ r = .raised e
  | gather c _ _ => (· = if c then .cancelled else .value)
  | tryExcept handles a => fun r =>
      (Yields a r ∧ ∀ e, r = .raised e → handles e = false) ∨
        r = .value ∧ ∃ e, Yields a (.raised e) ∧ handles e = true

variable {a b : Await ε τ θ} {r : Result ε}

theorem yields_endShield (h : Yields (endShield a) r) : Yields a r := by
  cases a <;> exact h

theorem yields_endWaitFor {t : θ} {s : Interruption} {e : ε}
    (h : Yields (endWaitFor t s e a) r) : Yields a r ∨ r = .raised e := by
  cases a with
  | done r' =>
      cases r' with
      | cancelled =>
          have hr : r = if s.fired && !s.cancelled then .raised e else .cancelled := h
          split_ifs at hr
          · exact .inr hr
          · exact .inl hr
      | _ => exact .inl h
  | _ => exact h

theorem yields_endGather {c : Bool} (h : Yields (endGather c a b) r) :
    r = if c then .cancelled else .value := by
  cases a with
  | done r' => cases b <;> exact h
  | _ => exact h

theorem yields_endTryExcept {handles : ε → Bool} (h : Yields (endTryExcept handles a) r) :
    Yields (tryExcept handles a) r := by
  cases a with
  | done r' =>
      cases r' with
      | raised e =>
          have hr : r = if handles e then .value else .raised e := h
          split_ifs at hr with hhandles
          · exact .inr ⟨hr, e, rfl, hhandles⟩
          · refine .inl ⟨hr, fun e' he' => ?_⟩
            rw [hr] at he'
            cases he'
            exact Bool.eq_false_iff.mpr hhandles
      | _ =>
          have hr : r = _ := h
          refine .inl ⟨hr, fun e' he' => ?_⟩
          rw [hr] at he'
          cases he'
  | _ => exact h

theorem yields_tryExcept_mono {handles : ε → Bool} (hsub : ∀ r, Yields a r → Yields b r)
    (h : Yields (tryExcept handles a) r) : Yields (tryExcept handles b) r := by
  rcases h with ⟨hr, hraised⟩ | ⟨hr, e, he, hhandles⟩
  · exact .inl ⟨hsub r hr, hraised⟩
  · exact .inr ⟨hr, e, hsub _ he, hhandles⟩

theorem yields_settle [DecidableEq τ] (i : τ) (r' : Result ε) {a : Await ε τ θ} :
    ∀ r, Yields (settle i r' a) r → Yields a r := by
  induction a with
  | done r'' => exact fun _ h => h
  | task j => exact fun _ _ => trivial
  | shield a ih => exact fun r h => ih r (yields_endShield h)
  | waitFor t s e a ih => exact fun r h => (yields_endWaitFor h).imp_left (ih r)
  | gather c a b iha ihb => exact fun r h => yields_endGather h
  | tryExcept handles a ih => exact fun r h => yields_tryExcept_mono ih (yields_endTryExcept h)

theorem yields_expire [DecidableEq θ] (t : θ) {a : Await ε τ θ} (h : Safe a) :
    ∀ r, Yields (expire t a).rest r → Yields a r := by
  induction a with
  | done r' => exact fun _ hr => hr
  | task j => exact fun _ _ => trivial
  | shield a ih => exact fun r hr => ih h.2 r (yields_endShield hr)
  | waitFor t' s e a ih =>
      intro r hr
      by_cases ht : t' = t
      · subst ht
        rw [(expire_waitFor h).1] at hr
        exact .inr hr
      · rw [expire, if_neg fun hfires => ht hfires.1] at hr
        exact (yields_endWaitFor hr).imp_left (ih h.2.2.2 r)
  | gather c a b iha ihb => exact fun r hr => yields_endGather hr
  | tryExcept handles a ih =>
      exact fun r hr => yields_tryExcept_mono (ih h.2) (yields_endTryExcept hr)

end Results

/-! ## What keeps running -/

section Running

def Mentions (i : τ) : Await ε τ θ → Prop
  | done _ => False
  | task j => j = i
  | shield a => Mentions i a
  | waitFor _ _ _ a => Mentions i a
  | gather _ a b => Mentions i a ∨ Mentions i b
  | tryExcept _ a => Mentions i a

/-- The task is part of what is left. -/
def Keeps (i : τ) (l : Left ε τ θ) : Prop := Mentions i l.rest ∨ ∃ d ∈ l.detached, Mentions i d

variable {i : τ}

theorem mentions_endShield {a : Await ε τ θ} (h : Mentions i a) : Mentions i (endShield a) := by
  cases a with
  | done r => exact h.elim
  | _ => exact h

theorem mentions_endWaitFor {t : θ} {s : Interruption} {e : ε} {a : Await ε τ θ}
    (h : Mentions i a) : Mentions i (endWaitFor t s e a) := by
  cases a with
  | done r => exact h.elim
  | _ => exact h

theorem mentions_endGather {c : Bool} {a b : Await ε τ θ} (h : Mentions i a ∨ Mentions i b) :
    Mentions i (endGather c a b) := by
  cases a with
  | done r =>
      cases b with
      | done r' => exact (h.elim id id).elim
      | _ => exact h
  | _ => exact h

theorem mentions_endTryExcept {handles : ε → Bool} {a : Await ε τ θ} (h : Mentions i a) :
    Mentions i (endTryExcept handles a) := by
  cases a with
  | done r => exact h.elim
  | _ => exact h

theorem keeps_map {f : Await ε τ θ → Await ε τ θ} (hf : ∀ a, Mentions i a → Mentions i (f a))
    {l : Left ε τ θ} (h : Keeps i l) : Keeps i (l.map f) :=
  h.imp_left (hf _)

theorem keeps_both {c : Bool} {l m : Left ε τ θ} (h : Keeps i l ∨ Keeps i m) :
    Keeps i (.both (endGather c) l m) := by
  rcases h with (hrest | ⟨d, hd, hmentions⟩) | (hrest | ⟨d, hd, hmentions⟩)
  · exact .inl (mentions_endGather (.inl hrest))
  · exact .inr ⟨d, List.mem_append_left _ hd, hmentions⟩
  · exact .inl (mentions_endGather (.inr hrest))
  · exact .inr ⟨d, List.mem_append_right _ hd, hmentions⟩

theorem mentions_settle [DecidableEq τ] {j : τ} (hj : j ≠ i) (r : Result ε) {a : Await ε τ θ}
    (h : Mentions i a) : Mentions i (settle j r a) := by
  induction a with
  | done r' => exact h.elim
  | task k =>
      obtain rfl : k = i := h
      rw [settle, if_neg (Ne.symm hj)]
      exact rfl
  | shield a ih => exact mentions_endShield (ih h)
  | waitFor t s e a ih => exact mentions_endWaitFor (ih h)
  | gather c a b iha ihb => exact mentions_endGather (h.imp iha ihb)
  | tryExcept handles a ih => exact mentions_endTryExcept (ih h)

theorem keeps_cancel {a : Await ε τ θ} (h : Mentions i a) : Keeps i (cancel a) := by
  induction a with
  | done r => exact h.elim
  | task k => exact .inl h
  | shield a ih => exact .inr ⟨a, List.mem_singleton_self a, h⟩
  | waitFor t s e a ih => exact keeps_map (fun _ => mentions_endWaitFor) (ih h)
  | gather c a b iha ihb => exact keeps_both (h.imp iha ihb)
  | tryExcept handles a ih => exact keeps_map (fun _ => mentions_endTryExcept) (ih h)

theorem keeps_expire [DecidableEq θ] (t : θ) {a : Await ε τ θ} (h : Mentions i a) :
    Keeps i (expire t a) := by
  induction a with
  | done r => exact h.elim
  | task k => exact .inl h
  | shield a ih => exact keeps_map (fun _ => mentions_endShield) (ih h)
  | waitFor t' s e a ih =>
      unfold expire
      split_ifs
      · exact keeps_map (fun _ => mentions_endWaitFor) (keeps_cancel h)
      · exact keeps_map (fun _ => mentions_endWaitFor) (ih h)
  | gather c a b iha ihb => exact keeps_both (h.imp iha ihb)
  | tryExcept handles a ih => exact keeps_map (fun _ => mentions_endTryExcept) (ih h)

end Running

end Await

/-! ## Runs -/

open Await

inductive Event (ε τ θ : Type)
  | ends (i : τ) (result : Result ε)
  | expires (timer : θ)
deriving DecidableEq

/-- A coroutine, what its timeouts left running, and the tasks asked to cancel. -/
structure World (ε τ θ : Type) where
  root : Await ε τ θ
  detached : List (Await ε τ θ)
  requested : List τ

namespace World

def start (a : Await ε τ θ) : World ε τ θ := ⟨a, [], []⟩

structure Calm (w : World ε τ θ) : Prop where
  root : Safe w.root
  detached : ∀ d ∈ w.detached, Safe d
  requested : w.requested = []

theorem calm_start {a : Await ε τ θ} (h : Safe a) : Calm (start a) :=
  ⟨h, by simp [start], rfl⟩

variable [DecidableEq τ] [DecidableEq θ]

def react (w : World ε τ θ) : Event ε τ θ → World ε τ θ
  | .ends i r => { w with root := settle i r w.root, detached := w.detached.map (settle i r) }
  | .expires t =>
      let root := expire t w.root
      let others := w.detached.map (expire t)
      ⟨root.rest, others.map Left.rest ++ root.detached ++ others.flatMap Left.detached,
        w.requested ++ root.requested ++ others.flatMap Left.requested⟩

def run (w : World ε τ θ) (events : List (Event ε τ θ)) : World ε τ θ := events.foldl react w

/-- The tasks that have ended and the timers that have fired. -/
def endedIn (events : List (Event ε τ θ)) (i : τ) : Bool :=
  events.any fun
    | .ends j _ => decide (i = j)
    | .expires _ => false

def firedIn (events : List (Event ε τ θ)) (t : θ) : Bool :=
  events.any fun
    | .ends _ _ => false
    | .expires t' => decide (t = t')

variable {w : World ε τ θ}

theorem calm_react (h : Calm w) (event : Event ε τ θ) : Calm (w.react event) := by
  cases event with
  | ends i r =>
      refine ⟨settle_safe i r h.root, ?_, h.requested⟩
      intro d hd
      obtain ⟨d', hd', rfl⟩ := List.mem_map.mp hd
      exact settle_safe i r (h.detached d' hd')
  | expires t =>
      obtain ⟨hroot, hdetached, hnone⟩ := expire_safe t h.root
      refine ⟨hroot, ?_, ?_⟩
      · intro d hd
        simp only [react, List.map_map, List.flatMap_map, List.mem_append, List.mem_map,
          List.mem_flatMap, Function.comp_apply] at hd
        rcases hd with (⟨d', hd', rfl⟩ | hd) | ⟨d', hd', hd⟩
        · exact (expire_safe t (h.detached d' hd')).1
        · exact hdetached d hd
        · exact (expire_safe t (h.detached d' hd')).2.1 d hd
      · simp only [react, h.requested, hnone, List.nil_append, List.flatMap_map,
          List.flatMap_eq_nil_iff]
        exact fun d hd => (expire_safe t (h.detached d hd)).2.2

/-- Whatever fires and whatever fails, no task is asked to cancel. -/
theorem calm_run (events : List (Event ε τ θ)) (h : Calm w) : Calm (w.run events) := by
  induction events generalizing w with
  | nil => exact h
  | cons event events ih => exact ih (calm_react h event)

theorem endsBy_run (events : List (Event ε τ θ)) (h : Calm w) (ended : τ → Bool)
    (fired : θ → Bool) :
    endsBy ended fired (w.run events).root =
      endsBy (fun i => endedIn events i || ended i) (fun t => firedIn events t || fired t)
        w.root := by
  induction events generalizing w with
  | nil => simp [run, endedIn, firedIn]
  | cons event events ih =>
      refine (ih (calm_react h event)).trans ?_
      cases event with
      | ends i r =>
          refine (endsBy_settle _ _ i r w.root).trans ?_
          simp [endedIn, firedIn, Bool.or_assoc]
      | expires t =>
          refine (endsBy_expire _ _ t h.root).trans ?_
          simp [endedIn, firedIn, Bool.or_assoc]

/-- A coroutine has ended exactly when its tasks and timers say so. -/
theorem isDone_run (events : List (Event ε τ θ)) (h : Calm w) :
    (w.run events).root.isDone = endsBy (endedIn events) (firedIn events) w.root := by
  rw [isDone_eq_endsBy (calm_run events h).root, endsBy_run events h]
  simp

theorem yields_run (events : List (Event ε τ θ)) (h : Calm w) {r : Result ε}
    (hr : Yields (w.run events).root r) : Yields w.root r := by
  induction events generalizing w with
  | nil => exact hr
  | cons event events ih =>
      have hnext := ih (calm_react h event) hr
      cases event with
      | ends i r' => exact yields_settle i r' r hnext
      | expires t => exact yields_expire t h.root r hnext

def Running (w : World ε τ θ) (i : τ) : Prop :=
  Mentions i w.root ∨ ∃ d ∈ w.detached, Mentions i d

theorem running_react {i : τ} (h : Running w i) {event : Event ε τ θ}
    (hevent : endedIn [event] i = false) : Running (w.react event) i := by
  cases event with
  | ends j r =>
      have hj : j ≠ i := by simpa [endedIn, eq_comm] using hevent
      rcases h with hroot | ⟨d, hd, hmentions⟩
      · exact .inl (mentions_settle hj r hroot)
      · exact .inr ⟨settle j r d, List.mem_map_of_mem hd, mentions_settle hj r hmentions⟩
  | expires t =>
      have hmem : ∀ d, d ∈ (w.react (.expires t)).detached ↔
          ((∃ d' ∈ w.detached, (expire t d').rest = d) ∨ d ∈ (expire t w.root).detached) ∨
            ∃ d' ∈ w.detached, d ∈ (expire t d').detached := by
        simp [react, or_assoc]
      rcases h with hroot | ⟨d, hd, hmentions⟩
      · rcases keeps_expire t hroot with hrest | ⟨d, hd, hmentions⟩
        · exact .inl hrest
        · exact .inr ⟨d, (hmem d).mpr (.inl (.inr hd)), hmentions⟩
      · rcases keeps_expire t hmentions with hrest | ⟨d', hd', hmentions'⟩
        · exact .inr ⟨_, (hmem _).mpr (.inl (.inl ⟨d, hd, rfl⟩)), hrest⟩
        · exact .inr ⟨d', (hmem d').mpr (.inr ⟨d, hd, hd'⟩), hmentions'⟩

/-- A task that has not ended is still running. -/
theorem running_run (events : List (Event ε τ θ)) {i : τ} (h : Running w i)
    (hevents : endedIn events i = false) : Running (w.run events) i := by
  induction events generalizing w with
  | nil => exact h
  | cons event events ih =>
      have hboth : endedIn [event] i = false ∧ endedIn events i = false := by
        simpa [endedIn] using hevents
      exact ih (running_react h hboth.1) hboth.2

end World

end BackendProdReady.Lib.Awaitables
