import Mathlib.Tactic.Common

/-!
# Calls that end or raise

A coroutine turns a state into a record of what it leaves behind: the new state,
the outside calls it awaited, in order, and whether it returned or raised.
Sequencing stops at the first exception; `except` and `finally` keep the state
and the calls of the block they guard, as Python does.
-/

namespace BackendProdReady.Lib.Calls

variable {σ κ ε : Type}

structure Effect (σ κ ε : Type) where
  state : σ
  calls : List κ
  result : Except ε Unit

namespace Effect

def done (s : σ) : Effect σ κ ε := ⟨s, [], .ok ()⟩

def raise (s : σ) (e : ε) : Effect σ κ ε := ⟨s, [], .error e⟩

def call (s : σ) (k : κ) (result : Except ε Unit) : Effect σ κ ε := ⟨s, [k], result⟩

/-- Continue in the state reached, after the calls already made. -/
def after (m : Effect σ κ ε) (next : σ → Effect σ κ ε) : Effect σ κ ε :=
  ⟨(next m.state).state, m.calls ++ (next m.state).calls, (next m.state).result⟩

def andThen (m : Effect σ κ ε) (next : σ → Effect σ κ ε) : Effect σ κ ε :=
  match m.result with
  | .ok () => m.after next
  | .error _ => m

/-- `try: m except …`: the handler of an exception that no clause names is `none`. -/
def tryExcept (m : Effect σ κ ε) (handler : ε → Option (σ → Effect σ κ ε)) : Effect σ κ ε :=
  match m.result with
  | .ok () => m
  | .error e =>
      match handler e with
      | some next => m.after next
      | none => m

/-- `try: m finally: last`: what `last` raises replaces what `m` raised. -/
def tryFinally (m : Effect σ κ ε) (last : σ → Effect σ κ ε) : Effect σ κ ε :=
  { m.after last with
    result :=
      match (last m.state).result with
      | .error e => .error e
      | .ok () => m.result }

section Rules

variable {m : Effect σ κ ε} {next last : σ → Effect σ κ ε}
  {handler : ε → Option (σ → Effect σ κ ε)}

@[simp] theorem done_state (s : σ) : (done s : Effect σ κ ε).state = s := rfl

@[simp] theorem done_calls (s : σ) : (done s : Effect σ κ ε).calls = [] := rfl

@[simp] theorem raise_state (s : σ) (e : ε) : (raise s e : Effect σ κ ε).state = s := rfl

@[simp] theorem raise_calls (s : σ) (e : ε) : (raise s e : Effect σ κ ε).calls = [] := rfl

@[simp] theorem after_result : (m.after next).result = (next m.state).result := rfl

@[simp] theorem after_state : (m.after next).state = (next m.state).state := rfl

@[simp] theorem after_calls : (m.after next).calls = m.calls ++ (next m.state).calls := rfl

theorem andThen_of_ok (h : m.result = .ok ()) : m.andThen next = m.after next := by
  simp [andThen, h]

@[simp] theorem done_andThen (s : σ) : (done s).andThen next = next s := rfl

@[simp] theorem raise_andThen (s : σ) (e : ε) : (raise s e).andThen next = raise s e := rfl

theorem tryExcept_of_ok (h : m.result = .ok ()) : m.tryExcept handler = m := by
  simp [tryExcept, h]

theorem tryExcept_of_handled {e : ε} (h : m.result = .error e) (hnext : handler e = some next) :
    m.tryExcept handler = m.after next := by
  simp [tryExcept, h, hnext]

theorem tryExcept_of_unhandled {e : ε} (h : m.result = .error e) (hnone : handler e = none) :
    m.tryExcept handler = m := by
  simp [tryExcept, h, hnone]

@[simp] theorem tryFinally_calls :
    (m.tryFinally last).calls = m.calls ++ (last m.state).calls := rfl

theorem tryFinally_result_of_ok (h : (last m.state).result = .ok ()) :
    (m.tryFinally last).result = m.result := by
  simp [tryFinally, h]

/-- A property of states that every part preserves is preserved by sequencing. -/
theorem andThen_state {P : σ → Prop} (hm : P m.state) (hnext : ∀ s, P s → P (next s).state) :
    P (m.andThen next).state := by
  unfold andThen
  split
  · exact hnext _ hm
  · exact hm

theorem tryExcept_state {P : σ → Prop} (hm : P m.state)
    (hhandler : ∀ e next, handler e = some next → ∀ s, P s → P (next s).state) :
    P (m.tryExcept handler).state := by
  unfold tryExcept
  split
  · exact hm
  · split
    · exact hhandler _ _ ‹_› _ hm
    · exact hm

theorem tryExcept_calls (h : ∀ e next, handler e = some next → ∀ s, (next s).calls = []) :
    (m.tryExcept handler).calls = m.calls := by
  unfold tryExcept
  split
  · rfl
  · split
    · simp [h _ _ ‹_›]
    · rfl

/-- Where every handler raises, a block that returns raised nothing. -/
theorem tryExcept_returned
    (hraises : ∀ e next, handler e = some next → ∀ s, (next s).result ≠ .ok ())
    (h : (m.tryExcept handler).result = .ok ()) :
    m.result = .ok () ∧ m.tryExcept handler = m := by
  unfold tryExcept at h ⊢
  cases hm : m.result with
  | ok => exact ⟨rfl, rfl⟩
  | error e =>
      simp only [hm] at h
      cases hhandler : handler e with
      | none => simp [hhandler, hm] at h
      | some next =>
          simp only [hhandler, after_result] at h
          exact absurd h (hraises e next hhandler _)

theorem andThen_returned (h : (m.andThen next).result = .ok ()) :
    m.result = .ok () ∧ m.andThen next = m.after next := by
  unfold andThen at h ⊢
  cases hm : m.result with
  | ok => exact ⟨rfl, rfl⟩
  | error e => simp [hm] at h

theorem andThen_raise_ne_returned (e : ε) : (m.andThen fun s => raise s e).result ≠ .ok () := by
  intro h
  rw [(andThen_returned h).2] at h
  cases h

theorem andThen_raise_state (e : ε) : (m.andThen fun s => raise s e).state = m.state := by
  unfold andThen
  split <;> rfl

/-- What leaves a block that ends in `result` and then in `raise e`. -/
def raisedAfter (result : Except ε Unit) (e : ε) : ε :=
  match result with
  | .ok () => e
  | .error e' => e'

theorem andThen_raise_result (e : ε) :
    (m.andThen fun s => raise s e).result = .error (raisedAfter m.result e) := by
  unfold andThen
  cases hm : m.result with
  | ok => rfl
  | error e' => exact hm

theorem not_mem_andThen {k : κ} (hm : k ∉ m.calls) (hnext : ∀ s, k ∉ (next s).calls) :
    k ∉ (m.andThen next).calls := by
  unfold andThen
  split
  · simp [hm, hnext]
  · exact hm

theorem not_mem_tryExcept {k : κ} (hm : k ∉ m.calls)
    (hhandler : ∀ e next, handler e = some next → ∀ s, k ∉ (next s).calls) :
    k ∉ (m.tryExcept handler).calls := by
  unfold tryExcept
  split
  · exact hm
  · split
    · simp [hm, hhandler _ _ ‹_›]
    · exact hm

theorem mem_tryExcept_of_mem {k : κ} (h : k ∈ m.calls) : k ∈ (m.tryExcept handler).calls := by
  unfold tryExcept
  split
  · exact h
  · split
    · simp [h]
    · exact h

end Rules

end Effect

end BackendProdReady.Lib.Calls
