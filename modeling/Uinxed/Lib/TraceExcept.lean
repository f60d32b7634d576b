/-
  Lib/TraceExcept.lean --- fallible computations that keep a log.

  TraceM ε σ α is ExceptT ε over a state that is a list of σ: a computation
  fails with an ε or returns an α, and appends entries to the log as it goes.
  A failure keeps what was logged before it.  A driver that reads a device
  through such a monad logs every address it reads, and a statement about
  its reads is then a statement about the log.

  Two predicates carry the proofs, each with its rules for pure, throw, bind,
  record, a lifted Except and a computation whose failure is caught:

      LogsIn S m    every entry m appends satisfies S
      Returns Q m   whenever m succeeds, its value satisfies Q

  A loop written as a recursion is proved by induction with these rules; the
  bind rules are the only place where the monad is unfolded.
-/
import Mathlib.Logic.Basic

set_option autoImplicit false

namespace TraceExcept

/-- A computation that may fail with an ε and appends to a log of σ. -/
abbrev TraceM (ε σ α : Type) : Type := ExceptT ε (StateM (List σ)) α

variable {ε σ α β : Type}

/-- Run a computation from a log: its outcome and the log it leaves. -/
def TraceM.exec (m : TraceM ε σ α) (log : List σ) : Except ε α × List σ := m.run.run log

/-- Append an entry to the log. -/
def TraceM.record (x : σ) : TraceM ε σ Unit := modify (· ++ [x])

/-- A plain fallible value, logging nothing. -/
def TraceM.lift (e : Except ε α) : TraceM ε σ α := ExceptT.mk (pure e)

/-- Run a computation and return its outcome, failure included, keeping its
log: a call whose status the caller inspects. -/
def TraceM.attempt (m : TraceM ε σ α) : TraceM ε σ (Except ε α) := ExceptT.mk (Except.ok <$> m.run)

@[simp] theorem exec_pure (a : α) (log : List σ) : (pure a : TraceM ε σ α).exec log = (.ok a, log) := rfl

@[simp] theorem exec_throw (e : ε) (log : List σ) : (throw e : TraceM ε σ α).exec log = (.error e, log) := rfl

@[simp] theorem exec_record (x : σ) (log : List σ) :
    (TraceM.record x : TraceM ε σ Unit).exec log = (.ok (), log ++ [x]) := rfl

@[simp] theorem exec_lift (e : Except ε α) (log : List σ) : (TraceM.lift e : TraceM ε σ α).exec log = (e, log) := rfl

@[simp] theorem exec_attempt (m : TraceM ε σ α) (log : List σ) :
    (TraceM.attempt m).exec log = (.ok (m.exec log).1, (m.exec log).2) := rfl

theorem exec_bind (m : TraceM ε σ α) (f : α → TraceM ε σ β) (log : List σ) :
    (m >>= f).exec log = match m.exec log with
      | (.ok a, log') => (f a).exec log'
      | (.error e, log') => (.error e, log') := by
  simp only [TraceM.exec, ExceptT.run_bind, StateT.run_bind]
  rcases m.run.run log with ⟨_ | a, log'⟩ <;> rfl

/-- A bind that succeeds ran both sides with success. -/
theorem exec_bind_ok {m : TraceM ε σ α} {f : α → TraceM ε σ β} {log log'' : List σ} {b : β}
    (h : (m >>= f).exec log = (.ok b, log'')) :
    ∃ a log', m.exec log = (.ok a, log') ∧ (f a).exec log' = (.ok b, log'') := by
  rw [exec_bind] at h
  rcases hm : m.exec log with ⟨_ | a, log'⟩ <;> rw [hm] at h
  · cases h
  · exact ⟨a, log', rfl, h⟩

/-- A successful bind of plain Except values ran both sides with success. -/
theorem except_bind_ok {x : Except ε α} {f : α → Except ε β} {b : β} (h : (x >>= f) = .ok b) :
    ∃ a, x = .ok a ∧ f a = .ok b := by
  cases x with
  | error e => cases h
  | ok a => exact ⟨a, rfl, h⟩

/-! ## What a computation logs -/

/-- Every entry the computation appends satisfies S. -/
def LogsIn (S : σ → Prop) (m : TraceM ε σ α) : Prop :=
  ∀ log, ∀ x ∈ (m.exec log).2, x ∈ log ∨ S x

variable {S : σ → Prop}

theorem logsIn_pure (a : α) : LogsIn S (pure a : TraceM ε σ α) := fun _ _ hx => .inl hx

theorem logsIn_throw (e : ε) : LogsIn S (throw e : TraceM ε σ α) := fun _ _ hx => .inl hx

theorem logsIn_lift (e : Except ε α) : LogsIn S (TraceM.lift e : TraceM ε σ α) := fun _ _ hx => .inl hx

theorem logsIn_record {x : σ} (hx : S x) : LogsIn S (TraceM.record x : TraceM ε σ Unit) := by
  intro log y hy
  rw [exec_record, List.mem_append, List.mem_singleton] at hy
  rcases hy with hy | rfl
  · exact .inl hy
  · exact .inr hx

theorem logsIn_attempt {m : TraceM ε σ α} (hm : LogsIn S m) : LogsIn S (TraceM.attempt m) := hm

theorem logsIn_bind {m : TraceM ε σ α} {f : α → TraceM ε σ β} (hm : LogsIn S m) (hf : ∀ a, LogsIn S (f a)) :
    LogsIn S (m >>= f) := by
  intro log x hx
  rw [exec_bind] at hx
  rcases hr : m.exec log with ⟨_ | a, log'⟩ <;> rw [hr] at hx
  · exact hm log x (by rw [hr]; exact hx)
  · -- an entry of the continuation came before it, from m, or from it
    rcases hf a log' x hx with hx' | hx'
    · exact hm log x (by rw [hr]; exact hx')
    · exact .inr hx'

theorem LogsIn.mono {T : σ → Prop} {m : TraceM ε σ α} (hm : LogsIn S m) (h : ∀ x, S x → T x) : LogsIn T m :=
  fun log x hx => (hm log x hx).imp_right (h x)

/-! ## What a computation returns -/

/-- Whenever the computation succeeds, its value satisfies Q. -/
def Returns (Q : α → Prop) (m : TraceM ε σ α) : Prop :=
  ∀ log a log', m.exec log = (.ok a, log') → Q a

variable {P Q : α → Prop}

theorem returns_pure {a : α} (h : Q a) : Returns Q (pure a : TraceM ε σ α) := by
  intro _ _ _ he
  cases he
  exact h

theorem returns_throw (e : ε) : Returns Q (throw e : TraceM ε σ α) := by
  intro _ _ _ he
  cases he

theorem returns_lift {e : Except ε α} (h : ∀ a, e = .ok a → Q a) : Returns Q (TraceM.lift e : TraceM ε σ α) := by
  intro _ a _ he
  exact h a (Prod.mk.inj he).1

/-- A lifted value returns what it holds. -/
theorem returns_lift_eq (e : Except ε α) : Returns (fun a => e = .ok a) (TraceM.lift e : TraceM ε σ α) :=
  returns_lift fun _ h => h

theorem returns_record (x : σ) : Returns (fun _ => True) (TraceM.record x : TraceM ε σ Unit) :=
  fun _ _ _ _ => trivial

theorem returns_attempt {m : TraceM ε σ α} (hm : Returns Q m) :
    Returns (fun r => ∀ a, r = .ok a → Q a) (TraceM.attempt m) := by
  intro log r log' he a hr
  rw [exec_attempt] at he
  obtain ⟨h₁, -⟩ := Prod.mk.inj he
  cases h₁
  exact hm log a _ (by rw [← hr])

theorem returns_bind {Q : β → Prop} {m : TraceM ε σ α} {f : α → TraceM ε σ β} (hm : Returns P m)
    (hf : ∀ a, P a → Returns Q (f a)) : Returns Q (m >>= f) := by
  intro log b log'' he
  obtain ⟨a, log', h₁, h₂⟩ := exec_bind_ok he
  exact hf a (hm log a log' h₁) log' b log'' h₂

/-- The continuation of a bind need only log well from what the first part
returns. -/
theorem logsIn_bind_of_returns {m : TraceM ε σ α} {f : α → TraceM ε σ β} (hm : LogsIn S m) (hr : Returns P m)
    (hf : ∀ a, P a → LogsIn S (f a)) : LogsIn S (m >>= f) := by
  intro log x hx
  rw [exec_bind] at hx
  rcases he : m.exec log with ⟨_ | a, log'⟩ <;> rw [he] at hx
  · exact hm log x (by rw [he]; exact hx)
  · rcases hf a (hr log a log' he) log' x hx with hx' | hx'
    · exact hm log x (by rw [he]; exact hx')
    · exact .inr hx'

theorem Returns.mono {m : TraceM ε σ α} (hm : Returns P m) (h : ∀ a, P a → Q a) : Returns Q m :=
  fun log a log' he => h a (hm log a log' he)

end TraceExcept
