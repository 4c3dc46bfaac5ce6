import Mathlib.Logic.Relation

/-! Machines whose steps are actions that may not be enabled.

A `Machine` is a set of initial states and a partial step function: `none` says that
the action cannot happen in this state. `Reachable` is what any interleaving of
actions can produce; `Invariant` is the induction over it, done once, with the
reachability of the state before the step at hand, so that invariants can be
stacked. -/

/-- Where a machine may start, and what each action does when it is enabled. -/
structure Machine (σ : Type*) (α : Type*) where
  initial : σ → Prop
  step : σ → α → Option σ

namespace Machine
variable {σ α : Type*} (m : Machine σ α)

/-- A run of actions, each enabled where it happens. -/
def run : σ → List α → Option σ
  | s, [] => some s
  | s, a :: rest => (m.step s a).bind fun t => run t rest

/-- States some interleaving of actions leads to. -/
inductive Reachable : σ → Prop where
  | start {s} : m.initial s → Reachable s
  | next {s t} (a : α) : Reachable s → m.step s a = some t → Reachable t

/-- What holds at the start and survives every step from a reachable state. -/
structure Invariant (I : σ → Prop) : Prop where
  initial : ∀ s, m.initial s → I s
  preserved : ∀ s a t, m.Reachable s → I s → m.step s a = some t → I t

variable {m}

theorem Invariant.holds {I : σ → Prop} (h : m.Invariant I) {s : σ} (hs : m.Reachable s) : I s := by
  induction hs with
  | start h₀ => exact h.initial _ h₀
  | next a hs hstep ih => exact h.preserved _ a _ hs ih hstep

@[simp] theorem run_nil (s : σ) : m.run s [] = some s := rfl

@[simp] theorem run_cons (s : σ) (a : α) (rest : List α) :
    m.run s (a :: rest) = (m.step s a).bind fun t => m.run t rest := rfl

theorem Reachable.run {s t : σ} {actions : List α} (hs : m.Reachable s)
    (h : m.run s actions = some t) : m.Reachable t := by
  induction actions generalizing s with
  | nil =>
    rw [run_nil, Option.some.injEq] at h
    exact h ▸ hs
  | cons a rest ih =>
    rw [run_cons, Option.bind_eq_some_iff] at h
    obtain ⟨u, hu, hrest⟩ := h
    exact ih (hs.next a hu) hrest

/-- A concrete run from an initial state, for evaluation. -/
theorem reachable_of_run {s t : σ} (actions : List α) (hs : m.initial s)
    (h : m.run s actions = some t) : m.Reachable t :=
  (Reachable.start hs).run h

/-- A relation between the ends of a run: reflexive, and extended by each step from
a reachable state. -/
theorem Reachable.run_related {R : σ → σ → Prop} {s t : σ} {actions : List α}
    (hs : m.Reachable s) (hrefl : R s s)
    (hstep : ∀ u a v, m.Reachable u → R s u → m.step u a = some v → R s v)
    (h : m.run s actions = some t) : R s t := by
  suffices ∀ u, m.Reachable u → R s u → m.run u actions = some t → R s t from this s hs hrefl h
  clear h
  induction actions with
  | nil =>
    intro u _ hu h
    rw [run_nil, Option.some.injEq] at h
    exact h ▸ hu
  | cons a rest ih =>
    intro u hur hu h
    rw [run_cons, Option.bind_eq_some_iff] at h
    obtain ⟨v, hv, hrest⟩ := h
    exact ih v (hur.next a hv) (hstep u a v hur hu hv) hrest

end Machine
