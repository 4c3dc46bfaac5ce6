import Mathlib.Order.Basic
import PostgresTestHarness.Error

/-! The slot counters of one prewarm pool.

Each function is what one thread does while it holds the pool's mutex. Subtraction
saturates, as `saturating_sub` does; the debug assertions that guard it are part of
the result. -/
namespace PostgresTestHarness.Prewarm

/-- What a critical section leaves, and whether the debug assertions on its way held. -/
structure Checked (α : Type) where
  value : α
  asserts : Bool

/-- `PrewarmPoolState`; an idle `PreparedDatabase` is its name. -/
structure PrewarmPoolState where
  ready : List Text
  leased : Nat
  creating : Nat
  deleting : Nat
  accepting : Bool
  cleanupStarted : Bool
  deriving DecidableEq, Repr

inductive PrewarmReturnPhase where
  | deleting
  | creating
  | complete
  deriving DecidableEq, Repr

namespace PrewarmPoolState

def new : PrewarmPoolState := ⟨[], 0, 0, 0, true, false⟩

def occupiedSlots (s : PrewarmPoolState) : Nat :=
  s.ready.length + s.leased + s.creating + s.deleting

/-- `debug_assert!(occupied_slots() <= capacity)`. -/
def fits (s : PrewarmPoolState) (capacity : Nat) : Bool := decide (s.occupiedSlots ≤ capacity)

/-- The first caller takes the idle databases, which count as deleting from here on. -/
def beginCleanup (s : PrewarmPoolState) (capacity : Nat) :
    Checked (Option (List Text) × PrewarmPoolState) :=
  if s.cleanupStarted then ⟨(none, { s with accepting := false }), true⟩
  else
    let t : PrewarmPoolState := { s with
      accepting := false
      cleanupStarted := true
      ready := []
      deleting := s.deleting + s.ready.length }
    ⟨(some s.ready, t), t.fits capacity⟩

def failAndBeginCleanup (s : PrewarmPoolState) (phase : PrewarmReturnPhase) (capacity : Nat) :
    Checked (Option (List Text) × PrewarmPoolState) :=
  match phase with
  | .deleting =>
    let cleanup := beginCleanup { s with deleting := s.deleting - 1 } capacity
    ⟨cleanup.value, decide (0 < s.deleting) && cleanup.asserts⟩
  | .creating =>
    let cleanup := beginCleanup { s with creating := s.creating - 1 } capacity
    ⟨cleanup.value, decide (0 < s.creating) && cleanup.asserts⟩
  | .complete => ⟨(none, s), true⟩

def beginCreation (s : PrewarmPoolState) (capacity : Nat) : Checked (Except Error PrewarmPoolState) :=
  if s.accepting = false then ⟨.error .prewarmPoolClosed, true⟩
  else if capacity ≤ s.occupiedSlots then
    ⟨.error .prewarmPoolClosed, decide (s.occupiedSlots < capacity)⟩
  else ⟨.ok { s with creating := s.creating + 1 }, decide (s.occupiedSlots < capacity)⟩

def takeReady (s : PrewarmPoolState) (capacity : Nat) : Checked (Option Text × PrewarmPoolState) :=
  if s.accepting = false then ⟨(none, s), true⟩
  else
    match s.ready with
    | [] => ⟨(none, s), true⟩
    | name :: rest =>
      let t : PrewarmPoolState := { s with ready := rest, leased := s.leased + 1 }
      ⟨(some name, t), t.fits capacity⟩

def beginReturn (s : PrewarmPoolState) (capacity : Nat) : Checked PrewarmPoolState :=
  let t : PrewarmPoolState := { s with leased := s.leased - 1, deleting := s.deleting + 1 }
  ⟨t, decide (0 < s.leased) && t.fits capacity⟩

/-- Whether the database was published; otherwise it has become a deletion. -/
def finishCreation (s : PrewarmPoolState) (name : Text) (capacity : Nat) :
    Checked (Bool × PrewarmPoolState) :=
  if s.accepting = true ∧ s.cleanupStarted = false then
    let t : PrewarmPoolState := { s with creating := s.creating - 1, ready := s.ready ++ [name] }
    ⟨(true, t), decide (0 < s.creating) && t.fits capacity⟩
  else
    let t : PrewarmPoolState := { s with creating := s.creating - 1, deleting := s.deleting + 1 }
    ⟨(false, t), decide (0 < s.creating) && t.fits capacity⟩

/-- `PrewarmReturn::after_drop`: whether a replacement is to be created. -/
def afterDrop (s : PrewarmPoolState) (capacity : Nat) : Checked (Bool × PrewarmPoolState) :=
  if s.accepting = true ∧ s.cleanupStarted = false then
    let t : PrewarmPoolState := { s with deleting := s.deleting - 1, creating := s.creating + 1 }
    ⟨(true, t), decide (0 < s.deleting) && t.fits capacity⟩
  else ⟨(false, { s with deleting := s.deleting - 1 }), decide (0 < s.deleting)⟩

/-- `ClosedPrewarmDeletion::finish`, and its `Drop`. -/
def finishDeletion (s : PrewarmPoolState) : Checked PrewarmPoolState :=
  ⟨{ s with deleting := s.deleting - 1 }, decide (0 < s.deleting)⟩

theorem beginCreation_ok {s t : PrewarmPoolState} {capacity : Nat}
    (h : (s.beginCreation capacity).value = .ok t) :
    s.accepting = true ∧ s.occupiedSlots < capacity ∧ t = { s with creating := s.creating + 1 } := by
  unfold beginCreation at h
  split at h
  · cases h
  · rename_i hopen
    split at h
    · cases h
    · rename_i hroom
      cases h
      exact ⟨by simpa using hopen, Nat.lt_of_not_le hroom, rfl⟩

/-- With room left, no assertion of `begin_creation` fires. -/
theorem beginCreation_asserts {s : PrewarmPoolState} {capacity : Nat}
    (h : s.occupiedSlots < capacity) : (s.beginCreation capacity).asserts = true := by
  unfold beginCreation
  rw [if_neg (Nat.not_le.mpr h)]
  split
  · rfl
  · exact decide_eq_true h

/-- What `begin_cleanup` does: the idle databases move to the caller and count as
deleting; a second caller gets none. -/
structure Cleaned (s : PrewarmPoolState) (capacity : Nat)
    (c : Checked (Option (List Text) × PrewarmPoolState)) : Prop where
  accepting : c.value.2.accepting = false
  started : c.value.2.cleanupStarted = true
  leased : c.value.2.leased = s.leased
  creating : c.value.2.creating = s.creating
  deleting : c.value.2.deleting = s.deleting + (c.value.1.getD []).length
  ready : c.value.1.getD [] ++ c.value.2.ready = s.ready
  empty : c.value.2.ready = [] ∨ s.cleanupStarted = true
  occupied : c.value.2.occupiedSlots = s.occupiedSlots
  asserts : s.occupiedSlots ≤ capacity → c.asserts = true

theorem beginCleanup_cleaned (s : PrewarmPoolState) (capacity : Nat) :
    Cleaned s capacity (s.beginCleanup capacity) := by
  unfold beginCleanup
  split
  · rename_i started
    exact ⟨rfl, started, rfl, rfl, rfl, rfl, Or.inr started, rfl, fun _ => rfl⟩
  · have hoccupied : 0 + s.leased + s.creating + (s.deleting + s.ready.length) = s.occupiedSlots := by
      rw [occupiedSlots]
      omega
    refine ⟨rfl, rfl, rfl, rfl, rfl, List.append_nil _, Or.inl rfl, hoccupied, fun hfits => ?_⟩
    exact decide_eq_true (le_of_eq_of_le hoccupied hfits)

end PrewarmPoolState

end PostgresTestHarness.Prewarm
