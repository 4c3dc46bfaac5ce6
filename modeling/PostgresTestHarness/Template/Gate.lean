import PostgresTestHarness.Template.Retained

/-! The admission gates behind which templates are created.

Every session belongs to a harness, and a harness has one gate. An attempt asks at its harness's gate
before it creates its template (`ensureOpen`), and closes it where the creation may have left something
(`closeAdmission`). The harness's other creations and its shutdown may close it at any time; nothing
opens it again (`Admission/Closure.lean` has what closes it). -/
namespace PostgresTestHarness.Template
open Postgres

variable {χ : Type}

/-- Attempts and sweeps, with the harnesses whose gates are closed. -/
structure Gated (χ : Type) where
  base : State χ
  closed : List Nat

inductive GatedAction (χ : Type) : Type 1 where
  | act (a : Action χ)
  /-- Shutdown of a harness, or another creation of it that may have left something. -/
  | closeAdmission (harness : Nat)

/-- Where the attempt on a session is. -/
def State.phase? (s : State χ) (i : Nat) : Option Phase :=
  match s.clients[i]? with
  | some ⟨.attempt _ _ _ phase, _, _⟩ => some phase
  | _ => none

section Gate
variable (harness : Nat → Nat)

/-- The gate's answer to an attempt. -/
def Gated.answer (s : Gated χ) (i : Nat) : Outcome := if s.closed.contains (harness i) then .refused else .ok

/-- An attempt at the gate gets the gate's answer. -/
def Gated.admitted (s : Gated χ) : Action χ → Action χ
  | .advance i o => .advance i (if s.base.phase? i = some .ensureOpen then s.answer harness i else o)
  | a => a

/-- The gates after an attempt's step. -/
def Gated.closedAfter (s : Gated χ) : Action χ → List Nat
  | .advance i _ => if s.base.phase? i = some .closeAdmission then harness i :: s.closed else s.closed
  | _ => s.closed

def Gated.step (plan : Plan χ) (s : Gated χ) : GatedAction χ → Option (Gated χ)
  | .act a => (Template.step plan s.base (s.admitted harness a)).map fun base => ⟨base, s.closedAfter harness a⟩
  | .closeAdmission h => some { s with closed := h :: s.closed }

/-- The attempts and sweeps of a plan, behind the gates of their harnesses. -/
def gated (plan : Plan χ) : Machine (Gated χ) (GatedAction χ) where
  initial s := Initial plan s.base ∧ s.closed = []
  step := Gated.step harness plan

end Gate

variable {plan : Plan χ} {harness : Nat → Nat} {s t : Gated χ}

/-- Behind the gates there are only fewer runs. -/
theorem reachable_base (hs : (gated harness plan).Reachable s) : (machine plan).Reachable s.base := by
  induction hs with
  | start h => exact .start h.1
  | next a _ hstep ih =>
    cases a with
    | act a =>
      obtain ⟨base, hbase, heq⟩ := Option.map_eq_some_iff.mp hstep
      cases heq
      exact .next _ ih hbase
    | closeAdmission h =>
      cases hstep
      exact ih

/-- A gate that is closed stays closed. -/
theorem closed_step {a : GatedAction χ} (hstep : (gated harness plan).step s a = some t) {h : Nat}
    (hclosed : h ∈ s.closed) :
    h ∈ t.closed := by
  cases a with
  | act a =>
    obtain ⟨base, _, heq⟩ := Option.map_eq_some_iff.mp hstep
    cases heq
    cases a with
    | advance i o =>
      rw [Gated.closedAfter]
      split
      · exact List.mem_cons_of_mem _ hclosed
      · exact hclosed
    | _ => exact hclosed
  | closeAdmission h' =>
    cases hstep
    exact List.mem_cons_of_mem _ hclosed

end PostgresTestHarness.Template
