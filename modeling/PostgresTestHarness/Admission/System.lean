import PostgresTestHarness.Admission.Creation

/-! The admission gate of a server, with everything that passes or closes it.

Creations of all kinds run beside the cleanup queue, whose jobs create replacements of their
own, and beside owned shutdown. The flag is the queue's `databaseAdmissionClosed`. A step is
one statement, or one thing done between two of them. -/
namespace PostgresTestHarness.Admission
open Cleanup (CleanupOutcome CleanupJob CleanupCompletion CleanupAdmission)

/-- Who calls `create_managed_database_classified`. -/
inductive CreationKind where
  /-- `create_test_database`, with the permit of the lease to come. -/
  | lease
  | template
  /-- `create_unpublished_database`. -/
  | prewarm
  /-- The job on this worker. -/
  | refill (worker : Nat)
  deriving DecidableEq, Repr

def CreationKind.permit : CreationKind → Bool
  | .lease => true
  | _ => false

inductive CreationStage where
  /-- Before `ensure_open`. -/
  | requested
  | attempting (attempt : Attempt)
  /-- `attempt_managed_creation` has returned. -/
  | returned (result : Attempted)
  /-- Its caller has the result. -/
  | delivered (result : Attempted)
  /-- The job that made the attempt panicked in it. -/
  | unwound
  deriving Repr

structure Creation where
  kind : CreationKind
  permit : Bool
  stage : CreationStage
  /-- Statements sent for it. -/
  statements : Nat
  deriving Repr

structure State where
  queue : Cleanup.State
  /-- What each submitted closure is, by its number. -/
  kinds : List JobKind
  /-- What each worker's operation is at. -/
  operations : List Operation
  creations : List Creation
  shutdownBegun : Bool
  /-- Jobs that are past their look at the outcome. -/
  judged : List (CleanupJob × CleanupOutcome)

inductive Action where
  | submit (kind : JobKind) (databaseName : Text) (completion : CleanupCompletion) (permit : Bool)
    (admission : CleanupAdmission)
  /-- A step of the queue. -/
  | queue (a : Cleanup.Action)
  | answer (worker : Nat) (result : Except Error Unit)
  | afterDrop (worker : Nat) (refills : Bool)
  | refilled (worker : Nat)
  | publish (worker : Nat) (accepted : Bool)
  | create (kind : CreationKind)
  | ensureOpen (creation : Nat)
  | statement (creation : Nat) (result : Except Error Unit)
  /-- `attempt_managed_creation` looks at the result. -/
  | judge (creation : Nat)
  | dropPermit (creation : Nat)
  | deliver (creation : Nat)
  /-- `begin_owned_container_shutdown`. -/
  | shutdown
  deriving Repr

/-- The creation's result, once its last statement is answered. -/
def CreationStage.result? : CreationStage → Option Attempted
  | .attempting (.over result) | .returned result | .delivered result => some result
  | _ => none

/-- The result that `attempt_managed_creation` has returned. -/
def CreationStage.returned? : CreationStage → Option Attempted
  | .returned result | .delivered result => some result
  | _ => none

namespace State

def initial (cfg : Cleanup.Config) : State where
  queue := .initial cfg
  kinds := []
  operations := List.replicate (max cfg.workerCount 1) .idle
  creations := []
  shutdownBegun := false
  judged := []

def closed (s : State) : Bool := s.queue.databaseAdmissionClosed

/-- `DatabaseAdmission::close`. -/
def close (s : State) : State := { s with queue := { s.queue with databaseAdmissionClosed := true } }

def moveCreation (s : State) (i : Nat) (c : Creation) : State := { s with creations := s.creations.set i c }

def moveOperation (s : State) (w : Nat) (o : Operation) : State := { s with operations := s.operations.set w o }

def submit (cfg : Cleanup.Config) (s : State) (kind : JobKind) (databaseName : Text)
    (completion : CleanupCompletion) (permit : Bool) (admission : CleanupAdmission) : Option State :=
  (s.queue.submit cfg databaseName completion permit admission).map fun queue =>
    { s with queue, kinds := s.kinds ++ [kind] }

/-- An operation returns what it came to; the gate is closed by those who close it here. -/
def allows (s : State) : Cleanup.Action → Bool
  | .submit .. | .closeAdmission => false
  | .operationReturns w outcome =>
    match s.operations[w]? with
    | some (.over result) => decide (outcome = result)
    | _ => false
  | _ => true

/-- What a worker's operation is once the queue has taken the step. -/
def operationsAfter (s : State) (queue : Cleanup.State) : Cleanup.Action → List Operation
  | .nextJob w =>
    match queue.workers[w]? with
    | some (.executing job) =>
      match s.kinds[job.operation]? with
      | some kind => s.operations.set w (.start kind)
      | none => s.operations
    | _ => s.operations
  | .operationReturns w _ | .operationPanics w => s.operations.set w .idle
  | _ => s.operations

/-- A panic ends the replacement's creation where it is. -/
def creationsAfter (s : State) : Cleanup.Action → List Creation
  | .operationPanics w =>
    match s.operations[w]? with
    | some (.refilling i) => s.creations.modify i fun c =>
        if c.stage.returned?.isSome then c else { c with stage := .unwound }
    | _ => s.creations
  | _ => s.creations

def judgedAfter (s : State) : Cleanup.Action → List (CleanupJob × CleanupOutcome)
  | .checkResidual w =>
    match s.queue.workers[w]? with
    | some (.executed job outcome) => s.judged ++ [(job, outcome)]
    | _ => s.judged
  | _ => s.judged

def queueStep (cfg : Cleanup.Config) (s : State) (a : Cleanup.Action) : Option State :=
  if s.allows a then
    (s.queue.step cfg a).map fun queue => { s with
      queue
      operations := s.operationsAfter queue a
      creations := s.creationsAfter a
      judged := s.judgedAfter a }
  else none

def answer (s : State) (w : Nat) (result : Except Error Unit) : Option State :=
  match s.operations[w]? with
  | some operation => (operation.answer result).map fun next => s.moveOperation w next
  | none => none

/-- `after_drop`: a replacement is asked for, or none is needed. -/
def afterDrop (s : State) (w : Nat) (refills : Bool) : Option State :=
  match s.operations[w]? with
  | some .dropped =>
    if refills then
      some { s.moveOperation w (.refilling s.creations.length) with
        creations := s.creations ++ [⟨.refill w, false, .requested, 0⟩] }
    else some (s.moveOperation w (.over (disposed (.ok (.reuse .succeeded)))))
  | _ => none

def refilled (s : State) (w : Nat) : Option State :=
  match s.operations[w]? with
  | some (.refilling i) =>
    match s.creations[i]? with
    | some ⟨kind, permit, .returned result, statements⟩ =>
      some ((s.moveCreation i ⟨kind, permit, .delivered result, statements⟩).moveOperation w (.refilled result))
    | _ => none
  | _ => none

def publish (s : State) (w : Nat) (accepted : Bool) : Option State :=
  match s.operations[w]? with
  | some .created => some (s.moveOperation w (.published accepted))
  | _ => none

def create (s : State) (kind : CreationKind) : Option State :=
  match kind with
  | .refill _ => none
  | _ => some { s with creations := s.creations ++ [⟨kind, kind.permit, .requested, 0⟩] }

/-- The gate of `attempt_managed_creation`. -/
def ensureOpen (s : State) (i : Nat) : Option State :=
  match s.creations[i]? with
  | some ⟨kind, permit, .requested, statements⟩ =>
    if s.closed then
      some (s.moveCreation i ⟨kind, permit, .returned (.error (.noResidual .connectionBudgetClosed)), statements⟩)
    else some (s.moveCreation i ⟨kind, permit, .attempting .creating, statements⟩)
  | _ => none

def statement (s : State) (i : Nat) (result : Except Error Unit) : Option State :=
  match s.creations[i]? with
  | some ⟨kind, permit, .attempting attempt, statements⟩ =>
    match attempt with
    | .over _ => none
    | _ => some (s.moveCreation i ⟨kind, permit, .attempting (attempt.answer result), statements + 1⟩)
  | _ => none

/-- Its end: a failure that may have left something closes the gate. -/
def judge (s : State) (i : Nat) : Option State :=
  match s.creations[i]? with
  | some ⟨kind, permit, .attempting (.over result), statements⟩ =>
    some (if mayLeaveResidual result then s.close.moveCreation i ⟨kind, permit, .returned result, statements⟩
      else s.moveCreation i ⟨kind, permit, .returned result, statements⟩)
  | _ => none

/-- A creation that failed gives its permit up. -/
def dropPermit (s : State) (i : Nat) : Option State :=
  match s.creations[i]? with
  | some ⟨kind, true, .returned (.error failure), statements⟩ =>
    some (s.moveCreation i ⟨kind, false, .returned (.error failure), statements⟩)
  | some ⟨kind, true, .delivered (.error failure), statements⟩ =>
    some (s.moveCreation i ⟨kind, false, .delivered (.error failure), statements⟩)
  | _ => none

def deliver (s : State) (i : Nat) : Option State :=
  match s.creations[i]? with
  | some ⟨.refill _, _, _, _⟩ => none
  | some ⟨kind, permit, .returned result, statements⟩ =>
    some (s.moveCreation i ⟨kind, permit, .delivered result, statements⟩)
  | _ => none

def step (cfg : Cleanup.Config) (s : State) : Action → Option State
  | .submit kind databaseName completion permit admission => s.submit cfg kind databaseName completion permit admission
  | .queue a => s.queueStep cfg a
  | .answer w result => s.answer w result
  | .afterDrop w refills => s.afterDrop w refills
  | .refilled w => s.refilled w
  | .publish w accepted => s.publish w accepted
  | .create kind => s.create kind
  | .ensureOpen i => s.ensureOpen i
  | .statement i result => s.statement i result
  | .judge i => s.judge i
  | .dropPermit i => s.dropPermit i
  | .deliver i => s.deliver i
  | .shutdown => some { s.close with shutdownBegun := true }

end State

def machine (cfg : Cleanup.Config) : Machine State Action where
  initial s := s = .initial cfg
  step := State.step cfg

end PostgresTestHarness.Admission
