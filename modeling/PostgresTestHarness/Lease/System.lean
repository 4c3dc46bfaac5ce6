import PostgresTestHarness.Cleanup.Custody

/-! Disposable databases of one server, from creation to cleanup.

A call of `create_test_database` takes its permits, passes the admission gate and
issues its `CREATE`; the lease it returns is cleaned up through the cleanup queue in
one of three ways. Prewarmed databases take part as far as they hold permits, queue
slots and workers. Database names are fresh. -/
namespace PostgresTestHarness.Lease
open Cleanup (CleanupAdmission CleanupCompletion CleanupJob Worker)

/-- `ConnectionLimits` and `CleanupQueueLimits` of one server. -/
structure Limits where
  connectionBudget : Nat
  connectionsPerDatabase : Nat
  workerCount : Nat
  queueCapacity : Nat
  connections_pos : 0 < connectionsPerDatabase
  workers_pos : 0 < workerCount
  capacity_pos : 0 < queueCapacity

namespace Limits

def maxSimultaneousLeases (l : Limits) : Nat := l.connectionBudget / l.connectionsPerDatabase

def cleanup (l : Limits) : Cleanup.Config := ⟨l.workerCount, l.queueCapacity⟩

end Limits

inductive ManagedDatabaseCreationFailure where
  | noResidual (error : Error)
  | residualPossible (error : Error)
  deriving DecidableEq, Repr

/-- A `create_test_database` call that holds its permits. -/
inductive Creation where
  /-- Before `ensure_open`: not yet spawned, connecting, or just before the gate. -/
  | admitted
  /-- Past the gate: the database may exist. -/
  | attempting (name : Text)
  /-- `CREATE` may have left the database; admission is about to be closed. -/
  | ambiguous (name : Text)
  /-- Admission has been closed for it; the permits are about to be dropped. -/
  | failing (name : Text)
  deriving DecidableEq, Repr

/-- The database a creation may have made. -/
def Creation.names : Creation → List Text
  | .admitted => []
  | .attempting name | .ambiguous name | .failing name => [name]

/-- Databases whose cleanup operation is known to have removed them: only an outcome
that may leave a residual leaves the job's own database behind. -/
def droppedIn (q : Cleanup.State) : List Text :=
  (q.history.executed.filter fun e => !e.2.mayLeaveResidual).map (·.1.databaseName)

/-- How a lease is given up. -/
inductive Return where
  | cleanup
  | deferCleanup
  | drop
  deriving DecidableEq, Repr

namespace Return

def completion : Return → CleanupCompletion
  | .cleanup => .awaited
  | .deferCleanup => .deferred
  | .drop => .deferred

/-- Whether the job carries the permit. -/
def permit : Return → Bool
  | .cleanup => true
  | .deferCleanup => false
  | .drop => true

def admission : Return → CleanupAdmission
  | .cleanup => .backpressured
  | .deferCleanup => .backpressured
  | .drop => .nonblockingFallback

end Return

structure State where
  queue : Cleanup.State
  /-- Public handles: harness clones, templates, pools. -/
  harnesses : Nat
  creations : List Creation
  leases : List Text
  /-- Leases given up whose submission has not been answered. -/
  returning : List (Text × Return)
  /-- Deferred submissions that were accepted and have still to drop their permit. -/
  handingBack : Nat
  /-- Names in use so far, of all kinds. -/
  used : List Text
  /-- Directly leased databases whose creation passed the gate, less those that are
  known to have left nothing. -/
  attempted : List Text

inductive Action where
  | acquire
  /-- `PrewarmedDatabasePool::database` takes a ready database. -/
  | acquirePrewarmed (name : Text)
  | ensureOpen (creation : Nat) (name : Text)
  | creationReturns (creation : Nat) (result : Except ManagedDatabaseCreationFailure Unit)
  | closeAfter (creation : Nat)
  /-- The call ends without a lease: cancelled, not connected, or failed. -/
  | dropPermit (creation : Nat)
  /-- Owned shutdown, or another creation path that may have left a residual. -/
  | closeAdmission
  | giveUp (lease : Nat) (how : Return)
  | submit (returning : Nat)
  | dropDeferredPermit
  /-- A prewarmed database is queued for deletion. -/
  | submitPrewarmer (name : Text)
  | queue (a : Cleanup.Action)
  | cloneHarness
  | dropHarness
  | dropServer
  deriving Repr

/-- The queue's own steps: submissions and handles are the server's business, and the
queue is closed only by a shutdown that has closed admission. -/
def internal (admissionClosed : Bool) : Cleanup.Action → Bool
  | .submit .. | .cloneHandle | .dropHandle | .closeAdmission => false
  | .callDrain .close => admissionClosed
  | _ => true

/-- Whether the worker carries a job's permit. -/
def holdsPermit : Worker → Bool
  | .executing job | .executed job _ | .admitted job _ | .settling job _ => job.permit
  | _ => false

namespace State

def initial (l : Limits) : State where
  queue := .initial l.cleanup
  harnesses := 1
  creations := []
  leases := []
  returning := []
  handingBack := 0
  used := []
  attempted := []

/-- Databases' worth of permits that are held. -/
def holders (s : State) : Nat :=
  s.creations.length + s.leases.length + s.returning.length + s.handingBack +
    s.queue.submission.jobs.countP (·.permit) + s.queue.workers.countP holdsPermit

def closed (s : State) : Bool := s.queue.databaseAdmissionClosed

/-- Directly leased databases that exist or may exist. -/
def existing (s : State) : List Text := s.attempted.filter fun name => decide (name ∉ droppedIn s.queue)

/-- The semaphore has `connections_per_database` permits left and is open. -/
def canAcquire (l : Limits) (s : State) : Bool :=
  !s.closed && decide (0 < s.harnesses) &&
    decide ((s.holders + 1) * l.connectionsPerDatabase ≤ l.connectionBudget)

def acquire (l : Limits) (s : State) : Option State :=
  if s.canAcquire l then some { s with creations := s.creations ++ [.admitted] } else none

def acquirePrewarmed (l : Limits) (s : State) (name : Text) : Option State :=
  if s.canAcquire l ∧ name ∉ s.used then
    some { s with leases := s.leases ++ [name], used := name :: s.used }
  else none

/-- `attempt_managed_creation` looks at admission once, before the operation. -/
def ensureOpen (s : State) (i : Nat) (name : Text) : Option State :=
  match s.creations[i]? with
  | some .admitted =>
    if s.closed then some { s with creations := s.creations.eraseIdx i }
    else if name ∈ s.used then none
    else some { s with
      creations := s.creations.set i (.attempting name)
      used := name :: s.used
      attempted := name :: s.attempted }
  | _ => none

def creationReturns (s : State) (i : Nat) (result : Except ManagedDatabaseCreationFailure Unit) :
    Option State :=
  match s.creations[i]? with
  | some (.attempting name) =>
    match result with
    | .ok () => some { s with
        creations := s.creations.eraseIdx i
        leases := s.leases ++ [name] }
    | .error (.noResidual _) => some { s with
        creations := s.creations.eraseIdx i
        attempted := s.attempted.erase name }
    | .error (.residualPossible _) => some { s with creations := s.creations.set i (.ambiguous name) }
  | _ => none

def queueStep (l : Limits) (s : State) (a : Cleanup.Action) : Option State :=
  (s.queue.step l.cleanup a).map fun queue => { s with queue }

def closeAfter (l : Limits) (s : State) (i : Nat) : Option State :=
  match s.creations[i]? with
  | some (.ambiguous name) =>
    { s with creations := s.creations.set i (.failing name) }.queueStep l .closeAdmission
  | _ => none

def dropPermit (s : State) (i : Nat) : Option State :=
  match s.creations[i]? with
  | some .admitted | some (.failing _) => some { s with creations := s.creations.eraseIdx i }
  | _ => none

def giveUp (s : State) (i : Nat) (how : Return) : Option State :=
  match s.leases[i]? with
  | some name => some { s with
      leases := s.leases.eraseIdx i
      returning := s.returning ++ [(name, how)] }
  | none => none

/-- `queue_awaited_cleanup`, `queue_deferred_cleanup` and `queue_fallback_cleanup`. A
rejected submission drops the permit; an accepted deferred one is about to. -/
def submit (l : Limits) (s : State) (i : Nat) : Option State :=
  match s.returning[i]? with
  | some (name, how) =>
    { s with
      returning := s.returning.eraseIdx i
      handingBack := s.handingBack +
        if how = Return.deferCleanup ∧ s.queue.submission.closed = false then 1 else 0 }.queueStep l
          (.submit name how.completion how.permit how.admission)
  | none => none

def submitPrewarmer (l : Limits) (s : State) (name : Text) : Option State :=
  if name ∈ s.used then none
  else { s with used := name :: s.used }.queueStep l (.submit name .deferred false .nonblockingFallback)

def step (l : Limits) (s : State) : Action → Option State
  | .acquire => s.acquire l
  | .acquirePrewarmed name => s.acquirePrewarmed l name
  | .ensureOpen i name => s.ensureOpen i name
  | .creationReturns i result => s.creationReturns i result
  | .closeAfter i => s.closeAfter l i
  | .dropPermit i => s.dropPermit i
  | .closeAdmission => s.queueStep l .closeAdmission
  | .giveUp i how => s.giveUp i how
  | .submit i => s.submit l i
  | .dropDeferredPermit =>
    if s.handingBack = 0 then none else some { s with handingBack := s.handingBack - 1 }
  | .submitPrewarmer name => s.submitPrewarmer l name
  | .queue a => if internal s.closed a then s.queueStep l a else none
  | .cloneHarness => if s.harnesses = 0 then none else some { s with harnesses := s.harnesses + 1 }
  | .dropHarness => if s.harnesses = 0 then none else some { s with harnesses := s.harnesses - 1 }
  | .dropServer =>
    if s.harnesses = 0 ∧ s.creations = [] ∧ s.leases = [] ∧ s.returning = [] ∧ s.handingBack = 0 then
      s.queueStep l .dropHandle
    else none

end State

/-- Every step of the server, with its guard and its result. -/
inductive Transition (l : Limits) (s : State) : State → Prop where
  | acquire (room : s.canAcquire l = true) :
      Transition l s { s with creations := s.creations ++ [.admitted] }
  | acquirePrewarmed (name : Text) (room : s.canAcquire l = true) (fresh : name ∉ s.used) :
      Transition l s { s with leases := s.leases ++ [name], used := name :: s.used }
  | attempt (i : Nat) (name : Text) (creation : s.creations[i]? = some .admitted)
      (opened : s.closed = false) (fresh : name ∉ s.used) :
      Transition l s { s with
        creations := s.creations.set i (.attempting name)
        used := name :: s.used
        attempted := name :: s.attempted }
  | created (i : Nat) (name : Text) (creation : s.creations[i]? = some (.attempting name)) :
      Transition l s { s with
        creations := s.creations.eraseIdx i
        leases := s.leases ++ [name] }
  | noResidual (i : Nat) (name : Text) (creation : s.creations[i]? = some (.attempting name)) :
      Transition l s { s with
        creations := s.creations.eraseIdx i
        attempted := s.attempted.erase name }
  | residualPossible (i : Nat) (name : Text)
      (creation : s.creations[i]? = some (.attempting name)) :
      Transition l s { s with creations := s.creations.set i (.ambiguous name) }
  | closeAfter (i : Nat) (name : Text) (creation : s.creations[i]? = some (.ambiguous name))
      (queue : Cleanup.State) (step : s.queue.step l.cleanup .closeAdmission = some queue) :
      Transition l s { s with creations := s.creations.set i (.failing name), queue }
  | abandon (i : Nat) (creation : s.creations[i]? = some .admitted) :
      Transition l s { s with creations := s.creations.eraseIdx i }
  | fail (i : Nat) (name : Text) (creation : s.creations[i]? = some (.failing name)) :
      Transition l s { s with creations := s.creations.eraseIdx i }
  | closeAdmission (queue : Cleanup.State)
      (step : s.queue.step l.cleanup .closeAdmission = some queue) :
      Transition l s { s with queue }
  | giveUp (i : Nat) (name : Text) (how : Return) (lease : s.leases[i]? = some name) :
      Transition l s { s with
        leases := s.leases.eraseIdx i
        returning := s.returning ++ [(name, how)] }
  | submit (i : Nat) (name : Text) (how : Return) (lease : s.returning[i]? = some (name, how))
      (queue : Cleanup.State) (step : s.queue.step l.cleanup
        (.submit name how.completion how.permit how.admission) = some queue) :
      Transition l s { s with
        returning := s.returning.eraseIdx i
        handingBack := s.handingBack +
          if how = .deferCleanup ∧ s.queue.submission.closed = false then 1 else 0
        queue }
  | dropDeferredPermit (pending : 0 < s.handingBack) :
      Transition l s { s with handingBack := s.handingBack - 1 }
  | submitPrewarmer (name : Text) (fresh : name ∉ s.used) (queue : Cleanup.State)
      (step : s.queue.step l.cleanup (.submit name .deferred false .nonblockingFallback) = some queue) :
      Transition l s { s with used := name :: s.used, queue }
  | queue (a : Cleanup.Action) (own : internal s.closed a = true) (queue : Cleanup.State)
      (step : s.queue.step l.cleanup a = some queue) : Transition l s { s with queue }
  | harnesses (n : Nat) (handle : 0 < s.harnesses) : Transition l s { s with harnesses := n }
  | dropServer (harnesses : s.harnesses = 0) (creations : s.creations = []) (leases : s.leases = [])
      (returning : s.returning = []) (handingBack : s.handingBack = 0) (queue : Cleanup.State)
      (step : s.queue.step l.cleanup .dropHandle = some queue) :
      Transition l s { s with queue }

/-- A step of the queue alone. -/
theorem queueStep_some {l : Limits} {s t : State} {a : Cleanup.Action}
    (h : s.queueStep l a = some t) :
    ∃ queue, s.queue.step l.cleanup a = some queue ∧ t = { s with queue } := by
  rw [State.queueStep, Option.map_eq_some_iff] at h
  obtain ⟨queue, hstep, rfl⟩ := h
  exact ⟨queue, hstep, rfl⟩

/-- A step is one of the transitions. -/
theorem step_transition (l : Limits) (s t : State) (a : Action) (h : s.step l a = some t) :
    Transition l s t := by
  cases a with
  | acquire =>
    simp only [State.step, State.acquire] at h
    split at h
    · rename_i room
      cases h
      exact .acquire room
    · cases h
  | acquirePrewarmed name =>
    simp only [State.step, State.acquirePrewarmed] at h
    split at h
    · rename_i room
      cases h
      exact .acquirePrewarmed name room.1 room.2
    · cases h
  | ensureOpen i name =>
    simp only [State.step, State.ensureOpen] at h
    split at h
    · rename_i creation
      split at h
      · cases h
        exact .abandon i creation
      · rename_i opened
        split at h
        · cases h
        · rename_i fresh
          cases h
          exact .attempt i name creation (Bool.not_eq_true _ ▸ opened) fresh
    · cases h
  | creationReturns i result =>
    simp only [State.step, State.creationReturns] at h
    split at h
    · rename_i name creation
      split at h
      · cases h
        exact .created i name creation
      · cases h
        exact .noResidual i name creation
      · cases h
        exact .residualPossible i name creation
    · cases h
  | closeAfter i =>
    simp only [State.step, State.closeAfter] at h
    split at h
    · rename_i name creation
      obtain ⟨queue, hstep, rfl⟩ := queueStep_some h
      exact .closeAfter i name creation queue hstep
    · cases h
  | dropPermit i =>
    simp only [State.step, State.dropPermit] at h
    split at h
    · rename_i creation
      cases h
      exact .abandon i creation
    · rename_i name creation
      cases h
      exact .fail i name creation
    · cases h
  | closeAdmission =>
    obtain ⟨queue, hstep, rfl⟩ := queueStep_some h
    exact .closeAdmission queue hstep
  | giveUp i how =>
    simp only [State.step, State.giveUp] at h
    split at h
    · rename_i name lease
      cases h
      exact .giveUp i name how lease
    · cases h
  | submit i =>
    simp only [State.step, State.submit] at h
    split at h
    · rename_i name how lease
      obtain ⟨queue, hstep, rfl⟩ := queueStep_some h
      exact .submit i name how lease queue hstep
    · cases h
  | dropDeferredPermit =>
    simp only [State.step] at h
    split at h
    · cases h
    · rename_i pending
      cases h
      exact .dropDeferredPermit (Nat.pos_of_ne_zero pending)
  | submitPrewarmer name =>
    simp only [State.step, State.submitPrewarmer] at h
    split at h
    · cases h
    · rename_i fresh
      obtain ⟨queue, hstep, rfl⟩ := queueStep_some h
      exact .submitPrewarmer name fresh queue hstep
  | queue a =>
    simp only [State.step] at h
    split at h
    · rename_i own
      obtain ⟨queue, hstep, rfl⟩ := queueStep_some h
      exact .queue a own queue hstep
    · cases h
  | cloneHarness | dropHarness =>
    simp only [State.step] at h
    split at h
    · cases h
    · rename_i handle
      cases h
      exact .harnesses _ (Nat.pos_of_ne_zero handle)
  | dropServer =>
    simp only [State.step] at h
    split at h
    · rename_i alone
      obtain ⟨harnesses, creations, leases, returning, handingBack⟩ := alone
      obtain ⟨queue, hstep, rfl⟩ := queueStep_some h
      exact .dropServer harnesses creations leases returning handingBack queue hstep
    · cases h

def machine (l : Limits) : Machine State Action where
  initial := fun s => s = State.initial l
  step := State.step l

/-- Nobody holds a permit at the start. -/
theorem initial_holders (l : Limits) : (State.initial l).holders = 0 := by
  have hworkers : (Cleanup.State.initial l.cleanup).workers.countP holdsPermit = 0 := by
    rw [List.countP_eq_zero]
    intro w hw
    rw [List.eq_of_mem_replicate hw]
    decide
  show 0 + 0 + 0 + 0 + 0 + (Cleanup.State.initial l.cleanup).workers.countP holdsPermit = 0
  rw [hworkers]

end PostgresTestHarness.Lease
