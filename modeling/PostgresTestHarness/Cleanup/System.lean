import PostgresTestHarness.Cleanup.Queue
import PostgresTestHarness.Library.Machine

/-! One `DatabaseCleanupQueue` with its workers, submitters and drains.

A step is one critical section or one thing that happens between two of them: a
closure that returns or panics, a permit dropped, a receiver read or dropped, a drain
outcome finished or dropped. Any number of submitters and drain callers take part;
what they do between their steps is not the queue's business. `History` is ghost:
nothing in the queue reads it. -/
namespace PostgresTestHarness.Cleanup

/-- Where a worker is in `cleanup_worker` and `run_cleanup_job`. -/
inductive Worker where
  /-- In `next_job`. -/
  | idle
  /-- Running the job's operation. -/
  | executing (job : CleanupJob)
  /-- The operation is over; admission has not been looked at yet. -/
  | executed (job : CleanupJob) (outcome : CleanupOutcome)
  /-- Before `drop(permit)`. -/
  | admitted (job : CleanupJob) (outcome : CleanupOutcome)
  /-- Before the result is sent or turned into a deferred failure. -/
  | settling (job : CleanupJob) (outcome : CleanupOutcome)
  /-- Before `complete`. -/
  | completing (job : CleanupJob) (failure : Option DeferredCleanupFailure)
  /-- Before `drop(queue_guard)`. -/
  | releasing (job : CleanupJob)
  /-- `next_job` said that the queue is closed and empty. -/
  | exited
  deriving DecidableEq, Repr

inductive DrainKind where
  /-- `begin_drain`. -/
  | drain
  /-- `close_and_begin_drain`. -/
  | close
  /-- `Drop for DatabaseCleanupQueue`, which needs no mutex: nobody else is left. -/
  | destructor
  deriving DecidableEq, Repr

inductive DrainStage where
  /-- The `drain` mutex is held, the target is not fixed. -/
  | entered
  | waiting (target : Nat)
  /-- `wait_and_take` has returned; `close_and_begin_drain` joins the workers. -/
  | taken (outcome : CleanupDrainOutcome)
  deriving DecidableEq, Repr

/-- A drain call; `began` is the last sequence number accepted before the call. -/
structure DrainCall where
  kind : DrainKind
  began : Nat
  deriving DecidableEq, Repr

/-- What somebody was told: the holder of a receiver, or whoever finished a drain's outcome. -/
inductive Answer where
  | awaited (sequence : Nat) (result : Except Error Unit)
  | drain (result : Except (List DeferredCleanupFailure) Unit)
  deriving DecidableEq, Repr

structure History where
  /-- Closures submitted so far, accepted or not; each names itself by its number. -/
  submissions : Nat
  rejected : List Nat
  /-- Jobs in the order in which workers took them. -/
  started : List CleanupJob
  /-- Jobs whose operation is over, with what it left, in that order. -/
  executed : List (CleanupJob × CleanupOutcome)
  /-- Sequence numbers passed to `complete`, in that order. -/
  completed : List Nat
  /-- Jobs that ended without a failure. -/
  succeeded : List Nat
  /-- Failures that an awaiting caller, a drain's caller or the final log has taken over. -/
  delivered : List SequencedFailure
  /-- What `finish` has returned to them, in that order. -/
  answers : List Answer
  deriving Repr

structure State where
  submission : SubmissionState
  completion : CompletionStateInner
  databaseAdmissionClosed : Bool
  workers : List Worker
  /-- Strong references held outside: harness clones, leases, running submissions. -/
  handles : Nat
  /-- Awaited jobs whose receiver has been neither read nor dropped. -/
  receivers : List Nat
  /-- Awaited outcomes sitting in their channel. -/
  awaited : List AwaitedCleanupOutcome
  /-- Drain calls that wait for the `drain` mutex. -/
  callers : List DrainCall
  /-- The drain call that holds it, or the destructor. -/
  draining : Option (DrainCall × DrainStage)
  /-- Drain outcomes returned and neither finished nor dropped. -/
  outcomes : List CleanupDrainOutcome
  destroyed : Bool
  history : History

structure Config where
  workerCount : Nat
  queueCapacity : Nat

inductive Action where
  | submit (databaseName : Text) (completion : CleanupCompletion) (permit : Bool)
    (admission : CleanupAdmission)
  | nextJob (worker : Nat)
  | operationReturns (worker : Nat) (outcome : CleanupOutcome)
  | operationPanics (worker : Nat)
  | checkResidual (worker : Nat)
  | dropPermit (worker : Nat)
  | settle (worker : Nat)
  | complete (worker : Nat)
  | releaseGuard (worker : Nat)
  | readReceiver (sequence : Nat)
  | dropReceiver (sequence : Nat)
  | callDrain (kind : DrainKind)
  | enterDrain (caller : Nat)
  | fixTarget
  | take
  | returnDrain
  | finishOutcome (outcome : Nat)
  | dropOutcome (outcome : Nat)
  /-- Somebody else closes the shared `DatabaseAdmission`. -/
  | closeAdmission
  | cloneHandle
  | dropHandle
  | destroy
  deriving Repr

def Worker.job? : Worker → Option CleanupJob
  | .idle => none
  | .executing job => some job
  | .executed job _ => some job
  | .admitted job _ => some job
  | .settling job _ => some job
  | .completing job _ => some job
  | .releasing job => some job
  | .exited => none

namespace State

def initial (cfg : Config) : State where
  submission := .new
  completion := .new
  databaseAdmissionClosed := false
  workers := List.replicate (max cfg.workerCount 1) .idle
  handles := 1
  receivers := []
  awaited := []
  callers := []
  draining := none
  outcomes := []
  destroyed := false
  history := ⟨0, [], [], [], [], [], [], []⟩

/-- Whether anything still holds a strong reference to the queue: a handle, a job, a
worker that has not dropped its guard, a failed awaited outcome, a drain call or a
drain outcome with failures. -/
def referenced (s : State) : Bool :=
  decide (0 < s.handles) || !s.submission.jobs.isEmpty ||
    s.workers.any (fun w => w.job?.isSome) ||
    s.awaited.any (fun o => o.failure?.isSome) ||
    !s.callers.isEmpty || s.draining.isSome ||
    s.outcomes.any (fun o => o.failures.isSome)

def setWorker (s : State) (i : Nat) (w : Worker) : State :=
  { s with workers := s.workers.set i w }

/-- One submission: `enqueue`, once it need not wait. A submitter holds a handle. -/
def submit (cfg : Config) (s : State) (databaseName : Text) (completion : CleanupCompletion)
    (permit : Bool) (admission : CleanupAdmission) : Option State :=
  if s.handles = 0 ∨ s.submission.mustWait (max cfg.queueCapacity 1) admission = true ∨
      SubmissionState.maxSequence ≤ s.submission.nextSequence then none
  else
    let operation := s.history.submissions
    let history := { s.history with submissions := operation + 1 }
    match s.submission.enqueue databaseName operation completion permit with
    | .error _ => some { s with history := { history with rejected := history.rejected ++ [operation] } }
    | .ok submission => some { s with
        submission, history
        receivers :=
          if completion = .awaited then s.receivers ++ [submission.nextSequence] else s.receivers }

/-- A worker's turn in `next_job`; an empty open queue leaves it waiting. -/
def nextJob (s : State) (i : Nat) : Option State :=
  match s.workers[i]?, s.submission.nextJob with
  | some .idle, .job job rest => some { s.setWorker i (.executing job) with
      submission := rest
      history := { s.history with started := s.history.started ++ [job] } }
  | some .idle, .stop => some (s.setWorker i .exited)
  | _, _ => none

/-- The operation is over: it returned, or it panicked and counts as leaving a residual. -/
def operationEnds (s : State) (i : Nat) (outcome : CleanupOutcome) : Option State :=
  match s.workers[i]? with
  | some (.executing job) => some { s.setWorker i (.executed job outcome) with
      history := { s.history with executed := s.history.executed ++ [(job, outcome)] } }
  | _ => none

def checkResidual (s : State) (i : Nat) : Option State :=
  match s.workers[i]? with
  | some (.executed job outcome) => some { s.setWorker i (.admitted job outcome) with
      databaseAdmissionClosed := s.databaseAdmissionClosed || outcome.mayLeaveResidual }
  | _ => none

def dropPermit (s : State) (i : Nat) : Option State :=
  match s.workers[i]? with
  | some (.admitted job outcome) => some (s.setWorker i (.settling { job with permit := false } outcome))
  | _ => none

/-- Send the result to the receiver, or keep it as a deferred failure. Sending to a
dropped receiver gives the outcome back, which drops it. -/
def settle (s : State) (i : Nat) : Option State :=
  match s.workers[i]? with
  | some (.settling job outcome) =>
    let history := { s.history with
      succeeded := s.history.succeeded ++ if outcome.error?.isNone then [job.sequence] else [] }
    match job.completion with
    | .awaited =>
      let sent := AwaitedCleanupOutcome.new outcome.intoResult job.sequence job.databaseName
      let s : State := { s.setWorker i (.completing job none) with history }
      if job.sequence ∈ s.receivers then some { s with awaited := s.awaited ++ [sent] }
      else some { s with completion := sent.drop s.completion }
    | .deferred => some { s.setWorker i
        (.completing job (outcome.error?.map fun e => ⟨job.databaseName, e⟩)) with history }
  | _ => none

def complete (s : State) (i : Nat) : Option State :=
  match s.workers[i]? with
  | some (.completing job failure) => some { s.setWorker i (.releasing job) with
      completion := s.completion.complete job.sequence failure
      history := { s.history with completed := s.history.completed ++ [job.sequence] } }
  | _ => none

def releaseGuard (s : State) (i : Nat) : Option State :=
  match s.workers[i]? with
  | some (.releasing _) => some (s.setWorker i .idle)
  | _ => none

/-- The receiver's caller gets the outcome and finishes it. -/
def readReceiver (s : State) (sequence : Nat) : Option State :=
  if sequence ∈ s.receivers then
    match s.awaited.find? (fun o => o.sequence == sequence) with
    | some o => some { s with
        receivers := s.receivers.erase sequence
        awaited := s.awaited.filter (fun o => !(o.sequence == sequence))
        history := { s.history with
          delivered := s.history.delivered ++ o.carried
          answers := s.history.answers ++ [.awaited sequence o.finish] } }
    | none => none
  else none

/-- The receiver is dropped, and with it an outcome that was already sent. -/
def dropReceiver (s : State) (sequence : Nat) : Option State :=
  if sequence ∈ s.receivers then
    let s : State := { s with receivers := s.receivers.erase sequence }
    match s.awaited.find? (fun o => o.sequence == sequence) with
    | some o => some { s with
        awaited := s.awaited.filter (fun o => !(o.sequence == sequence))
        completion := o.drop s.completion }
    | none => some s
  else none

def callDrain (s : State) (kind : DrainKind) : Option State :=
  if s.handles = 0 ∨ kind = .destructor then none
  else some { s with callers := s.callers ++ [⟨kind, s.submission.nextSequence⟩] }

def enterDrain (s : State) (i : Nat) : Option State :=
  match s.draining, s.callers[i]? with
  | none, some call => some { s with
      callers := s.callers.eraseIdx i
      draining := some (call, .entered) }
  | _, _ => none

/-- `current_target` for a plain drain, `close_submissions` for the other two. -/
def fixTarget (s : State) : Option State :=
  match s.draining with
  | some (call, .entered) =>
    match call.kind with
    | .drain => some { s with draining := some (call, .waiting s.submission.currentTarget) }
    | .close | .destructor => some { s with
        submission := s.submission.close.2
        draining := some (call, .waiting s.submission.close.1) }
  | _ => none

def take (s : State) : Option State :=
  match s.draining with
  | some (call, .waiting target) =>
    if s.completion.mustWait target then none
    else some { s with
      completion := (s.completion.take target).2
      draining := some (call, .taken (s.completion.take target).1) }
  | _ => none

/-- Log, or return to the caller after joining the workers. -/
def returnDrain (s : State) : Option State :=
  match s.draining with
  | some (call, .taken outcome) =>
    match call.kind with
    | .drain => some { s with draining := none, outcomes := s.outcomes ++ [outcome] }
    | .close =>
      if s.workers.all (fun w => decide (w = .exited)) then
        some { s with draining := none, outcomes := s.outcomes ++ [outcome] }
      else none
    | .destructor => some { s with
        draining := none
        completion := outcome.acknowledge s.completion
        history := { s.history with
          delivered := s.history.delivered ++ outcome.carried
          answers := s.history.answers ++ [.drain outcome.finish] } }
  | _ => none

/-- `CleanupDrainOutcome::finish`. -/
def finishOutcome (s : State) (i : Nat) : Option State :=
  match s.outcomes[i]? with
  | some outcome => some { s with
      outcomes := s.outcomes.eraseIdx i
      completion := outcome.acknowledge s.completion
      history := { s.history with
        delivered := s.history.delivered ++ outcome.carried
        answers := s.history.answers ++ [.drain outcome.finish] } }
  | none => none

/-- `Drop for CleanupDrainOutcome`. -/
def dropOutcome (s : State) (i : Nat) : Option State :=
  match s.outcomes[i]? with
  | some outcome => some { s with
      outcomes := s.outcomes.eraseIdx i
      completion := outcome.drop s.completion }
  | none => none

/-- The last strong reference is gone. -/
def destroy (s : State) : Option State :=
  if s.referenced || s.destroyed then none
  else some { s with
    destroyed := true
    draining := some (⟨.destructor, s.submission.nextSequence⟩, .entered) }

def step (cfg : Config) (s : State) : Action → Option State
  | .submit databaseName completion permit admission =>
    s.submit cfg databaseName completion permit admission
  | .nextJob i => s.nextJob i
  | .operationReturns i outcome => s.operationEnds i outcome
  | .operationPanics i => s.operationEnds i (.residualPossible .cleanupWorkerPanicked)
  | .checkResidual i => s.checkResidual i
  | .dropPermit i => s.dropPermit i
  | .settle i => s.settle i
  | .complete i => s.complete i
  | .releaseGuard i => s.releaseGuard i
  | .readReceiver sequence => s.readReceiver sequence
  | .dropReceiver sequence => s.dropReceiver sequence
  | .callDrain kind => s.callDrain kind
  | .enterDrain i => s.enterDrain i
  | .fixTarget => s.fixTarget
  | .take => s.take
  | .returnDrain => s.returnDrain
  | .finishOutcome i => s.finishOutcome i
  | .dropOutcome i => s.dropOutcome i
  | .closeAdmission => some { s with databaseAdmissionClosed := true }
  | .cloneHandle => if s.handles = 0 then none else some { s with handles := s.handles + 1 }
  | .dropHandle => if s.handles = 0 then none else some { s with handles := s.handles - 1 }
  | .destroy => s.destroy

end State

/-- The worker whose operation ends, and what the operation left behind. -/
def Action.ends? : Action → Option (Nat × CleanupOutcome)
  | .operationReturns i outcome => some (i, outcome)
  | .operationPanics i => some (i, .residualPossible .cleanupWorkerPanicked)
  | _ => none

/-- Every step there is, with its action, its guard and its result. -/
inductive Transition (cfg : Config) (s : State) : Action → State → Prop where
  | accept (databaseName : Text) (completion : CleanupCompletion) (permit : Bool)
      (admission : CleanupAdmission) (handle : 0 < s.handles) (opened : s.submission.closed = false)
      (room : s.submission.mustWait (max cfg.queueCapacity 1) admission = false) :
      Transition cfg s (.submit databaseName completion permit admission) { s with
        submission := { s.submission with
          nextSequence := s.submission.nextSequence + 1
          jobs := s.submission.jobs ++ [⟨s.submission.nextSequence + 1, databaseName,
            s.history.submissions, completion, permit⟩] }
        receivers := if completion = .awaited then s.receivers ++ [s.submission.nextSequence + 1]
          else s.receivers
        history := { s.history with submissions := s.history.submissions + 1 } }
  | reject (databaseName : Text) (completion : CleanupCompletion) (permit : Bool)
      (admission : CleanupAdmission) (handle : 0 < s.handles) (closed : s.submission.closed = true) :
      Transition cfg s (.submit databaseName completion permit admission) { s with
        history := { s.history with
          submissions := s.history.submissions + 1
          rejected := s.history.rejected ++ [s.history.submissions] } }
  | start (i : Nat) (job : CleanupJob) (rest : List CleanupJob) (worker : s.workers[i]? = some .idle)
      (jobs : s.submission.jobs = job :: rest) :
      Transition cfg s (.nextJob i) { s with
        workers := s.workers.set i (.executing job)
        submission := { s.submission with jobs := rest }
        history := { s.history with started := s.history.started ++ [job] } }
  | exit (i : Nat) (worker : s.workers[i]? = some .idle) (jobs : s.submission.jobs = [])
      (closed : s.submission.closed = true) :
      Transition cfg s (.nextJob i) { s with workers := s.workers.set i .exited }
  | operation (a : Action) (i : Nat) (job : CleanupJob) (outcome : CleanupOutcome)
      (ended : a.ends? = some (i, outcome))
      (worker : s.workers[i]? = some (.executing job)) :
      Transition cfg s a { s with
        workers := s.workers.set i (.executed job outcome)
        history := { s.history with executed := s.history.executed ++ [(job, outcome)] } }
  | check (i : Nat) (job : CleanupJob) (outcome : CleanupOutcome)
      (worker : s.workers[i]? = some (.executed job outcome)) :
      Transition cfg s (.checkResidual i) { s with
        workers := s.workers.set i (.admitted job outcome)
        databaseAdmissionClosed := s.databaseAdmissionClosed || outcome.mayLeaveResidual }
  | permit (i : Nat) (job : CleanupJob) (outcome : CleanupOutcome)
      (worker : s.workers[i]? = some (.admitted job outcome)) :
      Transition cfg s (.dropPermit i) { s with
        workers := s.workers.set i (.settling { job with permit := false } outcome) }
  | send (i : Nat) (job : CleanupJob) (outcome : CleanupOutcome)
      (worker : s.workers[i]? = some (.settling job outcome)) (kind : job.completion = .awaited)
      (receiver : job.sequence ∈ s.receivers) :
      Transition cfg s (.settle i) { s with
        workers := s.workers.set i (.completing job none)
        awaited := s.awaited ++ [.new outcome.intoResult job.sequence job.databaseName]
        history := { s.history with succeeded :=
          s.history.succeeded ++ if outcome.error?.isNone then [job.sequence] else [] } }
  | sendBack (i : Nat) (job : CleanupJob) (outcome : CleanupOutcome)
      (worker : s.workers[i]? = some (.settling job outcome)) (kind : job.completion = .awaited)
      (receiver : job.sequence ∉ s.receivers) :
      Transition cfg s (.settle i) { s with
        workers := s.workers.set i (.completing job none)
        completion :=
          (AwaitedCleanupOutcome.new outcome.intoResult job.sequence job.databaseName).drop s.completion
        history := { s.history with succeeded :=
          s.history.succeeded ++ if outcome.error?.isNone then [job.sequence] else [] } }
  | defer (i : Nat) (job : CleanupJob) (outcome : CleanupOutcome)
      (worker : s.workers[i]? = some (.settling job outcome)) (kind : job.completion = .deferred) :
      Transition cfg s (.settle i) { s with
        workers := s.workers.set i
          (.completing job (outcome.error?.map fun e => ⟨job.databaseName, e⟩))
        history := { s.history with succeeded :=
          s.history.succeeded ++ if outcome.error?.isNone then [job.sequence] else [] } }
  | complete (i : Nat) (job : CleanupJob) (failure : Option DeferredCleanupFailure)
      (worker : s.workers[i]? = some (.completing job failure)) :
      Transition cfg s (.complete i) { s with
        workers := s.workers.set i (.releasing job)
        completion := s.completion.complete job.sequence failure
        history := { s.history with completed := s.history.completed ++ [job.sequence] } }
  | release (i : Nat) (job : CleanupJob) (worker : s.workers[i]? = some (.releasing job)) :
      Transition cfg s (.releaseGuard i) { s with workers := s.workers.set i .idle }
  | read (sequence : Nat) (o : AwaitedCleanupOutcome) (receiver : sequence ∈ s.receivers)
      (sent : s.awaited.find? (fun o => o.sequence == sequence) = some o) :
      Transition cfg s (.readReceiver sequence) { s with
        receivers := s.receivers.erase sequence
        awaited := s.awaited.filter (fun o => !(o.sequence == sequence))
        history := { s.history with
          delivered := s.history.delivered ++ o.carried
          answers := s.history.answers ++ [.awaited sequence o.finish] } }
  | dropSent (sequence : Nat) (o : AwaitedCleanupOutcome) (receiver : sequence ∈ s.receivers)
      (sent : s.awaited.find? (fun o => o.sequence == sequence) = some o) :
      Transition cfg s (.dropReceiver sequence) { s with
        receivers := s.receivers.erase sequence
        awaited := s.awaited.filter (fun o => !(o.sequence == sequence))
        completion := o.drop s.completion }
  | dropUnsent (sequence : Nat) (receiver : sequence ∈ s.receivers)
      (unsent : s.awaited.find? (fun o => o.sequence == sequence) = none) :
      Transition cfg s (.dropReceiver sequence) { s with receivers := s.receivers.erase sequence }
  | call (kind : DrainKind) (handle : 0 < s.handles) (outside : kind ≠ .destructor) :
      Transition cfg s (.callDrain kind) { s with callers := s.callers ++ [⟨kind, s.submission.nextSequence⟩] }
  | enter (i : Nat) (call : DrainCall) (free : s.draining = none) (caller : s.callers[i]? = some call) :
      Transition cfg s (.enterDrain i) { s with
        callers := s.callers.eraseIdx i
        draining := some (call, .entered) }
  | target (call : DrainCall) (entered : s.draining = some (call, .entered))
      (kind : call.kind = .drain) :
      Transition cfg s .fixTarget { s with draining := some (call, .waiting s.submission.nextSequence) }
  | close (call : DrainCall) (entered : s.draining = some (call, .entered))
      (kind : call.kind ≠ .drain) :
      Transition cfg s .fixTarget { s with
        submission := { s.submission with closed := true }
        draining := some (call, .waiting s.submission.nextSequence) }
  | take (call : DrainCall) (target : Nat) (waiting : s.draining = some (call, .waiting target))
      (ready : s.completion.mustWait target = false) :
      Transition cfg s .take { s with
        completion := (s.completion.take target).2
        draining := some (call, .taken (s.completion.take target).1) }
  | hand (call : DrainCall) (outcome : CleanupDrainOutcome)
      (taken : s.draining = some (call, .taken outcome)) (kind : call.kind ≠ .destructor)
      (joined : call.kind = .close → ∀ w ∈ s.workers, w = .exited) :
      Transition cfg s .returnDrain { s with draining := none, outcomes := s.outcomes ++ [outcome] }
  | log (call : DrainCall) (outcome : CleanupDrainOutcome)
      (taken : s.draining = some (call, .taken outcome)) (kind : call.kind = .destructor) :
      Transition cfg s .returnDrain { s with
        draining := none
        completion := outcome.acknowledge s.completion
        history := { s.history with
          delivered := s.history.delivered ++ outcome.carried
          answers := s.history.answers ++ [.drain outcome.finish] } }
  | finish (i : Nat) (outcome : CleanupDrainOutcome) (held : s.outcomes[i]? = some outcome) :
      Transition cfg s (.finishOutcome i) { s with
        outcomes := s.outcomes.eraseIdx i
        completion := outcome.acknowledge s.completion
        history := { s.history with
          delivered := s.history.delivered ++ outcome.carried
          answers := s.history.answers ++ [.drain outcome.finish] } }
  | restore (i : Nat) (outcome : CleanupDrainOutcome) (held : s.outcomes[i]? = some outcome) :
      Transition cfg s (.dropOutcome i) { s with
        outcomes := s.outcomes.eraseIdx i
        completion := outcome.drop s.completion }
  | admission :
      Transition cfg s .closeAdmission { s with databaseAdmissionClosed := true }
  | clone (handle : 0 < s.handles) :
      Transition cfg s .cloneHandle { s with handles := s.handles + 1 }
  | unhandle (handle : 0 < s.handles) :
      Transition cfg s .dropHandle { s with handles := s.handles - 1 }
  | destroy (alone : s.referenced = false) (first : s.destroyed = false) :
      Transition cfg s .destroy { s with
        destroyed := true
        draining := some (⟨.destructor, s.submission.nextSequence⟩, .entered) }

section Transition
variable {cfg : Config} {s t : State} {i sequence : Nat}

theorem submit_transition {databaseName : Text} {completion : CleanupCompletion} {permit : Bool}
    {admission : CleanupAdmission} (h : s.submit cfg databaseName completion permit admission = some t) :
    Transition cfg s (.submit databaseName completion permit admission) t := by
  simp only [State.submit, SubmissionState.enqueue] at h
  split at h
  · cases h
  · rename_i hguard
    simp only [not_or, Bool.not_eq_true] at hguard
    obtain ⟨hhandle, hroom, _⟩ := hguard
    cases hclosed : s.submission.closed with
    | true =>
      simp only [hclosed, if_true, Option.some.injEq] at h
      subst h
      exact .reject databaseName completion permit admission (Nat.pos_of_ne_zero hhandle) hclosed
    | false =>
      simp only [hclosed, Bool.false_eq_true, if_false, Option.some.injEq] at h
      subst h
      exact hclosed ▸ .accept databaseName completion permit admission
        (Nat.pos_of_ne_zero hhandle) hclosed hroom

theorem nextJob_transition (h : s.nextJob i = some t) : Transition cfg s (.nextJob i) t := by
  simp only [State.nextJob, SubmissionState.nextJob] at h
  cases hw : s.workers[i]? with
  | none => simp [hw] at h
  | some w =>
    cases hj : s.submission.jobs with
    | cons job rest =>
      cases w <;> simp only [hw, hj, Option.some.injEq, reduceCtorEq] at h
      subst h
      exact .start i job rest hw hj
    | nil =>
      cases hc : s.submission.closed with
      | false => cases w <;> simp [hw, hj, hc] at h
      | true =>
        cases w <;> simp only [hw, hj, hc, if_true, Option.some.injEq, reduceCtorEq] at h
        subst h
        exact .exit i hw hj hc

theorem operationEnds_transition {a : Action} {outcome : CleanupOutcome} (ended : a.ends? = some (i, outcome))
    (h : s.operationEnds i outcome = some t) : Transition cfg s a t := by
  rw [State.operationEnds] at h
  split at h
  · rename_i job hw
    cases h
    exact .operation a i job outcome ended hw
  · cases h

theorem checkResidual_transition (h : s.checkResidual i = some t) :
    Transition cfg s (.checkResidual i) t := by
  rw [State.checkResidual] at h
  split at h
  · rename_i job outcome hw
    cases h
    exact .check i job outcome hw
  · cases h

theorem dropPermit_transition (h : s.dropPermit i = some t) : Transition cfg s (.dropPermit i) t := by
  rw [State.dropPermit] at h
  split at h
  · rename_i job outcome hw
    cases h
    exact .permit i job outcome hw
  · cases h

theorem settle_transition (h : s.settle i = some t) : Transition cfg s (.settle i) t := by
  rw [State.settle] at h
  split at h
  · rename_i job outcome hw
    cases hk : job.completion with
    | awaited =>
      simp only [hk] at h
      split at h
      · rename_i hr
        cases h
        exact .send i job outcome hw hk hr
      · rename_i hr
        cases h
        exact .sendBack i job outcome hw hk hr
    | deferred =>
      simp only [hk, Option.some.injEq] at h
      subst h
      exact .defer i job outcome hw hk
  · cases h

theorem complete_transition (h : s.complete i = some t) : Transition cfg s (.complete i) t := by
  rw [State.complete] at h
  split at h
  · rename_i job failure hw
    cases h
    exact .complete i job failure hw
  · cases h

theorem releaseGuard_transition (h : s.releaseGuard i = some t) : Transition cfg s (.releaseGuard i) t := by
  rw [State.releaseGuard] at h
  split at h
  · rename_i job hw
    cases h
    exact .release i job hw
  · cases h

theorem readReceiver_transition (h : s.readReceiver sequence = some t) :
    Transition cfg s (.readReceiver sequence) t := by
  simp only [State.readReceiver] at h
  split at h
  · rename_i hr
    split at h
    · rename_i o ho
      cases h
      exact .read sequence o hr ho
    · cases h
  · cases h

theorem dropReceiver_transition (h : s.dropReceiver sequence = some t) :
    Transition cfg s (.dropReceiver sequence) t := by
  simp only [State.dropReceiver] at h
  split at h
  · rename_i hr
    split at h
    · rename_i o ho
      cases h
      exact .dropSent sequence o hr ho
    · rename_i ho
      cases h
      exact .dropUnsent sequence hr ho
  · cases h

theorem callDrain_transition {kind : DrainKind} (h : s.callDrain kind = some t) :
    Transition cfg s (.callDrain kind) t := by
  rw [State.callDrain] at h
  split at h
  · cases h
  · rename_i hguard
    rw [not_or] at hguard
    cases h
    exact .call kind (Nat.pos_of_ne_zero hguard.1) hguard.2

theorem enterDrain_transition (h : s.enterDrain i = some t) : Transition cfg s (.enterDrain i) t := by
  rw [State.enterDrain] at h
  split at h
  · rename_i call hfree hcall
    cases h
    exact .enter i call hfree hcall
  · cases h

theorem fixTarget_transition (h : s.fixTarget = some t) : Transition cfg s .fixTarget t := by
  rw [State.fixTarget] at h
  split at h
  · rename_i call hentered
    cases hk : call.kind with
    | drain =>
      simp only [hk, Option.some.injEq] at h
      subst h
      exact .target call hentered hk
    | close =>
      simp only [hk, Option.some.injEq] at h
      subst h
      exact .close call hentered (by rw [hk]; decide)
    | destructor =>
      simp only [hk, Option.some.injEq] at h
      subst h
      exact .close call hentered (by rw [hk]; decide)
  · cases h

theorem take_transition (h : s.take = some t) : Transition cfg s .take t := by
  rw [State.take] at h
  split at h
  · rename_i call target hwaiting
    split at h
    · cases h
    · rename_i hready
      cases h
      exact .take call target hwaiting (by simpa using hready)
  · cases h

theorem returnDrain_transition (h : s.returnDrain = some t) : Transition cfg s .returnDrain t := by
  rw [State.returnDrain] at h
  split at h
  · rename_i call outcome htaken
    cases hk : call.kind with
    | drain =>
      simp only [hk, Option.some.injEq] at h
      subst h
      exact .hand call outcome htaken (by rw [hk]; decide) (fun hc => by rw [hk] at hc; cases hc)
    | close =>
      simp only [hk] at h
      split at h
      · rename_i hjoined
        cases h
        refine .hand call outcome htaken (by rw [hk]; decide) (fun _ w hw => ?_)
        exact of_decide_eq_true (List.all_eq_true.mp hjoined w hw)
      · cases h
    | destructor =>
      simp only [hk, Option.some.injEq] at h
      subst h
      exact .log call outcome htaken hk
  · cases h

theorem finishOutcome_transition (h : s.finishOutcome i = some t) :
    Transition cfg s (.finishOutcome i) t := by
  rw [State.finishOutcome] at h
  split at h
  · rename_i outcome hheld
    cases h
    exact .finish i outcome hheld
  · cases h

theorem dropOutcome_transition (h : s.dropOutcome i = some t) : Transition cfg s (.dropOutcome i) t := by
  rw [State.dropOutcome] at h
  split at h
  · rename_i outcome hheld
    cases h
    exact .restore i outcome hheld
  · cases h

theorem destroy_transition (h : s.destroy = some t) : Transition cfg s .destroy t := by
  rw [State.destroy] at h
  split at h
  · cases h
  · rename_i halone
    simp only [Bool.or_eq_true, not_or, Bool.not_eq_true] at halone
    cases h
    exact .destroy halone.1 halone.2

end Transition

/-- A step is one of the transitions. -/
theorem step_transition (cfg : Config) (s t : State) (a : Action) (h : s.step cfg a = some t) :
    Transition cfg s a t := by
  cases a with
  | submit databaseName completion permit admission => exact submit_transition h
  | nextJob i => exact nextJob_transition h
  | operationReturns i outcome => exact operationEnds_transition rfl h
  | operationPanics i => exact operationEnds_transition rfl h
  | checkResidual i => exact checkResidual_transition h
  | dropPermit i => exact dropPermit_transition h
  | settle i => exact settle_transition h
  | complete i => exact complete_transition h
  | releaseGuard i => exact releaseGuard_transition h
  | readReceiver sequence => exact readReceiver_transition h
  | dropReceiver sequence => exact dropReceiver_transition h
  | callDrain kind => exact callDrain_transition h
  | enterDrain i => exact enterDrain_transition h
  | fixTarget => exact fixTarget_transition h
  | take => exact take_transition h
  | returnDrain => exact returnDrain_transition h
  | finishOutcome i => exact finishOutcome_transition h
  | dropOutcome i => exact dropOutcome_transition h
  | closeAdmission =>
    simp only [State.step, Option.some.injEq] at h
    subst h
    exact .admission
  | cloneHandle =>
    simp only [State.step] at h
    split at h
    · cases h
    · rename_i hpos
      cases h
      exact .clone (Nat.pos_of_ne_zero hpos)
  | dropHandle =>
    simp only [State.step] at h
    split at h
    · cases h
    · rename_i hpos
      cases h
      exact .unhandle (Nat.pos_of_ne_zero hpos)
  | destroy => exact destroy_transition h

def machine (cfg : Config) : Machine State Action where
  initial := fun s => s = State.initial cfg
  step := State.step cfg

end PostgresTestHarness.Cleanup
