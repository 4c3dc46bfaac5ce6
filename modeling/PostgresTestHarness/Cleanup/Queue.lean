import Mathlib.Data.List.Sort
import PostgresTestHarness.Error
import PostgresTestHarness.Library.SequencePrefix

/-! The server-scoped cleanup queue: its data and its critical sections.

Every function here is what one thread does while it holds one mutex, so a run of the
queue is an interleaving of these. The submission side numbers the jobs it accepts
from one; the completion side tracks which numbers are done and keeps the failures
nobody has been told of. Sequence numbers are `u64` in the source, which submission
refuses to exhaust; here they are natural numbers below that bound. -/
namespace PostgresTestHarness.Cleanup

/-- What a cleanup operation leaves behind. -/
inductive CleanupOutcome where
  | succeeded
  | noResidual (error : Error)
  | residualPossible (error : Error)
  deriving DecidableEq, Repr

namespace CleanupOutcome

def fromCleanupResult : Except Error Unit → CleanupOutcome
  | .ok () => .succeeded
  | .error error => .residualPossible error

def mayLeaveResidual : CleanupOutcome → Bool
  | .residualPossible _ => true
  | _ => false

def intoResult : CleanupOutcome → Except Error Unit
  | .succeeded => .ok ()
  | .noResidual error => .error error
  | .residualPossible error => .error error

/-- The error of a failed outcome. -/
def error? : CleanupOutcome → Option Error
  | .succeeded => none
  | .noResidual error => some error
  | .residualPossible error => some error

@[simp] theorem intoResult_succeeded : intoResult .succeeded = .ok () := rfl

end CleanupOutcome

/-- Who hears of a job's result: the holder of a oneshot receiver, or a later drain. -/
inductive CleanupCompletion where
  | awaited
  | deferred
  deriving DecidableEq, Repr

inductive CleanupAdmission where
  | backpressured
  | nonblockingFallback
  deriving DecidableEq, Repr

/-- An accepted job. `operation` names the submitted closure; `permit` says whether the
job carries its `OwnedSemaphorePermit`. The job also holds a strong reference to the
queue. -/
structure CleanupJob where
  sequence : Nat
  databaseName : Text
  operation : Nat
  completion : CleanupCompletion
  permit : Bool
  deriving DecidableEq, Repr

structure SequencedFailure where
  sequence : Nat
  failure : DeferredCleanupFailure
  deriving DecidableEq, Repr

/-! ### Submission -/

structure SubmissionState where
  jobs : List CleanupJob
  nextSequence : Nat
  closed : Bool

namespace SubmissionState

def new : SubmissionState := ⟨[], 0, false⟩

/-- The largest sequence number a `u64` holds. -/
def maxSequence : Nat := 2 ^ 64 - 1

/-- The condition under which `enqueue` keeps waiting. -/
def mustWait (q : SubmissionState) (capacity : Nat) (admission : CleanupAdmission) : Bool :=
  decide (admission = .backpressured) && decide (capacity ≤ q.jobs.length) && !q.closed

/-- `enqueue`, once it no longer waits. -/
def enqueue (q : SubmissionState) (databaseName : Text) (operation : Nat)
    (completion : CleanupCompletion) (permit : Bool) : Except Error SubmissionState :=
  if q.closed then .error .cleanupQueueClosed
  else
    let sequence := q.nextSequence + 1
    .ok { q with
      nextSequence := sequence
      jobs := q.jobs ++ [⟨sequence, databaseName, operation, completion, permit⟩] }

/-- `next_job`: a job, `none` when the queue is closed and empty; `wait` otherwise. -/
inductive NextJob where
  | job (job : CleanupJob) (rest : SubmissionState)
  | stop
  | wait

def nextJob (q : SubmissionState) : NextJob :=
  match q.jobs with
  | job :: rest => .job job { q with jobs := rest }
  | [] => if q.closed then .stop else .wait

def currentTarget (q : SubmissionState) : Nat := q.nextSequence

def close (q : SubmissionState) : Nat × SubmissionState :=
  (q.nextSequence, { q with closed := true })

end SubmissionState

/-! ### Completion -/

structure CompletionStateInner where
  completedThrough : Nat
  completedOutOfOrder : Finset Nat
  failures : List SequencedFailure
  failureDeliveryInFlight : Bool

/-- A drain's result. With failures it also holds the completion state, to which it
gives them back when it is dropped unfinished, and a strong reference to the queue.
`target` is the barrier it was taken at. -/
structure CleanupDrainOutcome where
  target : Nat
  failures : Option (List SequencedFailure)
  deriving DecidableEq, Repr

namespace CleanupDrainOutcome

/-- The failures the outcome carries. -/
def carried (o : CleanupDrainOutcome) : List SequencedFailure := o.failures.getD []

/-- `finish`: what the drain's caller is told. -/
def finish (o : CleanupDrainOutcome) : Except (List DeferredCleanupFailure) Unit :=
  match o.failures with
  | none => .ok ()
  | some failures => .error (failures.map (·.failure))

end CleanupDrainOutcome

namespace CompletionStateInner

def new : CompletionStateInner := ⟨0, ∅, [], false⟩

/-- `complete`: record the failure, if any, and advance the contiguous prefix. -/
def complete (c : CompletionStateInner) (sequence : Nat)
    (failure : Option DeferredCleanupFailure) : CompletionStateInner :=
  let failures := match failure with
    | some failure => c.failures ++ [⟨sequence, failure⟩]
    | none => c.failures
  if sequence = c.completedThrough + 1 then
    let caught := SequencePrefix.catchUp c.completedOutOfOrder.card sequence c.completedOutOfOrder
    { c with failures, completedThrough := caught.1, completedOutOfOrder := caught.2 }
  else if sequence > c.completedThrough then
    { c with failures, completedOutOfOrder := insert sequence c.completedOutOfOrder }
  else { c with failures }

def recordLateFailure (c : CompletionStateInner) (sequence : Nat)
    (failure : DeferredCleanupFailure) : CompletionStateInner :=
  { c with failures := c.failures ++ [⟨sequence, failure⟩] }

/-- The condition under which `wait_and_take` keeps waiting. -/
def mustWait (c : CompletionStateInner) (target : Nat) : Bool :=
  decide (c.completedThrough < target) || c.failureDeliveryInFlight

def due (c : CompletionStateInner) (target : Nat) : List SequencedFailure :=
  c.failures.filter fun failure => decide (failure.sequence ≤ target)

def retained (c : CompletionStateInner) (target : Nat) : List SequencedFailure :=
  c.failures.filter fun failure => !decide (failure.sequence ≤ target)

/-- `failures.sort_unstable_by_key(|failure| failure.sequence)`. -/
def sortBySequence (failures : List SequencedFailure) : List SequencedFailure :=
  failures.mergeSort fun a b => decide (a.sequence ≤ b.sequence)

/-- `wait_and_take`, once it no longer waits. -/
def take (c : CompletionStateInner) (target : Nat) : CleanupDrainOutcome × CompletionStateInner :=
  let failures := sortBySequence (c.due target)
  if failures.isEmpty then
    (⟨target, none⟩, { c with failures := c.retained target })
  else
    (⟨target, some failures⟩,
      { c with failures := c.retained target, failureDeliveryInFlight := true })

def acknowledgeDelivery (c : CompletionStateInner) : CompletionStateInner :=
  { c with failureDeliveryInFlight := false }

def restoreDelivery (c : CompletionStateInner) (failures : List SequencedFailure) :
    CompletionStateInner :=
  { c with failures := c.failures ++ failures, failureDeliveryInFlight := false }

end CompletionStateInner

namespace CleanupDrainOutcome

/-- What `finish` does to the completion state. -/
def acknowledge (o : CleanupDrainOutcome) (c : CompletionStateInner) : CompletionStateInner :=
  match o.failures with
  | some _ => c.acknowledgeDelivery
  | none => c

/-- `Drop for CleanupDrainOutcome`: an unfinished delivery gives its failures back. -/
def drop (o : CleanupDrainOutcome) (c : CompletionStateInner) : CompletionStateInner :=
  match o.failures with
  | some failures => c.restoreDelivery failures
  | none => c

@[simp] theorem acknowledge_failures (o : CleanupDrainOutcome) (c : CompletionStateInner) :
    (o.acknowledge c).failures = c.failures := by
  unfold acknowledge
  split <;> rfl

@[simp] theorem acknowledge_through (o : CleanupDrainOutcome) (c : CompletionStateInner) :
    (o.acknowledge c).completedThrough = c.completedThrough := by
  unfold acknowledge
  split <;> rfl

@[simp] theorem acknowledge_outOfOrder (o : CleanupDrainOutcome) (c : CompletionStateInner) :
    (o.acknowledge c).completedOutOfOrder = c.completedOutOfOrder := by
  unfold acknowledge
  split <;> rfl

theorem acknowledge_inFlight (o : CleanupDrainOutcome) (c : CompletionStateInner) :
    (o.acknowledge c).failureDeliveryInFlight =
      (c.failureDeliveryInFlight && o.failures.isNone) := by
  unfold acknowledge
  split <;> simp_all [CompletionStateInner.acknowledgeDelivery]

theorem drop_failures (o : CleanupDrainOutcome) (c : CompletionStateInner) :
    (o.drop c).failures = c.failures ++ o.carried := by
  unfold drop carried
  split <;> simp_all [CompletionStateInner.restoreDelivery]

@[simp] theorem drop_through (o : CleanupDrainOutcome) (c : CompletionStateInner) :
    (o.drop c).completedThrough = c.completedThrough := by
  unfold drop
  split <;> rfl

@[simp] theorem drop_outOfOrder (o : CleanupDrainOutcome) (c : CompletionStateInner) :
    (o.drop c).completedOutOfOrder = c.completedOutOfOrder := by
  unfold drop
  split <;> rfl

theorem drop_inFlight (o : CleanupDrainOutcome) (c : CompletionStateInner) :
    (o.drop c).failureDeliveryInFlight = (c.failureDeliveryInFlight && o.failures.isNone) := by
  unfold drop
  split <;> simp_all [CompletionStateInner.restoreDelivery]

end CleanupDrainOutcome

namespace CompletionStateInner

/-! What the critical sections do to each field. -/

theorem complete_failures (c : CompletionStateInner) (sequence : Nat)
    (failure : Option DeferredCleanupFailure) :
    (c.complete sequence failure).failures =
      c.failures ++ (failure.toList.map fun f => ⟨sequence, f⟩) := by
  unfold complete
  cases failure <;> split_ifs <;> simp

@[simp] theorem complete_inFlight (c : CompletionStateInner) (sequence : Nat)
    (failure : Option DeferredCleanupFailure) :
    (c.complete sequence failure).failureDeliveryInFlight = c.failureDeliveryInFlight := by
  unfold complete
  cases failure <;> split_ifs <;> rfl

/-- The prefix and the gap set still stand for what is done, with the new number added. -/
theorem complete_represents (c : CompletionStateInner) (sequence : Nat)
    (failure : Option DeferredCleanupFailure) (done : Nat → Prop)
    (h : SequencePrefix.Represents c.completedThrough c.completedOutOfOrder done)
    (hnew : ¬ done sequence) (hpos : 1 ≤ sequence) :
    SequencePrefix.Represents (c.complete sequence failure).completedThrough
      (c.complete sequence failure).completedOutOfOrder (fun n => done n ∨ n = sequence) := by
  have hlate : c.completedThrough < sequence := by
    apply Nat.lt_of_not_le
    intro hle
    exact hnew (h.done_of_le hpos hle)
  unfold complete
  by_cases hnext : sequence = c.completedThrough + 1
  · subst hnext
    simp only [if_true]
    exact h.next
  · simp only [if_neg hnext, gt_iff_lt, if_pos hlate]
    exact h.beyond (by omega)

@[simp] theorem take_through (c : CompletionStateInner) (target : Nat) :
    (c.take target).2.completedThrough = c.completedThrough := by
  unfold take
  simp only
  split <;> rfl

@[simp] theorem take_outOfOrder (c : CompletionStateInner) (target : Nat) :
    (c.take target).2.completedOutOfOrder = c.completedOutOfOrder := by
  unfold take
  simp only
  split <;> rfl

theorem take_failures (c : CompletionStateInner) (target : Nat) :
    (c.take target).2.failures = c.retained target := by
  unfold take
  simp only
  split <;> rfl

@[simp] theorem take_target (c : CompletionStateInner) (target : Nat) :
    (c.take target).1.target = target := by
  unfold take
  simp only
  split <;> rfl

/-- Taking hands over exactly the due failures, in sequence order. -/
theorem take_carried (c : CompletionStateInner) (target : Nat) :
    (c.take target).1.carried = sortBySequence (c.due target) := by
  unfold take
  simp only [CleanupDrainOutcome.carried]
  split
  · rename_i h
    exact (List.isEmpty_iff.mp h).symm
  · rfl

/-- An outcome with failures puts a delivery in flight; one without does not. -/
theorem take_inFlight (c : CompletionStateInner) (target : Nat)
    (h : c.failureDeliveryInFlight = false) :
    (c.take target).2.failureDeliveryInFlight = (c.take target).1.failures.isSome := by
  unfold take
  simp only
  split <;> simp [h]

theorem sortBySequence_perm (l : List SequencedFailure) : (sortBySequence l).Perm l :=
  List.mergeSort_perm l _

theorem sortBySequence_sorted (l : List SequencedFailure) :
    (sortBySequence l).Pairwise fun a b => a.sequence ≤ b.sequence := by
  have hsorted : (sortBySequence l).Pairwise fun a b => decide (a.sequence ≤ b.sequence) = true := by
    apply List.pairwise_mergeSort
    · intro a b c hab hbc
      simp only [decide_eq_true_eq] at hab hbc ⊢
      omega
    · intro a b
      simp only [Bool.or_eq_true, decide_eq_true_eq]
      omega
  exact hsorted.imp of_decide_eq_true

end CompletionStateInner

/-- A failed awaited result that nobody has consumed, with the queue reference and the
database name it needs to turn into a deferred failure; a successful one holds neither. -/
structure AwaitedCleanupOutcome where
  result : Except Error Unit
  sequence : Nat
  databaseName : Option Text
  deriving Repr

namespace AwaitedCleanupOutcome

def new (result : Except Error Unit) (sequence : Nat) (databaseName : Text) :
    AwaitedCleanupOutcome :=
  match result with
  | .ok () => ⟨.ok (), sequence, none⟩
  | .error error => ⟨.error error, sequence, some databaseName⟩

/-- The failure that an unconsumed outcome stands for, as its `Drop` records it. -/
def failure? (o : AwaitedCleanupOutcome) : Option DeferredCleanupFailure :=
  match o.result, o.databaseName with
  | .error error, some databaseName => some ⟨databaseName, error⟩
  | _, _ => none

/-- The failure it carries, under the number of its job. -/
def carried (o : AwaitedCleanupOutcome) : List SequencedFailure :=
  o.failure?.toList.map fun failure => ⟨o.sequence, failure⟩

/-- `finish`: what the awaiting caller is told. -/
def finish (o : AwaitedCleanupOutcome) : Except Error Unit := o.result

/-- `Drop for AwaitedCleanupOutcome`: an unconsumed error becomes a late failure. -/
def drop (o : AwaitedCleanupOutcome) (c : CompletionStateInner) : CompletionStateInner :=
  match o.failure? with
  | some failure => c.recordLateFailure o.sequence failure
  | none => c

theorem drop_failures (o : AwaitedCleanupOutcome) (c : CompletionStateInner) :
    (o.drop c).failures = c.failures ++ o.carried := by
  unfold drop carried
  split
  · rename_i failure h
    rw [h]
    rfl
  · rename_i h
    rw [h]
    simp

@[simp] theorem drop_through (o : AwaitedCleanupOutcome) (c : CompletionStateInner) :
    (o.drop c).completedThrough = c.completedThrough := by
  unfold drop
  split <;> rfl

@[simp] theorem drop_outOfOrder (o : AwaitedCleanupOutcome) (c : CompletionStateInner) :
    (o.drop c).completedOutOfOrder = c.completedOutOfOrder := by
  unfold drop
  split <;> rfl

@[simp] theorem drop_inFlight (o : AwaitedCleanupOutcome) (c : CompletionStateInner) :
    (o.drop c).failureDeliveryInFlight = c.failureDeliveryInFlight := by
  unfold drop
  split <;> rfl

@[simp] theorem new_sequence (result : Except Error Unit) (sequence : Nat) (name : Text) :
    (new result sequence name).sequence = sequence := by
  unfold new
  split <;> rfl

/-- A fresh outcome carries a failure exactly when the operation had an error. -/
theorem new_carried (outcome : CleanupOutcome) (sequence : Nat) (name : Text) :
    (new outcome.intoResult sequence name).carried =
      outcome.error?.toList.map fun e => ⟨sequence, ⟨name, e⟩⟩ := by
  cases outcome <;> rfl

end AwaitedCleanupOutcome

end PostgresTestHarness.Cleanup
