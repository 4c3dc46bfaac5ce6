import PostgresTestHarness.Cleanup.Queue
import PostgresTestHarness.Library.Condvar
import PostgresTestHarness.Library.Machine

/-! `SubmissionQueue` and the threads that meet at it: the cleanup workers in `next_job` and
the submitters in `enqueue`, all of which wait at the condition variable `changed`.

A step is what one thread does from the moment it has the mutex to the moment it gives it
back, or a wakeup for no reason. A job pushed notifies one thread, whichever kind it is; a
job popped notifies all. A submitter waits only at a full queue, so at the push onto an empty
one only workers are parked, and a worker that finds a job pops it (`NothingLost`). -/
namespace PostgresTestHarness.Cleanup.Wakeup

/-- What a submitter brings to `enqueue`. -/
structure Submission where
  databaseName : Text
  operation : Nat
  completion : CleanupCompletion
  permit : Bool
  admission : CleanupAdmission
  deriving DecidableEq, Repr

/-- What a thread does at the queue. -/
inductive Call where
  /-- A worker, in `cleanup_worker`. -/
  | nextJob
  /-- A submitter. -/
  | enqueue (submission : Submission)
  deriving DecidableEq, Repr

inductive Stage where
  /-- Before it locks the state. -/
  | locking
  /-- In `changed.wait`, the state unlocked. -/
  | parked
  /-- A notification took it out of the wait; before it has the state again. -/
  | notified
  /-- The same without a notification. -/
  | spurious
  /-- A worker that has left `next_job` with a job. -/
  | running (job : CleanupJob)
  /-- A worker to which `next_job` gave `None`. -/
  | stopped
  /-- What `enqueue` told a submitter. -/
  | returned (error : Option Error)
  /-- The sequence numbers were exhausted. The mutex is poisoned, which nobody heeds. -/
  | panicked
  deriving DecidableEq, Repr

structure Thread where
  call : Call
  stage : Stage
  deriving DecidableEq, Repr

structure State where
  submission : SubmissionState
  threads : List Thread

inductive Action where
  /-- A submitter calls `enqueue`. -/
  | submit (submission : Submission)
  /-- A thread gets the mutex; if it notifies one thread, that is `waiter`. -/
  | lock (thread : Nat) (waiter : Option Nat)
  /-- A parked thread wakes for no reason. -/
  | wakeSpuriously (thread : Nat)
  /-- A worker is done with its job and calls `next_job` again. -/
  | finishJob (thread : Nat)
  | close
  deriving Repr

/-- The condition variable that both kinds of thread wait at. -/
def changed : Condvar Thread where
  parked t := decide (t.stage = .parked)
  wake t := { t with stage := .notified }
  awake _ := rfl

@[simp] theorem changed_parked (t : Thread) : changed.parked t = decide (t.stage = .parked) := rfl

@[simp] theorem changed_wake (t : Thread) : changed.wake t = ⟨t.call, .notified⟩ := rfl

/-- A thread that waits for the mutex. -/
def Stage.atMutex : Stage → Bool
  | .locking | .notified | .spurious => true
  | _ => false

namespace State

/-- A queue of this many workers, none of which has looked at it yet. -/
def initial (workers : Nat) : State := ⟨.new, List.replicate workers ⟨.nextJob, .locking⟩⟩

def move (s : State) (i : Nat) (t : Thread) : State := { s with threads := s.threads.set i t }

/-- The loop of `next_job`, from the lock to the return or to `changed.wait`. -/
def nextJob (s : State) (i : Nat) : State :=
  match s.submission.nextJob with
  | .job job rest => ⟨rest, changed.notifyAll (s.threads.set i ⟨.nextJob, .running job⟩)⟩
  | .stop => s.move i ⟨.nextJob, .stopped⟩
  | .wait => s.move i ⟨.nextJob, .parked⟩

/-- `enqueue`, from the lock to the return or to `changed.wait`. -/
def enqueue (capacity : Nat) (s : State) (i : Nat) (submission : Submission)
    (waiter : Option Nat) : Option State :=
  let leave (stage : Stage) : Thread := ⟨.enqueue submission, stage⟩
  if s.submission.mustWait capacity submission.admission then some (s.move i (leave .parked))
  else
    match s.submission.enqueue submission.databaseName submission.operation submission.completion
        submission.permit with
    | .error error => some (s.move i (leave (.returned (some error))))
    | .ok next =>
      if SubmissionState.maxSequence ≤ s.submission.nextSequence then
        some (s.move i (leave .panicked))
      else
        (changed.notifyOne (s.threads.set i (leave (.returned none))) waiter).map fun threads =>
          ⟨next, threads⟩

/-- A thread that waits for the mutex gets it. -/
def lock (capacity : Nat) (s : State) (i : Nat) (waiter : Option Nat) : Option State :=
  match s.threads[i]? with
  | some t =>
    if t.stage.atMutex then
      match t.call with
      | .nextJob => some (s.nextJob i)
      | .enqueue submission => s.enqueue capacity i submission waiter
    else none
  | none => none

def wakeSpuriously (s : State) (i : Nat) : Option State :=
  match s.threads[i]? with
  | some ⟨call, .parked⟩ => some (s.move i ⟨call, .spurious⟩)
  | _ => none

def finishJob (s : State) (i : Nat) : Option State :=
  match s.threads[i]? with
  | some ⟨.nextJob, .running _⟩ => some (s.move i ⟨.nextJob, .locking⟩)
  | _ => none

def close (s : State) : State := ⟨s.submission.close.2, changed.notifyAll s.threads⟩

def step (capacity : Nat) (s : State) : Action → Option State
  | .submit submission =>
    some { s with threads := s.threads ++ [⟨.enqueue submission, .locking⟩] }
  | .lock i waiter => s.lock capacity i waiter
  | .wakeSpuriously i => s.wakeSpuriously i
  | .finishJob i => s.finishJob i
  | .close => some s.close

end State

/-- A `SubmissionQueue` of this capacity with its workers and any number of submitters. -/
def queue (capacity workers : Nat) : Machine State Action where
  initial s := s = .initial workers
  step := State.step capacity

/-! ### No wakeup is lost -/

/-- A worker that a notification took out of the wait and that has not resumed. -/
def Thread.Called (t : Thread) : Prop := t.call = .nextJob ∧ t.stage = .notified

/-- Nobody waits for what has already happened. -/
structure NothingLost (capacity : Nat) (s : State) : Prop where
  worker : s.submission.jobs ≠ [] →
    ∀ t ∈ s.threads, t.call = .nextJob → t.stage = .parked → ∃ u ∈ s.threads, u.Called
  submitter : ∀ t ∈ s.threads, ∀ submission, t.call = .enqueue submission → t.stage = .parked →
    s.submission.closed = false ∧ capacity ≤ s.submission.jobs.length
  closed : s.submission.closed = true → ∀ t ∈ s.threads, t.stage ≠ .parked

namespace NothingLost
variable {capacity : Nat} {s t : State}

/-- Nothing is lost where nobody waits. -/
theorem of_awake (h : ∀ t ∈ s.threads, t.stage ≠ .parked) : NothingLost capacity s where
  worker _ t ht _ hparked := absurd hparked (h t ht)
  submitter t ht _ _ hparked := absurd hparked (h t ht)
  closed _ := h

theorem of_notifyAll {submission : SubmissionState} {threads : List Thread} :
    NothingLost capacity ⟨submission, changed.notifyAll threads⟩ := by
  apply of_awake
  intro t ht
  simpa using changed.notifyAll_parked ht

/-- A thread that nobody counts on moves on, and if it parks it is a submitter at a full
open queue. -/
theorem move (h : NothingLost capacity s) {i : Nat} {old new : Thread}
    (hi : s.threads[i]? = some old) (hold : ¬ old.Called)
    (hnew : new.stage = .parked → new.call ≠ .nextJob ∧ s.submission.closed = false ∧
      capacity ≤ s.submission.jobs.length) :
    NothingLost capacity (s.move i new) where
  worker hjobs t ht hcall hparked := by
    rcases List.mem_or_eq_of_mem_set ht with ht | rfl
    · obtain ⟨u, hu, hcalled⟩ := h.worker hjobs t ht hcall hparked
      obtain ⟨j, hj⟩ := List.mem_iff_getElem?.mp hu
      have hne : i ≠ j := by
        intro heq
        obtain rfl := heq
        rw [hi, Option.some.injEq] at hj
        exact hold (hj ▸ hcalled)
      exact ⟨u, List.mem_iff_getElem?.mpr ⟨j, by rw [State.move, List.getElem?_set_ne hne, hj]⟩, hcalled⟩
    · exact absurd hcall (hnew hparked).1
  submitter t ht submission hcall hparked := by
    rcases List.mem_or_eq_of_mem_set ht with ht | rfl
    · exact h.submitter t ht submission hcall hparked
    · exact (hnew hparked).2
  closed hclosed t ht hparked := by
    rcases List.mem_or_eq_of_mem_set ht with ht | rfl
    · exact h.closed hclosed t ht hparked
    · exact absurd ((hnew hparked).2.1.symm.trans hclosed) Bool.false_ne_true

theorem initial (workers : Nat) : NothingLost capacity (.initial workers) := by
  apply of_awake
  intro t ht
  rw [(List.mem_replicate.mp ht).2]
  exact fun h => Stage.noConfusion h

theorem arrive (h : NothingLost capacity s) (submission : Submission) :
    NothingLost capacity { s with threads := s.threads ++ [⟨.enqueue submission, .locking⟩] } := by
  have hbefore : ∀ t ∈ s.threads ++ [⟨.enqueue submission, .locking⟩], t.stage = .parked →
      t ∈ s.threads := by
    intro t ht hparked
    rcases List.mem_append.mp ht with ht | ht
    · exact ht
    · rw [List.mem_singleton.mp ht] at hparked
      exact Stage.noConfusion hparked
  refine ⟨fun hjobs t ht hcall hparked => ?_, fun t ht submission hcall hparked => ?_,
    fun hclosed t ht hparked => ?_⟩
  · obtain ⟨u, hu, hcalled⟩ := h.worker hjobs t (hbefore t ht hparked) hcall hparked
    exact ⟨u, List.mem_append_left _ hu, hcalled⟩
  · exact h.submitter t (hbefore t ht hparked) submission hcall hparked
  · exact h.closed hclosed t (hbefore t ht hparked) hparked

/-- A worker finds a job and wakes everybody, or the queue is empty. -/
theorem nextJob (h : NothingLost capacity s) (i : Nat) : NothingLost capacity (s.nextJob i) := by
  unfold State.nextJob
  cases hjobs : s.submission.jobs with
  | cons job rest =>
    rw [show s.submission.nextJob = .job job { s.submission with jobs := rest } by
      simp only [SubmissionState.nextJob, hjobs]]
    exact of_notifyAll
  | nil =>
    cases hclosed : s.submission.closed with
    | true =>
      rw [show s.submission.nextJob = .stop by
        simp only [SubmissionState.nextJob, hjobs, hclosed, if_true]]
      apply of_awake
      intro t ht
      rcases List.mem_or_eq_of_mem_set ht with ht | rfl
      · exact h.closed hclosed t ht
      · exact fun h => Stage.noConfusion h
    | false =>
      rw [show s.submission.nextJob = .wait by
        simp only [SubmissionState.nextJob, hjobs, hclosed, Bool.false_eq_true, if_false]]
      refine ⟨fun hne => absurd hjobs hne, fun t ht submission hcall hparked => ?_, fun hopen => ?_⟩
      · rcases List.mem_or_eq_of_mem_set ht with ht | rfl
        · exact h.submitter t ht submission hcall hparked
        · exact absurd hcall (fun h => Call.noConfusion h)
      · exact absurd (hclosed.symm.trans hopen) Bool.false_ne_true

/-- A job is pushed and one thread notified. Onto an empty queue no submitter waits, so it is
a worker; behind another job a worker has been called before. -/
theorem push (hcapacity : 1 ≤ capacity) {q next : SubmissionState} {threads after : List Thread}
    {waiter : Option Nat} (h : NothingLost capacity ⟨q, threads⟩)
    (hafter : changed.notifyOne threads waiter = some after) (hnext : next.closed = false)
    (hlength : next.jobs.length = q.jobs.length + 1) :
    NothingLost capacity ⟨next, after⟩ := by
  have hbefore : ∀ t ∈ after, t.stage = .parked → t ∈ threads := by
    intro t ht hparked
    exact Condvar.notifyOne_parked hafter ht (by simpa using hparked)
  refine ⟨fun _ t ht hcall hparked => ?_, fun t ht submission hcall hparked => ?_, fun hclosed => ?_⟩
  · by_cases hjobs : q.jobs = []
    · have only : ∀ u ∈ threads, changed.parked u = true → u.call = .nextJob := by
        intro u hu huparked
        cases hucall : u.call with
        | nextJob => rfl
        | enqueue submission =>
          have hfull := (h.submitter u hu submission hucall (by simpa using huparked)).2
          simp only [hjobs, List.length_nil] at hfull
          omega
      rcases Condvar.notifyOne_reaches hafter only with hnobody | ⟨u, hucall, -, hu⟩
      · have hawake := hnobody t ht
        simp only [changed_parked, hparked, decide_true, Bool.true_eq_false] at hawake
      · exact ⟨_, hu, hucall, rfl⟩
    · obtain ⟨u, hu, hcalled⟩ := h.worker hjobs t (hbefore t ht hparked) hcall hparked
      refine ⟨u, Condvar.notifyOne_awake hafter hu ?_, hcalled⟩
      simp [hcalled.2]
  · have hfull : capacity ≤ q.jobs.length :=
      (h.submitter t (hbefore t ht hparked) submission hcall hparked).2
    exact ⟨hnext, Nat.le_trans hfull (hlength ▸ Nat.le_succ _)⟩
  · exact absurd (hnext.symm.trans hclosed) Bool.false_ne_true

/-- A submitter parks at a full open queue, is turned away, or pushes its job. -/
theorem enqueue (hcapacity : 1 ≤ capacity) (h : NothingLost capacity s) {i : Nat}
    {submission : Submission} {stage : Stage} {waiter : Option Nat}
    (hi : s.threads[i]? = some ⟨.enqueue submission, stage⟩)
    (hstep : s.enqueue capacity i submission waiter = some t) : NothingLost capacity t := by
  have hsubmitter : ¬ Thread.Called ⟨.enqueue submission, stage⟩ := fun hcalled =>
    Call.noConfusion hcalled.1
  have leave : ∀ next : Stage, next ≠ .parked → NothingLost capacity (s.move i ⟨.enqueue submission, next⟩) :=
    fun next hnext => h.move hi hsubmitter fun hparked => absurd hparked hnext
  unfold State.enqueue at hstep
  by_cases hwait : s.submission.mustWait capacity submission.admission = true
  · rw [if_pos hwait, Option.some.injEq] at hstep
    subst hstep
    simp only [SubmissionState.mustWait, Bool.and_eq_true, decide_eq_true_eq, Bool.not_eq_true'] at hwait
    exact h.move hi hsubmitter fun _ => ⟨fun hcall => Call.noConfusion hcall, hwait.2, hwait.1.2⟩
  · rw [if_neg hwait] at hstep
    cases hclosed : s.submission.closed with
    | true =>
      simp only [SubmissionState.enqueue, hclosed, if_true, Option.some.injEq] at hstep
      subst hstep
      exact leave _ (fun h => Stage.noConfusion h)
    | false =>
      simp only [SubmissionState.enqueue, hclosed, Bool.false_eq_true, if_false] at hstep
      split at hstep
      · rw [Option.some.injEq] at hstep
        subst hstep
        exact leave _ (fun h => Stage.noConfusion h)
      · rw [Option.map_eq_some_iff] at hstep
        obtain ⟨after, hafter, rfl⟩ := hstep
        exact push hcapacity (leave _ (fun h => Stage.noConfusion h)) hafter rfl (by simp)

theorem step (hcapacity : 1 ≤ capacity) (h : NothingLost capacity s) {action : Action}
    (hstep : s.step capacity action = some t) : NothingLost capacity t := by
  cases action with
  | submit submission =>
    simp only [State.step, Option.some.injEq] at hstep
    subst hstep
    exact h.arrive submission
  | lock i waiter =>
    simp only [State.step, State.lock] at hstep
    cases hi : s.threads[i]? with
    | none => simp [hi] at hstep
    | some thread =>
      obtain ⟨call, stage⟩ := thread
      simp only [hi, Option.ite_none_right_eq_some] at hstep
      cases call with
      | nextJob =>
        rw [← Option.some.inj hstep.2]
        exact h.nextJob i
      | enqueue submission => exact h.enqueue hcapacity hi hstep.2
  | wakeSpuriously i =>
    simp only [State.step, State.wakeSpuriously] at hstep
    split at hstep
    · rename_i call hi
      rw [← Option.some.inj hstep]
      exact h.move hi (fun hcalled => Stage.noConfusion hcalled.2) (fun hp => Stage.noConfusion hp)
    · cases hstep
  | finishJob i =>
    simp only [State.step, State.finishJob] at hstep
    split at hstep
    · rename_i job hi
      rw [← Option.some.inj hstep]
      exact h.move hi (fun hcalled => Stage.noConfusion hcalled.2) (fun hp => Stage.noConfusion hp)
    · cases hstep
  | close =>
    rw [State.step, Option.some.injEq] at hstep
    subst hstep
    exact of_notifyAll

theorem invariant (hcapacity : 1 ≤ capacity) (workers : Nat) :
    (queue capacity workers).Invariant (NothingLost capacity) where
  initial := by
    intro s heq
    obtain rfl := heq
    exact initial workers
  preserved s action t _ h hstep := h.step hcapacity hstep

end NothingLost

/-- In every reachable state of a queue with room for at least one job: beside a job no
worker is parked unless another has been notified and has not resumed; a parked submitter
faces an open queue that is full; and at a closed queue nobody is parked. -/
theorem no_wakeup_lost (capacity workers : Nat) (hcapacity : 1 ≤ capacity) {s : State}
    (hs : (queue capacity workers).Reachable s) :
    (s.submission.jobs ≠ [] → ∀ t ∈ s.threads, t.call = .nextJob → t.stage = .parked →
        ∃ u ∈ s.threads, u.call = .nextJob ∧ u.stage = .notified) ∧
      (∀ t ∈ s.threads, ∀ submission, t.call = .enqueue submission → t.stage = .parked →
        s.submission.closed = false ∧ capacity ≤ s.submission.jobs.length) ∧
      (s.submission.closed = true → ∀ t ∈ s.threads, t.stage ≠ .parked) := by
  have h := (NothingLost.invariant hcapacity workers).holds hs
  exact ⟨h.worker, h.submitter, h.closed⟩

/-- Two workers wait at a queue of one job. A job calls the first of them and fills the queue;
a submitter parks, and the notification of a fallback job goes to it. -/
def misdirected : List Action :=
  [.lock 0 none, .lock 1 none,
    .submit ⟨"a".toList, 0, .deferred, false, .backpressured⟩, .lock 2 (some 0),
    .submit ⟨"b".toList, 1, .deferred, false, .backpressured⟩, .lock 3 none,
    .submit ⟨"c".toList, 2, .deferred, true, .nonblockingFallback⟩, .lock 4 (some 3), .lock 3 none]

theorem no_wakeup_lost_misdirected : ∃ s, (queue 1 2).run (.initial 2) misdirected = some s ∧
    s.submission.jobs.map (·.sequence) = [1, 2] ∧
    s.threads.map (·.stage) = [.notified, .parked, .returned none, .parked, .returned none] ∧
    ∃ u ∈ s.threads, u.call = .nextJob ∧ u.stage = .notified := by
  refine ⟨_, rfl, rfl, rfl, ?_⟩
  have h := no_wakeup_lost 1 2 (Nat.le_refl 1) (Machine.reachable_of_run misdirected rfl rfl)
  exact h.1 (List.cons_ne_nil _ _) ⟨.nextJob, .parked⟩ (by decide) rfl rfl

end PostgresTestHarness.Cleanup.Wakeup
