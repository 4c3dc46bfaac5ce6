import PostgresTestHarness.Cleanup.Barrier
import PostgresTestHarness.Shutdown.Overlap

/-! The shutdown of one prewarm pool, with the server's cleanup queue.

`PrewarmedDatabasePool::shutdown` closes the pool, queues the idle databases it took, and
waits at the queue's barrier. The machine is a pool and a queue that run side by side: the
pool's submissions are the queue's, everything else that the server does with its queue
comes in between. Somebody else may have taken the idle databases. -/
namespace PostgresTestHarness.PoolShutdown

open Shutdown (idles accepts)
open Cleanup (CleanupCompletion CleanupAdmission)

inductive Stage where
  /-- Its closer is at work; `begin_drain` comes next. -/
  | closing (closer : Nat)
  | draining
  /-- `begin_drain` has returned. -/
  | drained
  deriving DecidableEq, Repr

/-- A `shutdown` call, with the databases that were idle when it locked the pool or that
a closure had taken by then. -/
structure Call where
  stage : Stage
  owed : List Text
  deriving DecidableEq, Repr

structure State where
  pool : Prewarm.State
  queue : Cleanup.State
  /-- Databases that were idle when the pool was closed. -/
  idled : List Text
  /-- Those whose deletion the queue has accepted, with the number of the job. -/
  deletions : List (Nat × Text)
  calls : List Call
  /-- Which of the calls each drain caller of the queue is, if any. -/
  callers : List (Option Nat)
  /-- The call that holds the `drain` mutex. -/
  holder : Option Nat

inductive Action where
  /-- A step of the pool that submits nothing. -/
  | pool (a : Prewarm.Action)
  /-- A step of the pool that submits a job, with what it submits it as. -/
  | submit (a : Prewarm.Action) (completion : CleanupCompletion) (permit : Bool) (admission : CleanupAdmission)
  /-- A step of the queue: its workers, its drains, and submissions that are not the pool's. -/
  | queue (a : Cleanup.Action)
  /-- A `shutdown` call comes to `close_and_queue_ready`. -/
  | shutdown
  | drain (call : Nat)
  deriving Repr

/-- The database whose job the pool submits in a step, and the answer it gets. -/
def submits (s : Prewarm.State) : Prewarm.Action → Option (Text × Bool)
  | .queueTaken k accepted =>
    match s.closers[k]? with
    | some (.queueing (name :: _)) => some (name, accepted)
    | _ => none
  | .queueDeletion i accepted =>
    match s.tasks[i]? with
    | some (.unqueued name) => some (name, accepted)
    | _ => none
  | .answer i accepted =>
    match s.tasks[i]? with
    | some (.submitting name) => some (name, accepted)
    | _ => none
  | _ => none

/-- `submit_prewarmer`, which closures use. -/
def byPrewarmer : Prewarm.Action → Bool
  | .answer _ _ => false
  | _ => true

namespace State

def initial (cfg : Cleanup.Config) (capacity : Nat) : State :=
  ⟨.initial capacity, .initial cfg, [], [], [], [], none⟩

/-- Whether a worker runs the deletion of the database, if there is one. -/
def runs (s : State) (name : Text) : Bool :=
  s.deletions.all fun d => d.2 != name ||
    s.queue.workers.any fun w => w.running.any fun job => job.sequence == d.1

/-- The pool's submissions are the queue's, and the `DROP` of a submitted deletion ends on
its worker. -/
def allowsPool (s : State) : Prewarm.Action → Bool
  | .queueTaken _ _ | .queueDeletion _ _ | .answer _ _ => false
  | .dropReturns i _ | .unwind i =>
    match s.pool.tasks[i]? with
    | some (.surplus name) => s.runs name
    | _ => true
  | _ => true

/-- A deletion is not over before its `DROP` is. -/
def allowsQueue (s : State) : Cleanup.Action → Bool
  | .operationReturns w _ | .operationPanics w =>
    match s.queue.workers[w]? with
    | some (.executing job) =>
      s.deletions.all fun d => d.1 != job.sequence || !s.pool.tasks.contains (.surplus d.2)
    | _ => true
  | _ => true

def advance (capacity : Nat) (s : State) (a : Prewarm.Action) : Option State :=
  (s.pool.step capacity a).map fun pool => { s with pool, idled := s.idled ++ idles s.pool pool }

def submit (cfg : Cleanup.Config) (capacity : Nat) (s : State) (a : Prewarm.Action)
    (completion : CleanupCompletion) (permit : Bool) (admission : CleanupAdmission) : Option State :=
  match submits s.pool a with
  | none => none
  | some (name, accepted) =>
    if accepted = !s.queue.submission.closed ∧ (byPrewarmer a = true → completion = .deferred ∧
        permit = false ∧ admission = .nonblockingFallback) then
      match s.advance capacity a, s.queue.submit cfg name completion permit admission with
      | some t, some queue => some { t with
          queue
          deletions := s.deletions ++
            (accepts s.pool a).map fun name => (queue.submission.nextSequence, name) }
      | _, _ => none
    else none

def callersAfter (s : State) : Cleanup.Action → List (Option Nat)
  | .callDrain _ => s.callers ++ [none]
  | .enterDrain i => s.callers.eraseIdx i
  | _ => s.callers

def holderAfter (s : State) : Cleanup.Action → Option Nat
  | .enterDrain i => s.callers[i]?.join
  | .returnDrain | .destroy => none
  | _ => s.holder

/-- The barrier returns to the call that waits for it. -/
def callsAfter (s : State) : Cleanup.Action → List Call
  | .returnDrain =>
    match s.holder with
    | some c => s.calls.modify c fun call => { call with stage := .drained }
    | none => s.calls
  | _ => s.calls

def queueStep (cfg : Cleanup.Config) (s : State) (a : Cleanup.Action) : Option State :=
  if s.allowsQueue a then
    (s.queue.step cfg a).map fun queue => { s with
      queue
      callers := s.callersAfter a
      holder := s.holderAfter a
      calls := s.callsAfter a }
  else none

/-- `close_and_queue_ready`, up to the end of its critical section. -/
def shutdown (capacity : Nat) (s : State) : Option State :=
  if s.pool.filling = .done ∧ 0 < s.pool.publicHandles then
    (s.pool.step capacity .callClose).bind fun called =>
      (called.step capacity .beginClose).map fun pool => { s with
        pool
        idled := s.idled ++ idles called pool
        calls := s.calls ++ [⟨.closing called.closers.length, s.idled ++ s.pool.pool.ready⟩] }
  else none

/-- `begin_drain` is called once the closer is done. -/
def drain (cfg : Cleanup.Config) (s : State) (c : Nat) : Option State :=
  match s.calls[c]? with
  | some ⟨.closing k, owed⟩ =>
    if s.pool.closers[k]? = some .finished then
      (s.queue.step cfg (.callDrain .drain)).map fun queue => { s with
        queue
        callers := s.callers ++ [some c]
        calls := s.calls.set c ⟨.draining, owed⟩ }
    else none
  | _ => none

def step (cfg : Cleanup.Config) (capacity : Nat) (s : State) : Action → Option State
  | .pool a => if s.allowsPool a then s.advance capacity a else none
  | .submit a completion permit admission => s.submit cfg capacity a completion permit admission
  | .queue a => s.queueStep cfg a
  | .shutdown => s.shutdown capacity
  | .drain c => s.drain cfg c

end State

def machine (cfg : Cleanup.Config) (capacity : Nat) : Machine State Action where
  initial s := s = .initial cfg capacity
  step := State.step cfg capacity

/-- Whether a step fixes the target of a `shutdown` call while idle databases are taken and
not yet submitted. -/
def overtakes (s : State) : Action → Bool
  | .queue .fixTarget => s.holder.isSome && !s.pool.taken.isEmpty
  | _ => false

/-- The runs in which no barrier overtakes a closure. -/
def orderly (cfg : Cleanup.Config) (capacity : Nat) : Machine State Action where
  initial s := s = .initial cfg capacity
  step s a := if overtakes s a then none else s.step cfg capacity a

/-- The deletions of all these databases have been executed. -/
def Deleted (s : State) (names : List Text) : Prop :=
  ∀ name ∈ names, ∃ q, (q, name) ∈ s.deletions ∧ q ∈ s.queue.executedSequences

/-- Every step, with its guard and its result. -/
inductive Transition (cfg : Cleanup.Config) (capacity : Nat) (s : State) : Action → State → Prop where
  | pool (a : Prewarm.Action) (pool : Prewarm.State) (allowed : s.allowsPool a = true)
      (stepped : s.pool.step capacity a = some pool) :
      Transition cfg capacity s (.pool a) { s with pool, idled := s.idled ++ idles s.pool pool }
  | submit (a : Prewarm.Action) (completion : CleanupCompletion) (permit : Bool) (admission : CleanupAdmission)
      (name : Text) (pool : Prewarm.State) (queue : Cleanup.State)
      (submitted : submits s.pool a = some (name, !s.queue.submission.closed))
      (stepped : s.pool.step capacity a = some pool)
      (enqueued : s.queue.step cfg (.submit name completion permit admission) = some queue) :
      Transition cfg capacity s (.submit a completion permit admission) { s with
        pool
        queue
        idled := s.idled ++ idles s.pool pool
        deletions := s.deletions ++
          (accepts s.pool a).map fun name => (queue.submission.nextSequence, name) }
  | queue (a : Cleanup.Action) (queue : Cleanup.State) (stepped : s.queue.step cfg a = some queue) :
      Transition cfg capacity s (.queue a) { s with
        queue
        callers := s.callersAfter a
        holder := s.holderAfter a
        calls := s.callsAfter a }
  | shutdown (called pool : Prewarm.State) (call : s.pool.step capacity .callClose = some called)
      (close : called.step capacity .beginClose = some pool) :
      Transition cfg capacity s .shutdown { s with
        pool
        idled := s.idled ++ idles called pool
        calls := s.calls ++ [⟨.closing called.closers.length, s.idled ++ s.pool.pool.ready⟩] }
  | drain (c k : Nat) (owed : List Text) (queue : Cleanup.State) (call : s.calls[c]? = some ⟨.closing k, owed⟩)
      (stepped : s.queue.step cfg (.callDrain .drain) = some queue) :
      Transition cfg capacity s (.drain c) { s with
        queue
        callers := s.callers ++ [some c]
        calls := s.calls.set c ⟨.draining, owed⟩ }

section Steps
variable {cfg : Cleanup.Config} {capacity : Nat} {s t : State} {a : Action}

theorem step_transition (h : s.step cfg capacity a = some t) : Transition cfg capacity s a t := by
  cases a with
  | pool a =>
    simp only [State.step, State.advance] at h
    split at h
    · rename_i allowed
      obtain ⟨pool, stepped, rfl⟩ := Option.map_eq_some_iff.mp h
      exact .pool a pool allowed stepped
    · cases h
  | submit a completion permit admission =>
    simp only [State.step, State.submit, State.advance] at h
    split at h
    · cases h
    · rename_i name accepted submitted
      split at h
      · rename_i hguard
        split at h
        · rename_i u queue hu enqueued
          obtain ⟨pool, stepped, rfl⟩ := Option.map_eq_some_iff.mp hu
          cases h
          exact .submit a completion permit admission name pool queue (hguard.1 ▸ submitted) stepped enqueued
        · cases h
      · cases h
  | queue a =>
    simp only [State.step, State.queueStep] at h
    split at h
    · obtain ⟨queue, stepped, rfl⟩ := Option.map_eq_some_iff.mp h
      exact .queue a queue stepped
    · cases h
  | shutdown =>
    simp only [State.step, State.shutdown] at h
    split at h
    · obtain ⟨called, call, hclose⟩ := Option.bind_eq_some_iff.mp h
      obtain ⟨pool, close, rfl⟩ := Option.map_eq_some_iff.mp hclose
      exact .shutdown called pool call close
    · cases h
  | drain c =>
    simp only [State.step, State.drain] at h
    split at h
    · rename_i k owed call
      split at h
      · obtain ⟨queue, stepped, rfl⟩ := Option.map_eq_some_iff.mp h
        exact .drain c k owed queue call stepped
      · cases h
    · cases h

/-- The pool and the queue are what they would be on their own. -/
structure Parts (cfg : Cleanup.Config) (capacity : Nat) (s : State) : Prop where
  pool : (Prewarm.machine capacity).Reachable s.pool
  queue : (Cleanup.machine cfg).Reachable s.queue

theorem parts_step (h : Transition cfg capacity s a t) (hs : Parts cfg capacity s) : Parts cfg capacity t := by
  cases h with
  | pool a pool allowed stepped => exact ⟨hs.pool.next a stepped, hs.queue⟩
  | submit a _ _ _ name pool queue submitted stepped enqueued =>
    exact ⟨hs.pool.next a stepped, hs.queue.next (.submit name _ _ _) enqueued⟩
  | queue a queue stepped => exact ⟨hs.pool, hs.queue.next a stepped⟩
  | shutdown called pool call close =>
    have hcalled : (Prewarm.machine capacity).Reachable called := hs.pool.next .callClose call
    exact ⟨hcalled.next .beginClose close, hs.queue⟩
  | drain c k owed queue call stepped => exact ⟨hs.pool, hs.queue.next (.callDrain .drain) stepped⟩

theorem parts (h : (machine cfg capacity).Reachable s) : Parts cfg capacity s := by
  have hinv : (machine cfg capacity).Invariant (Parts cfg capacity) := by
    refine ⟨?_, fun s a t _ hs hstep => parts_step (step_transition hstep) hs⟩
    intro _ heq
    obtain rfl := heq
    exact ⟨.start rfl, .start rfl⟩
  exact hinv.holds h

/-- While the queue is open, an idle database of the closed pool is accepted or still in
the hands of a closer. Calls are owed all of them. -/
structure Accounts (s : State) : Prop where
  fresh : s.pool.pool.cleanupStarted = false →
    s.idled = [] ∧ s.calls = [] ∧ (∀ c, some c ∉ s.callers) ∧ s.holder = none
  once : ∀ n, s.idled.count n ≤ 1
  balance : s.queue.submission.closed = false → ∀ n,
    s.idled.count n = (s.deletions.map Prod.snd).count n + s.pool.taken.count n
  numbered : ∀ d ∈ s.deletions, 1 ≤ d.1 ∧ d.1 ≤ s.queue.submission.nextSequence
  owed : ∀ call ∈ s.calls, call.owed = s.idled

theorem idles_of_started {u v : Prewarm.State} (h : u.pool.cleanupStarted = true) : idles u v = [] := by
  refine if_neg fun hboth => ?_
  rw [h] at hboth
  cases hboth.1

theorem beginClose_started {u v : Prewarm.State} (h : u.step capacity .beginClose = some v) :
    v.pool.cleanupStarted = true := by
  simp only [Prewarm.State.step, Prewarm.State.beginClose] at h
  split at h
  · cases h
  · cases h
    exact (Prewarm.PrewarmPoolState.beginCleanup_cleaned u.pool capacity).started

/-- The closure of a pool takes what is idle, which is nothing if it was closed. -/
theorem idles_beginClose {u v : Prewarm.State} (hu : (Prewarm.machine capacity).Reachable u)
    (h : u.step capacity .beginClose = some v) : idles u v = u.pool.ready := by
  have hclosing := Prewarm.closing hu
  cases hstarted : u.pool.cleanupStarted with
  | true =>
    have hclosed := hclosing.started
    rw [hstarted] at hclosed
    rw [idles_of_started hstarted, hclosing.empty (by simpa using hclosed.symm)]
  | false =>
    exact if_pos ⟨hstarted, beginClose_started h⟩

theorem callClose_eq {u v : Prewarm.State} (h : u.step capacity .callClose = some v) :
    v = { u with pendingCloses := u.pendingCloses + 1 } := by
  simp only [Prewarm.State.step] at h
  split at h
  · cases h
    rfl
  · cases h

/-- Closures take idle databases once. -/
theorem Accounts.idled_once (hs : Accounts s) {u : Prewarm.State} (hu : (Prewarm.machine capacity).Reachable u)
    (hstarted : u.pool.cleanupStarted = s.pool.pool.cleanupStarted) (v : Prewarm.State) (n : Text) :
    (s.idled ++ idles u v).count n ≤ 1 := by
  rw [List.count_append]
  cases hfresh : s.pool.pool.cleanupStarted with
  | true =>
    rw [idles_of_started (hstarted.trans hfresh), List.count_nil, Nat.add_zero]
    exact hs.once n
  | false =>
    rw [(hs.fresh hfresh).1, List.count_nil, Nat.zero_add]
    exact Shutdown.idles_count_le hu v n

theorem Accounts.started (hs : Accounts s) {call : Call} (hcall : call ∈ s.calls) :
    s.pool.pool.cleanupStarted = true := by
  by_contra hfresh
  rw [(hs.fresh (Bool.not_eq_true _ ▸ hfresh)).2.1] at hcall
  cases hcall

/-- While no cleanup has started, no step makes a database idle. -/
theorem Accounts.not_idled (hs : Accounts s) (hpool : (Prewarm.machine capacity).Reachable s.pool)
    {b : Prewarm.Action} {v : Prewarm.State} (stepped : s.pool.step capacity b = some v)
    (hfresh : v.pool.cleanupStarted = false) : s.idled ++ idles s.pool v = [] ∧ s.calls = [] ∧
      (∀ c, some c ∉ s.callers) ∧ s.holder = none := by
  have hbefore := Shutdown.not_started_before hpool stepped hfresh
  obtain ⟨hidled, hrest⟩ := hs.fresh hbefore
  refine ⟨?_, hrest⟩
  rw [hidled, Shutdown.idles_of_eq (hfresh.trans hbefore.symm)]
  rfl

/-- Nothing is idle any more once there is a call. -/
theorem Accounts.idled_kept (hs : Accounts s) {call : Call} (hcall : call ∈ s.calls) (v : Prewarm.State) :
    idles s.pool v = [] :=
  idles_of_started (hs.started hcall)

theorem open_before {b : Cleanup.Action} {q r : Cleanup.State} (h : q.step cfg b = some r)
    (hr : r.submission.closed = false) : q.submission.closed = false := by
  by_contra hclosed
  have hstill := Cleanup.closed_step (Cleanup.step_transition cfg q r b h) (Bool.not_eq_false _ ▸ hclosed)
  rw [hstill.1] at hr
  cases hr

theorem sequence_mono {b : Cleanup.Action} {q r : Cleanup.State} (h : q.step cfg b = some r) :
    q.submission.nextSequence ≤ r.submission.nextSequence :=
  Cleanup.nextSequence_mono (Cleanup.step_transition cfg q r b h)

theorem accepted_positive {name : Text} {completion : CleanupCompletion} {permit : Bool}
    {admission : CleanupAdmission} {q r : Cleanup.State}
    (h : q.step cfg (.submit name completion permit admission) = some r) (hopen : q.submission.closed = false) :
    1 ≤ r.submission.nextSequence := by
  cases Cleanup.step_transition cfg q r _ h with
  | accept => exact Nat.succ_pos _
  | reject _ _ _ _ handle closed =>
    rw [hopen] at closed
    cases closed
  | operation _ i job outcome ended => cases ended

theorem submit_draining {name : Text} {completion : CleanupCompletion} {permit : Bool}
    {admission : CleanupAdmission} {q r : Cleanup.State}
    (h : q.step cfg (.submit name completion permit admission) = some r) : r.draining = q.draining := by
  cases Cleanup.step_transition cfg q r _ h with
  | operation _ i job outcome ended => cases ended
  | _ => rfl

theorem callDrain_draining {kind : Cleanup.DrainKind} {q r : Cleanup.State}
    (h : q.step cfg (.callDrain kind) = some r) : r.draining = q.draining := by
  cases Cleanup.step_transition cfg q r _ h with
  | operation _ i job outcome ended => cases ended
  | _ => rfl

theorem fixTarget_waiting {q r : Cleanup.State} (h : q.step cfg .fixTarget = some r) :
    ∃ drain, r.draining = some (drain, .waiting q.submission.nextSequence) := by
  cases Cleanup.step_transition cfg q r _ h with
  | target call | close call => exact ⟨call, rfl⟩
  | operation _ i job outcome ended => cases ended

theorem accepts_of_submits {u : Prewarm.State} {b : Prewarm.Action} {name : Text} {accepted : Bool}
    (h : submits u b = some (name, accepted)) :
    (accepted = true ∨ accepts u b = []) ∧ ∀ i, b = .queueTaken i false → accepted = false := by
  cases b with
  | queueTaken k answer =>
    simp only [submits] at h
    split at h
    · cases h
      cases accepted with
      | false => exact ⟨Or.inr rfl, fun _ _ => rfl⟩
      | true => exact ⟨Or.inl rfl, fun i hi => nomatch hi⟩
    · cases h
  | _ => exact ⟨Or.inr rfl, fun i hi => nomatch hi⟩

theorem allowed_accepts {b : Prewarm.Action} (h : s.allowsPool b = true) :
    accepts s.pool b = [] ∧ ∀ i, b ≠ .queueTaken i false := by
  cases b with
  | queueTaken k answer => cases h
  | _ => exact ⟨rfl, fun i => nofun⟩

theorem callsAfter_mem {b : Cleanup.Action} {call : Call} (h : call ∈ s.callsAfter b) :
    ∃ before ∈ s.calls, call.owed = before.owed := by
  cases b with
  | returnDrain =>
    simp only [State.callsAfter] at h
    split at h
    · obtain ⟨i, hi⟩ := List.mem_iff_getElem?.mp h
      rw [List.getElem?_modify] at hi
      obtain ⟨before, hbefore, rfl⟩ := Option.map_eq_some_iff.mp hi
      refine ⟨before, List.mem_of_getElem? hbefore, ?_⟩
      split <;> rfl
    · exact ⟨call, h, rfl⟩
  | _ => exact ⟨call, h, rfl⟩

theorem callersAfter_fresh {b : Cleanup.Action} (h : ∀ c, some c ∉ s.callers) :
    (∀ c, some c ∉ s.callersAfter b) ∧ (s.holder = none → s.holderAfter b = none) := by
  cases b with
  | callDrain kind =>
    refine ⟨fun c hc => ?_, id⟩
    rcases List.mem_append.mp hc with hc | hc
    · exact h c hc
    · cases List.mem_singleton.mp hc
  | enterDrain i =>
    refine ⟨fun c hc => h c (List.mem_of_mem_eraseIdx hc), fun _ => ?_⟩
    show s.callers[i]?.join = none
    cases hi : s.callers[i]? with
    | none => rfl
    | some caller =>
      cases caller with
      | none => rfl
      | some c => exact absurd (List.mem_of_getElem? hi) (h c)
  | returnDrain | destroy => exact ⟨h, fun _ => rfl⟩
  | _ => exact ⟨h, id⟩

theorem accounts_step (h : Transition cfg capacity s a t) (hparts : Parts cfg capacity s) (hs : Accounts s) :
    Accounts t := by
  cases h with
  | pool b pool allowed stepped =>
    obtain ⟨haccepts, hanswer⟩ := allowed_accepts allowed
    have hpool := Prewarm.step_transition capacity s.pool pool b stepped
    refine ⟨fun hfresh => ?_, hs.idled_once hparts.pool rfl pool, fun hopen n => ?_, hs.numbered, fun call hcall => ?_⟩
    · exact hs.not_idled hparts.pool stepped hfresh
    · have htaken := Shutdown.taken_step hpool hanswer n
      have hbalance := hs.balance hopen n
      rw [haccepts, List.count_nil] at htaken
      show (s.idled ++ idles s.pool pool).count n = (s.deletions.map Prod.snd).count n + pool.taken.count n
      rw [List.count_append]
      omega
    · rw [hs.owed call hcall]
      show _ = s.idled ++ idles s.pool pool
      rw [hs.idled_kept hcall, List.append_nil]
  | submit b completion permit admission name pool queue submitted stepped enqueued =>
    obtain ⟨hanswered, hanswer⟩ := accepts_of_submits submitted
    have hpool := Prewarm.step_transition capacity s.pool pool b stepped
    refine ⟨fun hfresh => ?_, hs.idled_once hparts.pool rfl pool, fun hopen n => ?_, fun d hd => ?_, fun call hcall => ?_⟩
    · exact hs.not_idled hparts.pool stepped hfresh
    · have hopen := open_before enqueued hopen
      rw [hopen] at hanswer
      have htaken := Shutdown.taken_step hpool (fun i hb => nomatch hanswer i hb) n
      have hbalance := hs.balance hopen n
      show (s.idled ++ idles s.pool pool).count n = ((s.deletions ++ (accepts s.pool b).map fun name =>
        (queue.submission.nextSequence, name)).map Prod.snd).count n + pool.taken.count n
      rw [List.map_append, List.map_map, List.count_append, List.count_append,
        show (Prod.snd ∘ fun name : Text => (queue.submission.nextSequence, name)) = id from rfl, List.map_id]
      omega
    · rcases List.mem_append.mp hd with hd | hd
      · exact ⟨(hs.numbered d hd).1, (hs.numbered d hd).2.trans (sequence_mono enqueued)⟩
      · obtain ⟨n, hn, rfl⟩ := List.mem_map.mp hd
        refine ⟨?_, Nat.le_refl _⟩
        rcases hanswered with haccepted | hnone
        · exact accepted_positive enqueued (by simpa using haccepted)
        · rw [hnone] at hn
          cases hn
    · rw [hs.owed call hcall]
      show _ = s.idled ++ idles s.pool pool
      rw [hs.idled_kept hcall, List.append_nil]
  | queue b queue stepped =>
    refine ⟨fun hfresh => ?_, hs.once, fun hopen => hs.balance (open_before stepped hopen), fun d hd => ?_,
      fun call hcall => ?_⟩
    · obtain ⟨hidled, hcalls, hcallers, hholder⟩ := hs.fresh hfresh
      obtain ⟨hafter, hnone⟩ := callersAfter_fresh (b := b) hcallers
      refine ⟨hidled, ?_, hafter, hnone hholder⟩
      rw [List.eq_nil_iff_forall_not_mem]
      intro call hcall
      obtain ⟨before, hbefore, _⟩ := callsAfter_mem hcall
      rw [hcalls] at hbefore
      cases hbefore
    · exact ⟨(hs.numbered d hd).1, (hs.numbered d hd).2.trans (sequence_mono stepped)⟩
    · obtain ⟨before, hbefore, howed⟩ := callsAfter_mem hcall
      rw [howed]
      exact hs.owed before hbefore
  | shutdown called pool call close =>
    have hcalled : (Prewarm.machine capacity).Reachable called := hparts.pool.next .callClose call
    have hpool := Prewarm.step_transition capacity called pool .beginClose close
    have hidles := idles_beginClose hcalled close
    have hready : called.pool = s.pool.pool := by rw [callClose_eq call]
    have htaken : called.taken = s.pool.taken := by rw [callClose_eq call]; rfl
    refine ⟨fun hfresh => ?_, hs.idled_once hcalled (congrArg Prewarm.PrewarmPoolState.cleanupStarted hready) pool, fun hopen n => ?_, hs.numbered,
      fun other hother => ?_⟩
    · rw [show pool.pool.cleanupStarted = true from beginClose_started close] at hfresh
      cases hfresh
    · have hbalance := hs.balance hopen n
      have hmoved := Shutdown.taken_step hpool (fun i => nofun) n
      rw [htaken, show accepts called .beginClose = [] from rfl, List.count_nil] at hmoved
      show (s.idled ++ idles called pool).count n = (s.deletions.map Prod.snd).count n + pool.taken.count n
      rw [List.count_append]
      omega
    · show other.owed = s.idled ++ idles called pool
      rcases List.mem_append.mp hother with hother | hother
      · have hstarted := hs.started hother
        rw [hs.owed other hother, idles_of_started (hready ▸ hstarted), List.append_nil]
      · rw [List.mem_singleton.mp hother, hidles, hready]
  | drain c k owed queue call stepped =>
    have hcall := List.mem_of_getElem? call
    refine ⟨fun hfresh => ?_, hs.once, fun hopen => hs.balance (open_before stepped hopen), fun d hd => ?_,
      fun other hother => ?_⟩
    · rw [show s.pool.pool.cleanupStarted = true from hs.started hcall] at hfresh
      cases hfresh
    · exact ⟨(hs.numbered d hd).1, (hs.numbered d hd).2.trans (sequence_mono stepped)⟩
    · rcases Ledger.mem_of_set hother with rfl | hother
      · exact hs.owed ⟨.closing k, owed⟩ hcall
      · exact hs.owed other hother

theorem accounts (h : (machine cfg capacity).Reachable s) : Accounts s := by
  have hinv : (machine cfg capacity).Invariant Accounts := by
    refine ⟨?_, fun s a t hreach hs hstep => accounts_step (step_transition hstep) (parts hreach) hs⟩
    intro _ heq
    obtain rfl := heq
    exact ⟨fun _ => ⟨rfl, rfl, fun _ => List.not_mem_nil, rfl⟩, fun _ => Nat.zero_le 1, fun _ _ => rfl, nofun, nofun⟩
  exact hinv.holds h

/-! ### The barrier -/

/-- What a step of the queue does to the drain that holds the mutex. -/
inductive Drains (q r : Cleanup.State) : Cleanup.Action → Prop where
  | kept (b : Cleanup.Action) (own : ∀ s : State, s.holderAfter b = s.holder ∧ s.callsAfter b = s.calls)
      (same : r.draining = q.draining) : Drains q r b
  | entered (b : Cleanup.Action) (own : ∀ s : State, s.callsAfter b = s.calls)
      (now : ∀ call stage, r.draining = some (call, stage) → stage = .entered) : Drains q r b
  | target (call : Cleanup.DrainCall)
      (now : r.draining = some (call, .waiting q.submission.nextSequence)) : Drains q r .fixTarget
  | take (call : Cleanup.DrainCall) (target : Nat) (outcome : Cleanup.CleanupDrainOutcome)
      (waiting : q.draining = some (call, .waiting target)) (ready : target ≤ q.completion.completedThrough)
      (now : r.draining = some (call, .taken outcome)) : Drains q r .take
  | returned (call : Cleanup.DrainCall) (outcome : Cleanup.CleanupDrainOutcome)
      (taken : q.draining = some (call, .taken outcome)) (now : r.draining = none) : Drains q r .returnDrain

theorem drains_step {b : Cleanup.Action} {q r : Cleanup.State} (h : Cleanup.Transition cfg q b r) : Drains q r b := by
  cases h with
  | operation _ i job outcome ended worker =>
    refine .kept b (fun s => ?_) rfl
    cases b with
    | operationReturns | operationPanics => exact ⟨rfl, rfl⟩
    | _ => cases ended
  | enter i call free caller =>
    refine .entered _ (fun _ => rfl) ?_
    intro _ _ hparts
    cases hparts
    rfl
  | target call entered kind | close call entered kind => exact .target call rfl
  | take call target waiting ready =>
    rw [Cleanup.CompletionStateInner.mustWait, Bool.or_eq_false_iff, decide_eq_false_iff_not, Nat.not_lt] at ready
    exact .take call target _ waiting ready.1 rfl
  | hand call outcome taken kind joined | log call outcome taken kind => exact .returned call outcome taken rfl
  | destroy alone first =>
    refine .entered _ (fun _ => rfl) ?_
    intro _ _ hparts
    cases hparts
    rfl
  | _ => exact .kept _ (fun _ => ⟨rfl, rfl⟩) rfl

theorem executed_mono {b : Cleanup.Action} {q r : Cleanup.State} (h : q.step cfg b = some r) {n : Nat}
    (hn : n ∈ q.executedSequences) : n ∈ r.executedSequences := by
  cases Cleanup.step_transition cfg q r b h with
  | operation _ i job outcome ended worker =>
    rw [Cleanup.State.executedSequences, List.map_append]
    exact List.mem_append_left _ hn
  | _ => exact hn

theorem Deleted.mono {names : List Text} (h : Deleted s names) (hdeletions : s.deletions ⊆ t.deletions)
    (hexecuted : s.queue.executedSequences ⊆ t.queue.executedSequences) : Deleted t names := by
  intro name hname
  obtain ⟨q, hmem, hdone⟩ := h name hname
  exact ⟨q, hdeletions hmem, hexecuted hdone⟩

/-- The barrier that a call waits at, or has come through, covers all idle databases. -/
structure Covered (s : State) : Prop where
  waiting : s.queue.submission.closed = false → ∀ c call target, s.holder = some c →
    s.queue.draining = some (call, .waiting target) →
    ∀ name ∈ s.idled, ∃ q, (q, name) ∈ s.deletions ∧ q ≤ target
  taken : s.queue.submission.closed = false → ∀ c call outcome, s.holder = some c →
    s.queue.draining = some (call, .taken outcome) → Deleted s s.idled
  drained : s.queue.submission.closed = false → ∀ call ∈ s.calls, call.stage = .drained → Deleted s s.idled

/-- While the queue is open, everything idle is accepted when nobody holds any of it. -/
theorem Accounts.accepted_iff (hs : Accounts s) (hopen : s.queue.submission.closed = false) :
    s.pool.taken = [] ↔ ∀ name ∈ s.idled, ∃ q, (q, name) ∈ s.deletions ∧ q ≤ s.queue.submission.nextSequence := by
  constructor
  · intro htaken name hname
    have hbalance := hs.balance hopen name
    rw [htaken, List.count_nil, Nat.add_zero] at hbalance
    have hpos := List.count_pos_iff.mpr hname
    rw [hbalance, List.count_pos_iff] at hpos
    obtain ⟨⟨q, _⟩, hd, rfl⟩ := List.mem_map.mp hpos
    exact ⟨q, hd, (hs.numbered _ hd).2⟩
  · intro hall
    rw [List.eq_nil_iff_forall_not_mem]
    intro name htaken
    have hbalance := hs.balance hopen name
    have hone := hs.once name
    have hpos := List.count_pos_iff.mpr htaken
    obtain ⟨q, hd, _⟩ := hall name (List.count_pos_iff.mp (by omega))
    have haccepted : 0 < (s.deletions.map Prod.snd).count name := List.count_pos_iff.mpr (List.mem_map_of_mem hd)
    omega

theorem Accounts.started_of_holder (hs : Accounts s) {c : Nat} (hholder : s.holder = some c) :
    s.pool.pool.cleanupStarted = true := by
  by_contra hfresh
  rw [(hs.fresh (Bool.not_eq_true _ ▸ hfresh)).2.2.2] at hholder
  cases hholder

/-- A barrier that has been passed covers what has been completed. -/
theorem executed_of_target (hq : (Cleanup.machine cfg).Reachable s.queue) (hs : Accounts s) {target : Nat}
    (hready : target ≤ s.queue.completion.completedThrough)
    (hall : ∀ name ∈ s.idled, ∃ q, (q, name) ∈ s.deletions ∧ q ≤ target) : Deleted s s.idled := by
  intro name hname
  obtain ⟨q, hd, hle⟩ := hall name hname
  have hdone := (Cleanup.execution hq).exact.done_of_le (hs.numbered _ hd).1 (hle.trans hready)
  exact ⟨q, hd, Cleanup.executed_of_completed hq hdone⟩

/-- A step that leaves the drain alone: the pool is closed for good by the first call. -/
theorem Covered.frame (hs : Covered s) (hacc : Accounts s)
    (hopen : t.queue.submission.closed = false → s.queue.submission.closed = false)
    (hholder : t.holder = s.holder) (hdraining : t.queue.draining = s.queue.draining)
    (hcalls : ∀ call ∈ t.calls, call.stage = .drained → call ∈ s.calls)
    (hidled : s.pool.pool.cleanupStarted = true → t.idled = s.idled) (hdeletions : s.deletions ⊆ t.deletions)
    (hexecuted : s.queue.executedSequences ⊆ t.queue.executedSequences) : Covered t := by
  refine ⟨fun ho c call target hc hwaiting => ?_, fun ho c call outcome hc htaken => ?_,
    fun ho call hcall hstage => ?_⟩
  · rw [hholder] at hc
    rw [hdraining] at hwaiting
    rw [hidled (hacc.started_of_holder hc)]
    intro name hname
    obtain ⟨q, hd, hle⟩ := hs.waiting (hopen ho) c call target hc hwaiting name hname
    exact ⟨q, hdeletions hd, hle⟩
  · rw [hholder] at hc
    rw [hdraining] at htaken
    rw [hidled (hacc.started_of_holder hc)]
    exact (hs.taken (hopen ho) c call outcome hc htaken).mono hdeletions hexecuted
  · have hbefore := hcalls call hcall hstage
    rw [hidled (hacc.started hbefore)]
    exact (hs.drained (hopen ho) call hbefore hstage).mono hdeletions hexecuted

theorem covered_step (h : Transition cfg capacity s a t) (hparts : Parts cfg capacity s) (hacc : Accounts s)
    (horder : overtakes s a = false) (hs : Covered s) : Covered t := by
  cases h with
  | pool b pool allowed stepped =>
    refine hs.frame hacc id rfl rfl (fun call hcall _ => hcall) (fun hstarted => ?_) (List.Subset.refl _) (List.Subset.refl _)
    show s.idled ++ idles s.pool pool = s.idled
    rw [idles_of_started hstarted, List.append_nil]
  | submit b completion permit admission name pool queue submitted stepped enqueued =>
    refine hs.frame hacc (open_before enqueued) rfl (submit_draining enqueued) (fun call hcall _ => hcall)
      (fun hstarted => ?_) (List.subset_append_left _ _) fun n hn => executed_mono enqueued hn
    show s.idled ++ idles s.pool pool = s.idled
    rw [idles_of_started hstarted, List.append_nil]
  | queue b queue stepped =>
    have hopen := open_before stepped
    have hexecuted : s.queue.executedSequences ⊆ queue.executedSequences := fun n hn => executed_mono stepped hn
    have hdrained : ∀ {names}, Deleted s names → Deleted { s with
        queue, callers := s.callersAfter b, holder := s.holderAfter b, calls := s.callsAfter b } names :=
      fun hdone => hdone.mono (List.Subset.refl _) hexecuted
    cases drains_step (Cleanup.step_transition cfg s.queue queue b stepped) with
    | kept _ own same =>
      obtain ⟨hholder, hcalls⟩ := own s
      exact hs.frame hacc hopen hholder same (fun call hcall _ => hcalls ▸ hcall) (fun _ => rfl)
        (List.Subset.refl _) hexecuted
    | entered _ own now =>
      refine ⟨fun _ c call target _ hwaiting => absurd (now call _ hwaiting) nofun,
        fun _ c call outcome _ htaken => absurd (now call _ htaken) nofun,
        fun ho call hcall hstage => hdrained (hs.drained (hopen ho) call (own s ▸ hcall) hstage)⟩
    | target call now =>
      refine ⟨fun ho c other target hc hwaiting => ?_, fun ho c other outcome hc htaken => ?_,
        fun ho other hother hstage => hdrained (hs.drained (hopen ho) other hother hstage)⟩
      · cases now.symm.trans hwaiting
        refine (hacc.accepted_iff (hopen ho)).mp ?_
        simpa [overtakes, show s.holder = some c from hc] using horder
      · cases now.symm.trans htaken
    | take call target outcome waiting ready now =>
      refine ⟨fun ho c other after hc hwaiting => ?_, fun ho c other after hc htaken => ?_,
        fun ho other hother hstage => hdrained (hs.drained (hopen ho) other hother hstage)⟩
      · cases now.symm.trans hwaiting
      · exact hdrained (executed_of_target hparts.queue hacc ready (hs.waiting (hopen ho) c call target hc waiting))
    | returned call outcome taken now =>
      refine ⟨fun ho c other target hc => absurd hc nofun, fun ho c other after hc => absurd hc nofun,
        fun ho other hother hstage => ?_⟩
      cases hholder : s.holder with
      | some c => exact hdrained (hs.taken (hopen ho) c call outcome hholder taken)
      | none =>
        have hcalls : s.callsAfter .returnDrain = s.calls := by rw [State.callsAfter, hholder]
        exact hdrained (hs.drained (hopen ho) other (hcalls ▸ hother) hstage)
  | shutdown called pool call close =>
    refine hs.frame hacc id rfl rfl (fun other hother hstage => ?_) (fun hstarted => ?_) (List.Subset.refl _)
      (List.Subset.refl _)
    · rcases List.mem_append.mp hother with hother | hother
      · exact hother
      · rw [List.mem_singleton.mp hother] at hstage
        cases hstage
    · have hcalled : called.pool = s.pool.pool := by rw [callClose_eq call]
      show s.idled ++ idles called pool = s.idled
      rw [idles_of_started (hcalled ▸ hstarted), List.append_nil]
  | drain c k owed queue call stepped =>
    refine hs.frame hacc (open_before stepped) rfl (callDrain_draining stepped) (fun other hother hstage => ?_)
      (fun _ => rfl) (List.Subset.refl _) fun n hn => executed_mono stepped hn
    rcases Ledger.mem_of_set hother with rfl | hother
    · cases hstage
    · exact hother

theorem reachable_of_orderly (h : (orderly cfg capacity).Reachable s) : (machine cfg capacity).Reachable s := by
  induction h with
  | start h => exact .start h
  | next a _ hstep ih => exact ih.next a (Option.ite_none_left_eq_some.mp hstep).2

theorem covered (h : (orderly cfg capacity).Reachable s) : Covered s := by
  have hinv : (orderly cfg capacity).Invariant Covered := by
    refine ⟨?_, fun s a t hreach hs hstep => ?_⟩
    · intro _ heq
      obtain rfl := heq
      exact ⟨fun _ _ _ _ hc => absurd hc nofun, fun _ _ _ _ hc => absurd hc nofun, fun _ => nofun⟩
    · obtain ⟨horder, hstep⟩ := Option.ite_none_left_eq_some.mp hstep
      have hreach := reachable_of_orderly hreach
      exact covered_step (step_transition hstep) (parts hreach) (accounts hreach) (Bool.not_eq_true _ ▸ horder) hs
  exact hinv.holds h

/-- As long as the cleanup queue is open, every `shutdown` call whose barrier has returned finds the
deletions executed that it is owed, in a run in which no barrier overtakes a closure. A barrier's
target covers what the call is owed exactly when nobody has idle databases taken and not submitted. -/
theorem pool_shutdown_deletes (cfg : Cleanup.Config) (capacity : Nat) :
    (∀ s, (orderly cfg capacity).Reachable s → s.queue.submission.closed = false →
      ∀ call ∈ s.calls, call.stage = .drained → Deleted s call.owed) ∧
    ∀ s t c call, (machine cfg capacity).Reachable s → s.queue.submission.closed = false →
      s.holder = some c → s.calls[c]? = some call → s.step cfg capacity (.queue .fixTarget) = some t →
      ∃ drain target, t.queue.draining = some (drain, .waiting target) ∧
        (overtakes s (.queue .fixTarget) = false ↔
          ∀ name ∈ call.owed, ∃ q, (q, name) ∈ t.deletions ∧ q ≤ target) := by
  refine ⟨fun s hs hopen call hcall hstage => ?_, fun s t c call hs hopen hholder hcall hstep => ?_⟩
  · rw [(accounts (reachable_of_orderly hs)).owed call hcall]
    exact (covered hs).drained hopen call hcall hstage
  · have hacc := accounts hs
    cases step_transition hstep with
    | queue _ queue stepped =>
      obtain ⟨drain, hwaiting⟩ := fixTarget_waiting stepped
      refine ⟨drain, _, hwaiting, ?_⟩
      rw [hacc.owed call (List.mem_of_getElem? hcall), show _ ↔ _ from (hacc.accepted_iff hopen).symm]
      simp [overtakes, hholder]

end Steps

/-- A pool of one database that is idle. -/
def fillOne : List Action :=
  [.pool .beginCreation, .pool (.gate 0 true "a".toList), .pool (.creationReturns 0 (some true)),
    .pool (.publish 0), .pool (.addToken 0), .pool .beginCreation]

/-- One call, whose barrier waits for the deletion. -/
def oneShutdown : List Action :=
  fillOne ++ [.shutdown, .pool (.closeSemaphores 0),
    .submit (.queueTaken 0 true) .deferred false .nonblockingFallback, .pool (.finishClose 0), .drain 0,
    .queue (.enterDrain 0), .queue .fixTarget, .queue (.nextJob 0), .pool (.dropReturns 0 true),
    .pool (.finishDeletion 0), .queue (.operationReturns 0 .succeeded), .queue (.checkResidual 0),
    .queue (.dropPermit 0), .queue (.settle 0), .queue (.complete 0), .queue .take, .queue .returnDrain]

theorem pool_shutdown_deletes_one : ∃ s, (orderly ⟨1, 1⟩ 1).run (.initial ⟨1, 1⟩ 1) oneShutdown = some s ∧
    s.calls = [⟨.drained, ["a".toList]⟩] ∧ Deleted s ["a".toList] := by
  refine ⟨_, rfl, rfl, ?_⟩
  exact (pool_shutdown_deletes ⟨1, 1⟩ 1).1 _ (Machine.reachable_of_run oneShutdown rfl rfl) rfl
    ⟨.drained, ["a".toList]⟩ List.mem_cons_self rfl

/-- A second call, on a clone, that comes to its barrier while the first has the database
in its hands. -/
def twoShutdowns : List Action :=
  fillOne ++ [.pool .cloneHandle, .shutdown, .shutdown, .pool (.closeSemaphores 1), .pool (.finishClose 1),
    .drain 1, .queue (.enterDrain 0), .queue .fixTarget, .queue .take, .queue .returnDrain]

theorem barrier_overtakes_closure : ¬ ∀ s, (machine ⟨1, 1⟩ 1).Reachable s → s.queue.submission.closed = false →
    ∀ call ∈ s.calls, call.stage = .drained → Deleted s call.owed := by
  intro h
  have hdeleted := h _ (Machine.reachable_of_run twoShutdowns rfl rfl) rfl ⟨.drained, ["a".toList]⟩
    (List.mem_cons_of_mem _ List.mem_cons_self) rfl
  obtain ⟨q, hd, _⟩ := hdeleted _ List.mem_cons_self
  cases hd

end PostgresTestHarness.PoolShutdown
