import PostgresTestHarness.Cleanup.Barrier
import PostgresTestHarness.Container.Ownership

/-! The shutdown of an owned server, from the cleanup queue to the container.

Behind the prewarm pools, `shutdown_container` closes the cleanup queue and waits until it is
drained, closes the admin sessions and then shuts down the container, in one blocking task. The
machine is the queue and the container side by side, with any number of these calls; everything
else that a server does with its queue, and the start, the exit hook and the destructor of its
container, come in between. -/
namespace PostgresTestHarness.TerminalShutdown
open Cleanup (CleanupDrainOutcome)

/-- `OwnedShutdownOutcome`. -/
structure OwnedShutdownOutcome where
  cleanup : CleanupDrainOutcome
  shutdown : Except Container.Error Unit
  deriving DecidableEq

inductive ShutdownError where
  /-- `DeferredCleanup`. -/
  | cleanup (failures : List DeferredCleanupFailure)
  | shutdown (source : Container.Error)
  | cleanupAndContainerShutdown (cleanup : List DeferredCleanupFailure) (shutdown : Container.Error)
  deriving DecidableEq

def combineCleanupAndShutdown (cleanup : Except (List DeferredCleanupFailure) Unit)
    (shutdown : Except Container.Error Unit) : Except ShutdownError Unit :=
  match cleanup, shutdown with
  | .ok _, .ok _ => .ok ()
  | .error cleanup, .ok _ => .error (.cleanup cleanup)
  | .ok _, .error shutdown => .error (.shutdown shutdown)
  | .error cleanup, .error shutdown => .error (.cleanupAndContainerShutdown cleanup shutdown)

def OwnedShutdownOutcome.finish (o : OwnedShutdownOutcome) : Except ShutdownError Unit :=
  combineCleanupAndShutdown o.cleanup.finish o.shutdown

/-- Where a `shutdown_container` call is. -/
inductive Stage where
  /-- `begin_owned_container_shutdown` has cloned the owner. -/
  | called
  /-- Admission is closed; `close_prewarm_pools` and `run_blocking` come next. -/
  | closing
  /-- `close_and_begin_drain`. -/
  | draining
  /-- It has returned; the admin sessions close and `ContainerOwner::shutdown` is called. -/
  | drained (cleanup : CleanupDrainOutcome)
  /-- The task is over, its outcome not yet finished. -/
  | settled (outcome : OwnedShutdownOutcome)
  | finished (outcome : OwnedShutdownOutcome)
  /-- Nobody waited for the outcome, and it was dropped. -/
  | unawaited (outcome : OwnedShutdownOutcome)
  /-- The runtime has dropped the task before it ran. -/
  | abandoned
  deriving DecidableEq

/-- `caller` is its place among the callers of `ContainerOwner::shutdown`. -/
structure Call where
  stage : Stage
  caller : Nat
  deriving DecidableEq

def Call.result? (call : Call) : Option (Except ShutdownError Unit) :=
  match call.stage with
  | .finished outcome => some outcome.finish
  | _ => none

/-- Its drain has returned. -/
def Stage.past : Stage → Bool
  | .drained _ | .settled _ | .finished _ | .unawaited _ => true
  | _ => false

/-- What its drain has returned. -/
def Stage.cleanup? : Stage → Option CleanupDrainOutcome
  | .drained cleanup => some cleanup
  | .settled outcome | .finished outcome | .unawaited outcome => some outcome.cleanup
  | _ => none

structure State where
  queue : Cleanup.State
  container : Container.State
  calls : List Call
  /-- Which of the calls each drain caller of the queue is, if any. -/
  callers : List (Option Nat)
  /-- The call that holds the `drain` mutex. -/
  holder : Option Nat

inductive Action where
  /-- Submissions, workers and the other drains. -/
  | queue (a : Cleanup.Action)
  /-- The worker of the container, its start, and everybody else who shuts it down. -/
  | container (a : Container.Action)
  | shutdown
  | closeAdmission (call : Nat)
  | beginDrain (call : Nat)
  /-- `ContainerOwner::shutdown` has returned. -/
  | settle (call : Nat)
  /-- The caller gets the outcome, the one at this place among the queue's, and finishes it. -/
  | finish (call outcome : Nat)
  | lose (call outcome : Nat)
  | abandon (call : Nat)

namespace State

def initial (cfg : Cleanup.Config) : State := ⟨.initial cfg, .initial, [], [], none⟩

def setStage (s : State) (c : Nat) (stage : Stage) : State :=
  { s with calls := s.calls.modify c fun call => { call with stage } }

/-- Nobody else closes the queue. -/
def allowsQueue : Cleanup.Action → Bool
  | .callDrain .close => false
  | _ => true

/-- A call locks the worker of the container when its drain has returned. -/
def allowsContainer (s : State) : Container.Action → Bool
  | .shutdown | .abandon _ => false
  | .lock k => s.calls.all fun call => call.caller != k || call.stage.past
  | _ => true

def callersAfter (s : State) : Cleanup.Action → List (Option Nat)
  | .callDrain _ => s.callers ++ [none]
  | .enterDrain i => s.callers.eraseIdx i
  | _ => s.callers

def holderAfter (s : State) : Cleanup.Action → Option Nat
  | .enterDrain i => s.callers[i]?.join
  | .returnDrain | .destroy => none
  | _ => s.holder

/-- `close_and_begin_drain` returns to the call. -/
def callsAfter (s : State) : Cleanup.Action → List Call
  | .returnDrain =>
    match s.holder, s.queue.draining with
    | some c, some (_, .taken outcome) => (s.setStage c (.drained outcome)).calls
    | _, _ => s.calls
  | _ => s.calls

def queueStep (cfg : Cleanup.Config) (s : State) (a : Cleanup.Action) : Option State :=
  if allowsQueue a then
    (s.queue.step cfg a).map fun queue => { s with
      queue
      callers := s.callersAfter a
      holder := s.holderAfter a
      calls := s.callsAfter a }
  else none

def containerStep (ccfg : Container.Config) (s : State) (a : Container.Action) : Option State :=
  if s.allowsContainer a then (s.container.step ccfg a).map fun container => { s with container } else none

def shutdown (ccfg : Container.Config) (s : State) : Option State :=
  (s.container.step ccfg .shutdown).map fun container => { s with
    container
    calls := s.calls ++ [⟨.called, s.container.callers.length⟩] }

def closeAdmission (cfg : Cleanup.Config) (s : State) (c : Nat) : Option State :=
  match s.calls[c]? with
  | some ⟨.called, _⟩ =>
    (s.queue.step cfg .closeAdmission).map fun queue => { s.setStage c .closing with queue }
  | _ => none

def beginDrain (cfg : Cleanup.Config) (s : State) (c : Nat) : Option State :=
  match s.calls[c]? with
  | some ⟨.closing, _⟩ =>
    (s.queue.step cfg (.callDrain .close)).map fun queue => { s.setStage c .draining with
      queue
      callers := s.callers ++ [some c] }
  | _ => none

def settle (s : State) (c : Nat) : Option State :=
  match s.calls[c]? with
  | some ⟨.drained cleanup, k⟩ =>
    match s.container.callers[k]? with
    | some ⟨_, .returned shutdown, _, _⟩ => some (s.setStage c (.settled ⟨cleanup, shutdown⟩))
    | _ => none
  | _ => none

def finish (cfg : Cleanup.Config) (s : State) (c i : Nat) : Option State :=
  match s.calls[c]? with
  | some ⟨.settled outcome, _⟩ =>
    if s.queue.outcomes[i]? = some outcome.cleanup then
      (s.queue.step cfg (.finishOutcome i)).map fun queue => { s.setStage c (.finished outcome) with queue }
    else none
  | _ => none

def lose (cfg : Cleanup.Config) (s : State) (c i : Nat) : Option State :=
  match s.calls[c]? with
  | some ⟨.settled outcome, _⟩ =>
    if s.queue.outcomes[i]? = some outcome.cleanup then
      (s.queue.step cfg (.dropOutcome i)).map fun queue => { s.setStage c (.unawaited outcome) with queue }
    else none
  | _ => none

def abandon (ccfg : Container.Config) (s : State) (c : Nat) : Option State :=
  match s.calls[c]? with
  | some ⟨.closing, k⟩ =>
    (s.container.step ccfg (.abandon k)).map fun container => { s.setStage c .abandoned with container }
  | _ => none

def step (cfg : Cleanup.Config) (ccfg : Container.Config) (s : State) : Action → Option State
  | .queue a => s.queueStep cfg a
  | .container a => s.containerStep ccfg a
  | .shutdown => s.shutdown ccfg
  | .closeAdmission c => s.closeAdmission cfg c
  | .beginDrain c => s.beginDrain cfg c
  | .settle c => s.settle c
  | .finish c i => s.finish cfg c i
  | .lose c i => s.lose cfg c i
  | .abandon c => s.abandon ccfg c

end State

def machine (cfg : Cleanup.Config) (ccfg : Container.Config) : Machine State Action where
  initial s := s = .initial cfg
  step := State.step cfg ccfg

/-! ### The queue -/

/-- No job is left, none is accepted, and the workers have returned. -/
structure Emptied (q : Cleanup.State) : Prop where
  closed : q.submission.closed = true
  jobs : q.submission.jobs = []
  workers : ∀ w ∈ q.workers, w = .exited

section Queue
variable {cfg : Cleanup.Config} {q q' : Cleanup.State} {a : Cleanup.Action}

theorem Emptied.no_worker (hq : Emptied q) {i : Nat} {w : Cleanup.Worker} (h : q.workers[i]? = some w)
    (hw : w ≠ .exited) : False := hw (hq.workers w (List.mem_of_getElem? h))

/-- It stays so. -/
theorem Emptied.step (hq : Emptied q) (h : Cleanup.Transition cfg q a q') : Emptied q' := by
  cases h with
  | accept name completion permit admission handle opened =>
    rw [hq.closed] at opened
    cases opened
  | start i job rest worker => exact (hq.no_worker worker (by decide)).elim
  | exit i worker => exact (hq.no_worker worker (by decide)).elim
  | operation a i job outcome ended worker => exact (hq.no_worker worker (fun h => by cases h)).elim
  | check i job outcome worker => exact (hq.no_worker worker (fun h => by cases h)).elim
  | permit i job outcome worker => exact (hq.no_worker worker (fun h => by cases h)).elim
  | send i job outcome worker => exact (hq.no_worker worker (fun h => by cases h)).elim
  | sendBack i job outcome worker => exact (hq.no_worker worker (fun h => by cases h)).elim
  | defer i job outcome worker => exact (hq.no_worker worker (fun h => by cases h)).elim
  | complete i job failure worker => exact (hq.no_worker worker (fun h => by cases h)).elim
  | release i job worker => exact (hq.no_worker worker (fun h => by cases h)).elim
  | close => exact ⟨rfl, hq.jobs, hq.workers⟩
  | _ => exact ⟨hq.closed, hq.jobs, hq.workers⟩

/-- Every job that was accepted has been executed. -/
theorem Emptied.executed (hs : (Cleanup.machine cfg).Reachable q) (hq : Emptied q) {n : Nat} (hlow : 1 ≤ n)
    (hhigh : n ≤ q.submission.nextSequence) : n ∈ q.executedSequences := by
  have hphase := Cleanup.one_phase hs n
  have hwaiting : q.waitingSequences = [] := by rw [Cleanup.State.waitingSequences, hq.jobs, List.map_nil]
  have hrunning : q.runningSequences = [] := by
    rw [Cleanup.State.runningSequences, List.map_eq_nil_iff, List.flatMap_eq_nil_iff]
    intro w hw
    rw [hq.workers w hw]
    rfl
  rw [hwaiting, hrunning, if_pos ⟨hlow, hhigh⟩, List.count_nil, Nat.zero_add] at hphase
  exact List.count_pos_iff.mp (by omega)

/-- `close_and_begin_drain` returns when the workers have. -/
theorem emptied_of_returned (hs : (Cleanup.machine cfg).Reachable q) {call : Cleanup.DrainCall}
    {stage : Cleanup.DrainStage} (hdraining : q.draining = some (call, stage)) (hkind : call.kind = .close)
    (h : q.step cfg .returnDrain = some q') : Emptied q' := by
  cases Cleanup.step_transition cfg q q' _ h with
  | operation a i job outcome ended => cases ended
  | hand call' outcome taken kind joined =>
    cases hdraining.symm.trans taken
    have hworkers := joined hkind
    obtain ⟨w, rest, hcons⟩ := List.exists_cons_of_ne_nil (Cleanup.workers_nonempty hs)
    have hmem : w ∈ q.workers := by
      rw [hcons]
      exact List.mem_cons_self
    have hexits := (Cleanup.execution hs).exits (hworkers w hmem ▸ hmem)
    exact ⟨hexits.1, hexits.2, hworkers⟩
  | log call' outcome taken kind =>
    cases hdraining.symm.trans taken
    cases hkind.symm.trans kind

theorem admission_step (h : Cleanup.Transition cfg q a q') (hq : q.databaseAdmissionClosed = true) :
    q'.databaseAdmissionClosed = true := by
  cases h with
  | check =>
    show (q.databaseAdmissionClosed || _) = true
    rw [hq, Bool.true_or]
  | admission => rfl
  | _ => exact hq

theorem delivered_step (h : Cleanup.Transition cfg q a q') :
    ∀ f ∈ q.history.delivered, f ∈ q'.history.delivered := by
  cases h with
  | read => exact fun f hf => List.mem_append_left _ hf
  | log => exact fun f hf => List.mem_append_left _ hf
  | finish => exact fun f hf => List.mem_append_left _ hf
  | _ => exact fun f hf => hf

end Queue

/-! ### The callers of `ContainerOwner::shutdown` -/

/-- It is not coming back to the container. -/
def isOver : Container.CallStage → Bool
  | .returned _ | .abandoned => true
  | _ => false

/-- What a step of the container leaves of them. -/
structure CallersKept (a : Container.Action) (s t : Container.State) : Prop where
  kept : ∀ k d, s.callers[k]? = some d → ∃ d', t.callers[k]? = some d' ∧ d'.kind = d.kind ∧
    (d.stage = .locking → a ≠ .lock k → a ≠ .abandon k → d'.stage = .locking) ∧
    (isOver d.stage = true → d'.stage = d.stage)
  added : ∀ k d, t.callers[k]? = some d → s.callers.length ≤ k → a ≠ .shutdown → d.kind ≠ .owned

section Callers
variable {ccfg : Container.Config} {s t : Container.State} {a : Container.Action}

theorem CallersKept.same (h : t.callers = s.callers) : CallersKept a s t := by
  refine ⟨fun k d hd => ⟨d, h ▸ hd, rfl, fun hlocking _ _ => hlocking, fun _ => rfl⟩, fun k d hd hk => ?_⟩
  rw [h, List.getElem?_eq_none hk] at hd
  cases hd

theorem CallersKept.concat {e : Container.Caller} (h : t.callers = s.callers ++ [e])
    (he : a ≠ .shutdown → e.kind ≠ .owned) : CallersKept a s t := by
  refine ⟨fun k d hd => ⟨d, ?_, rfl, fun hlocking _ _ => hlocking, fun _ => rfl⟩, fun k d hd hk ha => ?_⟩
  · rw [h]
    exact Ledger.getElem?_concat_of_some hd
  · rw [h] at hd
    obtain ⟨_, rfl⟩ | hd := Ledger.getElem?_concat_cases hd
    · exact he ha
    · rw [List.getElem?_eq_none hk] at hd
      cases hd

/-- One of them moves. -/
theorem CallersKept.set {i : Nat} {c c' : Container.Caller} (hc : s.callers[i]? = some c)
    (h : t.callers = s.callers.set i c') (hkind : c'.kind = c.kind)
    (hlocking : c.stage = .locking → a ≠ .lock i → a ≠ .abandon i → c'.stage = .locking)
    (hisOver : isOver c.stage = true → c'.stage = c.stage) : CallersKept a s t := by
  refine ⟨fun k d hd => ?_, fun k d hd hk => ?_⟩
  · by_cases hki : k = i
    · subst hki
      cases hc.symm.trans hd
      exact ⟨c', by rw [h]; exact Ledger.getElem?_set_of_some hc, hkind, hlocking, hisOver⟩
    · refine ⟨d, ?_, rfl, fun hstage _ _ => hstage, fun _ => rfl⟩
      rw [h, List.getElem?_set_ne (Ne.symm hki)]
      exact hd
  · rw [h, List.getElem?_eq_none (by rw [List.length_set]; exact hk)] at hd
    cases hd

theorem CallersKept.dropOwner (h : CallersKept a s t) : CallersKept a s t.dropOwner := by
  unfold Container.State.dropOwner
  split
  · refine ⟨fun k d hd => ?_, fun k d hd hk ha => ?_⟩
    · obtain ⟨d', hd', hrest⟩ := h.kept k d hd
      exact ⟨d', Ledger.getElem?_concat_of_some hd', hrest⟩
    · obtain ⟨_, rfl⟩ | hd := Ledger.getElem?_concat_cases hd
      · exact fun h => by cases h
      · exact h.added k d hd hk ha
  · exact ⟨h.kept, h.added⟩

theorem callersKept (h : s.step ccfg a = some t) : CallersKept a s t := by
  cases hworks : a.works with
  | true => exact .same (Container.works_of_step h hworks).elsewhere.callers
  | false =>
    cases hcalls : a.calls with
    | false =>
      cases Container.begins_of_step h hworks hcalls with
      | failed error starter =>
        have hdropped : CallersKept a s { s with owned := false } := .same rfl
        exact ⟨hdropped.dropOwner.kept, hdropped.dropOwner.added⟩
      | dropped starter owned => exact CallersKept.dropOwner (.same rfl)
      | _ => exact .same rfl
    | true =>
      cases a with
      | shutdown =>
        simp only [Container.State.step, Container.State.shutdown] at h
        split at h
        · cases h
          exact .concat rfl fun ha => absurd rfl ha
        · cases h
      | atExit =>
        simp only [Container.State.step, Container.State.atExit] at h
        split at h
        · cases h
          exact .concat rfl fun _ h => by cases h
        · cases h
      | lock i =>
        simp only [Container.State.step, Container.State.lockWorker] at h
        split at h
        · rename_i kind holds took hc hlock
          split at h
          · cases h
            exact .set hc rfl rfl (fun _ ha => absurd rfl ha) fun h => (by cases h)
          · cases h
            exact .set hc rfl rfl (fun _ ha => absurd rfl ha) fun h => (by cases h)
        · cases h
      | join i =>
        simp only [Container.State.step, Container.State.join] at h
        split at h
        · rename_i kind holds took result hc hworker
          cases h
          exact .set hc rfl rfl (fun hs => (by cases hs)) fun h => (by cases h)
        · cases h
      | release i =>
        simp only [Container.State.step, Container.State.release] at h
        split at h
        · rename_i kind result took hc
          cases h
          have hmoved : CallersKept (.release i) s
              { s with callers := s.callers.set i ⟨kind, .returned result, false, took⟩ } :=
            .set hc rfl rfl (fun hs => (by cases hs)) fun _ => rfl
          exact hmoved.dropOwner
        · cases h
      | abandon i =>
        simp only [Container.State.step, Container.State.abandon] at h
        split at h
        · rename_i took hc
          cases h
          have hmoved : CallersKept (.abandon i) s
              { s with callers := s.callers.set i ⟨.owned, .abandoned, false, took⟩ } :=
            .set hc rfl rfl (fun _ _ ha => absurd rfl ha) fun h => (by cases h)
          exact hmoved.dropOwner
        · cases h
      | _ => cases hcalls

end Callers

/-! ### The calls -/

/-- Before `close_and_begin_drain` has returned to it. -/
def Stage.before : Stage → Bool
  | .called | .closing | .draining => true
  | _ => false

theorem Stage.not_past {stage : Stage} (h : stage.before = true) : stage.past = false := by
  cases stage with
  | called | closing | draining => rfl
  | _ => cases h

def Stage.outcome? : Stage → Option OwnedShutdownOutcome
  | .settled outcome | .finished outcome | .unawaited outcome => some outcome
  | _ => none

structure CallSound (q : Cleanup.State) (container : Container.State) (call : Call) : Prop where
  admission : call.stage ≠ .called → q.databaseAdmissionClosed = true
  emptied : call.stage.past = true → Emptied q
  caller : ∃ d, container.callers[call.caller]? = some d ∧ d.kind = .owned ∧
    (call.stage.before = true → d.stage = .locking) ∧ (call.stage = .abandoned → d.stage = .abandoned) ∧
    ∀ o, call.stage.outcome? = some o → d.stage = .returned o.shutdown
  delivered : ∀ o, call.stage = .finished o → ∀ f ∈ o.cleanup.carried, f ∈ q.history.delivered

/-- The calls among the drain callers of the queue. -/
structure Drains (s : State) : Prop where
  length : s.callers.length = s.queue.callers.length
  closers : ∀ (i c : Nat), s.callers[i]? = some (some c) →
    ∃ call : Cleanup.DrainCall, s.queue.callers[i]? = some call ∧ call.kind = .close
  holder : ∀ c, s.holder = some c →
    ∃ (call : Cleanup.DrainCall) (stage : Cleanup.DrainStage),
      s.queue.draining = some (call, stage) ∧ call.kind = .close
  admission : ∀ c, some c ∈ s.callers ∨ s.holder = some c → s.queue.databaseAdmissionClosed = true

structure Sound (s : State) : Prop where
  calls : ∀ call ∈ s.calls, CallSound s.queue s.container call
  /-- An owned caller of the container is one of the calls, and of one only. -/
  owned : ∀ (k : Nat) (d : Container.Caller), s.container.callers[k]? = some d → d.kind = .owned →
    ∃ call ∈ s.calls, call.caller = k
  apart : ∀ (i j : Nat) (call other : Call), s.calls[i]? = some call → s.calls[j]? = some other →
    call.caller = other.caller → i = j
  drains : Drains s

section Sound
variable {cfg : Cleanup.Config} {ccfg : Container.Config} {s t : State} {call : Call} {c : Nat}

theorem CallSound.queue {q q' : Cleanup.State} {container : Container.State} {a : Cleanup.Action}
    (hs : CallSound q container call) (h : Cleanup.Transition cfg q a q') : CallSound q' container call :=
  ⟨fun hc => admission_step h (hs.admission hc), fun hp => (hs.emptied hp).step h, hs.caller,
    fun o ho f hf => delivered_step h f (hs.delivered o ho f hf)⟩

theorem CallSound.container {q : Cleanup.State} {k k' : Container.State} {a : Container.Action}
    (hs : CallSound q k call) (h : CallersKept a k k')
    (hbefore : call.stage.before = true → a ≠ .lock call.caller ∧ a ≠ .abandon call.caller) :
    CallSound q k' call := by
  obtain ⟨d, hd, hkind, hlocking, habandoned, hreturned⟩ := hs.caller
  obtain ⟨d', hd', hkind', hlocking', hisOver⟩ := h.kept _ d hd
  refine ⟨hs.admission, hs.emptied, ⟨d', hd', hkind'.trans hkind, fun hb => ?_, fun ha => ?_, fun o ho => ?_⟩,
    hs.delivered⟩
  · exact hlocking' (hlocking hb) (hbefore hb).1 (hbefore hb).2
  · rw [hisOver (by rw [habandoned ha]; rfl), habandoned ha]
  · rw [hisOver (by rw [hreturned o ho]; rfl), hreturned o ho]

/-- A call that has not come to the container goes on. -/
theorem CallSound.goOn {q q' : Cleanup.State} {container : Container.State} {stage next : Stage} {k : Nat}
    (hs : CallSound q container ⟨stage, k⟩) (hbefore : stage.before = true) (hnext : next.before = true)
    (hclosed : q'.databaseAdmissionClosed = true) : CallSound q' container ⟨next, k⟩ := by
  obtain ⟨d, hd, hkind, hlocking, _⟩ := hs.caller
  cases next with
  | called | closing | draining =>
    exact ⟨fun _ => hclosed, fun h => (by cases h),
      ⟨d, hd, hkind, fun _ => hlocking hbefore, fun h => (by cases h),
        fun o h => (by cases h)⟩, fun o h => (by cases h)⟩
  | _ => cases hnext

/-- What stands among the calls when one has moved. -/
theorem setStage_cases {stage : Stage} {i : Nat} (h : (s.setStage c stage).calls[i]? = some call) :
    ∃ before, s.calls[i]? = some before ∧ call.caller = before.caller ∧
      ((i = c ∧ call.stage = stage) ∨ (i ≠ c ∧ call = before)) := by
  rw [State.setStage, List.getElem?_modify, Option.map_eq_map, Option.map_eq_some_iff] at h
  obtain ⟨before, hbefore, heq⟩ := h
  refine ⟨before, hbefore, ?_⟩
  by_cases hi : c = i
  · rw [if_pos hi] at heq
    subst heq
    exact ⟨rfl, Or.inl ⟨hi.symm, rfl⟩⟩
  · rw [if_neg hi] at heq
    subst heq
    exact ⟨rfl, Or.inr ⟨Ne.symm hi, rfl⟩⟩

theorem mem_setStage {stage : Stage} (h : call ∈ s.calls) :
    ∃ after ∈ (s.setStage c stage).calls, after.caller = call.caller := by
  obtain ⟨i, hi⟩ := List.mem_iff_getElem?.mp h
  have hafter : (s.setStage c stage).calls[i]? = some (if c = i then { call with stage } else call) := by
    rw [State.setStage, List.getElem?_modify, hi]
    rfl
  refine ⟨_, List.mem_of_getElem? hafter, ?_⟩
  split <;> rfl

theorem abandoned_of_step {k k' : Container.State} {i : Nat} {d : Container.Caller}
    (h : k.step ccfg (.abandon i) = some k') (hd : k'.callers[i]? = some d) : d.stage = .abandoned := by
  simp only [Container.State.step, Container.State.abandon] at h
  split at h
  · rename_i took hi
    cases h
    have hset : (k.callers.set i ⟨.owned, .abandoned, false, took⟩)[i]? =
        some ⟨.owned, .abandoned, false, took⟩ :=
      Ledger.getElem?_set_of_some hi
    unfold Container.State.dropOwner at hd
    simp only at hd
    split at hd
    · cases (Ledger.getElem?_concat_of_some hset).symm.trans hd
      rfl
    · cases hset.symm.trans hd
      rfl
  · cases h

/-- One call has moved; the others, and who they are in the container, are the same. -/
theorem Sound.moved (hs : Sound s) {stage : Stage} (hcalls : t.calls = (s.setStage c stage).calls)
    (hc : ∀ call, s.calls[c]? = some call → CallSound t.queue t.container ⟨stage, call.caller⟩)
    (hothers : ∀ i call, s.calls[i]? = some call → i ≠ c → CallSound t.queue t.container call)
    (howned : ∀ (k : Nat) (d : Container.Caller), t.container.callers[k]? = some d → d.kind = .owned →
      ∃ d' : Container.Caller, s.container.callers[k]? = some d' ∧ d'.kind = .owned) (hdrains : Drains t) :
    Sound t := by
  refine ⟨fun call hcall => ?_, fun k d hd hkind => ?_, fun i j call other hi hj heq => ?_, hdrains⟩
  · rw [hcalls] at hcall
    obtain ⟨i, hi⟩ := List.mem_iff_getElem?.mp hcall
    obtain ⟨before, hbefore, hcaller, ⟨rfl, hstage⟩ | ⟨hne, rfl⟩⟩ := setStage_cases hi
    · have hsound := hc before hbefore
      rwa [← hcaller, ← hstage] at hsound
    · exact hothers i call hbefore hne
  · obtain ⟨d', hd', hkind'⟩ := howned k d hd hkind
    obtain ⟨call, hcall, hk⟩ := hs.owned k d' hd' hkind'
    obtain ⟨after, hafter, hcaller⟩ := @mem_setStage s call c stage hcall
    exact ⟨after, hcalls ▸ hafter, hcaller.trans hk⟩
  · rw [hcalls] at hi hj
    obtain ⟨before, hbefore, hcaller, _⟩ := setStage_cases hi
    obtain ⟨before', hbefore', hcaller', _⟩ := setStage_cases hj
    exact hs.apart i j before before' hbefore hbefore' (hcaller.symm.trans (heq.trans hcaller'))

/-- With a step of the queue. -/
theorem Sound.queued (hs : Sound s) {a : Cleanup.Action} {q : Cleanup.State} {stage : Stage}
    {callers : List (Option Nat)} {holder : Option Nat} (h : Cleanup.Transition cfg s.queue a q)
    (hc : ∀ call, s.calls[c]? = some call → CallSound q s.container ⟨stage, call.caller⟩)
    (hdrains : Drains { s.setStage c stage with queue := q, callers, holder }) :
    Sound { s.setStage c stage with queue := q, callers, holder } :=
  hs.moved rfl hc (fun _ call hi _ => (hs.calls call (List.mem_of_getElem? hi)).queue h)
    (fun _ d hd hkind => ⟨d, hd, hkind⟩) hdrains

theorem Drains.same (hs : Drains s) (container : Container.State) (calls : List Call) :
    Drains { s with container, calls } := ⟨hs.length, hs.closers, hs.holder, hs.admission⟩

theorem drains_step {a : Cleanup.Action} {q : Cleanup.State} (hs : Drains s)
    (h : Cleanup.Transition cfg s.queue a q) (calls : List Call) :
    Drains { s with queue := q, callers := s.callersAfter a, holder := s.holderAfter a, calls } := by
  have hadmission := fun c hc => admission_step h (hs.admission c hc)
  cases h with
  | operation a i job outcome ended =>
    have hcallers : s.callersAfter a = s.callers := by cases a <;> first | rfl | cases ended
    have hholder : s.holderAfter a = s.holder := by cases a <;> first | rfl | cases ended
    rw [hcallers, hholder]
    exact ⟨hs.length, hs.closers, hs.holder, hadmission⟩
  | call kind =>
    refine ⟨?_, fun i c hi => ?_, hs.holder, fun c hc => ?_⟩
    · show (s.callers ++ [none]).length = (s.queue.callers ++ [_]).length
      rw [List.length_append, List.length_append, hs.length]
      rfl
    · obtain ⟨_, heq⟩ | hi := Ledger.getElem?_concat_cases hi
      · cases heq
      · obtain ⟨call, hcall, hkind⟩ := hs.closers i c hi
        exact ⟨call, Ledger.getElem?_concat_of_some hcall, hkind⟩
    · obtain hc | hc := hc
      · obtain hc | hc := List.mem_append.mp hc
        · exact hadmission c (Or.inl hc)
        · cases List.mem_singleton.mp hc
      · exact hadmission c (Or.inr hc)
  | enter i call free caller =>
    refine ⟨?_, fun j c hj => ?_, fun c hc => ?_, fun c hc => ?_⟩
    · show (s.callers.eraseIdx i).length = (s.queue.callers.eraseIdx i).length
      rw [List.length_eraseIdx, List.length_eraseIdx, hs.length]
    · show ∃ call : Cleanup.DrainCall, (s.queue.callers.eraseIdx i)[j]? = some call ∧ call.kind = .close
      replace hj : (s.callers.eraseIdx i)[j]? = some (some c) := hj
      rw [List.getElem?_eraseIdx] at hj ⊢
      split at hj
      · rename_i hlt
        rw [if_pos hlt]
        exact hs.closers j c hj
      · rename_i hge
        rw [if_neg hge]
        exact hs.closers (j + 1) c hj
    · obtain ⟨call', hcall', hkind⟩ := hs.closers i c (Option.join_eq_some_iff.mp hc)
      cases caller.symm.trans hcall'
      exact ⟨call, .entered, rfl, hkind⟩
    · obtain hc | hc := hc
      · exact hadmission c (Or.inl (List.mem_of_mem_eraseIdx hc))
      · exact hadmission c (Or.inl (List.mem_of_getElem? (Option.join_eq_some_iff.mp hc)))
  | target call entered =>
    refine ⟨hs.length, hs.closers, fun c hc => ?_, hadmission⟩
    obtain ⟨call', stage, hdraining, hkind⟩ := hs.holder c hc
    cases entered.symm.trans hdraining
    exact ⟨call, _, rfl, hkind⟩
  | close call entered =>
    refine ⟨hs.length, hs.closers, fun c hc => ?_, hadmission⟩
    obtain ⟨call', stage, hdraining, hkind⟩ := hs.holder c hc
    cases entered.symm.trans hdraining
    exact ⟨call, _, rfl, hkind⟩
  | take call target waiting =>
    refine ⟨hs.length, hs.closers, fun c hc => ?_, hadmission⟩
    obtain ⟨call', stage, hdraining, hkind⟩ := hs.holder c hc
    cases waiting.symm.trans hdraining
    exact ⟨call, _, rfl, hkind⟩
  | hand => exact ⟨hs.length, hs.closers, fun c hc => (by cases hc), fun c hc =>
      hadmission c (Or.inl (hc.resolve_right fun h => by cases h))⟩
  | log => exact ⟨hs.length, hs.closers, fun c hc => (by cases hc), fun c hc =>
      hadmission c (Or.inl (hc.resolve_right fun h => by cases h))⟩
  | destroy => exact ⟨hs.length, hs.closers, fun c hc => (by cases hc), fun c hc =>
      hadmission c (Or.inl (hc.resolve_right fun h => by cases h))⟩
  | _ => exact ⟨hs.length, hs.closers, hs.holder, hadmission⟩

/-- The calls, and who they are in the container, are the same. -/
theorem Sound.still (hs : Sound s) (hcalls : t.calls = s.calls)
    (hsound : ∀ call ∈ s.calls, CallSound t.queue t.container call)
    (howned : ∀ (k : Nat) (d : Container.Caller), t.container.callers[k]? = some d → d.kind = .owned →
      ∃ d' : Container.Caller, s.container.callers[k]? = some d' ∧ d'.kind = .owned) (hdrains : Drains t) :
    Sound t := by
  refine ⟨hcalls ▸ hsound, fun k d hd hkind => ?_, hcalls ▸ hs.apart, hdrains⟩
  obtain ⟨d', hd', hkind'⟩ := howned k d hd hkind
  rw [hcalls]
  exact hs.owned k d' hd' hkind'

theorem CallersKept.owned {a : Container.Action} {k k' : Container.State} (h : CallersKept a k k')
    (ha : a ≠ .shutdown) (i : Nat) (d : Container.Caller) (hd : k'.callers[i]? = some d)
    (hkind : d.kind = .owned) : ∃ d' : Container.Caller, k.callers[i]? = some d' ∧ d'.kind = .owned := by
  by_cases hi : i < k.callers.length
  · obtain ⟨d', hd', hkind', _⟩ := h.kept i _ (List.getElem?_eq_getElem hi)
    cases hd.symm.trans hd'
    exact ⟨_, List.getElem?_eq_getElem hi, hkind'.symm.trans hkind⟩
  · exact absurd hkind (h.added i d hd (Nat.le_of_not_lt hi) ha)

/-- A drain's return moves the call that waits for it. -/
theorem callsAfter_cases (s : State) (a : Cleanup.Action) : s.callsAfter a = s.calls ∨
    ∃ c call outcome, a = .returnDrain ∧ s.holder = some c ∧ s.queue.draining = some (call, .taken outcome) ∧
      s.callsAfter a = (s.setStage c (.drained outcome)).calls := by
  cases a with
  | returnDrain =>
    simp only [State.callsAfter]
    split
    · rename_i c call outcome hholder hdraining
      exact Or.inr ⟨c, call, outcome, trivial, hholder, hdraining, rfl⟩
    · exact Or.inl rfl
  | _ => exact Or.inl rfl

/-- `close_and_begin_drain` is called. -/
theorem Drains.begin (hs : Drains s) {q : Cleanup.State}
    (h : Cleanup.Transition cfg s.queue (.callDrain .close) q)
    (hadmission : s.queue.databaseAdmissionClosed = true) (calls : List Call) :
    Drains { s with queue := q, callers := s.callers ++ [some c], calls } := by
  have hclosed := admission_step h hadmission
  cases h with
  | operation a i job outcome ended => cases ended
  | call kind =>
    refine ⟨?_, fun i d hi => ?_, hs.holder, fun d _ => hclosed⟩
    · show (s.callers ++ [some c]).length = (s.queue.callers ++ [_]).length
      rw [List.length_append, List.length_append, hs.length]
      rfl
    · show ∃ call : Cleanup.DrainCall, (s.queue.callers ++ [_])[i]? = some call ∧ call.kind = .close
      obtain ⟨rfl, _⟩ | hi := Ledger.getElem?_concat_cases hi
      · exact ⟨_, by rw [hs.length]; exact List.getElem?_concat_length, rfl⟩
      · obtain ⟨call, hcall, hkind⟩ := hs.closers i d hi
        exact ⟨call, Ledger.getElem?_concat_of_some hcall, hkind⟩

theorem sound_queueStep (hq : (Cleanup.machine cfg).Reachable s.queue) (hs : Sound s) {a : Cleanup.Action}
    (h : s.queueStep cfg a = some t) : Sound t := by
  obtain ⟨_, h⟩ := Option.ite_none_right_eq_some.mp h
  obtain ⟨q, hstep, rfl⟩ := Option.map_eq_some_iff.mp h
  have htransition := Cleanup.step_transition cfg s.queue q a hstep
  have hdrains := drains_step hs.drains htransition (s.callsAfter a)
  have hsound := fun call hcall => (hs.calls call hcall).queue htransition
  obtain hcalls | ⟨c, call, outcome, rfl, hholder, hdraining, hcalls⟩ := callsAfter_cases s a
  · exact hs.still hcalls hsound (fun k d hd hkind => ⟨d, hd, hkind⟩) hdrains
  · refine hs.moved hcalls (fun call hcall => ?_) (fun i call hi _ => hsound call (List.mem_of_getElem? hi))
      (fun k d hd hkind => ⟨d, hd, hkind⟩) hdrains
    obtain ⟨d, hd, hkind, _⟩ := (hs.calls call (List.mem_of_getElem? hcall)).caller
    refine ⟨fun _ => ?_, fun _ => ?_, ⟨d, hd, hkind, fun h => (by cases h), fun h => (by cases h),
        fun o h => (by cases h)⟩, fun o h => (by cases h)⟩
    · exact admission_step htransition (hs.drains.admission c (Or.inr hholder))
    · obtain ⟨call', stage, hdraining', hclose⟩ := hs.drains.holder c hholder
      exact emptied_of_returned hq hdraining' hclose hstep

theorem sound_containerStep (hs : Sound s) {a : Container.Action} (h : s.containerStep ccfg a = some t) :
    Sound t := by
  obtain ⟨hallowed, h⟩ := Option.ite_none_right_eq_some.mp h
  obtain ⟨k, hstep, rfl⟩ := Option.map_eq_some_iff.mp h
  have hkept := callersKept hstep
  have hshutdown : a ≠ .shutdown := by
    rintro rfl
    cases hallowed
  refine hs.still rfl (fun call hcall => (hs.calls call hcall).container hkept fun hb => ⟨?_, ?_⟩)
    (hkept.owned hshutdown) (hs.drains.same _ _)
  · rintro rfl
    have hpast := List.all_eq_true.mp hallowed call hcall
    rw [bne_self_eq_false, Bool.false_or] at hpast
    rw [Stage.not_past hb] at hpast
    cases hpast
  · rintro rfl
    cases hallowed

theorem sound_shutdown (hs : Sound s) (h : s.shutdown ccfg = some t) : Sound t := by
  obtain ⟨k, hstep, rfl⟩ := Option.map_eq_some_iff.mp h
  have hkept := callersKept hstep
  have hcallers : k.callers = s.container.callers ++ [⟨.owned, .locking, true, false⟩] := by
    simp only [Container.State.step, Container.State.shutdown] at hstep
    split at hstep
    · cases hstep
      rfl
    · cases hstep
  have hnew : k.callers[s.container.callers.length]? = some ⟨.owned, .locking, true, false⟩ := by
    rw [hcallers, List.getElem?_concat_length]
  have hlt : ∀ call ∈ s.calls, call.caller < s.container.callers.length := by
    intro call hcall
    obtain ⟨d, hd, _⟩ := (hs.calls call hcall).caller
    exact (List.getElem?_eq_some_iff.mp hd).1
  refine ⟨fun call hcall => ?_, fun i d hd hkind => ?_, fun i j call other hi hj heq => ?_,
    hs.drains.same _ _⟩
  · obtain hcall | hcall := List.mem_append.mp hcall
    · exact (hs.calls call hcall).container hkept fun _ => ⟨fun h => (by cases h), fun h => (by cases h)⟩
    · rw [List.mem_singleton.mp hcall]
      exact ⟨fun h => absurd rfl h, fun h => (by cases h), ⟨_, hnew, rfl, fun _ => rfl, fun h => (by cases h),
        fun o h => (by cases h)⟩, fun o h => (by cases h)⟩
  · rw [hcallers] at hd
    obtain ⟨rfl, _⟩ | hd := Ledger.getElem?_concat_cases hd
    · exact ⟨_, List.mem_append_right _ List.mem_cons_self, rfl⟩
    · obtain ⟨call, hcall, hi⟩ := hs.owned i d hd hkind
      exact ⟨call, List.mem_append_left _ hcall, hi⟩
  · obtain ⟨rfl, rfl⟩ | hi := Ledger.getElem?_concat_cases hi <;>
      obtain ⟨rfl, rfl⟩ | hj := Ledger.getElem?_concat_cases hj
    · rfl
    · exact absurd heq (Nat.ne_of_gt (hlt other (List.mem_of_getElem? hj)))
    · exact absurd heq (Nat.ne_of_lt (hlt call (List.mem_of_getElem? hi)))
    · exact hs.apart i j call other hi hj heq

theorem sound_closeAdmission (hs : Sound s) (h : s.closeAdmission cfg c = some t) : Sound t := by
  unfold State.closeAdmission at h
  split at h
  · rename_i k hc
    obtain ⟨q, hstep, rfl⟩ := Option.map_eq_some_iff.mp h
    have htransition := Cleanup.step_transition cfg s.queue q _ hstep
    have hclosed : q.databaseAdmissionClosed = true := by
      cases hstep
      rfl
    refine hs.queued htransition (fun call hcall => ?_) (drains_step hs.drains htransition _)
    cases hc.symm.trans hcall
    exact (hs.calls _ (List.mem_of_getElem? hc)).goOn rfl rfl hclosed
  · cases h

theorem sound_beginDrain (hs : Sound s) (h : s.beginDrain cfg c = some t) : Sound t := by
  unfold State.beginDrain at h
  split at h
  · rename_i k hc
    obtain ⟨q, hstep, rfl⟩ := Option.map_eq_some_iff.mp h
    have htransition := Cleanup.step_transition cfg s.queue q _ hstep
    have hbefore := hs.calls _ (List.mem_of_getElem? hc)
    have hclosed := hbefore.admission (fun h => by cases h)
    refine hs.queued htransition (fun call hcall => ?_) (hs.drains.begin htransition hclosed _)
    cases hc.symm.trans hcall
    exact hbefore.goOn rfl rfl (admission_step htransition hclosed)
  · cases h

theorem sound_settle (hs : Sound s) (h : s.settle c = some t) : Sound t := by
  unfold State.settle at h
  split at h
  · rename_i cleanup k hc
    split at h
    · rename_i kind shutdown holds took hk
      cases h
      refine hs.moved rfl (fun call hcall => ?_) (fun i call hi _ => hs.calls call (List.mem_of_getElem? hi))
        (fun k d hd hkind => ⟨d, hd, hkind⟩) (hs.drains.same _ _)
      cases hc.symm.trans hcall
      have hbefore := hs.calls _ (List.mem_of_getElem? hc)
      obtain ⟨d, hd, hkind, _⟩ := hbefore.caller
      cases hk.symm.trans hd
      refine ⟨fun _ => hbefore.admission fun h => (by cases h), fun _ => hbefore.emptied rfl, ⟨_, hk, hkind,
        fun h => (by cases h), fun h => (by cases h), fun o ho => ?_⟩, fun o h => (by cases h)⟩
      cases ho
      rfl
    · cases h
  · cases h

/-- The outcome of a task is finished or dropped. -/
theorem Sound.answered (hs : Sound s) {a : Cleanup.Action} {q : Cleanup.State} {outcome : OwnedShutdownOutcome}
    {k : Nat} {stage : Stage} (hc : s.calls[c]? = some ⟨.settled outcome, k⟩)
    (h : Cleanup.Transition cfg s.queue a q) (hcallers : s.callersAfter a = s.callers)
    (hholder : s.holderAfter a = s.holder) (houtcome : stage.outcome? = some outcome)
    (hdelivered : ∀ o, stage = .finished o → ∀ f ∈ o.cleanup.carried, f ∈ q.history.delivered) :
    Sound { s.setStage c stage with queue := q } := by
  have hdrains := drains_step hs.drains h (s.setStage c stage).calls
  rw [hcallers, hholder] at hdrains
  refine hs.queued h (fun call hcall => ?_) hdrains
  cases hc.symm.trans hcall
  have hbefore := hs.calls _ (List.mem_of_getElem? hc)
  obtain ⟨d, hd, hkind, _, _, hreturned⟩ := hbefore.caller
  have hstage : stage.before = false ∧ stage ≠ .abandoned := by
    cases stage with
    | settled | finished | unawaited => exact ⟨rfl, fun h => (by cases h)⟩
    | _ => cases houtcome
  refine ⟨fun _ => admission_step h (hbefore.admission fun h => (by cases h)),
    fun _ => (hbefore.emptied rfl).step h,
    ⟨d, hd, hkind, fun hb => ?_, fun ha => absurd ha hstage.2, fun o ho => ?_⟩, hdelivered⟩
  · cases hstage.1.symm.trans hb
  · cases houtcome.symm.trans ho
    exact hreturned _ rfl

theorem sound_finish {i : Nat} (hs : Sound s) (h : s.finish cfg c i = some t) : Sound t := by
  unfold State.finish at h
  split at h
  · rename_i outcome k hc
    obtain ⟨houtcome, h⟩ := Option.ite_none_right_eq_some.mp h
    obtain ⟨q, hstep, rfl⟩ := Option.map_eq_some_iff.mp h
    have htransition := Cleanup.step_transition cfg s.queue q _ hstep
    refine hs.answered hc htransition rfl rfl rfl fun o ho f hf => ?_
    cases ho
    cases htransition with
    | operation a i job outcome ended => cases ended
    | finish i held hheld =>
      cases houtcome.symm.trans hheld
      exact List.mem_append_right _ hf
  · cases h

theorem sound_lose {i : Nat} (hs : Sound s) (h : s.lose cfg c i = some t) : Sound t := by
  unfold State.lose at h
  split at h
  · rename_i outcome k hc
    obtain ⟨_, h⟩ := Option.ite_none_right_eq_some.mp h
    obtain ⟨q, hstep, rfl⟩ := Option.map_eq_some_iff.mp h
    exact hs.answered hc (Cleanup.step_transition cfg s.queue q _ hstep) rfl rfl rfl fun o ho => (by cases ho)
  · cases h

theorem sound_abandon (hs : Sound s) (h : s.abandon ccfg c = some t) : Sound t := by
  unfold State.abandon at h
  split at h
  · rename_i k hc
    obtain ⟨container, hstep, rfl⟩ := Option.map_eq_some_iff.mp h
    have hkept := callersKept hstep
    have hbefore := hs.calls _ (List.mem_of_getElem? hc)
    refine hs.moved rfl (fun call hcall => ?_) (fun i call hi hne => ?_) (hkept.owned fun h => (by cases h))
      (hs.drains.same _ _)
    · cases hc.symm.trans hcall
      obtain ⟨d, hd, hkind, _⟩ := hbefore.caller
      obtain ⟨d', hd', hkind', _⟩ := hkept.kept k d hd
      refine ⟨fun _ => hbefore.admission fun h => (by cases h), fun h => (by cases h), ⟨d', hd',
        hkind'.trans hkind, fun h => (by cases h), fun _ => ?_, fun o h => (by cases h)⟩, fun o h => (by cases h)⟩
      exact abandoned_of_step hstep hd'
    · refine (hs.calls call (List.mem_of_getElem? hi)).container hkept fun _ =>
        ⟨fun h => (by cases h), fun heq => ?_⟩
      exact hne (hs.apart i c call _ hi hc (Container.Action.abandon.inj heq).symm)
  · cases h

theorem sound_step (hq : (Cleanup.machine cfg).Reachable s.queue) (hs : Sound s) {a : Action}
    (h : s.step cfg ccfg a = some t) : Sound t := by
  cases a with
  | queue a => exact sound_queueStep hq hs h
  | container a => exact sound_containerStep hs h
  | shutdown => exact sound_shutdown hs h
  | closeAdmission c => exact sound_closeAdmission hs h
  | beginDrain c => exact sound_beginDrain hs h
  | settle c => exact sound_settle hs h
  | finish c i => exact sound_finish hs h
  | lose c i => exact sound_lose hs h
  | abandon c => exact sound_abandon hs h

/-- A step is one of the queue, or one of the container, or of neither. -/
theorem parts_step {a : Action} (h : s.step cfg ccfg a = some t) :
    (t.queue = s.queue ∨ ∃ b, s.queue.step cfg b = some t.queue) ∧
      (t.container = s.container ∨ ∃ b, s.container.step ccfg b = some t.container) := by
  cases a with
  | queue a =>
    obtain ⟨_, h⟩ := Option.ite_none_right_eq_some.mp h
    obtain ⟨q, hstep, rfl⟩ := Option.map_eq_some_iff.mp h
    exact ⟨Or.inr ⟨a, hstep⟩, Or.inl rfl⟩
  | container a =>
    obtain ⟨_, h⟩ := Option.ite_none_right_eq_some.mp h
    obtain ⟨k, hstep, rfl⟩ := Option.map_eq_some_iff.mp h
    exact ⟨Or.inl rfl, Or.inr ⟨a, hstep⟩⟩
  | shutdown =>
    obtain ⟨k, hstep, rfl⟩ := Option.map_eq_some_iff.mp h
    exact ⟨Or.inl rfl, Or.inr ⟨_, hstep⟩⟩
  | closeAdmission c =>
    simp only [State.step, State.closeAdmission] at h
    split at h
    · obtain ⟨q, hstep, rfl⟩ := Option.map_eq_some_iff.mp h
      exact ⟨Or.inr ⟨_, hstep⟩, Or.inl rfl⟩
    · cases h
  | beginDrain c =>
    simp only [State.step, State.beginDrain] at h
    split at h
    · obtain ⟨q, hstep, rfl⟩ := Option.map_eq_some_iff.mp h
      exact ⟨Or.inr ⟨_, hstep⟩, Or.inl rfl⟩
    · cases h
  | settle c =>
    simp only [State.step, State.settle] at h
    split at h
    · split at h
      · cases h
        exact ⟨Or.inl rfl, Or.inl rfl⟩
      · cases h
    · cases h
  | finish c i =>
    simp only [State.step, State.finish] at h
    split at h
    · obtain ⟨_, h⟩ := Option.ite_none_right_eq_some.mp h
      obtain ⟨q, hstep, rfl⟩ := Option.map_eq_some_iff.mp h
      exact ⟨Or.inr ⟨_, hstep⟩, Or.inl rfl⟩
    · cases h
  | lose c i =>
    simp only [State.step, State.lose] at h
    split at h
    · obtain ⟨_, h⟩ := Option.ite_none_right_eq_some.mp h
      obtain ⟨q, hstep, rfl⟩ := Option.map_eq_some_iff.mp h
      exact ⟨Or.inr ⟨_, hstep⟩, Or.inl rfl⟩
    · cases h
  | abandon c =>
    simp only [State.step, State.abandon] at h
    split at h
    · obtain ⟨k, hstep, rfl⟩ := Option.map_eq_some_iff.mp h
      exact ⟨Or.inl rfl, Or.inr ⟨_, hstep⟩⟩
    · cases h

theorem parts (hs : (machine cfg ccfg).Reachable s) :
    (Cleanup.machine cfg).Reachable s.queue ∧ (Container.machine ccfg).Reachable s.container := by
  induction hs with
  | start h =>
    cases h
    exact ⟨.start rfl, .start rfl⟩
  | next a _ hstep ih =>
    obtain ⟨hqueue, hcontainer⟩ := parts_step hstep
    constructor
    · obtain heq | ⟨b, hb⟩ := hqueue
      · exact heq ▸ ih.1
      · exact ih.1.next b hb
    · obtain heq | ⟨b, hb⟩ := hcontainer
      · exact heq ▸ ih.2
      · exact ih.2.next b hb

theorem sound (hs : (machine cfg ccfg).Reachable s) : Sound s := by
  induction hs with
  | start h =>
    cases h
    refine ⟨fun call h => (by cases h), fun k d h => (by cases h), fun i j call other h => (by cases h), rfl,
      fun i c h => (by cases h), fun c h => (by cases h), fun c h => ?_⟩
    obtain h | h := h <;> cases h
  | next a hs hstep ih => exact sound_step (parts hs).1 ih hstep

/-- An owned shutdown that has come to the container. -/
theorem Sound.drained (hs : Sound s) {d : Container.Caller} (hd : d ∈ s.container.callers)
    (hkind : d.kind = .owned) (hlocking : d.stage ≠ .locking) (habandoned : d.stage ≠ .abandoned) :
    s.queue.databaseAdmissionClosed = true ∧ Emptied s.queue := by
  obtain ⟨k, hk⟩ := List.mem_iff_getElem?.mp hd
  obtain ⟨call, hcall, rfl⟩ := hs.owned k d hk hkind
  have hsound := hs.calls call hcall
  obtain ⟨d', hd', _, hbefore, hleft, _⟩ := hsound.caller
  cases hk.symm.trans hd'
  have hpast : call.stage.past = true ∧ call.stage ≠ .called := by
    cases hstage : call.stage with
    | called | closing | draining => exact absurd (hbefore (by rw [hstage]; rfl)) hlocking
    | abandoned => exact absurd (hleft hstage) habandoned
    | _ => exact ⟨rfl, fun h => (by cases h)⟩
  exact ⟨hsound.admission hpast.2, hsound.emptied hpast.1⟩

/-- The removal's error is reported to one call at most. -/
theorem Sound.reported (hs : Sound s) (hcontainer : (Container.machine ccfg).Reachable s.container) {i j : Nat}
    {call other : Call} (hi : s.calls[i]? = some call) (hj : s.calls[j]? = some other)
    {o o' : OwnedShutdownOutcome} (ho : call.stage.outcome? = some o)
    (ho' : other.stage.outcome? = some o') {e e' : Container.Error}
    (he : o.shutdown = .error e) (he' : o'.shutdown = .error e') : i = j := by
  have htaken := Container.taken hcontainer
  have hone : s.container.callers.countP (·.took) ≤ 1 := by
    have htook := htaken.took
    cases hcreated : s.container.created <;> rw [hcreated] at htook <;>
      simp only [Bool.toNat_true, Bool.toNat_false] at htook <;> omega
  obtain ⟨d, hd, _, _, _, hreturned⟩ := (hs.calls call (List.mem_of_getElem? hi)).caller
  obtain ⟨d', hd', _, _, _, hreturned'⟩ := (hs.calls other (List.mem_of_getElem? hj)).caller
  have hstage := hreturned o ho
  have hstage' := hreturned' o' ho'
  rw [he] at hstage
  rw [he'] at hstage'
  have htook := htaken.took_of_reports (List.mem_of_getElem? hd) (by rw [Container.Caller.reports, hstage])
  have htook' := htaken.took_of_reports (List.mem_of_getElem? hd') (by rw [Container.Caller.reports, hstage'])
  exact hs.apart i j call other hi hj (Ledger.eq_of_countP_le_one hone hd htook hd' htook')

/-- A call that moves keeps what its drain has returned. -/
theorem cleanup_moved {i : Nat} (stage : Stage) {cleanup : CleanupDrainOutcome}
    (hstage : ∀ cleanup, stage.cleanup? = some cleanup →
      ∃ before, s.calls[i]? = some before ∧ before.stage.cleanup? = some cleanup)
    (hc : (s.setStage i stage).calls[c]? = some call) (hcleanup : call.stage.cleanup? = some cleanup) :
    ∃ before, s.calls[c]? = some before ∧ before.stage.cleanup? = some cleanup := by
  obtain ⟨before, hbefore, _, ⟨rfl, heq⟩ | ⟨_, rfl⟩⟩ := setStage_cases hc
  · exact hstage cleanup (heq ▸ hcleanup)
  · exact ⟨call, hbefore, hcleanup⟩

/-- What a call's drain has returned comes from the drain that it waited for, when this returned. -/
theorem cleanup_step {a : Action} (h : s.step cfg ccfg a = some t) {cleanup : CleanupDrainOutcome}
    (hc : t.calls[c]? = some call) (hcleanup : call.stage.cleanup? = some cleanup) :
    (∃ before, s.calls[c]? = some before ∧ before.stage.cleanup? = some cleanup) ∨
      a = .queue .returnDrain ∧ s.holder = some c ∧ ∃ d, s.queue.draining = some (d, .taken cleanup) := by
  cases a with
  | queue a =>
    obtain ⟨_, h⟩ := Option.ite_none_right_eq_some.mp h
    obtain ⟨q, _, rfl⟩ := Option.map_eq_some_iff.mp h
    replace hc : (s.callsAfter a)[c]? = some call := hc
    obtain hcalls | ⟨i, d, outcome, rfl, hholder, hdraining, hcalls⟩ := callsAfter_cases s a
    · exact Or.inl ⟨call, hcalls ▸ hc, hcleanup⟩
    · rw [hcalls] at hc
      obtain ⟨before, hbefore, _, ⟨rfl, heq⟩ | ⟨_, rfl⟩⟩ := setStage_cases hc
      · rw [heq] at hcleanup
        cases hcleanup
        exact Or.inr ⟨rfl, hholder, d, hdraining⟩
      · exact Or.inl ⟨call, hbefore, hcleanup⟩
  | container a =>
    obtain ⟨_, h⟩ := Option.ite_none_right_eq_some.mp h
    obtain ⟨k, _, rfl⟩ := Option.map_eq_some_iff.mp h
    exact Or.inl ⟨call, hc, hcleanup⟩
  | shutdown =>
    obtain ⟨k, _, rfl⟩ := Option.map_eq_some_iff.mp h
    obtain ⟨_, rfl⟩ | hc := Ledger.getElem?_concat_cases hc
    · cases hcleanup
    · exact Or.inl ⟨call, hc, hcleanup⟩
  | closeAdmission i =>
    simp only [State.step, State.closeAdmission] at h
    split at h
    · obtain ⟨q, _, rfl⟩ := Option.map_eq_some_iff.mp h
      exact Or.inl (cleanup_moved _ (fun _ h => (by cases h)) hc hcleanup)
    · cases h
  | beginDrain i =>
    simp only [State.step, State.beginDrain] at h
    split at h
    · obtain ⟨q, _, rfl⟩ := Option.map_eq_some_iff.mp h
      exact Or.inl (cleanup_moved _ (fun _ h => (by cases h)) hc hcleanup)
    · cases h
  | settle i =>
    simp only [State.step, State.settle] at h
    split at h
    · rename_i drained k hi
      split at h
      · rename_i kind shutdown holds took hk
        cases h
        exact Or.inl (cleanup_moved (.settled ⟨drained, shutdown⟩) (fun _ heq => ⟨_, hi, heq⟩) hc hcleanup)
      · cases h
    · cases h
  | finish i o =>
    simp only [State.step, State.finish] at h
    split at h
    · rename_i outcome k hi
      obtain ⟨_, h⟩ := Option.ite_none_right_eq_some.mp h
      obtain ⟨q, _, rfl⟩ := Option.map_eq_some_iff.mp h
      exact Or.inl (cleanup_moved (.finished outcome) (fun _ heq => ⟨_, hi, heq⟩) hc hcleanup)
    · cases h
  | lose i o =>
    simp only [State.step, State.lose] at h
    split at h
    · rename_i outcome k hi
      obtain ⟨_, h⟩ := Option.ite_none_right_eq_some.mp h
      obtain ⟨q, _, rfl⟩ := Option.map_eq_some_iff.mp h
      exact Or.inl (cleanup_moved (.unawaited outcome) (fun _ heq => ⟨_, hi, heq⟩) hc hcleanup)
    · cases h
  | abandon i =>
    simp only [State.step, State.abandon] at h
    split at h
    · obtain ⟨k, _, rfl⟩ := Option.map_eq_some_iff.mp h
      exact Or.inl (cleanup_moved _ (fun _ h => (by cases h)) hc hcleanup)
    · cases h

end Sound

/-- The container is shut down behind the queue, and whoever has called is told of both. -/
theorem container_stops_after_cleanup {cfg : Cleanup.Config} {ccfg : Container.Config} {s : State}
    (hs : (machine cfg ccfg).Reachable s) :
    (∀ d ∈ s.container.callers, d.kind = .owned → d.stage ≠ .locking → d.stage ≠ .abandoned →
      s.queue.databaseAdmissionClosed = true ∧ Emptied s.queue ∧
        ∀ n, 1 ≤ n → n ≤ s.queue.submission.nextSequence → n ∈ s.queue.executedSequences) ∧
    (∀ call ∈ s.calls, ∀ o, call.stage = .finished o → call.result? = some o.finish ∧
      ∃ e : Container.Ended, s.container.worker = .ended e ∧ (o.shutdown = .ok () ∨ o.shutdown = e.joined) ∧
        ∀ f ∈ o.cleanup.carried, f ∈ s.queue.history.delivered) ∧
    (∀ a t, s.step cfg ccfg a = some t → ∀ (c : Nat) (call : Call) (cleanup : CleanupDrainOutcome),
      t.calls[c]? = some call → call.stage.cleanup? = some cleanup →
      (∃ before, s.calls[c]? = some before ∧ before.stage.cleanup? = some cleanup) ∨
        a = .queue .returnDrain ∧ s.holder = some c ∧ ∃ d, s.queue.draining = some (d, .taken cleanup)) ∧
    ∀ (i j : Nat) (call other : Call) (o o' : OwnedShutdownOutcome), s.calls[i]? = some call →
      s.calls[j]? = some other → call.stage = .finished o → other.stage = .finished o' → o.shutdown ≠ .ok () →
        o'.shutdown ≠ .ok () → i = j := by
  have hsound := sound hs
  obtain ⟨hqueue, hcontainer⟩ := parts hs
  refine ⟨fun d hd hkind hlocking habandoned => ?_, fun call hcall o hstage => ?_,
    fun a t hstep c call cleanup => cleanup_step hstep,
    fun i j call other o o' hi hj ho ho' hfailed hfailed' => ?_⟩
  · obtain ⟨hadmission, hemptied⟩ := hsound.drained hd hkind hlocking habandoned
    exact ⟨hadmission, hemptied, fun n hlow hhigh => hemptied.executed hqueue hlow hhigh⟩
  · have hknown := hsound.calls call hcall
    obtain ⟨d, hd, _, _, _, hreturned⟩ := hknown.caller
    obtain ⟨_, e, hworker, heq⟩ := (Container.taken hcontainer).returned d (List.mem_of_getElem? hd) o.shutdown
      (hreturned o (by rw [hstage]; rfl))
    refine ⟨by rw [Call.result?, hstage], e, hworker, ?_, hknown.delivered o hstage⟩
    split at heq
    · exact Or.inr heq
    · exact Or.inl heq
  · cases he : o.shutdown with
    | ok _ => exact absurd he hfailed
    | error e =>
      cases he' : o'.shutdown with
      | ok _ => exact absurd he' hfailed'
      | error e' => exact hsound.reported hcontainer hi hj (by rw [ho]; rfl) (by rw [ho']; rfl) he he'

/-- A job that may have left its database, and a removal that fails. -/
def failsTwice : List Action :=
  Container.exampleStart.map Action.container ++
    [.queue (.submit "a".toList .deferred false .backpressured), .shutdown, .queue (.nextJob 0),
      .closeAdmission 0, .beginDrain 0, .queue (.enterDrain 0), .queue .fixTarget,
      .queue (.operationReturns 0 (.residualPossible .connectionBudgetClosed)), .queue (.checkResidual 0),
      .queue (.dropPermit 0), .queue (.settle 0), .queue (.complete 0), .queue (.releaseGuard 0),
      .queue (.nextJob 0), .queue .take, .queue .returnDrain, .container (.lock 0), .container .unpark,
      .container (.remove (.error ⟨"busy".toList⟩)), .container (.join 0), .settle 0, .finish 0 0]

theorem container_stops_after_cleanup_twice : ∃ s, (machine ⟨1, 1⟩ Container.exampleConfig).Reachable s ∧
    s.calls.map Call.result? = [some (.error (.cleanupAndContainerShutdown
      [⟨"a".toList, .connectionBudgetClosed⟩] (.containerRemove ⟨"busy".toList⟩)))] ∧
    Emptied s.queue ∧ 1 ∈ s.queue.executedSequences := by
  have hrun : ((machine ⟨1, 1⟩ Container.exampleConfig).run (.initial ⟨1, 1⟩) failsTwice).any (fun s =>
      decide (s.calls.map Call.result? = [some (.error (.cleanupAndContainerShutdown
        [⟨"a".toList, .connectionBudgetClosed⟩] (.containerRemove ⟨"busy".toList⟩)))]) &&
      decide (s.container.callers =
        [⟨.owned, .returned (.error (.containerRemove ⟨"busy".toList⟩)), true, true⟩]) &&
      s.queue.submission.nextSequence == 1) = true := by
    decide +kernel
  obtain ⟨s, hs, hfacts⟩ := (Option.any_eq_true _ _).mp hrun
  obtain ⟨hfacts, hsequence⟩ := Bool.and_eq_true_iff.mp hfacts
  obtain ⟨hcalls, hcallers⟩ := Bool.and_eq_true_iff.mp hfacts
  have hcallers := of_decide_eq_true hcallers
  have hreachable := Machine.reachable_of_run (m := machine ⟨1, 1⟩ Container.exampleConfig) failsTwice rfl hs
  have hcaller := (container_stops_after_cleanup hreachable).1 _ (hcallers ▸ List.mem_cons_self) rfl
    (fun h => by cases h) (fun h => by cases h)
  exact ⟨s, hreachable, of_decide_eq_true hcalls, hcaller.2.1,
    hcaller.2.2 1 (Nat.le_refl 1) (Nat.le_of_eq (beq_iff_eq.mp hsequence).symm)⟩

end PostgresTestHarness.TerminalShutdown
