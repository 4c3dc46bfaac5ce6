import PostgresTestHarness.Cleanup.Barrier

/-! The end of the queue.

Everybody who has a strong reference to the queue gives it up last: a worker completes its job
before it drops the guard, an outcome acknowledges, restores or records before it drops its own.
`Owned` adds to the queue the references that are about to be dropped, and the destructor, which
runs on the thread that drops the last one. It finds nothing to wait for. -/
namespace PostgresTestHarness.Cleanup

structure Owned where
  queue : State
  /-- References of outcomes that have been finished or dropped, on their way out. -/
  spent : Nat
  /-- The thread of the destructor while it runs: a worker's, or another. -/
  destructor : Option (Option Nat)

inductive OwnedAction where
  | act (a : Action)
  | dropSpent
  | joinWorkers

/-- The references that an action leaves to be dropped. -/
def State.spends (s : State) : Action → Nat
  | .finishOutcome i | .dropOutcome i =>
    if s.outcomes[i]?.any fun o => o.failures.isSome then 1 else 0
  | .readReceiver sequence | .dropReceiver sequence =>
    if (s.awaited.find? fun o => o.sequence == sequence).any fun o => o.failure?.isSome then 1 else 0
  | _ => 0

/-- The thread that gives up a reference in an action. -/
def Action.thread : Action → Option Nat
  | .releaseGuard i => some i
  | _ => none

namespace Owned

def initial (cfg : Config) : Owned := ⟨.initial cfg, 0, none⟩

/-- The destructor starts where the last reference goes. -/
def released (g : Owned) (thread : Option Nat) : Owned :=
  if g.spent = 0 then
    match g.queue.destroy with
    | some queue => { g with queue, destructor := some thread }
    | none => g
  else g

/-- What is not the destructor's to do: a worker that runs it does not look for jobs. -/
def mayAct (g : Owned) : Action → Bool
  | .destroy => false
  | .nextJob i => g.destructor != some (some i)
  | _ => true

/-- The workers that the destructor waits for have exited. -/
def joined (g : Owned) (current : Option Nat) : Bool :=
  (List.range g.queue.workers.length).all fun i => current == some i || g.queue.workers[i]? == some .exited

def step (cfg : Config) (g : Owned) : OwnedAction → Option Owned
  | .act a =>
    if g.mayAct a then
      (g.queue.step cfg a).map fun queue =>
        released { g with queue, spent := g.spent + g.queue.spends a } a.thread
    else none
  | .dropSpent => if g.spent = 0 then none else some (released { g with spent := g.spent - 1 } none)
  | .joinWorkers =>
    match g.destructor with
    | some current =>
      if g.queue.draining.isNone && g.joined current then some { g with destructor := none } else none
    | none => none

end Owned

def owned (cfg : Config) : Machine Owned OwnedAction where
  initial g := g = .initial cfg
  step := Owned.step cfg

section Ended
variable {cfg : Config} {a : Action} {s t : State}

/-- How far the destructor is with the completion state. -/
def Ending (s : State) : Prop :=
  match s.draining with
  | some (call, .entered) => call.kind = .destructor
  | some (call, .waiting target) =>
    call.kind = .destructor ∧ s.submission.closed = true ∧ target = s.submission.nextSequence
  | some (call, .taken _) => call.kind = .destructor ∧ s.submission.closed = true ∧ s.completion.failures = []
  | none => s.submission.closed = true ∧ s.completion.failures = []

/-- What is left once all references are gone: nothing that could use the queue. -/
structure Ended (s : State) : Prop where
  handles : s.handles = 0
  jobs : s.submission.jobs = []
  workers : ∀ w ∈ s.workers, w.job? = none
  awaited : ∀ o ∈ s.awaited, o.failure? = none
  callers : s.callers = []
  outcomes : ∀ o ∈ s.outcomes, o.failures = none
  ending : Ending s

theorem unreferenced (h : s.referenced = false) : s.handles = 0 ∧ s.submission.jobs = [] ∧
    (∀ w ∈ s.workers, w.job? = none) ∧ (∀ o ∈ s.awaited, o.failure? = none) ∧ s.callers = [] ∧
    ∀ o ∈ s.outcomes, o.failures = none := by
  simp only [State.referenced, Bool.or_eq_false_iff, decide_eq_false_iff_not, Nat.not_lt, Nat.le_zero,
    Bool.not_eq_false', List.isEmpty_iff, List.any_eq_false, Bool.not_eq_true, Option.isSome_eq_false_iff,
    Option.isNone_iff_eq_none] at h
  obtain ⟨⟨⟨⟨⟨⟨hhandles, hjobs⟩, hworkers⟩, hawaited⟩, hcallers⟩, _⟩, houtcomes⟩ := h
  exact ⟨hhandles, hjobs, hworkers, hawaited, hcallers, houtcomes⟩

theorem ended_destroy (h : s.destroy = some t) : Ended t := by
  obtain ⟨hnot, heq⟩ := Option.ite_none_left_eq_some.mp h
  cases heq
  rw [Bool.or_eq_true, not_or, Bool.not_eq_true] at hnot
  obtain ⟨hhandles, hjobs, hworkers, hawaited, hcallers, houtcomes⟩ := unreferenced hnot.1
  exact ⟨hhandles, hjobs, hworkers, hawaited, hcallers, houtcomes, rfl⟩

/-- A worker without a job has left, or looks for one. -/
theorem idle_or_exited {w : Worker} (h : w.job? = none) : w = .idle ∨ w = .exited := by
  cases w with
  | idle => exact Or.inl rfl
  | exited => exact Or.inr rfl
  | _ => cases h

/-- All numbers are completed once no job is left. -/
theorem completed_of_ended (hs : (machine cfg).Reachable s) (hjobs : s.submission.jobs = [])
    (hworkers : ∀ w ∈ s.workers, w.job? = none) : s.completion.completedThrough = s.submission.nextSequence := by
  have horder := inOrder hs
  have hnext := horder.next
  rw [hjobs, List.length_nil, Nat.add_zero] at hnext
  have hexact := (execution hs).exact
  have hnone : s.workers.flatMap Worker.uncompleted = [] := by
    rw [List.flatMap_eq_nil_iff]
    intro w hw
    rcases idle_or_exited (hworkers w hw) with rfl | rfl <;> rfl
  have hdone : ∀ q, q ∈ s.history.completed ↔ 1 ≤ q ∧ q ≤ s.submission.nextSequence := by
    intro q
    have hledger := (execution hs).completed q
    rw [hnone, List.count_nil, Nat.zero_add] at hledger
    rw [← List.count_pos_iff, ← hledger, List.count_pos_iff, horder.started, List.mem_range'_1, hnext]
    omega
  -- the prefix ends where the numbers end
  refine Nat.le_antisymm ?_ ?_
  · by_contra hlt
    have hover := (hdone _).mp (hexact.done_of_le (n := s.completion.completedThrough) (by omega) (Nat.le_refl _))
    omega
  · by_contra hlt
    rcases (hexact.mem (s.completion.completedThrough + 1)).mp ((hdone _).mpr ⟨by omega, by omega⟩) with hle | hbeyond
    · omega
    · exact hexact.gap hbeyond

/-- A failure that is known is one of an accepted job. -/
theorem stored_le (hs : (machine cfg).Reachable s) {f : SequencedFailure} (hf : f ∈ s.completion.failures) :
    f.sequence ≤ s.submission.nextSequence := by
  have hplace : f ∈ s.failuresAt .stored := hf
  obtain ⟨job, outcome, hmem, hsequence, _⟩ := ((custody_invariant cfg).holds hs).honest.failures f (mem_known hplace)
  rw [← hsequence]
  exact (executed_range hs hmem).2

theorem ended_step (hs : (machine cfg).Reachable s) (h : Transition cfg s a t) (he : Ended s) (hdestroyed : s.destroyed = true) :
    Ended t := by
  have hbusy : ∀ {i : Nat} {w : Worker}, s.workers[i]? = some w → w.job?.isSome = true → False := by
    intro i w hw hjob
    rw [he.workers w (List.mem_of_getElem? hw)] at hjob
    cases hjob
  have hhandle : 0 < s.handles → False := fun hpos => by
    rw [he.handles] at hpos
    exact Nat.lt_irrefl 0 hpos
  have hending := he.ending
  cases h with
  | accept _ _ _ _ handle => exact (hhandle handle).elim
  | reject _ _ _ _ handle => exact (hhandle handle).elim
  | call _ handle => exact (hhandle handle).elim
  | clone handle => exact (hhandle handle).elim
  | unhandle handle => exact (hhandle handle).elim
  | start _ _ _ _ jobs =>
    rw [he.jobs] at jobs
    cases jobs
  | operation _ _ _ _ _ worker => exact (hbusy worker rfl).elim
  | check _ _ _ worker => exact (hbusy worker rfl).elim
  | permit _ _ _ worker => exact (hbusy worker rfl).elim
  | send _ _ _ worker => exact (hbusy worker rfl).elim
  | sendBack _ _ _ worker => exact (hbusy worker rfl).elim
  | defer _ _ _ worker => exact (hbusy worker rfl).elim
  | complete _ _ _ worker => exact (hbusy worker rfl).elim
  | release _ _ worker => exact (hbusy worker rfl).elim
  | exit i worker jobs closed =>
    refine ⟨he.handles, he.jobs, fun w hw => ?_, he.awaited, he.callers, he.outcomes, hending⟩
    rcases Ledger.mem_of_set hw with rfl | hw
    · rfl
    · exact he.workers w hw
  | read sequence o receiver sent =>
    exact ⟨he.handles, he.jobs, he.workers, fun o ho => he.awaited o (List.mem_of_mem_filter ho), he.callers, he.outcomes,
      hending⟩
  | dropSent sequence o receiver sent =>
    have hnone := he.awaited o (List.mem_of_find?_eq_some sent)
    have hsame : o.drop s.completion = s.completion := by
      rw [AwaitedCleanupOutcome.drop, hnone]
    refine ⟨he.handles, he.jobs, he.workers, fun o ho => he.awaited o (List.mem_of_mem_filter ho), he.callers,
      he.outcomes, ?_⟩
    show Ending { s with receivers := _, awaited := _, completion := o.drop s.completion }
    rw [hsame]
    exact hending
  | dropUnsent => exact ⟨he.handles, he.jobs, he.workers, he.awaited, he.callers, he.outcomes, hending⟩
  | admission => exact ⟨he.handles, he.jobs, he.workers, he.awaited, he.callers, he.outcomes, hending⟩
  | enter i call free caller =>
    rw [he.callers] at caller
    cases caller
  | target call entered kind =>
    rw [Ending, entered] at hending
    cases kind.symm.trans hending
  | close call entered kind =>
    rw [Ending, entered] at hending
    exact ⟨he.handles, he.jobs, he.workers, he.awaited, he.callers, he.outcomes, hending, rfl, rfl⟩
  | take call target waiting ready =>
    rw [Ending, waiting] at hending
    obtain ⟨hkind, hclosed, rfl⟩ := hending
    refine ⟨he.handles, he.jobs, he.workers, he.awaited, he.callers, he.outcomes, hkind, hclosed, ?_⟩
    show (s.completion.take _).2.failures = []
    rw [s.completion.take_failures, CompletionStateInner.retained, List.filter_eq_nil_iff]
    intro f hf
    simpa using stored_le hs hf
  | hand call outcome taken kind =>
    rw [Ending, taken] at hending
    exact absurd hending.1 kind
  | log call outcome taken kind =>
    rw [Ending, taken] at hending
    exact ⟨he.handles, he.jobs, he.workers, he.awaited, he.callers, he.outcomes, hending.2.1,
      (outcome.acknowledge_failures _).trans hending.2.2⟩
  | finish i outcome held =>
    have hnone := he.outcomes outcome (List.mem_of_getElem? held)
    have hsame : outcome.acknowledge s.completion = s.completion := by
      rw [CleanupDrainOutcome.acknowledge, hnone]
    refine ⟨he.handles, he.jobs, he.workers, he.awaited, he.callers,
      fun o ho => he.outcomes o (List.mem_of_mem_eraseIdx ho), ?_⟩
    show Ending { s with outcomes := _, completion := outcome.acknowledge s.completion, history := _ }
    rw [hsame]
    exact hending
  | restore i outcome held =>
    have hnone := he.outcomes outcome (List.mem_of_getElem? held)
    have hsame : outcome.drop s.completion = s.completion := by
      rw [CleanupDrainOutcome.drop, hnone]
    refine ⟨he.handles, he.jobs, he.workers, he.awaited, he.callers,
      fun o ho => he.outcomes o (List.mem_of_mem_eraseIdx ho), ?_⟩
    show Ending { s with outcomes := _, completion := outcome.drop s.completion }
    rw [hsame]
    exact hending
  | destroy alone first =>
    rw [hdestroyed] at first
    cases first

end Ended

section Owned
variable {cfg : Config} {g g' : Owned}

/-- A reference that goes is the last one, or is not. -/
theorem released_cases (g : Owned) (thread : Option Nat) :
    (g.released thread = g ∧ (g.spent = 0 → g.queue.referenced = false → g.queue.destroyed = true)) ∨
      ∃ queue, g.queue.destroy = some queue ∧ g.released thread = { g with queue, destructor := some thread } := by
  rw [Owned.released]
  split
  · cases hdestroy : g.queue.destroy with
    | some queue => exact Or.inr ⟨queue, rfl, rfl⟩
    | none =>
      refine Or.inl ⟨rfl, fun _ hreferenced => ?_⟩
      cases hdestroyed : g.queue.destroyed with
      | true => rfl
      | false =>
        rw [State.destroy, hreferenced, hdestroyed] at hdestroy
        cases hdestroy
  · rename_i hspent
    exact Or.inl ⟨rfl, fun hzero => absurd hzero hspent⟩

theorem destroy_destroyed {s t : State} (h : s.destroy = some t) : t.destroyed = true := by
  obtain ⟨_, heq⟩ := Option.ite_none_left_eq_some.mp h
  cases heq
  rfl

/-- What holds between two steps. -/
structure Attended (cfg : Config) (g : Owned) : Prop where
  reachable : (machine cfg).Reachable g.queue
  ended : g.queue.destroyed = true → Ended g.queue
  running : ∀ current, g.destructor = some current → g.queue.destroyed = true
  prompt : g.spent = 0 → g.queue.referenced = false → g.queue.destroyed = true

theorem attended_released (thread : Option Nat) (hreach : (machine cfg).Reachable g.queue)
    (hended : g.queue.destroyed = true → Ended g.queue)
    (hrunning : ∀ current, g.destructor = some current → g.queue.destroyed = true) :
    Attended cfg (g.released thread) := by
  rcases released_cases g thread with ⟨heq, hprompt⟩ | ⟨queue, hdestroy, heq⟩
  · rw [heq]
    exact ⟨hreach, hended, hrunning, hprompt⟩
  · rw [heq]
    exact ⟨hreach.next .destroy hdestroy, fun _ => ended_destroy hdestroy, fun _ _ => destroy_destroyed hdestroy,
      fun _ _ => destroy_destroyed hdestroy⟩

theorem destroyed_stays {a : Action} {s t : State} (h : Transition cfg s a t) (hs : s.destroyed = true) :
    t.destroyed = true := by
  cases h with
  | destroy => rfl
  | _ => exact hs

/-- Only the end of the queue destroys it. -/
theorem destroyed_before {a : Action} {s t : State} (h : Transition cfg s a t) (ha : a ≠ .destroy) (ht : t.destroyed = true) :
    s.destroyed = true := by
  cases h with
  | destroy => exact absurd rfl ha
  | _ => exact ht

theorem attended (hs : (owned cfg).Reachable g) : Attended cfg g := by
  refine Machine.Invariant.holds (m := owned cfg) ⟨?_, fun g a g' _ ih h => ?_⟩ hs
  · intro g heq
    obtain rfl := heq
    exact ⟨.start rfl, nofun, nofun, fun _ hreferenced => by cases hreferenced⟩
  · cases a with
    | act a =>
      obtain ⟨hmay, h⟩ := Option.ite_none_right_eq_some.mp h
      obtain ⟨queue, hqueue, rfl⟩ := Option.map_eq_some_iff.mp h
      have htransition := step_transition cfg _ _ _ hqueue
      have hother : a ≠ .destroy := by
        intro heq
        obtain rfl := heq
        cases hmay
      refine attended_released _ (ih.reachable.next a hqueue) (fun hdestroyed => ?_) fun current hcurrent => ?_
      · have hbefore := destroyed_before htransition hother hdestroyed
        exact ended_step ih.reachable htransition (ih.ended hbefore) hbefore
      · exact destroyed_stays htransition (ih.running current hcurrent)
    | dropSpent =>
      obtain ⟨_, heq⟩ := Option.ite_none_left_eq_some.mp h
      cases heq
      exact attended_released _ ih.reachable ih.ended ih.running
    | joinWorkers =>
      change (match g.destructor with | some current => _ | none => none) = some g' at h
      split at h
      · obtain ⟨_, heq⟩ := Option.ite_none_right_eq_some.mp h
        cases heq
        exact ⟨ih.reachable, ih.ended, nofun, ih.prompt⟩
      · cases h

/-- A step of the queue once it is destroyed. -/
theorem act_ended {a : Action} {queue : State} (hdestroyed : g.queue.destroyed = true)
    (hmay : g.mayAct a = true) (hstep : g.queue.step cfg a = some queue) : ∃ g', (owned cfg).step g (.act a) = some g' ∧
      g'.queue = queue := by
  refine ⟨_, (if_pos hmay).trans (congrArg (Option.map _) hstep), ?_⟩
  have hstays := destroyed_stays (step_transition cfg _ _ _ hstep) hdestroyed
  rcases released_cases { g with queue, spent := g.spent + g.queue.spends a } a.thread with ⟨heq, _⟩ | ⟨_, hagain, _⟩
  · exact congrArg Owned.queue heq
  · rw [State.destroy, show State.destroyed _ = true from hstays, Bool.or_true, if_pos rfl] at hagain
    cases hagain

/-- A job that has failed. -/
def State.failed (s : State) (f : SequencedFailure) : Prop :=
  ∃ job outcome e, (job, outcome) ∈ s.history.executed ∧ outcome.error? = some e ∧
    f = ⟨job.sequence, ⟨job.databaseName, e⟩⟩

/-- What the destructor finds and does, on the thread `current`. -/
structure LastRelease (cfg : Config) (g : Owned) (current : Option Nat) : Prop where
  completed : g.queue.completion.completedThrough = g.queue.submission.nextSequence
  /-- No worker has a job, or will get one. -/
  jobs : g.queue.submission.jobs = []
  workers : ∀ w ∈ g.queue.workers, w = .idle ∨ w = .exited
  enters : ∀ call, g.queue.draining = some (call, .entered) →
    g.queue.completion.failureDeliveryInFlight = false ∧ ((owned cfg).step g (.act .fixTarget)).isSome = true
  /-- `wait_and_take` returns without waiting, with all that is recorded. -/
  takes : ∀ call target, g.queue.draining = some (call, .waiting target) →
    g.queue.submission.closed = true ∧ target = g.queue.submission.nextSequence ∧
      g.queue.completion.failureDeliveryInFlight = false ∧ g.queue.completion.mustWait target = false ∧
      ∃ g' outcome, (owned cfg).step g (.act .take) = some g' ∧ g'.queue.draining = some (call, .taken outcome) ∧
        outcome.carried.Perm g.queue.completion.failures ∧ g'.queue.completion.failures = []
  /-- What it has taken is logged. -/
  logs : ∀ call outcome, g.queue.draining = some (call, .taken outcome) → g.queue.completion.failures = [] ∧
    ∃ g', (owned cfg).step g (.act .returnDrain) = some g' ∧ g'.queue.draining = none ∧
      g'.queue.history.delivered = g.queue.history.delivered ++ outcome.carried
  /-- A failure is delivered, or still to be taken, or taken. -/
  accounted : ∀ f, g.queue.failed f → f ∈ g.queue.history.delivered ∨ f ∈ g.queue.completion.failures ∨
    ∃ call outcome, g.queue.draining = some (call, .taken outcome) ∧ f ∈ outcome.carried
  told : g.queue.draining = none → ∀ f, g.queue.failed f → f ∈ g.queue.history.delivered
  /-- A worker that it waits for leaves at its next turn. -/
  exits : ∀ i, g.queue.submission.closed = true → current ≠ some i → g.queue.workers[i]? = some .idle →
    ∃ g', (owned cfg).step g (.act (.nextJob i)) = some g' ∧ g'.queue.workers[i]? = some .exited
  ends : g.queue.draining = none → g.queue.submission.closed = true ∧
    (g.joined current = true → ((owned cfg).step g .joinWorkers).isSome = true)

theorem accounted_of_ended (hs : (machine cfg).Reachable g.queue) (he : Ended g.queue) {f : SequencedFailure}
    (hf : g.queue.failed f) : f ∈ g.queue.history.delivered ∨ f ∈ g.queue.completion.failures ∨
      ∃ call outcome, g.queue.draining = some (call, .taken outcome) ∧ f ∈ outcome.carried := by
  obtain ⟨job, outcome, e, hmem, herror, rfl⟩ := hf
  obtain ⟨_, place, hcount, hplace⟩ := (failure_exactly_once cfg _ hs).kept job outcome e hmem herror
  cases place with
  | notProduced =>
    have hnone : g.queue.workers.flatMap Worker.unproduced = [] := by
      rw [List.flatMap_eq_nil_iff]
      intro w hw
      rcases idle_or_exited (he.workers w hw) with rfl | rfl <;> rfl
    rw [countAt_notProduced, he.jobs, hnone] at hcount
    cases hcount
  | awaited =>
    obtain ⟨o, ho, hcarried⟩ := List.mem_flatMap.mp (hplace nofun)
    rw [AwaitedCleanupOutcome.carried, he.awaited o ho] at hcarried
    cases hcarried
  | stored => exact Or.inr (Or.inl (hplace nofun))
  | delivered => exact Or.inl (hplace nofun)
  | inFlight =>
    obtain ⟨o, ho, hcarried⟩ := List.mem_flatMap.mp (hplace nofun)
    rcases List.mem_append.mp ho with ho | ho
    · cases hdraining : g.queue.draining with
      | none =>
        rw [hdraining] at ho
        cases ho
      | some current =>
        obtain ⟨call, stage⟩ := current
        rw [hdraining] at ho
        cases stage with
        | taken outcome' =>
          rw [inHand_taken, List.mem_singleton] at ho
          exact Or.inr (Or.inr ⟨call, outcome', rfl, ho ▸ hcarried⟩)
        | entered => cases ho
        | waiting target => cases ho
    · rw [CleanupDrainOutcome.carried, he.outcomes o ho] at hcarried
      cases hcarried

/-- No delivery is in flight before the destructor takes one. -/
theorem not_inFlight (hs : (machine cfg).Reachable g.queue) (he : Ended g.queue) (hhand : inHand g.queue.draining = []) :
    g.queue.completion.failureDeliveryInFlight = false := by
  rw [(failure_exactly_once cfg _ hs).inFlight, State.drainOutcomes, hhand, List.nil_append, List.any_eq_false]
  intro o ho
  rw [he.outcomes o ho]
  exact Bool.false_ne_true

/-- Where the last reference goes the destructor begins, on whatever thread; it does not wait for
a job or a delivery, takes and logs every failure that nobody was told of, and the workers that
it joins have nothing left to do. -/
theorem destructor_does_not_wait (hs : (owned cfg).Reachable g) :
    (g.spent = 0 → g.queue.referenced = false → g.queue.destroyed = true) ∧
      ∀ current, g.destructor = some current → LastRelease cfg g current := by
  have ha := attended hs
  refine ⟨ha.prompt, fun current hcurrent => ?_⟩
  have hdestroyed := ha.running current hcurrent
  have he := ha.ended hdestroyed
  have hcompleted := completed_of_ended ha.reachable he.jobs he.workers
  have hending := he.ending
  refine ⟨hcompleted, he.jobs, fun w hw => idle_or_exited (he.workers w hw), fun call hentered => ?_,
    fun call target hwaiting => ?_, fun call outcome htaken => ?_, fun f hf => accounted_of_ended ha.reachable he hf,
    fun hnone f hf => ?_, fun i hclosed hi hidle => ?_, fun hnone => ?_⟩
  · rw [Ending, hentered] at hending
    refine ⟨not_inFlight ha.reachable he (by rw [hentered]; rfl), ?_⟩
    have hstep : g.queue.step cfg .fixTarget = some { g.queue with
        submission := g.queue.submission.close.2
        draining := some (call, .waiting g.queue.submission.close.1) } := by
      show g.queue.fixTarget = _
      rw [State.fixTarget, hentered]
      simp only [hending]
    obtain ⟨g', hg', _⟩ := act_ended hdestroyed rfl hstep
    rw [hg']
    rfl
  · rw [Ending, hwaiting] at hending
    obtain ⟨_, hclosed, rfl⟩ := hending
    have hflag := not_inFlight ha.reachable he (by rw [hwaiting]; rfl)
    have hready : g.queue.completion.mustWait g.queue.submission.nextSequence = false := by
      rw [CompletionStateInner.mustWait, hflag, hcompleted, Bool.or_false, decide_eq_false_iff_not]
      exact Nat.lt_irrefl _
    have hstep : g.queue.step cfg .take = some { g.queue with
        completion := (g.queue.completion.take g.queue.submission.nextSequence).2
        draining := some (call, .taken (g.queue.completion.take g.queue.submission.nextSequence).1) } := by
      show g.queue.take = _
      rw [State.take, hwaiting]
      simp only [hready]
      rfl
    obtain ⟨outcome, houtcome, hperm, _, hlate⟩ := (take_returned ha.reachable hwaiting hstep).split
    obtain ⟨g', hg', hqueue⟩ := act_ended hdestroyed rfl hstep
    have hnone : g'.queue.completion.failures = [] := by
      rw [hqueue, List.eq_nil_iff_forall_not_mem]
      intro f hf
      have hlt := hlate f hf
      have hmem : f ∈ g.queue.completion.failures := hperm.subset (List.mem_append_right _ hf)
      exact absurd (stored_le ha.reachable hmem) (Nat.not_le.mpr hlt)
    refine ⟨hclosed, rfl, hflag, hready, g', outcome, hg', hqueue ▸ houtcome, ?_, hnone⟩
    rw [← hqueue, hnone, List.append_nil] at hperm
    exact hperm
  · rw [Ending, htaken] at hending
    obtain ⟨hkind, _, hnone⟩ := hending
    have hstep : g.queue.step cfg .returnDrain = some { g.queue with
        draining := none
        completion := outcome.acknowledge g.queue.completion
        history := { g.queue.history with
          delivered := g.queue.history.delivered ++ outcome.carried
          answers := g.queue.history.answers ++ [.drain outcome.finish] } } := by
      show g.queue.returnDrain = _
      rw [State.returnDrain, htaken]
      simp only [hkind]
    obtain ⟨g', hg', hqueue⟩ := act_ended hdestroyed rfl hstep
    exact ⟨hnone, g', hg', by rw [hqueue], by rw [hqueue]⟩
  · rw [Ending, hnone] at hending
    rcases accounted_of_ended ha.reachable he hf with hf | hf | ⟨call, outcome, htaken, _⟩
    · exact hf
    · rw [hending.2] at hf
      cases hf
    · rw [hnone] at htaken
      cases htaken
  · have hstep : g.queue.step cfg (.nextJob i) = some (g.queue.setWorker i .exited) := by
      show g.queue.nextJob i = _
      rw [State.nextJob, hidle, SubmissionState.nextJob, he.jobs, hclosed]
      rfl
    have hmay : g.mayAct (.nextJob i) = true := by
      show (g.destructor != some (some i)) = true
      rw [hcurrent, bne_iff_ne]
      exact fun heq => hi (Option.some.inj heq)
    obtain ⟨g', hg', hqueue⟩ := act_ended hdestroyed hmay hstep
    refine ⟨g', hg', ?_⟩
    rw [hqueue]
    exact List.getElem?_set_self (List.getElem?_eq_some_iff.mp hidle).1
  · rw [Ending, hnone] at hending
    refine ⟨hending.1, fun hjoined => ?_⟩
    show Option.isSome (match g.destructor with | some current => _ | none => none) = true
    rw [hcurrent]
    show Option.isSome (if _ then _ else none) = true
    rw [hnone, hjoined]
    rfl

/-- The last handle goes while worker 0 runs the last job, which fails. -/
def lastJob : List OwnedAction :=
  [.act (.submit "pth".toList .deferred true .backpressured), .act (.nextJob 0), .act .dropHandle,
    .act (.operationReturns 0 (.residualPossible .cleanupWorkerPanicked)), .act (.checkResidual 0),
    .act (.dropPermit 0), .act (.settle 0), .act (.complete 0), .act (.releaseGuard 0)]

theorem destructor_does_not_wait_worker : ∃ g, (owned ⟨2, 1⟩).run (.initial ⟨2, 1⟩) lastJob = some g ∧
    g.destructor = some (some 0) ∧ LastRelease ⟨2, 1⟩ g (some 0) := by
  refine ⟨_, rfl, rfl, ?_⟩
  exact (destructor_does_not_wait (Machine.reachable_of_run lastJob rfl rfl)).2 _ rfl

end Owned

end PostgresTestHarness.Cleanup
