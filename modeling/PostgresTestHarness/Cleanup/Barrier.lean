import PostgresTestHarness.Cleanup.Custody

/-! What the queue promises its submitters and its drains.

An accepted job waits, runs or has run, and only one of these, so it cannot be lost or
run twice; workers left to themselves run all of them. A drain's target is fixed after
the call began, and `wait_and_take` returns only when the completed prefix has reached
it, so that everything accepted before the call has been executed by then. -/
namespace PostgresTestHarness.Cleanup

/-- How many turns a worker takes at most before it needs another job. -/
def Worker.remaining : Worker → Nat
  | .exited => 0
  | .idle => 1
  | .releasing _ => 2
  | .completing _ _ => 3
  | .settling _ _ => 4
  | .admitted _ _ => 5
  | .executed _ _ => 6
  | .executing _ => 7

/-- A bound on the turns that the workers can take with the jobs that are there. -/
def State.work (s : State) : Nat :=
  8 * s.submission.jobs.length + (s.workers.map Worker.remaining).sum

/-- Whether the action is a worker's turn. -/
def Action.isWorkerTurn : Action → Bool
  | .nextJob _ | .operationReturns _ _ | .operationPanics _ | .checkResidual _ | .dropPermit _
  | .settle _ | .complete _ | .releaseGuard _ => true
  | _ => false

/-- Calls began before what has been accepted since, and targets are fixed after that. -/
structure CallsBegan (s : State) : Prop where
  callers : ∀ call ∈ s.callers, call.began ≤ s.submission.nextSequence
  draining : ∀ call stage, s.draining = some (call, stage) →
    call.began ≤ s.submission.nextSequence
  targets : ∀ call target, s.draining = some (call, .waiting target) →
    call.began ≤ target ∧ target ≤ s.submission.nextSequence

section Steps
variable {cfg : Config} {a : Action} {s t : State}

theorem nextSequence_mono (h : Transition cfg s a t) :
    s.submission.nextSequence ≤ t.submission.nextSequence := by
  cases h with
  | accept => exact Nat.le_succ _
  | _ => exact Nat.le_refl _

theorem callsBegan_step (h : Transition cfg s a t) (hs : CallsBegan s) : CallsBegan t := by
  have hmono := nextSequence_mono h
  obtain ⟨hcallers, hdraining, htargets⟩ := hs
  cases h with
  | accept =>
    refine ⟨fun call hc => (hcallers call hc).trans hmono,
      fun call stage hd => (hdraining call stage hd).trans hmono, fun call target hd => ?_⟩
    exact ⟨(htargets call target hd).1, (htargets call target hd).2.trans hmono⟩
  | call kind handle outside =>
    refine ⟨fun call hc => ?_, hdraining, htargets⟩
    rcases List.mem_append.mp hc with hc | hc
    · exact hcallers call hc
    · rw [List.mem_singleton.mp hc]
  | enter i call free caller =>
    refine ⟨fun call hc => hcallers call (List.mem_of_mem_eraseIdx hc), ?_, ?_⟩
    · intro _ _ hparts
      cases hparts
      exact hcallers call (List.mem_of_getElem? caller)
    · intro _ _ hparts
      cases hparts
  | target call entered kind | close call entered kind =>
    have hbegan := hdraining call _ entered
    refine ⟨hcallers, ?_, ?_⟩
    · intro _ _ hparts
      cases hparts
      exact hbegan
    · intro _ _ hparts
      cases hparts
      exact ⟨hbegan, Nat.le_refl _⟩
  | take call target waiting ready =>
    refine ⟨hcallers, ?_, ?_⟩
    · intro _ _ hparts
      cases hparts
      exact hdraining call _ waiting
    · intro _ _ hparts
      cases hparts
  | hand | log =>
    refine ⟨hcallers, ?_, ?_⟩
    · intro _ _ hparts
      cases hparts
    · intro _ _ hparts
      cases hparts
  | destroy alone first =>
    refine ⟨hcallers, ?_, ?_⟩
    · intro _ _ hparts
      cases hparts
      exact Nat.le_refl _
    · intro _ _ hparts
      cases hparts
  | _ => exact ⟨hcallers, hdraining, htargets⟩

/-- Rejections are final. -/
theorem rejected_grows (h : Transition cfg s a t) : s.history.rejected <+: t.history.rejected := by
  cases h with
  | reject => exact List.prefix_append _ _
  | _ => exact List.prefix_refl _

/-- A closed queue stays closed and numbers no further job. -/
theorem closed_step (h : Transition cfg s a t) (hc : s.submission.closed = true) :
    t.submission.closed = true ∧ t.submission.nextSequence = s.submission.nextSequence := by
  cases h with
  | accept name completion permit admission handle opened room =>
    rw [opened] at hc
    cases hc
  | close => exact ⟨rfl, rfl⟩
  | _ => exact ⟨hc, rfl⟩

/-- Every turn of a worker uses up work. -/
theorem work_lt {a : Action} (ha : a.isWorkerTurn = true) (hstep : s.step cfg a = some t) :
    t.work < s.work := by
  have hset : ∀ (i : Nat) (w w' : Worker), s.workers[i]? = some w → w'.remaining < w.remaining →
      t.workers = s.workers.set i w' → t.submission.jobs = s.submission.jobs → t.work < s.work := by
    intro i w w' hw hlt hworkers hjobs
    have := Ledger.sum_map_set Worker.remaining w' hw
    rw [State.work, State.work, hworkers, hjobs]
    omega
  cases a with
  | nextJob i =>
    simp only [State.step, State.nextJob, SubmissionState.nextJob] at hstep
    cases hw : s.workers[i]? with
    | none => simp [hw] at hstep
    | some w =>
      cases hj : s.submission.jobs with
      | cons job rest =>
        cases w <;> simp only [hw, hj, Option.some.injEq, reduceCtorEq] at hstep
        subst hstep
        have := Ledger.sum_map_set Worker.remaining (.executing job) hw
        simp only [State.work, State.setWorker, hj, List.length_cons, Worker.remaining] at this ⊢
        omega
      | nil =>
        cases hc : s.submission.closed with
        | false => cases w <;> simp [hw, hj, hc] at hstep
        | true =>
          cases w <;> simp only [hw, hj, hc, if_true, Option.some.injEq, reduceCtorEq] at hstep
          subst hstep
          exact hset i _ .exited hw Nat.one_pos rfl rfl
  | operationReturns i outcome | operationPanics i =>
    simp only [State.step, State.operationEnds] at hstep
    split at hstep
    · rename_i job hw
      cases hstep
      exact hset i _ (.executed job _) hw (Nat.lt_succ_self _) rfl rfl
    · cases hstep
  | checkResidual i =>
    simp only [State.step, State.checkResidual] at hstep
    split at hstep
    · rename_i job outcome hw
      cases hstep
      exact hset i _ (.admitted job outcome) hw (Nat.lt_succ_self _) rfl rfl
    · cases hstep
  | dropPermit i =>
    simp only [State.step, State.dropPermit] at hstep
    split at hstep
    · rename_i job outcome hw
      cases hstep
      exact hset i _ (.settling { job with permit := false } outcome) hw (Nat.lt_succ_self _) rfl rfl
    · cases hstep
  | settle i =>
    simp only [State.step, State.settle] at hstep
    split at hstep
    · rename_i job outcome hw
      cases hk : job.completion with
      | awaited =>
        simp only [hk] at hstep
        split at hstep
        · cases hstep
          exact hset i _ (.completing job none) hw (Nat.lt_succ_self _) rfl rfl
        · cases hstep
          exact hset i _ (.completing job none) hw (Nat.lt_succ_self _) rfl rfl
      | deferred =>
        simp only [hk, Option.some.injEq] at hstep
        subst hstep
        exact hset i _ (.completing job _) hw (Nat.lt_succ_self _) rfl rfl
    · cases hstep
  | complete i =>
    simp only [State.step, State.complete] at hstep
    split at hstep
    · rename_i job failure hw
      cases hstep
      exact hset i _ (.releasing job) hw (Nat.lt_succ_self _) rfl rfl
    · cases hstep
  | releaseGuard i =>
    simp only [State.step, State.releaseGuard] at hstep
    split at hstep
    · rename_i job hw
      cases hstep
      exact hset i _ .idle hw (Nat.lt_succ_self _) rfl rfl
    · cases hstep
  | _ => cases ha

/-- A worker that holds a job always has a turn to take. -/
theorem busy_worker_turn (cfg : Config) {i : Nat} {w : Worker} (hw : s.workers[i]? = some w)
    (hbusy : w.job?.isSome = true) :
    ∃ a, a.isWorkerTurn = true ∧ (s.step cfg a).isSome = true := by
  cases w with
  | idle | exited => cases hbusy
  | executing job =>
    refine ⟨.operationReturns i .succeeded, rfl, ?_⟩
    simp only [State.step, State.operationEnds, hw, Option.isSome_some]
  | executed job outcome =>
    refine ⟨.checkResidual i, rfl, ?_⟩
    simp only [State.step, State.checkResidual, hw, Option.isSome_some]
  | admitted job outcome =>
    refine ⟨.dropPermit i, rfl, ?_⟩
    simp only [State.step, State.dropPermit, hw, Option.isSome_some]
  | settling job outcome =>
    refine ⟨.settle i, rfl, ?_⟩
    simp only [State.step, State.settle, hw]
    split
    · split <;> rfl
    · rfl
  | completing job failure =>
    refine ⟨.complete i, rfl, ?_⟩
    simp only [State.step, State.complete, hw, Option.isSome_some]
  | releasing job =>
    refine ⟨.releaseGuard i, rfl, ?_⟩
    simp only [State.step, State.releaseGuard, hw, Option.isSome_some]

/-- With a job waiting, some worker has a turn: none has left. -/
theorem waiting_job_turn (cfg : Config) (hexits : ExitsDone s) (hworkers : s.workers ≠ [])
    (hjobs : s.submission.jobs ≠ []) :
    ∃ a, a.isWorkerTurn = true ∧ (s.step cfg a).isSome = true := by
  obtain ⟨w, rest, hcons⟩ := List.exists_cons_of_ne_nil hworkers
  have hw : s.workers[0]? = some w := by rw [hcons]; rfl
  cases hbusy : w.job?.isSome with
  | true => exact busy_worker_turn cfg hw hbusy
  | false =>
    cases w with
    | exited => exact absurd (hexits (List.mem_of_getElem? hw)).2 hjobs
    | idle =>
      obtain ⟨job, waiting, hjobs⟩ := List.exists_cons_of_ne_nil hjobs
      refine ⟨.nextJob 0, rfl, ?_⟩
      simp only [State.step, State.nextJob, SubmissionState.nextJob, hw, hjobs, Option.isSome_some]
    | _ => cases hbusy

end Steps

section Runs
variable {cfg : Config} {a : Action} {s t : State}

/-- The numbers of the jobs whose operation is over, in that order. -/
def State.executedSequences (s : State) : List Nat := s.history.executed.map (·.1.sequence)

/-- The numbers of the jobs whose operation a worker is running. -/
def State.runningSequences (s : State) : List Nat :=
  (s.workers.flatMap Worker.running).map (·.sequence)

def State.waitingSequences (s : State) : List Nat := s.submission.jobs.map (·.sequence)

/-- Started jobs run or have run. -/
theorem count_started (hs : (machine cfg).Reachable s) (q : Nat) :
    (s.history.started.map (·.sequence)).count q =
      s.runningSequences.count q + s.executedSequences.count q := by
  have hperm : s.history.started.Perm
      (s.workers.flatMap Worker.running ++ s.history.executed.map Prod.fst) := by
    rw [List.perm_iff_count]
    intro job
    rw [List.count_append]
    exact (execution hs).started job
  rw [(hperm.map (·.sequence)).count_eq, List.map_append, List.count_append, List.map_map]
  rfl

theorem one_phase (hs : (machine cfg).Reachable s) (q : Nat) :
    s.waitingSequences.count q + s.runningSequences.count q + s.executedSequences.count q =
      if 1 ≤ q ∧ q ≤ s.submission.nextSequence then 1 else 0 := by
  have horder := inOrder hs
  have hstarted := count_started hs q
  have hnext := horder.next
  rw [horder.count_started q] at hstarted
  have hwaiting : s.waitingSequences.count q = _ :=
    (congrArg (List.count q) horder.waiting).trans (Ledger.count_range' _ _ q)
  rw [hwaiting]
  split_ifs at hstarted ⊢ <;> omega

/-- A number passed to `complete` belongs to a job whose operation is over. -/
theorem executed_of_completed (hs : (machine cfg).Reachable s) {q : Nat}
    (hq : q ∈ s.history.completed) : q ∈ s.executedSequences := by
  have hcompleted := (execution hs).completed q
  have hone := List.nodup_iff_count_le_one.mp (started_nodup hs) q
  have hpos : 0 < s.history.completed.count q := List.count_pos_iff.mpr hq
  have hstarted := count_started hs q
  have hrunning : s.runningSequences.count q ≤ (s.workers.flatMap Worker.uncompleted).count q := by
    apply List.Sublist.count_le
    rw [State.runningSequences, List.map_flatMap]
    apply List.Sublist.flatMap_right
    intro w _
    cases w <;> simp [Worker.running, Worker.uncompleted]
  exact List.count_pos_iff.mp (by omega)

theorem callsBegan (hs : (machine cfg).Reachable s) : CallsBegan s := by
  refine Machine.Invariant.holds (I := CallsBegan) ⟨?_, ?_⟩ hs
  · intro s heq
    obtain rfl := heq
    refine ⟨fun call hc => absurd hc List.not_mem_nil, ?_, ?_⟩
    · intro _ _ hparts
      cases hparts
    · intro _ _ hparts
      cases hparts
  · intro s a t _ hI hstep
    exact callsBegan_step (step_transition cfg s t a hstep) hI

theorem workers_nonempty (hs : (machine cfg).Reachable s) : s.workers ≠ [] := by
  have hlength : s.workers.length = max cfg.workerCount 1 := by
    refine Machine.Invariant.holds (I := fun s => s.workers.length = max cfg.workerCount 1)
      ⟨?_, ?_⟩ hs
    · intro s heq
      obtain rfl := heq
      exact List.length_replicate
    · intro s a t _ hI hstep
      exact (workers_length (step_transition cfg s t a hstep)).trans hI
  intro hnil
  rw [hnil] at hlength
  have : 1 ≤ max cfg.workerCount 1 := Nat.le_max_right _ _
  simp only [List.length_nil] at hlength
  omega

/-- While an accepted job has not been executed, some worker has a turn to take. -/
theorem unexecuted_turn (hs : (machine cfg).Reachable s) {q : Nat} (hlow : 1 ≤ q)
    (hhigh : q ≤ s.submission.nextSequence) (hq : q ∉ s.executedSequences) :
    ∃ a, a.isWorkerTurn = true ∧ (s.step cfg a).isSome = true := by
  have hphase := one_phase hs q
  rw [if_pos ⟨hlow, hhigh⟩, List.count_eq_zero.mpr hq] at hphase
  by_cases hwaiting : q ∈ s.waitingSequences
  · apply waiting_job_turn cfg (execution hs).exits (workers_nonempty hs)
    intro hnil
    rw [State.waitingSequences, hnil] at hwaiting
    cases hwaiting
  · have hrunning : q ∈ s.runningSequences := by
      have := List.count_eq_zero.mpr hwaiting
      exact List.count_pos_iff.mp (by omega)
    obtain ⟨job, hjob, _⟩ := List.mem_map.mp hrunning
    obtain ⟨w, hw, hmem⟩ := List.mem_flatMap.mp hjob
    obtain ⟨i, hi⟩ := List.mem_iff_getElem?.mp hw
    apply busy_worker_turn cfg hi
    cases w with
    | executing job => rfl
    | _ => cases hmem

/-- A run of workers' turns only cannot be longer than the work there is. -/
theorem turns_bounded {actions : List Action} (hturns : ∀ a ∈ actions, a.isWorkerTurn = true)
    (hrun : (machine cfg).run s actions = some t) : actions.length + t.work ≤ s.work := by
  induction actions generalizing s with
  | nil =>
    rw [Machine.run_nil, Option.some.injEq] at hrun
    rw [hrun, List.length_nil]
    omega
  | cons a rest ih =>
    rw [Machine.run_cons, Option.bind_eq_some_iff] at hrun
    obtain ⟨u, hu, hrest⟩ := hrun
    have hlt := work_lt (hturns a List.mem_cons_self) hu
    have := ih (fun b hb => hturns b (List.mem_cons_of_mem _ hb)) hrest
    rw [List.length_cons]
    omega

/-- What `wait_and_take` has done when it returns to `call`. -/
structure Returned (s t : State) (call : DrainCall) (target : Nat) : Prop where
  began : call.began ≤ target
  /-- Everything accepted before the call has been executed and completed. -/
  finished : ∀ q, 1 ≤ q → q ≤ call.began → q ∈ s.executedSequences ∧ q ∈ s.history.completed
  /-- The recorded failures are split at the target. -/
  split : ∃ outcome, t.draining = some (call, .taken outcome) ∧
    (outcome.carried ++ t.completion.failures).Perm s.completion.failures ∧
    (∀ f ∈ outcome.carried, f.sequence ≤ target) ∧
    ∀ f ∈ t.completion.failures, target < f.sequence
  /-- No other drain holds a failure back. -/
  undelivered : ∀ o ∈ s.drainOutcomes, o.carried = []

/-- Nothing is in flight when the delivery flag is down. -/
theorem OneDelivery.carried_nil (h : OneDelivery s)
    (hflag : s.completion.failureDeliveryInFlight = false) {o : CleanupDrainOutcome}
    (ho : o ∈ s.drainOutcomes) : o.carried = [] := by
  unfold OneDelivery at h
  rw [hflag, if_neg Bool.false_ne_true, List.countP_eq_zero] at h
  have hnone : o.failures = none := by simpa using h o ho
  rw [CleanupDrainOutcome.carried, hnone, Option.getD_none]

theorem take_returned (hs : (machine cfg).Reachable s) {call : DrainCall} {target : Nat}
    (hwaiting : s.draining = some (call, .waiting target)) (hstep : s.step cfg .take = some t) :
    Returned s t call target := by
  have hbegan := (callsBegan hs).targets call target hwaiting
  simp only [State.step, State.take, hwaiting] at hstep
  split at hstep
  · cases hstep
  rename_i hready
  have hready : s.completion.mustWait target = false := by simpa using hready
  rw [CompletionStateInner.mustWait, Bool.or_eq_false_iff, decide_eq_false_iff_not] at hready
  cases hstep
  refine ⟨hbegan.1, ?_, ⟨(s.completion.take target).1, rfl, ?_, ?_, ?_⟩, ?_⟩
  · intro q hlow hhigh
    have hdone := (execution hs).exact.done_of_le hlow (by omega)
    exact ⟨executed_of_completed hs hdone, hdone⟩
  · show ((s.completion.take target).1.carried ++ (s.completion.take target).2.failures).Perm _
    rw [s.completion.take_carried, s.completion.take_failures]
    exact ((CompletionStateInner.sortBySequence_perm _).append_right _).trans
      (List.filter_append_perm _ _)
  · intro f hf
    rw [s.completion.take_carried, (CompletionStateInner.sortBySequence_perm _).mem_iff] at hf
    exact of_decide_eq_true (List.mem_filter.mp hf).2
  · intro f hf
    have hf : f ∈ (s.completion.take target).2.failures := hf
    rw [s.completion.take_failures] at hf
    have := (List.mem_filter.mp hf).2
    simp only [Bool.not_eq_true', decide_eq_false_iff_not] at this
    omega
  · intro o ho
    exact ((custody_invariant cfg).holds hs).delivery.carried_nil hready.2 ho

/-- The queue's discipline, as every reachable state shows it. -/
structure Discipline (cfg : Config) (s : State) : Prop where
  /-- An accepted number waits, runs or has run, once; no other number does. -/
  once : ∀ q, s.waitingSequences.count q + s.runningSequences.count q +
    s.executedSequences.count q = if 1 ≤ q ∧ q ≤ s.submission.nextSequence then 1 else 0
  /-- Jobs start in the order of their numbers. -/
  ordered : s.history.started.map (·.sequence) = List.range' 1 s.history.started.length
  /-- Workers alone stop after so many turns, and then every accepted job has been
  executed. -/
  executes : ∀ actions t, (∀ a ∈ actions, a.isWorkerTurn = true) →
    (machine cfg).run s actions = some t → actions.length ≤ s.work ∧
      ((∀ a, a.isWorkerTurn = true → t.step cfg a = none) →
        ∀ q, 1 ≤ q → q ≤ t.submission.nextSequence → q ∈ t.executedSequences)
  /-- A rejected closure never starts, so it is never executed. -/
  rejected : ∀ op ∈ s.history.rejected, ∀ actions t, (machine cfg).run s actions = some t →
    op ∉ t.history.started.map (·.operation) ∧
      op ∉ t.history.executed.map fun e => e.1.operation
  /-- A drain that closes the queue closes it where it fixes its target, and after close nothing
  more is accepted. -/
  closes : ∀ call t, s.draining = some (call, .entered) → call.kind ≠ .drain →
    s.step cfg .fixTarget = some t → t.submission.closed = true
  closed : s.submission.closed = true → ∀ actions t, (machine cfg).run s actions = some t →
    t.submission.closed = true ∧ t.submission.nextSequence = s.submission.nextSequence
  /-- The prefix and the gap set are the completed numbers, apart from each other. -/
  completed : ∀ q, q ∈ s.history.completed ↔
    (1 ≤ q ∧ q ≤ s.completion.completedThrough) ∨ q ∈ s.completion.completedOutOfOrder
  apart : ∀ q ∈ s.completion.completedOutOfOrder, s.completion.completedThrough < q
  gap : s.completion.completedThrough + 1 ∉ s.completion.completedOutOfOrder
  barrier : ∀ call target t, s.draining = some (call, .waiting target) →
    s.step cfg .take = some t → Returned s t call target

theorem rejected_not_started (hs : (machine cfg).Reachable s) {op : Nat}
    (hop : op ∈ s.history.rejected) : op ∉ s.history.started.map (·.operation) := by
  have hledger := (execution hs).operations op
  have hpos : 0 < s.history.rejected.count op := List.count_pos_iff.mpr hop
  rw [← List.count_eq_zero]
  split at hledger <;> omega

theorem fixTarget_closes {call : DrainCall} (entered : s.draining = some (call, .entered)) (kind : call.kind ≠ .drain)
    (h : s.step cfg .fixTarget = some t) : t.submission.closed = true := by
  cases step_transition cfg s t .fixTarget h with
  | operation _ _ _ _ ended => cases ended
  | target other entered' kind' =>
    cases entered.symm.trans entered'
    exact absurd kind' kind
  | close other entered' kind' => rfl

/-- In every reachable state an accepted job has one phase, and jobs start in their order; workers alone
execute them all; a rejected closure never runs, and a closed queue accepts nothing; the completed numbers
are the prefix and the gap set; and a drain that returns has its barrier behind it. -/
theorem queue_discipline (cfg : Config) (s : State) (hs : (machine cfg).Reachable s) :
    Discipline cfg s := by
  have hexact := (execution hs).exact
  refine ⟨one_phase hs, (inOrder hs).started, ?_, ?_, fun call t => fixTarget_closes, ?_, hexact.mem, hexact.above,
    hexact.gap, fun call target t => take_returned hs⟩
  · intro actions t hturns hrun
    have hbounded := turns_bounded hturns hrun
    refine ⟨by omega, fun hstuck q hlow hhigh => ?_⟩
    by_contra hq
    obtain ⟨a, ha, hsome⟩ := unexecuted_turn (hs.run hrun) hlow hhigh hq
    rw [hstuck a ha] at hsome
    cases hsome
  · intro op hop actions t hrun
    have hgrows : s.history.rejected <+: t.history.rejected := by
      refine hs.run_related (R := fun s t => s.history.rejected <+: t.history.rejected)
        (List.prefix_refl _) ?_ hrun
      intro u a v _ hu hstep
      exact hu.trans (rejected_grows (step_transition cfg u v a hstep))
    have hnot := rejected_not_started (hs.run hrun) (hgrows.subset hop)
    refine ⟨hnot, fun hmem => hnot ?_⟩
    obtain ⟨⟨job, outcome⟩, hexecuted, rfl⟩ := List.mem_map.mp hmem
    exact List.mem_map_of_mem (started_of_executed (hs.run hrun) hexecuted)
  · intro hclosed actions t hrun
    refine hs.run_related (R := fun s t => s.submission.closed = true →
      t.submission.closed = true ∧ t.submission.nextSequence = s.submission.nextSequence)
      (fun h => ⟨h, rfl⟩) ?_ hrun hclosed
    intro u a v _ hu hstep h
    obtain ⟨hc, hn⟩ := hu h
    obtain ⟨hc', hn'⟩ := closed_step (step_transition cfg u v a hstep) hc
    exact ⟨hc', hn'.trans hn⟩

/-- Two jobs complete in the opposite order while a drain waits for both. -/
def completedBackwards : List Action :=
  [.submit "a".toList .deferred false .backpressured,
    .submit "b".toList .deferred false .backpressured, .callDrain .drain, .enterDrain 0, .fixTarget,
    .nextJob 0, .nextJob 1, .operationReturns 1 .succeeded, .checkResidual 1, .dropPermit 1,
    .settle 1, .complete 1]

theorem queue_discipline_backwards : ∃ s,
    (machine ⟨2, 2⟩).run (State.initial ⟨2, 2⟩) completedBackwards = some s ∧
      s.completion.completedOutOfOrder = {2} ∧ s.step ⟨2, 2⟩ .take = none ∧ Discipline ⟨2, 2⟩ s := by
  refine ⟨_, rfl, rfl, rfl, ?_⟩
  exact queue_discipline _ _ (Machine.reachable_of_run completedBackwards rfl rfl)

end Runs

end PostgresTestHarness.Cleanup
