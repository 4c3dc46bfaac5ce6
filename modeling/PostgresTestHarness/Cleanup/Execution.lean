import Mathlib.Data.List.Range
import PostgresTestHarness.Cleanup.System
import PostgresTestHarness.Library.Ledger

/-! Every accepted job is taken once, in order, and executed once.

Jobs leave the queue from the front and are numbered when they enter at the back, so
the started jobs followed by the waiting ones carry the numbers from one on
(`InOrder`). What a worker holds is counted against what has started: a started job is
being executed or has been executed (`startedLedger`), and it is on its way to
`complete` or has been passed to it (`completedLedger`). The completion state's prefix
and gap set stand for the completed numbers exactly (`completed_represents`). -/
namespace PostgresTestHarness.Cleanup

/-- The job whose operation the worker is running. -/
def Worker.running : Worker → List CleanupJob
  | .executing job => [job]
  | _ => []

/-- The sequence the worker has still to pass to `complete`. -/
def Worker.uncompleted : Worker → List Nat
  | .executing job => [job.sequence]
  | .executed job _ => [job.sequence]
  | .admitted job _ => [job.sequence]
  | .settling job _ => [job.sequence]
  | .completing job _ => [job.sequence]
  | _ => []

/-- Started and waiting jobs together are numbered from one. -/
structure InOrder (s : State) : Prop where
  started : s.history.started.map (·.sequence) = List.range' 1 s.history.started.length
  waiting : s.submission.jobs.map (·.sequence) =
    List.range' (s.history.started.length + 1) s.submission.jobs.length
  next : s.submission.nextSequence = s.history.started.length + s.submission.jobs.length

def StartedLedger (s : State) : Prop :=
  ∀ job, s.history.started.count job =
    (s.workers.flatMap Worker.running).count job + (s.history.executed.map Prod.fst).count job

def CompletedLedger (s : State) : Prop :=
  ∀ q, (s.history.started.map (·.sequence)).count q =
    (s.workers.flatMap Worker.uncompleted).count q + s.history.completed.count q

/-- Every closure submitted so far waits, has started or was rejected, and only one of
these. -/
def OperationLedger (s : State) : Prop :=
  ∀ op, (s.submission.jobs.map (·.operation)).count op +
    (s.history.started.map (·.operation)).count op + s.history.rejected.count op =
      if op < s.history.submissions then 1 else 0

section Steps
variable {cfg : Config} {a : Action} {s t : State}

theorem inOrder_step (h : Transition cfg s a t) (hs : InOrder s) : InOrder t := by
  obtain ⟨hstarted, hwaiting, hnext⟩ := hs
  cases h with
  | accept name completion permit admission _ _ _ =>
    refine ⟨hstarted, ?_, ?_⟩
    · simp only [List.map_append, List.length_append, hwaiting, List.length_singleton,
        List.range'_concat, List.map_cons, List.map_nil]
      congr 2
      omega
    · simp only [List.length_append, List.length_singleton]
      omega
  | start i job rest _ jobs =>
    rw [jobs, List.map_cons, List.length_cons, List.range'_succ, List.cons.injEq] at hwaiting
    refine ⟨?_, ?_, ?_⟩
    · simp only [List.map_append, List.length_append, hstarted, List.length_singleton,
        List.range'_concat, List.map_cons, List.map_nil, hwaiting.1]
      congr 2
      omega
    · simp only [List.length_append, List.length_singleton]
      exact hwaiting.2
    · simp only [hnext, jobs, List.length_append, List.length_cons, List.length_nil]
      omega
  | _ => exact ⟨hstarted, hwaiting, hnext⟩

theorem startedLedger_step (h : Transition cfg s a t) (hs : StartedLedger s) : StartedLedger t := by
  intro q
  have hq := hs q
  cases h with
  | start i job rest worker jobs =>
    have := Ledger.count_flatMap_set Worker.running q s.workers i _ (.executing job) worker
    simp only [Worker.running, List.count_append, List.count_nil] at this ⊢
    omega
  | operation _ i job outcome _ worker =>
    have := Ledger.count_flatMap_set Worker.running q s.workers i _ (.executed job outcome) worker
    simp only [Worker.running, List.count_append, List.count_nil, List.map_append,
      List.map_cons, List.map_nil] at this ⊢
    omega
  | exit i worker | check i job outcome worker | permit i job outcome worker
  | send i job outcome worker | sendBack i job outcome worker | defer i job outcome worker
  | complete i job failure worker | release i job worker =>
    show s.history.started.count q = _
    rw [Ledger.flatMap_set_of_eq Worker.running worker]
    · exact hq
    · rfl
  | _ => exact hq

theorem completedLedger_step (h : Transition cfg s a t) (hs : CompletedLedger s) :
    CompletedLedger t := by
  intro q
  have hq := hs q
  cases h with
  | start i job rest worker jobs =>
    have := Ledger.count_flatMap_set Worker.uncompleted q s.workers i _ (.executing job) worker
    simp only [Worker.uncompleted, List.map_append, List.count_append, List.map_cons, List.map_nil,
      List.count_nil] at this ⊢
    omega
  | complete i job failure worker =>
    have := Ledger.count_flatMap_set Worker.uncompleted q s.workers i _ (.releasing job) worker
    simp only [Worker.uncompleted, List.count_append, List.count_nil] at this ⊢
    omega
  | exit i worker | operation _ i job outcome _ worker | check i job outcome worker
  | permit i job outcome worker | send i job outcome worker | sendBack i job outcome worker
  | defer i job outcome worker | release i job worker =>
    show (s.history.started.map (·.sequence)).count q = _
    rw [Ledger.flatMap_set_of_eq Worker.uncompleted worker]
    · exact hq
    · rfl
  | _ => exact hq

theorem operationLedger_step (h : Transition cfg s a t) (hs : OperationLedger s) :
    OperationLedger t := by
  intro op
  have hop := hs op
  cases h with
  | accept name completion permit admission _ _ _ =>
    simp only [List.map_append, List.count_append, List.map_cons, List.map_nil, List.count_cons,
      List.count_nil, beq_iff_eq] at hop ⊢
    split_ifs at hop ⊢ <;> omega
  | reject _ _ =>
    simp only [List.count_append, List.count_cons, List.count_nil, beq_iff_eq] at hop ⊢
    split_ifs at hop ⊢ <;> omega
  | start i job rest _ jobs =>
    simp only [jobs, List.map_append, List.count_append, List.map_cons, List.map_nil,
      List.count_cons, List.count_nil] at hop ⊢
    omega
  | _ => exact hop

/-- The completion state knows exactly the numbers passed to `complete`. -/
def CompletedExact (s : State) : Prop :=
  SequencePrefix.Represents s.completion.completedThrough s.completion.completedOutOfOrder
    (· ∈ s.history.completed)

/-- Workers leave only a closed and empty queue. -/
def ExitsDone (s : State) : Prop :=
  Worker.exited ∈ s.workers → s.submission.closed = true ∧ s.submission.jobs = []

/-- A started number has been taken once, and the numbers are the first ones. -/
theorem InOrder.count_started (h : InOrder s) (q : Nat) :
    (s.history.started.map (·.sequence)).count q =
      if 1 ≤ q ∧ q ≤ s.history.started.length then 1 else 0 := by
  rw [h.started, Ledger.count_range']
  congr 1
  simp only [eq_iff_iff]
  omega

/-- A number still on a worker has not been completed. -/
theorem CompletedLedger.fresh (h : CompletedLedger s) (ho : InOrder s) {i : Nat} {w : Worker} {q : Nat}
    (hw : s.workers[i]? = some w) (hq : q ∈ w.uncompleted) : q ∉ s.history.completed ∧ 1 ≤ q := by
  have hcount := h q
  have hpos := Ledger.count_flatMap_pos Worker.uncompleted hw hq
  rw [ho.count_started q] at hcount
  split at hcount
  · rename_i hrange
    exact ⟨List.count_eq_zero.mp (by omega), hrange.1⟩
  · omega

theorem completedExact_step (h : Transition cfg s a t) (ho : InOrder s) (hl : CompletedLedger s)
    (hs : CompletedExact s) : CompletedExact t := by
  unfold CompletedExact at hs ⊢
  cases h with
  | complete i job failure worker =>
    obtain ⟨hnew, hpos⟩ := hl.fresh ho worker (q := job.sequence) (by simp [Worker.uncompleted])
    have := s.completion.complete_represents job.sequence failure _ hs hnew hpos
    simpa only [List.mem_append, List.mem_singleton] using this
  | sendBack | dropSent | take | log | finish | restore => simpa using hs
  | _ => exact hs

theorem exitsDone_step (h : Transition cfg s a t) (hs : ExitsDone s) : ExitsDone t := by
  unfold ExitsDone at hs ⊢
  intro hexit
  cases h with
  | accept name completion permit admission _ opened _ =>
    have := (hs hexit).1
    rw [opened] at this
    cases this
  | start i job rest worker jobs =>
    rcases Ledger.mem_of_set hexit with he | hmem
    · cases he
    · have := (hs hmem).2
      rw [jobs] at this
      cases this
  | exit i worker jobs closed => exact ⟨closed, jobs⟩
  | operation | check | permit | send | sendBack | defer | complete | release =>
    rcases Ledger.mem_of_set hexit with he | hmem
    · cases he
    · exact hs hmem
  | close call entered kind => exact ⟨rfl, (hs hexit).2⟩
  | _ => exact hs hexit

theorem workers_length (h : Transition cfg s a t) : t.workers.length = s.workers.length := by
  cases h with
  | start | exit | operation | check | permit | send | sendBack | defer | complete | release =>
    exact List.length_set
  | _ => rfl

end Steps

section Runs
variable {cfg : Config} {s : State}

/-- Idle workers hold nothing. -/
theorem initial_workers {β : Type*} (cfg : Config) (f : Worker → List β) (h : f .idle = []) :
    (State.initial cfg).workers.flatMap f = [] := by
  rw [List.flatMap_eq_nil_iff]
  intro w hw
  rw [List.eq_of_mem_replicate hw, h]

/-- What is known of the jobs, their numbers and the workers in every reachable state. -/
structure Execution (s : State) : Prop where
  order : InOrder s
  started : StartedLedger s
  completed : CompletedLedger s
  operations : OperationLedger s
  exact : CompletedExact s
  exits : ExitsDone s

theorem execution_invariant (cfg : Config) : (machine cfg).Invariant Execution where
  initial := by
    intro s heq
    obtain rfl := heq
    refine ⟨⟨rfl, rfl, rfl⟩, fun job => ?_, fun q => ?_, fun op => ?_, ?_, fun hexit => ?_⟩
    · rw [initial_workers cfg Worker.running rfl]
      rfl
    · rw [initial_workers cfg Worker.uncompleted rfl]
      rfl
    · show 0 = if op < 0 then 1 else 0
      rw [if_neg (Nat.not_lt_zero op)]
    · have hnone : (fun n => n ∈ (State.initial cfg).history.completed) = fun _ => False := by
        funext n
        exact eq_false List.not_mem_nil
      unfold CompletedExact
      rw [hnone]
      exact SequencePrefix.represents_empty
    · cases List.eq_of_mem_replicate hexit
  preserved := by
    intro s a t _ hparts hstep
    obtain ⟨horder, hstarted, hcompleted, hoperations, hexact, hexits⟩ := hparts
    have h := step_transition cfg s t a hstep
    exact ⟨inOrder_step h horder, startedLedger_step h hstarted, completedLedger_step h hcompleted,
      operationLedger_step h hoperations, completedExact_step h horder hcompleted hexact,
      exitsDone_step h hexits⟩

theorem execution (hs : (machine cfg).Reachable s) : Execution s :=
  (execution_invariant cfg).holds hs

theorem inOrder (hs : (machine cfg).Reachable s) : InOrder s := (execution hs).order

/-- Executed jobs have started. -/
theorem started_of_executed (hs : (machine cfg).Reachable s) {job : CleanupJob}
    {outcome : CleanupOutcome} (hmem : (job, outcome) ∈ s.history.executed) :
    job ∈ s.history.started := by
  have hledger := (execution hs).started job
  have hpos : 0 < (s.history.executed.map Prod.fst).count job :=
    List.count_pos_iff.mpr (List.mem_map_of_mem hmem)
  exact List.count_pos_iff.mp (by omega)

theorem started_nodup (hs : (machine cfg).Reachable s) :
    (s.history.started.map (·.sequence)).Nodup := by
  rw [(inOrder hs).started]
  exact List.nodup_range'

theorem executed_nodup (hs : (machine cfg).Reachable s) :
    (s.history.executed.map Prod.fst).Nodup := by
  rw [List.nodup_iff_count_le_one]
  intro job
  have hledger := (execution hs).started job
  have hone := List.nodup_iff_count_le_one.mp (started_nodup hs).of_map job
  omega

/-- A job number is executed with one outcome. -/
theorem executed_inj (hs : (machine cfg).Reachable s) {x y : CleanupJob × CleanupOutcome}
    (hx : x ∈ s.history.executed) (hy : y ∈ s.history.executed)
    (h : x.1.sequence = y.1.sequence) : x = y := by
  have hjob : x.1 = y.1 := List.inj_on_of_nodup_map (started_nodup hs)
    (started_of_executed hs hx) (started_of_executed hs hy) h
  exact List.inj_on_of_nodup_map (executed_nodup hs) hx hy hjob

/-- Only accepted numbers are executed. -/
theorem executed_range (hs : (machine cfg).Reachable s) {job : CleanupJob}
    {outcome : CleanupOutcome} (hmem : (job, outcome) ∈ s.history.executed) :
    1 ≤ job.sequence ∧ job.sequence ≤ s.submission.nextSequence := by
  have horder := inOrder hs
  have hseq : job.sequence ∈ s.history.started.map (·.sequence) :=
    List.mem_map_of_mem (started_of_executed hs hmem)
  rw [horder.started, List.mem_range'_1] at hseq
  have := horder.next
  omega

end Runs

end PostgresTestHarness.Cleanup
