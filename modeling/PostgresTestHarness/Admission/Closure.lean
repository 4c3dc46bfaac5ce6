import PostgresTestHarness.Admission.System
import PostgresTestHarness.Cleanup.Custody

/-! What closes the admission gate, and what has happened by then.

The flag is a count of the past: shutdown, the creations that have returned with a possible
residual and the jobs that were looked at with one (`Exact`). What has a possible residual
and has not closed the gate yet is still where nobody sees it: a creation before its last
look, or an executed job whose worker holds its number and its permit (`JudgedLedger`, and
the ledgers of the queue). -/
namespace PostgresTestHarness.Admission
open Cleanup (CleanupOutcome CleanupJob CleanupCompletion CleanupAdmission)
open Lease (ManagedDatabaseCreationFailure)

/-- Every step there is, with its action, its guard and its result. -/
inductive Transition (cfg : Cleanup.Config) (s : State) : Action → State → Prop where
  | submit (kind : JobKind) (databaseName : Text) (completion : CleanupCompletion) (permit : Bool)
      (admission : CleanupAdmission) (queue : Cleanup.State)
      (stepped : s.queue.step cfg (.submit databaseName completion permit admission) = some queue) :
      Transition cfg s (.submit kind databaseName completion permit admission)
        { s with queue, kinds := s.kinds ++ [kind] }
  | queue (a : Cleanup.Action) (queue : Cleanup.State) (allowed : s.allows a = true)
      (stepped : s.queue.step cfg a = some queue) :
      Transition cfg s (.queue a) { s with
        queue
        operations := s.operationsAfter queue a
        creations := s.creationsAfter a
        judged := s.judgedAfter a }
  | answer (w : Nat) (result : Except Error Unit) (next : Operation) :
      Transition cfg s (.answer w result) (s.moveOperation w next)
  | spare (w : Nat) :
      Transition cfg s (.afterDrop w false) (s.moveOperation w (.over (disposed (.ok (.reuse .succeeded)))))
  | refill (w : Nat) :
      Transition cfg s (.afterDrop w true) { s.moveOperation w (.refilling s.creations.length) with
        creations := s.creations ++ [⟨.refill w, false, .requested, 0⟩] }
  | refilled (w i : Nat) (c : Creation) (result : Attempted) (found : s.creations[i]? = some c)
      (stage : c.stage = .returned result) :
      Transition cfg s (.refilled w)
        ((s.moveCreation i { c with stage := .delivered result }).moveOperation w (.refilled result))
  | publish (w : Nat) (accepted : Bool) :
      Transition cfg s (.publish w accepted) (s.moveOperation w (.published accepted))
  | create (kind : CreationKind) :
      Transition cfg s (.create kind)
        { s with creations := s.creations ++ [⟨kind, kind.permit, .requested, 0⟩] }
  | reject (i : Nat) (c : Creation) (found : s.creations[i]? = some c) (stage : c.stage = .requested)
      (closed : s.closed = true) :
      Transition cfg s (.ensureOpen i)
        (s.moveCreation i { c with stage := .returned (.error (.noResidual .connectionBudgetClosed)) })
  | pass (i : Nat) (c : Creation) (found : s.creations[i]? = some c) (stage : c.stage = .requested)
      (opened : s.closed = false) :
      Transition cfg s (.ensureOpen i) (s.moveCreation i { c with stage := .attempting .creating })
  | statement (i : Nat) (result : Except Error Unit) (c : Creation) (attempt : Attempt)
      (found : s.creations[i]? = some c) (stage : c.stage = .attempting attempt) :
      Transition cfg s (.statement i result) (s.moveCreation i
        { c with stage := .attempting (attempt.answer result), statements := c.statements + 1 })
  | judge (i : Nat) (c : Creation) (result : Attempted) (found : s.creations[i]? = some c)
      (stage : c.stage = .attempting (.over result)) :
      Transition cfg s (.judge i)
        ((if mayLeaveResidual result then s.close else s).moveCreation i { c with stage := .returned result })
  | dropPermit (i : Nat) (c : Creation) (failure : ManagedDatabaseCreationFailure)
      (found : s.creations[i]? = some c) (stage : c.stage.returned? = some (.error failure)) :
      Transition cfg s (.dropPermit i) (s.moveCreation i { c with permit := false })
  | deliver (i : Nat) (c : Creation) (result : Attempted) (found : s.creations[i]? = some c)
      (stage : c.stage = .returned result) :
      Transition cfg s (.deliver i) (s.moveCreation i { c with stage := .delivered result })
  | shutdown : Transition cfg s .shutdown { s.close with shutdownBegun := true }

/-- A step is one of the transitions. -/
theorem step_transition (cfg : Cleanup.Config) (s t : State) (a : Action) (h : s.step cfg a = some t) :
    Transition cfg s a t := by
  cases a with
  | submit kind databaseName completion permit admission =>
    obtain ⟨queue, hqueue, rfl⟩ := Option.map_eq_some_iff.mp h
    exact .submit kind databaseName completion permit admission queue hqueue
  | queue a =>
    simp only [State.step, State.queueStep] at h
    split at h
    · rename_i hallowed
      obtain ⟨queue, hqueue, rfl⟩ := Option.map_eq_some_iff.mp h
      exact .queue a queue hallowed hqueue
    · cases h
  | answer w result =>
    simp only [State.step, State.answer] at h
    split at h
    · obtain ⟨next, _, rfl⟩ := Option.map_eq_some_iff.mp h
      exact .answer w result next
    · cases h
  | afterDrop w refills =>
    simp only [State.step, State.afterDrop] at h
    split at h
    · cases refills with
      | true =>
        cases h
        exact .refill w
      | false =>
        cases h
        exact .spare w
    · cases h
  | refilled w =>
    simp only [State.step, State.refilled] at h
    split at h
    · split at h
      · rename_i hfound
        cases h
        exact .refilled w _ _ _ hfound rfl
      · cases h
    · cases h
  | publish w accepted =>
    simp only [State.step, State.publish] at h
    split at h
    · cases h
      exact .publish w accepted
    · cases h
  | create kind =>
    cases kind with
    | refill => cases h
    | _ =>
      cases h
      exact .create _
  | ensureOpen i =>
    simp only [State.step, State.ensureOpen] at h
    split at h
    · rename_i hfound
      split at h
      · rename_i hclosed
        cases h
        exact .reject i _ hfound rfl hclosed
      · rename_i hopen
        cases h
        exact .pass i _ hfound rfl (Bool.eq_false_iff.mpr hopen)
    · cases h
  | statement i result =>
    simp only [State.step, State.statement] at h
    split at h
    · rename_i hfound
      split at h
      · cases h
      · cases h
        exact .statement i result _ _ hfound rfl
    · cases h
  | judge i =>
    simp only [State.step, State.judge] at h
    split at h
    · rename_i result statements hfound
      rw [Option.some.injEq] at h
      have hjudge : Transition cfg s (.judge i) _ := .judge i _ result hfound rfl
      split at h
      · rename_i hresidual
        rw [if_pos hresidual] at hjudge
        exact h ▸ hjudge
      · rename_i hclean
        rw [if_neg hclean] at hjudge
        exact h ▸ hjudge
    · cases h
  | dropPermit i =>
    simp only [State.step, State.dropPermit] at h
    split at h
    · rename_i hfound
      cases h
      exact .dropPermit i _ _ hfound rfl
    · rename_i hfound
      cases h
      exact .dropPermit i _ _ hfound rfl
    · cases h
  | deliver i =>
    simp only [State.step, State.deliver] at h
    split at h
    · cases h
    · rename_i hfound
      cases h
      exact .deliver i _ _ hfound rfl
    · cases h
  | shutdown =>
    cases h
    exact .shutdown

section Steps
variable {cfg : Cleanup.Config} {s t : State} {a : Action}

/-- It has returned, and may have left its database. -/
def Creation.residual (c : Creation) : Bool :=
  match c.stage.returned? with
  | some result => mayLeaveResidual result
  | none => false

@[simp] theorem residual_requested (kind : CreationKind) (permit : Bool) (statements : Nat) :
    Creation.residual ⟨kind, permit, .requested, statements⟩ = false := rfl

theorem residual_of_stage {c : Creation} {stage : CreationStage} (h : c.stage = stage) :
    c.residual = Creation.residual { c with stage } := by
  subst h
  rfl

/-- A panic ends at most one creation, one that has not returned. -/
theorem creationsAfter_cases (s : State) (a : Cleanup.Action) :
    s.creationsAfter a = s.creations ∨ ∃ (i : Nat) (c : Creation), s.creations[i]? = some c ∧
      c.stage.returned? = none ∧ s.creationsAfter a = s.creations.set i { c with stage := .unwound } := by
  unfold State.creationsAfter
  split
  · split
    · rename_i i _
      cases hc : s.creations[i]? with
      | none =>
        left
        exact List.modify_eq_self (List.getElem?_eq_none_iff.mp hc)
      | some c =>
        obtain ⟨hi, hget⟩ := List.getElem?_eq_some_iff.mp hc
        rw [List.modify_eq_set_get _ hi, List.get_eq_getElem, hget]
        cases hr : c.stage.returned? with
        | none => exact Or.inr ⟨i, c, hc, hr, rfl⟩
        | some result =>
          left
          rw [Option.isSome_some, if_pos rfl, ← hget, List.set_getElem_self]
    · exact Or.inl rfl
  · exact Or.inl rfl

/-- What a step does to the creations: nothing, one more, or one of them further on. -/
inductive Progress (s t : State) : Prop where
  | same (creations : t.creations = s.creations)
  | asked (kind : CreationKind) (creations : t.creations = s.creations ++ [⟨kind, kind.permit, .requested, 0⟩])
  | moved (i : Nat) (c d : Creation) (found : s.creations[i]? = some c) (creations : t.creations = s.creations.set i d)
      (kind : d.kind = c.kind) (left : d.stage ≠ .requested)
      (held : d.stage.returned? = none → c.stage.returned? = none ∧ d.permit = c.permit)
      (kept : ∀ result, c.stage.returned? = some result →
        d.stage.returned? = some result ∧ d.statements = c.statements)

theorem progress (h : Transition cfg s a t) : Progress s t := by
  cases h with
  | queue a queue allowed stepped =>
    obtain hsame | ⟨i, c, hc, hr, hset⟩ := creationsAfter_cases s a
    · exact .same hsame
    · refine .moved i c _ hc hset rfl nofun (fun _ => ⟨hr, rfl⟩) (fun result h => ?_)
      rw [hr] at h
      cases h
  | refill w => exact .asked (.refill w) rfl
  | create kind => exact .asked kind rfl
  | refilled w i c result found stage | deliver i c result found stage =>
    refine .moved i c _ found rfl rfl nofun nofun (fun _ h => ⟨?_, rfl⟩)
    rw [stage] at h
    exact h
  | reject i c found stage closed =>
    refine .moved i c _ found rfl rfl nofun nofun (fun _ h => ?_)
    rw [stage] at h
    cases h
  | pass i c found stage opened =>
    refine .moved i c _ found rfl rfl nofun (fun _ => ⟨by rw [stage]; rfl, rfl⟩) (fun _ h => ?_)
    rw [stage] at h
    cases h
  | statement i result c attempt found stage =>
    have hnone : c.stage.returned? = none := by rw [stage]; rfl
    refine .moved i c _ found rfl rfl nofun (fun _ => ⟨hnone, rfl⟩) (fun _ h => ?_)
    rw [hnone] at h
    cases h
  | judge i c result found stage =>
    have hnone : c.stage.returned? = none := by rw [stage]; rfl
    refine .moved i c { c with stage := .returned result } found ?_ rfl nofun nofun (fun _ h => ?_)
    · split <;> rfl
    · rw [hnone] at h
      cases h
  | dropPermit i c failure found stage =>
    refine .moved i c _ found rfl rfl ?_ (fun h => ?_) (fun _ h => ⟨h, rfl⟩)
    · intro hreq
      rw [show c.stage = .requested from hreq] at stage
      cases stage
    · rw [show c.stage.returned? = none from h] at stage
      cases stage
  | submit | answer | spare | publish | shutdown => exact .same rfl

/-- The flag is its causes. -/
def Exact (s : State) : Prop :=
  s.closed = (s.shutdownBegun || s.creations.any Creation.residual ||
    s.judged.any fun x => x.2.mayLeaveResidual)

/-- Of the queue's steps, one looks at an outcome. -/
theorem queue_looks {queue : Cleanup.State} {b : Cleanup.Action}
    (h : Cleanup.Transition cfg s.queue b queue) (hallowed : s.allows b = true) :
    (∃ (w : Nat) (job : CleanupJob) (outcome : CleanupOutcome), b = .checkResidual w ∧
      s.queue.workers[w]? = some (.executed job outcome) ∧ s.judgedAfter b = s.judged ++ [(job, outcome)] ∧
      queue.databaseAdmissionClosed = (s.closed || outcome.mayLeaveResidual)) ∨
    ((∀ w, b ≠ .checkResidual w) ∧ s.judgedAfter b = s.judged ∧ queue.databaseAdmissionClosed = s.closed) := by
  cases h with
  | check w job outcome worker =>
    refine Or.inl ⟨w, job, outcome, rfl, worker, ?_, rfl⟩
    simp only [State.judgedAfter, worker]
  | operation b w job outcome ends worker =>
    right
    cases b with
    | operationReturns | operationPanics => exact ⟨nofun, rfl, rfl⟩
    | _ => cases ends
  | admission => cases hallowed
  | _ => exact Or.inr ⟨nofun, rfl, rfl⟩

theorem creationsAfter_residual (s : State) (b : Cleanup.Action) :
    (s.creationsAfter b).any Creation.residual = s.creations.any Creation.residual := by
  obtain hsame | ⟨i, c, hc, hr, hset⟩ := creationsAfter_cases s b
  · rw [hsame]
  · rw [hset, Ledger.any_set_of_eq _ hc]
    simp only [Creation.residual, hr]
    rfl

/-- A step that leaves the flag leaves its causes. -/
theorem Exact.of_same (hs : Exact s) (closed : t.closed = s.closed)
    (shutdownBegun : t.shutdownBegun = s.shutdownBegun) (judged : t.judged = s.judged)
    (creations : t.creations.any Creation.residual = s.creations.any Creation.residual) : Exact t := by
  unfold Exact at hs ⊢
  rw [closed, shutdownBegun, judged, creations]
  exact hs

/-- A creation moves, and is no worse than before. -/
theorem Exact.of_moved (hs : Exact s) {i : Nat} {c d : Creation} (found : s.creations[i]? = some c)
    (residual : d.residual = c.residual) : Exact (s.moveCreation i d) :=
  hs.of_same rfl rfl rfl (Ledger.any_set_of_eq _ found residual)

theorem exact_step (h : Transition cfg s a t) (hs : Exact s) : Exact t := by
  cases h with
  | submit kind databaseName completion permit admission queue stepped =>
    have hqueue := Cleanup.step_transition cfg _ _ _ stepped
    exact hs.of_same (by cases hqueue <;> rfl) rfl rfl rfl
  | queue b queue allowed stepped =>
    obtain ⟨w, job, outcome, _, _, hjudged, hflag⟩ | ⟨_, hjudged, hflag⟩ :=
      queue_looks (Cleanup.step_transition cfg _ _ _ stepped) allowed
    · show queue.databaseAdmissionClosed =
        (s.shutdownBegun || (s.creationsAfter b).any Creation.residual || (s.judgedAfter b).any _)
      rw [creationsAfter_residual, hflag, hjudged, hs, List.any_append, List.any_cons, List.any_nil,
        Bool.or_false, Bool.or_assoc]
    · exact hs.of_same hflag rfl hjudged (creationsAfter_residual s b)
  | refill w | create kind =>
    refine hs.of_same rfl rfl rfl ?_
    show (s.creations ++ [_]).any Creation.residual = _
    rw [List.any_append, List.any_cons, residual_requested, List.any_nil, Bool.or_false, Bool.or_false]
  | refilled w i c result found stage =>
    have hmoved := hs.of_moved (d := { c with stage := .delivered result }) found
      (by rw [residual_of_stage stage]; rfl)
    exact hmoved.of_same rfl rfl rfl rfl
  | deliver i c result found stage | reject i c found stage closed | pass i c found stage opened
  | statement i result c attempt found stage =>
    exact hs.of_moved found (by rw [residual_of_stage stage]; rfl)
  | dropPermit i c failure found stage => exact hs.of_moved found rfl
  | judge i c result found stage =>
    cases hresidual : mayLeaveResidual result with
    | true =>
      show true = (s.shutdownBegun || (s.creations.set i { c with stage := .returned result }).any
        Creation.residual || _)
      rw [Ledger.any_set_of_true _ found hresidual, Bool.or_true, Bool.true_or]
    | false =>
      exact hs.of_moved found (by rw [residual_of_stage stage]; exact hresidual)
  | shutdown => rfl
  | answer | spare | publish => exact hs

/-- A job that ended and was not looked at. -/
def unjudged : Cleanup.Worker → List (CleanupJob × CleanupOutcome)
  | .executed job outcome => [(job, outcome)]
  | _ => []

def JudgedLedger (queue : Cleanup.State) (judged : List (CleanupJob × CleanupOutcome)) : Prop :=
  ∀ x, queue.history.executed.count x = (queue.workers.flatMap unjudged).count x + judged.count x

theorem judgedLedger_step {queue : Cleanup.State} {b : Cleanup.Action}
    (h : Cleanup.Transition cfg s.queue b queue) (hs : JudgedLedger s.queue s.judged) :
    JudgedLedger queue (s.judgedAfter b) := by
  intro x
  have hx := hs x
  cases h with
  | operation b w job outcome ends worker =>
    have hsame : s.judgedAfter b = s.judged := by cases b <;> first | rfl | cases ends
    have := Ledger.count_flatMap_set unjudged x s.queue.workers w _ (.executed job outcome) worker
    simp only [hsame, unjudged, List.count_append, List.count_nil] at this ⊢
    omega
  | check w job outcome worker =>
    have hjudged : s.judgedAfter (.checkResidual w) = s.judged ++ [(job, outcome)] := by
      simp only [State.judgedAfter, worker]
    have := Ledger.count_flatMap_set unjudged x s.queue.workers w _ (.admitted job outcome) worker
    simp only [hjudged, unjudged, List.count_append, List.count_nil] at this ⊢
    omega
  | start w job rest worker jobs | exit w worker | permit w job outcome worker
  | send w job outcome worker | sendBack w job outcome worker | defer w job outcome worker
  | complete w job failure worker | release w job worker =>
    show s.queue.history.executed.count x = _ + s.judged.count x
    rw [Ledger.flatMap_set_of_eq unjudged worker]
    · exact hx
    · rfl
  | _ => exact hx

/-- A creation is asked for with its permit and no statement, and keeps the permit until it returns. -/
structure Creation.Kept (c : Creation) : Prop where
  permit : c.stage.returned? = none → c.permit = c.kind.permit
  statements : c.stage = .requested → c.statements = 0

theorem kept_step (h : Transition cfg s a t) (hs : ∀ c ∈ s.creations, c.Kept) : ∀ c ∈ t.creations, c.Kept := by
  intro c hc
  cases progress h with
  | same creations => exact hs c (creations ▸ hc)
  | asked kind creations =>
    rw [creations, List.mem_append, List.mem_singleton] at hc
    obtain hc | rfl := hc
    · exact hs c hc
    · exact ⟨fun _ => rfl, fun _ => rfl⟩
  | moved i old new found creations kind left held kept =>
    rw [creations] at hc
    obtain rfl | hc := Ledger.mem_of_set hc
    · refine ⟨fun hnone => ?_, fun hreq => absurd hreq left⟩
      obtain ⟨hrunning, hpermit⟩ := held hnone
      rw [hpermit, kind]
      exact (hs old (List.mem_of_getElem? found)).permit hrunning
    · exact hs c hc

/-- A creation that has returned, with what, and after how many statements. -/
def State.Settled (s : State) (i : Nat) (result : Attempted) (statements : Nat) : Prop :=
  ∃ c, s.creations[i]? = some c ∧ c.stage.returned? = some result ∧ c.statements = statements

/-- It stays so. -/
theorem settled_step (h : Transition cfg s a t) {i n : Nat} {result : Attempted} (hs : s.Settled i result n) :
    t.Settled i result n := by
  obtain ⟨c, hc, hreturned, hn⟩ := hs
  cases progress h with
  | same creations => exact ⟨c, creations ▸ hc, hreturned, hn⟩
  | asked kind creations =>
    refine ⟨c, ?_, hreturned, hn⟩
    rw [creations]
    exact Ledger.getElem?_concat_of_some hc
  | moved j old new found creations kind left held kept =>
    by_cases hij : j = i
    · subst hij
      rw [found, Option.some.injEq] at hc
      subst hc
      obtain ⟨hnew, hcount⟩ := kept result hreturned
      refine ⟨new, ?_, hnew, hcount.trans hn⟩
      rw [creations]
      exact Ledger.getElem?_set_of_some found
    · refine ⟨c, ?_, hreturned, hn⟩
      rw [creations, List.getElem?_set_ne hij]
      exact hc

/-- The flag rises and does not fall; it rises in shutdown and where a possible residual is looked at. -/
theorem closed_step (h : Transition cfg s a t) :
    t.closed = s.closed ∨ t.closed = true ∧ (a = .shutdown ∨
      (∃ (i : Nat) (c : Creation) (result : Attempted), a = .judge i ∧ s.creations[i]? = some c ∧
        c.stage = .attempting (.over result) ∧ mayLeaveResidual result = true) ∨
      ∃ (w : Nat) (job : CleanupJob) (outcome : CleanupOutcome), a = .queue (.checkResidual w) ∧
        s.queue.workers[w]? = some (.executed job outcome) ∧ outcome.mayLeaveResidual = true) := by
  cases h with
  | submit kind databaseName completion permit admission queue stepped =>
    left
    have hqueue := Cleanup.step_transition cfg _ _ _ stepped
    cases hqueue <;> rfl
  | queue b queue allowed stepped =>
    obtain ⟨w, job, outcome, rfl, hworker, _, hflag⟩ | ⟨_, _, hflag⟩ :=
      queue_looks (Cleanup.step_transition cfg _ _ _ stepped) allowed
    · cases hresidual : outcome.mayLeaveResidual with
      | true =>
        right
        rw [hresidual, Bool.or_true] at hflag
        exact ⟨hflag, Or.inr (Or.inr ⟨w, job, outcome, rfl, hworker, hresidual⟩)⟩
      | false =>
        left
        rw [hresidual, Bool.or_false] at hflag
        exact hflag
    · exact Or.inl hflag
  | judge i c result found stage =>
    cases hresidual : mayLeaveResidual result with
    | true => exact Or.inr ⟨rfl, Or.inr (Or.inl ⟨i, c, result, rfl, found, stage, hresidual⟩)⟩
    | false => exact Or.inl rfl
  | shutdown => exact Or.inr ⟨rfl, Or.inl rfl⟩
  | _ => exact Or.inl rfl

end Steps

section Runs
variable {cfg : Cleanup.Config} {s t : State}

/-- The queue takes its own steps, and one when somebody else closes the gate. -/
theorem queue_reachable (hs : (machine cfg).Reachable s) : (Cleanup.machine cfg).Reachable s.queue := by
  induction hs with
  | start h =>
    obtain rfl := h
    exact .start rfl
  | next a hs hstep ih =>
    cases step_transition cfg _ _ _ hstep with
    | submit kind databaseName completion permit admission queue stepped =>
      exact ih.next (.submit databaseName completion permit admission) stepped
    | queue b queue allowed stepped => exact ih.next b stepped
    | judge i c result found stage =>
      cases mayLeaveResidual result with
      | true => exact ih.next .closeAdmission rfl
      | false => exact ih
    | shutdown => exact ih.next .closeAdmission rfl
    | _ => exact ih

/-- What is known of the gate in every reachable state. -/
structure Gate (s : State) : Prop where
  exact : Exact s
  judged : JudgedLedger s.queue s.judged
  kept : ∀ c ∈ s.creations, c.Kept

theorem gate_invariant (cfg : Cleanup.Config) : (machine cfg).Invariant Gate where
  initial := by
    intro s heq
    obtain rfl := heq
    refine ⟨rfl, fun x => ?_, nofun⟩
    rw [show (State.initial cfg).queue.workers.flatMap unjudged = [] from
      Cleanup.initial_workers cfg unjudged rfl]
    rfl
  preserved := by
    intro s a t _ hparts hstep
    obtain ⟨hexact, hjudged, hkept⟩ := hparts
    have h := step_transition cfg s t a hstep
    refine ⟨exact_step h hexact, ?_, kept_step h hkept⟩
    cases h with
    | submit kind databaseName completion permit admission queue stepped =>
      exact judgedLedger_step (Cleanup.step_transition cfg _ _ _ stepped) hjudged
    | queue b queue allowed stepped =>
      exact judgedLedger_step (Cleanup.step_transition cfg _ _ _ stepped) hjudged
    | judge i c result found stage => cases mayLeaveResidual result <;> exact hjudged
    | _ => exact hjudged

theorem gate (hs : (machine cfg).Reachable s) : Gate s := (gate_invariant cfg).holds hs

/-- The jobs past the look are those that ended and that no worker has still to look at. -/
theorem mem_judged_iff (hs : (machine cfg).Reachable s) (x : CleanupJob × CleanupOutcome) :
    x ∈ s.judged ↔ x ∈ s.queue.history.executed ∧
      ∀ w : Nat, s.queue.workers[w]? ≠ some (.executed x.1 x.2) := by
  have hledger := (gate hs).judged x
  have hone := List.nodup_iff_count_le_one.mp (Cleanup.executed_nodup (queue_reachable hs)).of_map x
  constructor
  · intro hx
    have hpos := List.count_pos_iff.mpr hx
    refine ⟨List.count_pos_iff.mp (by omega), fun w hw => ?_⟩
    have := Ledger.count_flatMap_pos unjudged hw (b := x) List.mem_cons_self
    omega
  · intro hparts
    obtain ⟨hx, hnone⟩ := hparts
    have hpos := List.count_pos_iff.mpr hx
    have hzero : (s.queue.workers.flatMap unjudged).count x = 0 := by
      rw [List.count_eq_zero, List.mem_flatMap]
      intro hparts
      obtain ⟨worker, hworker, hmem⟩ := hparts
      obtain ⟨w, hw⟩ := List.getElem?_of_mem hworker
      cases worker with
      | executed job outcome =>
        rw [unjudged, List.mem_singleton] at hmem
        subst hmem
        exact hnone w hw
      | _ => cases hmem
    exact List.count_pos_iff.mp (by omega)

/-- Nobody has heard of the job's end: its worker has it as it was taken, permit and all,
and its number is neither completed nor at any place where a failure can be found. -/
structure Unseen (queue : Cleanup.State) (job : CleanupJob) (outcome : CleanupOutcome) : Prop where
  worker : ∃ w : Nat, queue.workers[w]? = some (.executed job outcome)
  taken : job ∈ queue.history.started
  completed : job.sequence ∉ queue.history.completed
  unsent : ∀ o ∈ queue.awaited, o.sequence ≠ job.sequence
  nowhere : ∀ place, place ≠ .notProduced → queue.countAt job.sequence place = 0

theorem unseen {queue : Cleanup.State} (hs : (Cleanup.machine cfg).Reachable queue) {w : Nat} {job : CleanupJob}
    {outcome : CleanupOutcome} (hw : queue.workers[w]? = some (.executed job outcome))
    (hx : (job, outcome) ∈ queue.history.executed) : Unseen queue job outcome := by
  have hcustody := (Cleanup.custody_invariant cfg).holds hs
  have hheld := Cleanup.countAt_notProduced_pos hw (q := job.sequence) List.mem_cons_self
  have hledger := hcustody.ledger job.sequence
  refine ⟨⟨w, hw⟩, Cleanup.started_of_executed hs hx, ?_, hcustody.ledger.unsent hcustody.apart hheld, ?_⟩
  · exact ((Cleanup.execution hs).completed.fresh (Cleanup.inOrder hs) hw List.mem_cons_self).1
  · intro place hplace
    cases place with
    | notProduced => exact absurd rfl hplace
    | _ => split at hledger <;> omega

/-- A refusal at the gate is the creation's end: it has sent nothing, and never will. -/
theorem rejected_settled (hs : (machine cfg).Reachable s) {i : Nat} (hclosed : s.closed = true)
    (h : s.step cfg (.ensureOpen i) = some t) : t.Settled i (.error (.noResidual .connectionBudgetClosed)) 0 := by
  cases step_transition cfg s t _ h with
  | reject _ c found stage closed =>
    exact ⟨_, Ledger.getElem?_set_of_some found, rfl,
      ((gate hs).kept c (List.mem_of_getElem? found)).statements stage⟩
  | pass _ c found stage opened =>
    rw [hclosed] at opened
    cases opened

/-- What holds of the gate in every state of every run. -/
structure Terminal (cfg : Cleanup.Config) (s : State) : Prop where
  exact : s.closed = true ↔ s.shutdownBegun = true ∨ (∃ c ∈ s.creations, c.residual = true) ∨
    ∃ x ∈ s.queue.history.executed, x.2.mayLeaveResidual = true ∧
      ∀ w : Nat, s.queue.workers[w]? ≠ some (.executed x.1 x.2)
  /-- A job's outcome is unseen, and its permit held, until the gate is closed. -/
  jobs : ∀ x ∈ s.queue.history.executed, x.2.mayLeaveResidual = true → s.closed = true ∨ Unseen s.queue x.1 x.2
  /-- So is a creation's. -/
  creations : ∀ c ∈ s.creations, ∀ result, c.stage.result? = some result → mayLeaveResidual result = true →
    s.closed = true ∨ c.stage = .attempting (.over result) ∧ c.permit = c.kind.permit
  panics : ∀ w t, s.step cfg (.queue (.operationPanics w)) = some t →
    ∃ job, t.queue.workers[w]? = some (.executed job (.residualPossible .cleanupWorkerPanicked)) ∧
      (job, .residualPossible .cleanupWorkerPanicked) ∈ t.queue.history.executed
  permanent : ∀ actions t, (machine cfg).run s actions = some t → s.closed = true → t.closed = true
  rejected : ∀ i t actions u, s.closed = true → s.step cfg (.ensureOpen i) = some t →
    (machine cfg).run t actions = some u → u.Settled i (.error (.noResidual .connectionBudgetClosed)) 0
  causes : ∀ a t, s.step cfg a = some t → s.closed = false → t.closed = true → a = .shutdown ∨
    (∃ (i : Nat) (c : Creation) (result : Attempted), a = .judge i ∧ s.creations[i]? = some c ∧
      c.stage = .attempting (.over result) ∧ mayLeaveResidual result = true) ∨
    ∃ (w : Nat) (job : CleanupJob) (outcome : CleanupOutcome), a = .queue (.checkResidual w) ∧
      s.queue.workers[w]? = some (.executed job outcome) ∧ outcome.mayLeaveResidual = true

theorem closed_iff (hs : (machine cfg).Reachable s) : s.closed = true ↔
    s.shutdownBegun = true ∨ (∃ c ∈ s.creations, c.residual = true) ∨
      ∃ x ∈ s.queue.history.executed, x.2.mayLeaveResidual = true ∧
        ∀ w : Nat, s.queue.workers[w]? ≠ some (.executed x.1 x.2) := by
  have hexact := (gate hs).exact
  unfold Exact at hexact
  rw [hexact, Bool.or_eq_true, Bool.or_eq_true, List.any_eq_true, List.any_eq_true, or_assoc]
  refine or_congr_right (or_congr_right ⟨?_, ?_⟩)
  · intro hparts
    obtain ⟨x, hx, hresidual⟩ := hparts
    obtain ⟨hexecuted, hlooked⟩ := (mem_judged_iff hs x).mp hx
    exact ⟨x, hexecuted, hresidual, hlooked⟩
  · intro hparts
    obtain ⟨x, hexecuted, hresidual, hlooked⟩ := hparts
    exact ⟨x, (mem_judged_iff hs x).mpr ⟨hexecuted, hlooked⟩, hresidual⟩

theorem jobs_unseen (hs : (machine cfg).Reachable s) {x : CleanupJob × CleanupOutcome}
    (hx : x ∈ s.queue.history.executed) (hresidual : x.2.mayLeaveResidual = true) :
    s.closed = true ∨ Unseen s.queue x.1 x.2 := by
  by_cases hlooked : ∀ w : Nat, s.queue.workers[w]? ≠ some (.executed x.1 x.2)
  · left
    rw [closed_iff hs]
    exact Or.inr (Or.inr ⟨x, hx, hresidual, hlooked⟩)
  · right
    simp only [ne_eq, not_forall, not_not] at hlooked
    obtain ⟨w, hw⟩ := hlooked
    exact unseen (queue_reachable hs) hw hx

theorem creations_unseen (hs : (machine cfg).Reachable s) {c : Creation} (hc : c ∈ s.creations) {result : Attempted}
    (hresult : c.stage.result? = some result) (hresidual : mayLeaveResidual result = true) :
    s.closed = true ∨ c.stage = .attempting (.over result) ∧ c.permit = c.kind.permit := by
  cases hreturned : c.stage.returned? with
  | some r =>
    left
    rw [closed_iff hs]
    refine Or.inr (Or.inl ⟨c, hc, ?_⟩)
    have hsame : some r = some result := by
      rw [← hreturned, ← hresult]
      cases hstage : c.stage <;> rw [hstage] at hreturned <;> first | rfl | cases hreturned
    rw [Option.some.injEq] at hsame
    simp only [Creation.residual, hreturned, hsame, hresidual]
  | none =>
    right
    refine ⟨?_, ((gate hs).kept c hc).permit hreturned⟩
    cases hstage : c.stage with
    | attempting attempt =>
      cases attempt with
      | creating | tagging | compensating =>
        rw [hstage] at hresult
        cases hresult
      | _ =>
        rw [hstage] at hresult
        cases hresult
        rfl
    | requested | unwound =>
      rw [hstage] at hresult
      cases hresult
    | returned r | delivered r =>
      rw [hstage] at hreturned
      cases hreturned

theorem panics_residual {w : Nat} (h : s.step cfg (.queue (.operationPanics w)) = some t) :
    ∃ job, t.queue.workers[w]? = some (.executed job (.residualPossible .cleanupWorkerPanicked)) ∧
      (job, .residualPossible .cleanupWorkerPanicked) ∈ t.queue.history.executed := by
  cases step_transition cfg s t _ h with
  | queue _ queue allowed stepped =>
    cases Cleanup.step_transition cfg _ _ _ stepped with
    | operation _ i job outcome ends worker =>
      cases ends
      exact ⟨job, Ledger.getElem?_set_of_some worker, List.mem_append_right _ List.mem_cons_self⟩

theorem stays_closed (hs : (machine cfg).Reachable s) (hclosed : s.closed = true) {actions : List Action}
    (h : (machine cfg).run s actions = some t) : t.closed = true := by
  refine hs.run_related (R := fun _ v => v.closed = true) hclosed (fun u a v _ hu hstep => ?_) h
  obtain hsame | ⟨hnow, _⟩ := closed_step (step_transition cfg u v a hstep)
  · exact hsame.trans hu
  · exact hnow

theorem stays_settled (hs : (machine cfg).Reachable s) {i n : Nat} {result : Attempted} (hsettled : s.Settled i result n)
    {actions : List Action} (h : (machine cfg).run s actions = some t) : t.Settled i result n :=
  hs.run_related (R := fun _ v => v.Settled i result n) hsettled
    (fun u a v _ hu hstep => settled_step (step_transition cfg u v a hstep) hu) h

theorem admission_closed_exactly (cfg : Cleanup.Config) (s : State) (hs : (machine cfg).Reachable s) :
    Terminal cfg s := by
  refine ⟨closed_iff hs, fun x => jobs_unseen hs, fun c hc result => creations_unseen hs hc,
    fun w t => panics_residual, fun actions t hrun hclosed => stays_closed hs hclosed hrun,
    fun i t actions u hclosed hstep hrun => ?_, fun a t hstep hopen hclosed => ?_⟩
  · exact stays_settled (hs.next (.ensureOpen i) hstep) (rejected_settled hs hclosed hstep) hrun
  · obtain hsame | ⟨_, hcause⟩ := closed_step (step_transition cfg s t a hstep)
    · rw [hsame, hopen] at hclosed
      cases hclosed
    · exact hcause

/-- A lease's `CREATE DATABASE` times out; a prewarm fill comes after it. -/
def timedOut : List Action :=
  [.create .lease, .ensureOpen 0,
    .statement 0 (.error (.postgresOperationTimeout "create disposable PostgreSQL database".toList)),
    .judge 0, .create .prewarm, .ensureOpen 1, .dropPermit 0, .deliver 1]

theorem admission_closed_exactly_timed_out : ∃ s, (machine ⟨1, 1⟩).run (.initial ⟨1, 1⟩) timedOut = some s ∧
    s.closed = true ∧ s.shutdownBegun = false ∧ s.creations.map (·.statements) = [1, 0] ∧
    Terminal ⟨1, 1⟩ s := by
  refine ⟨_, rfl, rfl, rfl, rfl, ?_⟩
  exact admission_closed_exactly _ _ (Machine.reachable_of_run timedOut rfl rfl)

end Runs

end PostgresTestHarness.Admission
