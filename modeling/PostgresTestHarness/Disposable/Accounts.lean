import PostgresTestHarness.Cleanup.Barrier
import PostgresTestHarness.Disposable.Isolation

/-! What becomes of a disposable database.

As long as the gate is open, a database that is there is somebody's: a holder's, a creation's or a job's, or its
job was refused by a closed queue. A job that ends without a residual has dropped what it was given, and the
database that it made is with the pool. -/
namespace PostgresTestHarness.Disposable
open Postgres Admission
open Cleanup (CleanupJob CleanupOutcome)

variable {χ : Type} {cfg : Config χ} {s t : State χ} {i : Nat} {m : Made χ} {a : Action χ}

/-- The job of a closure waits, or is with a worker that has not looked at its outcome. -/
def Pending (c : Admission.State) (k : Nat) : Prop :=
  Waiting c k ∨ ∃ (w : Nat) (job : CleanupJob), job.operation = k ∧
    (c.queue.workers[w]? = some (.executing job) ∨ ∃ outcome, c.queue.workers[w]? = some (.executed job outcome))

/-- A creation that is not over, or whose database its caller has not got yet. -/
def underWay : CreationStage → Bool
  | .attempting _ | .returned (.ok ()) => true
  | _ => false

/-- A job that may leave a residual has not been looked at, or has closed the gate. -/
theorem At.pending {c : Admission.State} {k : Nat} {P : Operation → Prop}
    (hs : (Admission.machine cfg.cleanup).Reachable c) (h : At c k P)
    (residual : ∀ outcome, P (.over outcome) → outcome.mayLeaveResidual = true) : Pending c k ∨ c.closed = true := by
  obtain ⟨w, job, o, hw, hk, _⟩ | ⟨x, hx, hk, hP⟩ := h
  · exact Or.inl (Or.inr ⟨w, job, hk, Or.inl hw⟩)
  · obtain hclosed | hunseen := jobs_unseen hs hx (residual _ hP)
    · exact Or.inr hclosed
    · obtain ⟨w, hw⟩ := hunseen.worker
      exact Or.inl (Or.inr ⟨w, x.1, hk, Or.inr ⟨x.2, hw⟩⟩)

/-- Before a step a database was there, or it is new. -/
theorem made_step (hb : Books s) (h : Transition cfg s a t) (found : t.made[i]? = some m) :
    (∃ before, s.made[i]? = some before ∧ Follows i a before m) ∨ m.place = .unmade ∧ m.givenTo = none := by
  by_cases hi : i < s.made.length
  · obtain ⟨m', hm', hfollows⟩ := follows_step hb h (List.getElem?_eq_getElem hi)
    cases found.symm.trans hm'
    exact Or.inl ⟨_, List.getElem?_eq_getElem hi, hfollows⟩
  · have hlt := (List.getElem?_eq_some_iff.mp found).1
    cases h with
    | asked | refilling =>
      obtain ⟨_, rfl⟩ | hold := Ledger.getElem?_concat_cases found
      · exact Or.inr ⟨rfl, rfl⟩
      · exact absurd (List.getElem?_eq_some_iff.mp hold).1 hi
    | opened | stated | delivered | submitted | dropped | refilled | published | used =>
      exact absurd (List.length_set ▸ hlt) hi
    | _ => exact absurd hlt hi

/-- What was given up is a job's, or gone. -/
theorem given_up (hs : (machine cfg).Reachable s) (found : s.made[i]? = some m) {k : Nat} (hk : m.givenTo = some k) :
    m.place = .given ∨ m.place = .gone := by
  induction hs generalizing i m with
  | start h =>
    obtain ⟨base, _, rfl⟩ := h
    cases found
  | next a hs hstep ih =>
    obtain ⟨before, hbefore, hfollows⟩ | ⟨_, hnone⟩ := made_step (books hs) (step_transition hstep) found
    · obtain hsame | ⟨_, hgiven⟩ := hfollows.givenTo
      · have hnext := hfollows.place
        obtain hplace | hplace := ih hbefore (hsame ▸ hk) <;> rw [hplace] at hnext <;>
          generalize m.place = p at hnext ⊢ <;> cases hnext
        · exact Or.inl rfl
        · exact Or.inr rfl
        · exact Or.inr rfl
      · exact Or.inl hgiven
    · rw [hnone] at hk
      cases hk

/-- A database that a job makes is its business until the pool has it, or it is dropped. -/
theorem refill_pending (hs : (machine cfg).Reachable s) (found : s.made[i]? = some m) (loose : m.place.loose = true)
    {k : Nat} (hk : m.refills = some k) : Pending s.control k ∨ s.control.closed = true := by
  have hb := books hs
  have hi : i < s.control.creations.length := hb.length ▸ (List.getElem?_eq_some_iff.mp found).1
  refine ((hb.book i _ m (List.getElem?_eq_getElem hi) found).refills k hk).pending (control_reachable hs) fun outcome h => ?_
  refine (show _ ∨ _ from h).resolve_right fun hloose => ?_
  rw [loose] at hloose
  cases hloose

/-- A database that is there, on a server whose gate is open, is held by a lease or a pool, or its creation is
under way, or the job that was given it, or that makes it, has still to be done with it; or the job was refused
since the queue had closed. -/
theorem databases_accounted (hs : (machine cfg).Reachable s) (found : s.made[i]? = some m) {db : Database χ}
    (hdb : s.base.server.find m.name.value = some db) : s.control.closed = true ∨ m.place = .held ∨
    (∃ c, s.control.creations[i]? = some c ∧ underWay c.stage = true) ∨
    (∃ k, (m.givenTo = some k ∨ m.refills = some k) ∧ Pending s.control k) ∨
    ∃ k, m.givenTo = some k ∧ k ∈ s.control.queue.history.rejected := by
  have hb := books hs
  have habsent := ((catalog hs).stored i m found).absent
  have hi : i < s.control.creations.length := hb.length ▸ (List.getElem?_eq_some_iff.mp found).1
  obtain ⟨c, hc⟩ : ∃ c, s.control.creations[i]? = some c := ⟨_, List.getElem?_eq_getElem hi⟩
  have hbook := hb.book i c m hc found
  -- a database with its own job
  have hrefill : m.place.loose = true → m.refills.isSome = true → s.control.closed = true ∨
      ∃ k, (m.givenTo = some k ∨ m.refills = some k) ∧ Pending s.control k := by
    intro hloose hsome
    obtain ⟨k, hk⟩ := Option.isSome_iff_exists.mp hsome
    exact (refill_pending hs found hloose hk).symm.imp_right fun hpending => ⟨k, Or.inr hk, hpending⟩
  have hpending : s.control.closed = true ∨ (∃ k, (m.givenTo = some k ∨ m.refills = some k) ∧ Pending s.control k) →
      s.control.closed = true ∨ m.place = .held ∨ (∃ c, s.control.creations[i]? = some c ∧ underWay c.stage = true) ∨
        (∃ k, (m.givenTo = some k ∨ m.refills = some k) ∧ Pending s.control k) ∨
        ∃ k, m.givenTo = some k ∧ k ∈ s.control.queue.history.rejected :=
    Or.imp_right fun h => Or.inr (Or.inr (Or.inl h))
  -- a database whose creation has it
  have hmaking : m.place.making = true → m.place ≠ .unmade → s.control.closed = true ∨ underWay c.stage = true ∨
      ∃ k, (m.givenTo = some k ∨ m.refills = some k) ∧ Pending s.control k := by
    intro hmaking hunmade
    have hresidual : ∀ failure, c.stage.returned? = some (.error failure) → m.place = resultPlace (.error failure) →
        s.control.closed = true := by
      intro failure hreturned hplace
      refine (closed_iff (control_reachable hs)).mpr (Or.inr (Or.inl ⟨c, List.mem_of_getElem? hc, ?_⟩))
      cases failure with
      | noResidual error =>
        rw [hplace] at hmaking
        cases hmaking
      | residualPossible error =>
        rw [Creation.residual, hreturned]
        rfl
    cases hstage : c.stage with
    | requested => exact absurd (hbook.staged.place .unmade (hstage ▸ rfl)) hunmade
    | attempting attempt => exact Or.inr (Or.inl rfl)
    | returned result =>
      cases result with
      | ok _ => exact Or.inr (Or.inl rfl)
      | error failure => exact Or.inl (hresidual failure (hstage ▸ rfl) (hbook.staged.place _ (hstage ▸ rfl)))
    | delivered result =>
      cases result with
      | ok _ =>
        rw [hbook.staged.handed hstage] at hmaking
        cases hmaking
      | error failure => exact Or.inl (hresidual failure (hstage ▸ rfl) (hbook.staged.place _ (hstage ▸ rfl)))
    | unwound => exact (hrefill (loose_of_making hmaking) (hbook.staged.unwound hstage)).imp_right Or.inr
  cases hplace : m.place with
  | unmade => cases hdb.symm.trans (habsent (Or.inl hplace))
  | gone => cases hdb.symm.trans (habsent (Or.inr hplace))
  | held => exact Or.inr (Or.inl rfl)
  | doubtful | tagged =>
    obtain hclosed | hway | hjob := hmaking (hplace ▸ rfl) (hplace ▸ fun h => by cases h)
    · exact Or.inl hclosed
    · exact Or.inr (Or.inr (Or.inl ⟨c, hc, hway⟩))
    · exact hplace ▸ hpending (Or.inr hjob)
  | refilled => exact hplace ▸ hpending (hrefill (hplace ▸ rfl) (hbook.staged.refilled (Or.inl hplace)))
  | unpublished => exact hplace ▸ hpending (hrefill (hplace ▸ rfl) (hbook.staged.refilled (Or.inr hplace)))
  | given =>
    obtain ⟨k, hk, hrejected | hwaiting | hphase⟩ := hbook.given hplace
    · exact Or.inr (Or.inr (Or.inr (Or.inr ⟨k, hk, hrejected⟩)))
    · exact hplace ▸ hpending (Or.inr ⟨k, Or.inl hk, Or.inl hwaiting⟩)
    · exact hplace ▸ hpending ((hphase.pending (control_reachable hs) fun _ h => h).symm.imp_right fun h => ⟨k, Or.inl hk, h⟩)

/-- The lease's database is given up. -/
def giveUp (completion : Cleanup.CleanupCompletion) : Action Nat :=
  .submit 0 (.databaseCleanup false) completion true .backpressured

/-- Nobody has it but its job, which waits. -/
theorem databases_accounted_given : ∃ s : State Nat, (machine sampleConfig).Reachable s ∧ s.control.closed = false ∧
    ∃ m, s.made[0]? = some m ∧ m.place = .given ∧ ∃ k, Pending s.control k := by
  have hrun : ((machine sampleConfig).run (.initial sampleConfig Template.start) (lend ++ [giveUp .awaited])).any (fun s =>
      !s.control.closed && s.control.queue.history.rejected.isEmpty && s.control.creations[0]?.any (fun c => !underWay c.stage) &&
        s.made[0]?.any fun m => m.place == .given && (s.base.server.find m.name.value).isSome) = true := by
    decide +kernel
  obtain ⟨s, hs, hfacts⟩ := (Option.any_eq_true _ _).mp hrun
  simp only [Bool.and_eq_true, Bool.not_eq_true', List.isEmpty_iff] at hfacts
  obtain ⟨⟨⟨hopened, hrejected⟩, hcreation⟩, hmade⟩ := hfacts
  obtain ⟨c, hc, hover⟩ := (Option.any_eq_true _ _).mp hcreation
  obtain ⟨m, hm, hplace⟩ := (Option.any_eq_true _ _).mp hmade
  obtain ⟨hgiven, hthere⟩ := Bool.and_eq_true_iff.mp hplace
  have hgiven := beq_iff_eq.mp hgiven
  obtain ⟨db, hdb⟩ := Option.isSome_iff_exists.mp hthere
  have hreachable := Machine.reachable_of_run (m := machine sampleConfig) _ ⟨_, Template.start_initial, rfl⟩ hs
  refine ⟨s, hreachable, hopened, m, hm, hgiven, ?_⟩
  obtain hclosed | hheld | ⟨c', hc', hway⟩ | ⟨k, _, hpending⟩ | ⟨k, _, hk⟩ := databases_accounted hreachable hm hdb
  · cases hopened.symm.trans hclosed
  · cases hgiven.symm.trans hheld
  · cases hc.symm.trans hc'
    rw [hway] at hover
    cases hover
  · exact ⟨k, hpending⟩
  · rw [hrejected] at hk
    cases hk

/-- A job that has ended without a residual has dropped its database, and has handed over the one it made. -/
structure Disposed (s : State χ) (job : CleanupJob) : Prop where
  given : ∀ (i : Nat) m, s.made[i]? = some m → m.givenTo = some job.operation → s.base.server.find m.name.value = none
  refilled : ∀ (i : Nat) m, s.made[i]? = some m → m.refills = some job.operation → m.place.loose = false

theorem disposed_of_executed (hs : (machine cfg).Reachable s) {job : CleanupJob} {outcome : CleanupOutcome}
    (hx : (job, outcome) ∈ s.control.queue.history.executed) (hresidual : outcome.mayLeaveResidual = false) :
    Disposed s job := by
  have hb := books hs
  have hq := queue_reachable (control_reachable hs)
  -- the job is at its end
  have hover : ∀ {P : Operation → Prop}, At s.control job.operation P → P (.over outcome) := by
    intro P h
    obtain ⟨w, job', o, hw, hk, _⟩ | ⟨x, hx', hk, hP⟩ := h
    · exact absurd hk.symm (running_not_executed hq hw hx)
    · have hsame : x.1 = job := job_unique hq (Cleanup.started_of_executed hq (show (x.1, x.2) ∈ _ from hx'))
        (Cleanup.started_of_executed hq hx) hk
      cases Cleanup.executed_inj hq hx' hx (congrArg CleanupJob.sequence hsame)
      exact hP
  refine ⟨fun i m found hk => ?_, fun i m found hk => ?_⟩
  all_goals
    have hi : i < s.control.creations.length := hb.length ▸ (List.getElem?_eq_some_iff.mp found).1
    have hbook := hb.book i _ m (List.getElem?_eq_getElem hi) found
  · obtain hplace | hplace := given_up hs found hk
    · obtain ⟨k, hk', hcases⟩ := hbook.given hplace
      cases hk.symm.trans hk'
      have hstarted := Cleanup.started_of_executed hq hx
      obtain hrejected | ⟨waiting, hwaiting, hop⟩ | hphase := hcases
      · exact absurd (List.mem_map_of_mem hstarted) (Cleanup.rejected_not_started hq hrejected)
      · exact absurd hop (waiting_not_started hq hwaiting hstarted)
      · cases hresidual.symm.trans (hover hphase)
    · exact ((catalog hs).stored i m found).absent (Or.inr hplace)
  · obtain h | h := hover (hbook.refills _ hk)
    · rw [hresidual] at h
      cases h
    · exact h

/-- When a drain is through, every job that was accepted before the drain was called has been run. One without a
residual has dropped the database it was given, and the database that it made is with the pool, or with a later
job, or gone; one that may have left something has closed the gate. -/
theorem drain_disposes (hs : (machine cfg).Reachable s) {call : Cleanup.DrainCall} {target : Nat}
    (waiting : s.control.queue.draining = some (call, .waiting target))
    (taken : s.step cfg (.queue .take) = some t) (q : Nat) (low : 1 ≤ q) (high : q ≤ call.began) :
    ∃ job outcome, (job, outcome) ∈ t.control.queue.history.executed ∧ job.sequence = q ∧
      (outcome.mayLeaveResidual = true → t.control.closed = true) ∧ (outcome.mayLeaveResidual = false → Disposed t job) := by
  have hq := queue_reachable (control_reachable hs)
  have hreachable : (machine cfg).Reachable t := hs.next (.queue .take) taken
  have htaken : s.control.queue.step cfg.cleanup .take = some t.control.queue := by
    obtain ⟨control, hcontrol, rfl⟩ := stepControl_eq_some taken
    simp only [Admission.State.step, Admission.State.queueStep] at hcontrol
    obtain ⟨_, hcontrol⟩ := Option.ite_none_right_eq_some.mp hcontrol
    obtain ⟨queue, hqueue, rfl⟩ := Option.map_eq_some_iff.mp hcontrol
    exact hqueue
  have hhistory : t.control.queue.history = s.control.queue.history := by
    simp only [Cleanup.State.step, Cleanup.State.take, waiting] at htaken
    split at htaken
    · cases htaken
    · rw [← Option.some.inj htaken]
  obtain ⟨hexecuted, hcompleted⟩ := (Cleanup.take_returned hq waiting htaken).finished q low high
  obtain ⟨⟨job, outcome⟩, hx, rfl⟩ := List.mem_map.mp hexecuted
  rw [← hhistory] at hx hcompleted
  refine ⟨job, outcome, hx, rfl, fun hresidual => ?_, disposed_of_executed hreachable hx⟩
  exact (jobs_unseen (control_reachable hreachable) hx hresidual).resolve_right fun h => h.completed hcompleted

/-- A worker takes the job, drops the database and sends its result. -/
def cleanUp : List (Action Nat) :=
  [.queue (.nextJob 0), .checkOut 0 (.ok ()), .drop 0 0 (.ok ()) true, .queue (.operationReturns 0 .succeeded),
    .queue (.checkResidual 0), .queue (.dropPermit 0), .queue (.settle 0)]

/-- A drain that waits for it. -/
def drain : List (Action Nat) :=
  .queue (.callDrain .drain) :: .queue (.enterDrain 0) :: .queue .fixTarget :: cleanUp ++ [.queue (.complete 0)]

/-- The drain has waited for one job, and its database is gone. -/
theorem drain_disposes_one : ∃ (s t : State Nat) (job : CleanupJob), (machine sampleConfig).Reachable s ∧
    s.step sampleConfig (.queue .take) = some t ∧ job.sequence = 1 ∧ Disposed t job := by
  have hrun : ((machine sampleConfig).run (.initial sampleConfig Template.start) (lend ++ giveUp .deferred :: drain)).any
      (fun s => s.control.queue.draining == some (⟨.drain, 1⟩, .waiting 1) &&
        (s.step sampleConfig (.queue .take)).any fun t => !t.control.closed) = true := by
    decide +kernel
  obtain ⟨s, hs, hfacts⟩ := (Option.any_eq_true _ _).mp hrun
  obtain ⟨hdraining, htake⟩ := Bool.and_eq_true_iff.mp hfacts
  obtain ⟨t, ht, hopened⟩ := (Option.any_eq_true _ _).mp htake
  have hreachable := Machine.reachable_of_run (m := machine sampleConfig) _ ⟨_, Template.start_initial, rfl⟩ hs
  obtain ⟨job, outcome, _, hsequence, hclosed, hdisposed⟩ :=
    drain_disposes hreachable (beq_iff_eq.mp hdraining) ht 1 (by decide) (by decide)
  refine ⟨s, t, job, hreachable, ht, hsequence, hdisposed ?_⟩
  cases hresidual : outcome.mayLeaveResidual with
  | false => rfl
  | true =>
    rw [hclosed hresidual] at hopened
    cases hopened

/-! ### Awaited cleanups -/

section Awaited
variable {q r : Cleanup.State} {b : Cleanup.Action} {job : CleanupJob}

/-- A result that was sent is that of an executed job. -/
def SentResults (q : Cleanup.State) : Prop :=
  ∀ o ∈ q.awaited, ∃ job outcome, (job, outcome) ∈ q.history.executed ∧ job.sequence = o.sequence ∧
    o.finish = outcome.intoResult

theorem sentResults_step {cfg : Cleanup.Config} (hq : (Cleanup.machine cfg).Reachable q)
    (h : Cleanup.Transition cfg q b r) (hs : SentResults q) : SentResults r := by
  intro o ho
  have hgrows := (Cleanup.executed_grows h).subset
  have hbefore : o ∈ q.awaited → ∃ job outcome, (job, outcome) ∈ r.history.executed ∧ job.sequence = o.sequence ∧
      o.finish = outcome.intoResult := by
    intro ho
    obtain ⟨job, outcome, hx, hrest⟩ := hs o ho
    exact ⟨job, outcome, hgrows hx, hrest⟩
  cases h with
  | send v job outcome worker =>
    obtain ho | ho := List.mem_append.mp ho
    · exact hbefore ho
    · rw [List.mem_singleton] at ho
      subst ho
      obtain ⟨job', hx, hsequence, _⟩ := ((Cleanup.custody_invariant cfg).holds hq).honest.workers _ (List.mem_of_getElem? worker)
      refine ⟨job', outcome, hx, ?_, ?_⟩
      · rw [hsequence]
        cases outcome <;> rfl
      · cases outcome <;> rfl
  | read | dropSent => exact hbefore (List.mem_of_mem_filter ho)
  | _ => exact hbefore ho

theorem sentResults {cfg : Cleanup.Config} (hq : (Cleanup.machine cfg).Reachable q) : SentResults q := by
  refine Machine.Invariant.holds (m := Cleanup.machine cfg) ⟨?_, fun q a r hq ih h => ?_⟩ hq
  · intro q heq
    obtain rfl := heq
    nofun
  · exact sentResults_step hq (Cleanup.step_transition cfg q r a h) ih

/-- An accepted job waits until it has started, and then it has. -/
theorem accepted_step {cfg : Cleanup.Config} (h : Cleanup.Transition cfg q b r)
    (hjob : job ∈ q.submission.jobs ∨ job ∈ q.history.started) : job ∈ r.submission.jobs ∨ job ∈ r.history.started := by
  cases h with
  | accept => exact hjob.imp_left (List.mem_append_left _)
  | start v first rest worker jobs =>
    obtain hjob | hjob := hjob
    · rw [jobs] at hjob
      obtain rfl | hjob := List.mem_cons.mp hjob
      · exact Or.inr (List.mem_append_right _ List.mem_cons_self)
      · exact Or.inl hjob
    · exact Or.inr (List.mem_append_left _ hjob)
  | _ => exact hjob

/-- An accepted number is one job's. -/
theorem accepted_unique {cfg : Cleanup.Config} (hq : (Cleanup.machine cfg).Reachable q) {job' : CleanupJob}
    (hjob : job ∈ q.submission.jobs ∨ job ∈ q.history.started) (hjob' : job' ∈ q.history.started)
    (heq : job.sequence = job'.sequence) : job = job' := by
  have horder := Cleanup.inOrder hq
  obtain hwaiting | hstarted := hjob
  · have hmem : job.sequence ∈ q.submission.jobs.map (·.sequence) := List.mem_map_of_mem hwaiting
    have hmem' : job'.sequence ∈ q.history.started.map (·.sequence) := List.mem_map_of_mem hjob'
    rw [horder.waiting, List.mem_range'_1] at hmem
    rw [horder.started, List.mem_range'_1] at hmem'
    omega
  · exact List.inj_on_of_nodup_map (Cleanup.started_nodup hq) hstarted hjob' heq

theorem queue_control {c d : Admission.State} {x : Admission.Action} (h : c.step cfg.cleanup x = some d) :
    SameQueue c.queue d.queue ∨ ∃ b, Cleanup.Transition cfg.cleanup c.queue b d.queue := by
  cases Admission.step_transition cfg.cleanup c d x h with
  | submit kind databaseName completion permit admission queue stepped =>
    exact Or.inr ⟨_, Cleanup.step_transition _ _ _ _ stepped⟩
  | queue b queue allowed stepped => exact Or.inr ⟨_, Cleanup.step_transition _ _ _ _ stepped⟩
  | judge j c result found stage => cases mayLeaveResidual result <;> exact Or.inl ⟨rfl, rfl, rfl⟩
  | _ => exact Or.inl ⟨rfl, rfl, rfl⟩

/-- What a step does to the queue. -/
theorem queue_step (h : s.step cfg a = some t) :
    SameQueue s.control.queue t.control.queue ∨ ∃ b, Cleanup.Transition cfg.cleanup s.control.queue b t.control.queue := by
  obtain heq | ⟨x, hx⟩ := control_step h
  · exact Or.inl (heq ▸ ⟨rfl, rfl, rfl⟩)
  · exact queue_control hx

/-- The job that has database `i` to drop. -/
structure Entrusted (i : Nat) (name : DatabaseName) (job : CleanupJob) (s : State χ) : Prop where
  accepted : job ∈ s.control.queue.submission.jobs ∨ job ∈ s.control.queue.history.started
  given : ∃ e, s.made[i]? = some e ∧ e.name = name ∧ e.givenTo = some job.operation

theorem Entrusted.step {name : DatabaseName} (hs : (machine cfg).Reachable s) (h : s.step cfg a = some t)
    (hjob : Entrusted i name job s) : Entrusted i name job t := by
  obtain ⟨haccepted, e, he, hname, hgiven⟩ := hjob
  refine ⟨?_, ?_⟩
  · obtain hsame | ⟨b, hqueue⟩ := queue_step h
    · rw [hsame.submission, hsame.history]
      exact haccepted
    · exact accepted_step hqueue haccepted
  · obtain ⟨e', he', hfollows⟩ := follows_step (books hs) (step_transition h) he
    refine ⟨e', he', hfollows.name.trans hname, ?_⟩
    obtain hsame | ⟨hheld, _⟩ := hfollows.givenTo
    · exact hsame.trans hgiven
    · obtain hplace | hplace := given_up hs he hgiven <;> cases hplace.symm.trans hheld

theorem executed_step (h : s.step cfg a = some t) :
    s.control.queue.history.executed ⊆ t.control.queue.history.executed := by
  obtain hsame | ⟨b, hqueue⟩ := queue_step h
  · rw [hsame.history]
    exact List.Subset.refl _
  · exact (Cleanup.executed_grows hqueue).subset

/-- An awaited cleanup that reports success has dropped its database: once the result is there, and for good. -/
theorem awaited_cleanup_drops (hs : (machine cfg).Reachable s) (found : s.made[i]? = some m) {kind : JobKind} {permit : Bool}
    {admission : Cleanup.CleanupAdmission} (opened : s.control.queue.submission.closed = false)
    (submitted : s.step cfg (.submit i kind .awaited permit admission) = some t) {actions : List (Action χ)} {u : State χ}
    (run : (machine cfg).run t actions = some u) {o : Cleanup.AwaitedCleanupOutcome} (sent : o ∈ u.control.queue.awaited)
    (mine : o.sequence = s.control.queue.submission.nextSequence + 1) (success : o.finish = .ok ())
    {rest : List (Action χ)} {v : State χ} (later : (machine cfg).run u rest = some v) :
    v.base.server.find m.name.value = none := by
  have hreachable : (machine cfg).Reachable t := hs.next (.submit i kind .awaited permit admission) submitted
  obtain ⟨job, hsequence, hjob⟩ : ∃ job : CleanupJob, job.sequence = s.control.queue.submission.nextSequence + 1 ∧
      Entrusted i m.name job t := by
    cases step_transition submitted with
    | submitted _ e _ _ _ _ queue made held stepped =>
      cases found.symm.trans made
      cases stepped with
      | accept =>
        exact ⟨_, rfl, Or.inl (List.mem_append_right _ List.mem_cons_self), _, Ledger.getElem?_set_of_some made, rfl, rfl⟩
      | reject => cases opened.symm.trans ‹_›
      | operation _ _ _ _ ended => cases ended
  have hentrusted : ∀ {w w' : State χ} {as : List (Action χ)}, (machine cfg).Reachable w → Entrusted i m.name job w →
      (machine cfg).run w as = some w' → Entrusted i m.name job w' := fun hw h hrun =>
    Machine.Reachable.run_related (m := machine cfg) (R := fun _ w => Entrusted i m.name job w) hw h
      (fun _ _ _ hx ih hstep => ih.step hx hstep) hrun
  have hu := hreachable.run run
  have hjob' := hentrusted hreachable hjob run
  have hv := hu.run later
  obtain ⟨job', outcome, hx, hsame, hresult⟩ := sentResults (queue_reachable (control_reachable hu)) o sent
  have hq := queue_reachable (control_reachable hu)
  cases accepted_unique hq hjob'.accepted (Cleanup.started_of_executed hq hx) (by rw [hsequence, hsame, mine])
  have hsucceeded : outcome = .succeeded := by
    rw [hresult] at success
    cases outcome with
    | succeeded => rfl
    | noResidual error => cases success
    | residualPossible error => cases success
  subst hsucceeded
  have hx' := Machine.Reachable.run_related (m := machine cfg) (R := fun x w =>
    x.control.queue.history.executed ⊆ w.control.queue.history.executed) hu (List.Subset.refl _)
    (fun _ _ _ _ ih hstep => List.Subset.trans ih (executed_step hstep)) later hx
  obtain ⟨e, he, hname, hgiven⟩ := (hentrusted hu hjob' later).given
  exact hname ▸ (disposed_of_executed hv hx' rfl).given i e he hgiven

def sweepAfter : List (Action Nat) :=
  [.base (.startSweep sampleSweep), .base (.advance 1 .ok)]

/-- The lease's cleanup has reported success, and then a sweep lists the databases. -/
theorem awaited_cleanup_drops_swept : ∃ v : State Nat, (machine sampleConfig).Reachable v ∧
    v.base.server.find (DatabaseName.test Template.sampleProject sampleUuid).value = none := by
  have hrun : ((machine sampleConfig).run (.initial sampleConfig Template.start) lend).any (fun s =>
      !s.control.queue.submission.closed && s.control.queue.submission.nextSequence == 0 &&
        s.made[0]?.any (fun m => m.name == .test Template.sampleProject sampleUuid) &&
        (s.step sampleConfig (giveUp .awaited)).any fun t => ((machine sampleConfig).run t cleanUp).any fun u =>
          u.control.queue.awaited.any (fun o => o.sequence == 1 && o.finish.isOk) &&
            ((machine sampleConfig).run u sweepAfter).isSome) = true := by
    decide +kernel
  obtain ⟨s, hs, hfacts⟩ := (Option.any_eq_true _ _).mp hrun
  simp only [Bool.and_eq_true, Bool.not_eq_true', beq_iff_eq] at hfacts
  obtain ⟨⟨⟨hopened, hnext⟩, hmade⟩, hsubmit⟩ := hfacts
  obtain ⟨m, hm, hname⟩ := (Option.any_eq_true _ _).mp hmade
  obtain ⟨t, ht, hclean⟩ := (Option.any_eq_true _ _).mp hsubmit
  obtain ⟨u, hu, hlater⟩ := (Option.any_eq_true _ _).mp hclean
  obtain ⟨hawaited, hswept⟩ := Bool.and_eq_true_iff.mp hlater
  obtain ⟨o, ho, hresult⟩ := List.any_eq_true.mp hawaited
  obtain ⟨hsequence, hok⟩ := Bool.and_eq_true_iff.mp hresult
  obtain ⟨v, hv⟩ := Option.isSome_iff_exists.mp hswept
  have hreachable := Machine.reachable_of_run (m := machine sampleConfig) _ ⟨_, Template.start_initial, rfl⟩ hs
  have hsuccess : o.finish = .ok () := by
    cases hfinish : o.finish with
    | ok _ => rfl
    | error _ =>
      rw [hfinish] at hok
      cases hok
  have hmine : o.sequence = s.control.queue.submission.nextSequence + 1 := by
    rw [hnext]
    exact beq_iff_eq.mp hsequence
  refine ⟨v, ((hreachable.next (giveUp .awaited) ht).run hu).run hv, ?_⟩
  rw [← beq_iff_eq.mp hname]
  exact awaited_cleanup_drops hreachable hm hopened ht hu ho hmine hsuccess hv

end Awaited

end PostgresTestHarness.Disposable
