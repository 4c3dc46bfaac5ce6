import Mathlib.Data.List.Basic
import PostgresTestHarness.Lease.System

/-! How many directly leased databases one server can hold.

While admission is open, every database that exists or may exist belongs to somebody:
to a permit (a creation, a lease, a submission, a job that kept it), to a queue slot
(a deferred job that gave its permit back) or to a worker. Permits, slots and workers
are counted, which gives the bound. The queue closes only after admission has, and a
residual closes admission before its permit or its worker is free, so from then on the
databases can only become fewer. -/
namespace PostgresTestHarness.Lease
open Cleanup (CleanupAdmission CleanupCompletion CleanupJob Worker)

/-- The database a worker has not dropped yet, or of whose residual admission has not
heard. -/
def dropping : Worker → List Text
  | .executing job | .executed job _ => [job.databaseName]
  | _ => []

section Queue
variable {cfg : Cleanup.Config} {a : Cleanup.Action} {q r : Cleanup.State}

def submits : Cleanup.Action → Bool
  | .submit .. => true
  | _ => false

theorem internal_submits {closed : Bool} (h : internal closed a = true) : submits a = false := by
  cases a with
  | submit => cases h
  | _ => rfl

/-- Permits with the queue: on its waiting jobs and on the workers. -/
def permitsIn (q : Cleanup.State) : Nat :=
  q.submission.jobs.countP (·.permit) + q.workers.countP holdsPermit

/-- A submission adds at most the permit it carries. -/
theorem permitsIn_submit {name : Text} {completion : CleanupCompletion} {permit : Bool}
    {admission : CleanupAdmission}
    (h : Cleanup.Transition cfg q (.submit name completion permit admission) r) :
    permitsIn r ≤ permitsIn q + if permit = true then 1 else 0 := by
  cases h with
  | accept =>
    simp only [permitsIn, List.countP_append, List.countP_cons, List.countP_nil]
    omega
  | reject => exact Nat.le_add_right _ _
  | operation _ i job outcome ended worker => cases ended

/-- Only a submission brings a permit. -/
theorem permitsIn_le (h : Cleanup.Transition cfg q a r) (own : submits a = false) :
    permitsIn r ≤ permitsIn q := by
  have hset : ∀ (i : Nat) (w w' : Worker), q.workers[i]? = some w →
      (holdsPermit w' = true → holdsPermit w = true) → r.workers = q.workers.set i w' →
      r.submission.jobs = q.submission.jobs → permitsIn r ≤ permitsIn q := by
    intro i w w' hw hle hworkers hjobs
    have := Ledger.countP_set holdsPermit w' hw
    rw [permitsIn, permitsIn, hworkers, hjobs]
    by_cases hw' : holdsPermit w' = true
    · rw [if_pos hw', if_pos (hle hw')] at this
      omega
    · rw [if_neg hw'] at this
      omega
  cases h with
  | accept | reject => cases own
  | start i job rest worker jobs =>
    have := Ledger.countP_set holdsPermit (.executing job) worker
    by_cases hp : job.permit = true <;>
      simp only [permitsIn, jobs, List.countP_cons, holdsPermit, hp, Bool.false_eq_true,
        if_true, if_false] at this ⊢ <;> omega
  | exit i worker jobs closed => exact hset i _ .exited worker (fun h => nomatch h) rfl rfl
  | operation _ i job outcome _ worker =>
    exact hset i _ (.executed job outcome) worker id rfl rfl
  | check i job outcome worker => exact hset i _ (.admitted job outcome) worker id rfl rfl
  | permit i job outcome worker =>
    exact hset i _ (.settling { job with permit := false } outcome) worker (fun h => nomatch h) rfl rfl
  | send i job outcome worker | sendBack i job outcome worker =>
    exact hset i _ (.completing job none) worker (fun h => nomatch h) rfl rfl
  | defer i job outcome worker =>
    exact hset i _ (.completing job _) worker (fun h => nomatch h) rfl rfl
  | complete i job failure worker =>
    exact hset i _ (.releasing job) worker (fun h => nomatch h) rfl rfl
  | release i job worker => exact hset i _ .idle worker (fun h => nomatch h) rfl rfl
  | _ => exact Nat.le_refl _

theorem admissionClosed_mono (h : Cleanup.Transition cfg q a r)
    (hc : q.databaseAdmissionClosed = true) : r.databaseAdmissionClosed = true := by
  cases h with
  | check i job outcome worker =>
    show (q.databaseAdmissionClosed || _) = true
    rw [hc, Bool.true_or]
  | admission => rfl
  | _ => exact hc

theorem handles_le (h : Cleanup.Transition cfg q a r) (hclone : a ≠ .cloneHandle) :
    r.handles ≤ q.handles := by
  cases h with
  | clone => exact absurd rfl hclone
  | unhandle => exact Nat.sub_le _ _
  | _ => exact Nat.le_refl _

theorem handles_eq (h : Cleanup.Transition cfg q a r) (hclone : a ≠ .cloneHandle)
    (hdrop : a ≠ .dropHandle) : r.handles = q.handles := by
  cases h with
  | clone => exact absurd rfl hclone
  | unhandle => exact absurd rfl hdrop
  | _ => rfl

/-- What a submission does to the queue: nothing when it is closed, else one more job. -/
structure Submitted (cfg : Cleanup.Config) (name : Text) (permit : Bool)
    (admission : CleanupAdmission) (q r : Cleanup.State) : Prop where
  jobs : (q.submission.closed = true ∧ r.submission.jobs = q.submission.jobs) ∨
    (q.submission.closed = false ∧
      q.submission.mustWait (max cfg.queueCapacity 1) admission = false ∧
      ∃ job, job.databaseName = name ∧ job.permit = permit ∧
        r.submission.jobs = q.submission.jobs ++ [job])
  workers : r.workers = q.workers
  executed : r.history.executed = q.history.executed
  admission : r.databaseAdmissionClosed = q.databaseAdmissionClosed
  handle : 0 < q.handles
  handles : r.handles = q.handles

theorem submitted {name : Text} {completion : CleanupCompletion} {permit : Bool}
    {admission : CleanupAdmission}
    (h : Cleanup.Transition cfg q (.submit name completion permit admission) r) :
    Submitted cfg name permit admission q r := by
  cases h with
  | accept _ _ _ _ handle opened room =>
    exact ⟨Or.inr ⟨opened, room, _, rfl, rfl, rfl⟩, rfl, rfl, rfl, handle, rfl⟩
  | reject _ _ _ _ handle closed => exact ⟨Or.inl ⟨closed, rfl⟩, rfl, rfl, rfl, handle, rfl⟩
  | operation _ i job outcome ended worker => cases ended

/-- Other steps only take jobs from the front. -/
theorem jobs_suffix (h : Cleanup.Transition cfg q a r) (own : submits a = false) :
    r.submission.jobs <:+ q.submission.jobs := by
  cases h with
  | accept | reject => cases own
  | start i job rest worker jobs =>
    rw [jobs]
    exact List.suffix_cons job rest
  | _ => exact List.suffix_refl _

/-- Databases that a waiting job or a worker answers for. -/
def answeredIn (q : Cleanup.State) : List Text :=
  q.submission.jobs.map (·.databaseName) ++ q.workers.flatMap dropping

theorem droppedIn_mono (h : Cleanup.Transition cfg q a r) : droppedIn q ⊆ droppedIn r :=
  (((Cleanup.executed_grows h).sublist.filter _).map _).subset

/-- A database leaves a worker's hands dropped, or with admission closed. -/
theorem answeredIn_step (h : Cleanup.Transition cfg q a r) (own : submits a = false)
    (honest : Cleanup.Honest q)
    {name : Text} (hname : name ∈ answeredIn q) :
    name ∈ answeredIn r ∨ name ∈ droppedIn r ∨ r.databaseAdmissionClosed = true := by
  rw [answeredIn, List.mem_append] at hname
  simp only [answeredIn, List.mem_append]
  have hset : ∀ (i : Nat) (w w' : Worker), q.workers[i]? = some w →
      (name ∈ dropping w → name ∈ dropping w') → r.workers = q.workers.set i w' →
      name ∈ q.workers.flatMap dropping → name ∈ r.workers.flatMap dropping := by
    intro i w w' hw hkeep hworkers hmem
    rw [hworkers]
    exact Ledger.mem_flatMap_set dropping hw hkeep hmem
  cases h with
  | accept | reject => cases own
  | start i job rest worker jobs =>
    left
    rw [jobs, List.map_cons, List.mem_cons] at hname
    rcases hname with (rfl | hname) | hname
    · right
      obtain ⟨hi, _⟩ := List.getElem?_eq_some_iff.mp worker
      exact List.mem_flatMap.mpr ⟨_, List.mem_set hi _, List.mem_singleton.mpr rfl⟩
    · exact Or.inl hname
    · exact Or.inr (hset i _ (.executing job) worker (fun h => nomatch h) rfl hname)
  | exit i worker jobs closed =>
    exact Or.inl (hname.imp_right (hset i _ .exited worker (fun h => nomatch h) rfl))
  | operation _ i job outcome _ worker =>
    exact Or.inl (hname.imp_right (hset i _ (.executed job outcome) worker id rfl))
  | check i job outcome worker =>
    by_cases hsame : name ∈ dropping (.executed job outcome)
    · rw [dropping, List.mem_singleton] at hsame
      right
      cases hresidual : outcome.mayLeaveResidual with
      | true =>
        right
        exact Bool.or_true _
      | false =>
        left
        obtain ⟨job', hmem, _, hjob⟩ := honest.workers _ (List.mem_of_getElem? worker)
        refine List.mem_map.mpr ⟨(job', outcome), List.mem_filter.mpr ⟨hmem, ?_⟩, ?_⟩
        · show (!outcome.mayLeaveResidual) = true
          rw [hresidual]
          rfl
        · rw [hsame, ← hjob]
    · exact Or.inl (hname.imp_right
        (hset i _ (.admitted job outcome) worker (fun h => absurd h hsame) rfl))
  | permit i job outcome worker =>
    exact Or.inl (hname.imp_right
      (hset i _ (.settling { job with permit := false } outcome) worker (fun h => nomatch h) rfl))
  | send i job outcome worker | sendBack i job outcome worker =>
    exact Or.inl (hname.imp_right (hset i _ (.completing job none) worker (fun h => nomatch h) rfl))
  | defer i job outcome worker =>
    exact Or.inl (hname.imp_right (hset i _ (.completing job _) worker (fun h => nomatch h) rfl))
  | complete i job failure worker =>
    exact Or.inl (hname.imp_right (hset i _ (.releasing job) worker (fun h => nomatch h) rfl))
  | release i job worker =>
    exact Or.inl (hname.imp_right (hset i _ .idle worker (fun h => nomatch h) rfl))
  | _ => exact Or.inl hname

/-- Whoever closes the queue, or is about to, has grounds for `F`. -/
structure ClosedBy (F : Prop) (q : Cleanup.State) : Prop where
  closed : q.submission.closed = true → F
  callers : ∀ call ∈ q.callers, call.kind ≠ .drain → F
  draining : ∀ call stage, q.draining = some (call, stage) → call.kind ≠ .drain → F

theorem ClosedBy.mono {F G : Prop} (h : ClosedBy F q) (hFG : F → G) : ClosedBy G q :=
  ⟨fun hc => hFG (h.closed hc), fun call hcall hk => hFG (h.callers call hcall hk),
    fun call stage hd hk => hFG (h.draining call stage hd hk)⟩

theorem closedBy_step {F : Prop} (h : Cleanup.Transition cfg q a r)
    (hclose : a = .callDrain .close → F) (hdestroy : q.handles = 0 → F) (hq : ClosedBy F q) :
    ClosedBy F r := by
  obtain ⟨hclosed, hcallers, hdraining⟩ := hq
  cases h with
  | call kind handle outside =>
    refine ⟨hclosed, fun call hcall hk => ?_, hdraining⟩
    rcases List.mem_append.mp hcall with hcall | hcall
    · exact hcallers call hcall hk
    · rw [List.mem_singleton.mp hcall] at hk
      cases kind with
      | drain => exact absurd rfl hk
      | close => exact hclose rfl
      | destructor => exact absurd rfl outside
  | enter i call free caller =>
    refine ⟨hclosed, fun c hc => hcallers c (List.mem_of_mem_eraseIdx hc), ?_⟩
    intro _ _ hparts hk
    cases hparts
    exact hcallers call (List.mem_of_getElem? caller) hk
  | target call entered kind =>
    refine ⟨hclosed, hcallers, ?_⟩
    intro _ _ hparts hk
    cases hparts
    exact hdraining call _ entered hk
  | close call entered kind =>
    refine ⟨fun _ => hdraining call _ entered kind, hcallers, ?_⟩
    intro _ _ hparts hk
    cases hparts
    exact hdraining call _ entered hk
  | take call target waiting ready =>
    refine ⟨hclosed, hcallers, ?_⟩
    intro _ _ hparts hk
    cases hparts
    exact hdraining call _ waiting hk
  | hand | log =>
    refine ⟨hclosed, hcallers, ?_⟩
    intro _ _ hparts
    cases hparts
  | destroy alone first =>
    refine ⟨hclosed, hcallers, fun _ _ _ _ => hdestroy ?_⟩
    simp only [Cleanup.State.referenced, Bool.or_eq_false_iff, decide_eq_false_iff_not] at alone
    omega
  | _ => exact ⟨hclosed, hcallers, hdraining⟩

end Queue

/-- No creation passes the gate any more. -/
def State.frozen (s : State) : Prop := s.closed = true ∨ s.queue.handles = 0

/-- The names in play have been used, and attempted ones once. -/
structure Fresh (s : State) : Prop where
  nodup : s.attempted.Nodup
  attempted : ∀ name ∈ s.attempted, name ∈ s.used
  creations : ∀ c ∈ s.creations, ∀ name ∈ c.names, name ∈ s.used
  leases : ∀ name ∈ s.leases, name ∈ s.used
  returning : ∀ e ∈ s.returning, e.1 ∈ s.used
  jobs : ∀ job ∈ s.queue.submission.jobs, job.databaseName ∈ s.used

def PermitsBounded (l : Limits) (s : State) : Prop :=
  s.holders * l.connectionsPerDatabase ≤ l.connectionBudget

/-- Waiting jobs that clean up a direct lease and have given its permit back. -/
def State.bare (s : State) : Nat :=
  s.queue.submission.jobs.countP fun job => !job.permit && decide (job.databaseName ∈ s.attempted)

/-- The server is held by everything that can still create or submit. -/
def Held (s : State) : Prop :=
  s.queue.handles = 0 → s.harnesses = 0 ∧ s.creations = [] ∧ s.leases = [] ∧ s.returning = []

/-- The databases that somebody answers for. -/
def State.covered (s : State) : List Text :=
  s.creations.flatMap Creation.names ++ s.leases ++ s.returning.map Prod.fst ++ answeredIn s.queue

def Covered (s : State) : Prop := ¬ s.frozen → ∀ name ∈ s.existing, name ∈ s.covered

section Steps
variable {l : Limits} {s t : State}

/-- A step of the server leaves the queue alone or is a step of the queue. -/
theorem queue_step (h : Transition l s t) :
    t.queue = s.queue ∨ ∃ a, s.queue.step l.cleanup a = some t.queue ∧ a ≠ .cloneHandle ∧
      (a = .callDrain .close → s.closed = true) := by
  cases h with
  | closeAfter i name creation queue step | closeAdmission queue step =>
    exact Or.inr ⟨_, step, by simp, by simp⟩
  | submit i name how lease queue step => exact Or.inr ⟨_, step, by simp, by simp⟩
  | submitPrewarmer name fresh queue step => exact Or.inr ⟨_, step, by simp, by simp⟩
  | queue a own queue step =>
    refine Or.inr ⟨a, step, ?_, ?_⟩
    · intro heq
      obtain rfl := heq
      cases own
    · intro heq
      obtain rfl := heq
      exact own
  | dropServer _ _ _ _ _ queue step => exact Or.inr ⟨_, step, by simp, by simp⟩
  | _ => exact Or.inl rfl

theorem frozen_step (h : Transition l s t) (hs : s.frozen) : t.frozen := by
  rcases queue_step h with heq | ⟨a, hstep, hclone, _⟩
  · rw [State.frozen, State.closed, heq]
    exact hs
  · have h := Cleanup.step_transition _ _ _ _ hstep
    refine hs.imp (admissionClosed_mono h) fun hzero => ?_
    have := handles_le h hclone
    omega

theorem closedBy_frozen_step (h : Transition l s t) (hs : ClosedBy s.frozen s.queue) :
    ClosedBy t.frozen t.queue := by
  refine ClosedBy.mono ?_ (frozen_step h)
  rcases queue_step h with heq | ⟨a, hstep, _, hclose⟩
  · rw [heq]
    exact hs
  · exact closedBy_step (Cleanup.step_transition _ _ _ _ hstep) (fun ha => Or.inl (hclose ha))
      Or.inr hs

/-- With handles left, an own step of the queue keeps them. -/
theorem internal_handles {a : Cleanup.Action} {queue : Cleanup.State}
    (own : internal s.closed a = true) (step : s.queue.step l.cleanup a = some queue) :
    queue.handles = s.queue.handles := by
  refine handles_eq (Cleanup.step_transition _ _ _ _ step) ?_ ?_
  · intro heq
    obtain rfl := heq
    cases own
  · intro heq
    obtain rfl := heq
    cases own

theorem canAcquire_iff : s.canAcquire l = true ↔ s.closed = false ∧ 0 < s.harnesses ∧
    (s.holders + 1) * l.connectionsPerDatabase ≤ l.connectionBudget := by
  simp only [State.canAcquire, Bool.and_eq_true, Bool.not_eq_true', decide_eq_true_eq, and_assoc]

theorem held_step (h : Transition l s t) (hs : Held s) : Held t := by
  intro hzero
  cases h with
  | acquire room | acquirePrewarmed name room fresh =>
    have := (hs hzero).1
    have := (canAcquire_iff.mp room).2.1
    omega
  | attempt i name creation | created i name creation | noResidual i name creation
  | residualPossible i name creation | abandon i creation | fail i name creation =>
    rw [(hs hzero).2.1] at creation
    cases creation
  | closeAfter i name creation queue step =>
    have hqueue := handles_eq (Cleanup.step_transition _ _ _ _ step) (by simp) (by simp)
    rw [(hs (hqueue.symm.trans hzero)).2.1] at creation
    cases creation
  | closeAdmission queue step =>
    exact hs ((handles_eq (Cleanup.step_transition _ _ _ _ step) (by simp) (by simp)).symm.trans hzero)
  | giveUp i name how lease =>
    rw [(hs hzero).2.2.1] at lease
    cases lease
  | submit i name how lease queue step =>
    have hqueue := submitted (Cleanup.step_transition _ _ _ _ step)
    rw [(hs (hqueue.handles.symm.trans hzero)).2.2.2] at lease
    cases lease
  | dropDeferredPermit pending => exact hs hzero
  | submitPrewarmer name fresh queue step =>
    exact hs ((submitted (Cleanup.step_transition _ _ _ _ step)).handles.symm.trans hzero)
  | queue a own queue step => exact hs ((internal_handles own step).symm.trans hzero)
  | harnesses n handle =>
    have := (hs hzero).1
    omega
  | dropServer harnesses creations leases returning => exact ⟨harnesses, creations, leases, returning⟩

theorem fresh_step (h : Transition l s t) (hs : Fresh s) : Fresh t := by
  obtain ⟨hnodup, hattempted, hcreations, hleases, hreturning, hjobs⟩ := hs
  cases h with
  | acquire room =>
    refine ⟨hnodup, hattempted, fun c hc name hname => ?_, hleases, hreturning, hjobs⟩
    rcases List.mem_append.mp hc with hc | hc
    · exact hcreations c hc name hname
    · rw [List.mem_singleton.mp hc] at hname
      cases hname
  | acquirePrewarmed name room fresh =>
    refine ⟨hnodup, fun n hn => List.mem_cons_of_mem _ (hattempted n hn),
      fun c hc n hn => List.mem_cons_of_mem _ (hcreations c hc n hn), fun n hn => ?_,
      fun e he => List.mem_cons_of_mem _ (hreturning e he),
      fun job hjob => List.mem_cons_of_mem _ (hjobs job hjob)⟩
    rcases List.mem_append.mp hn with hn | hn
    · exact List.mem_cons_of_mem _ (hleases n hn)
    · rw [List.mem_singleton.mp hn]
      exact List.mem_cons_self
  | attempt i name creation opened fresh =>
    refine ⟨List.nodup_cons.mpr ⟨fun hn => fresh (hattempted name hn), hnodup⟩, fun n hn => ?_,
      fun c hc n hn => ?_, fun n hn => List.mem_cons_of_mem _ (hleases n hn),
      fun e he => List.mem_cons_of_mem _ (hreturning e he),
      fun job hjob => List.mem_cons_of_mem _ (hjobs job hjob)⟩
    · rcases List.mem_cons.mp hn with rfl | hn
      · exact List.mem_cons_self
      · exact List.mem_cons_of_mem _ (hattempted n hn)
    · rcases Ledger.mem_of_set hc with rfl | hc
      · rw [List.mem_singleton.mp hn]
        exact List.mem_cons_self
      · exact List.mem_cons_of_mem _ (hcreations c hc n hn)
  | created i name creation =>
    refine ⟨hnodup, hattempted, fun c hc => hcreations c (List.mem_of_mem_eraseIdx hc),
      fun n hn => ?_, hreturning, hjobs⟩
    rcases List.mem_append.mp hn with hn | hn
    · exact hleases n hn
    · rw [List.mem_singleton.mp hn]
      exact hcreations _ (List.mem_of_getElem? creation) name List.mem_cons_self
  | noResidual i name creation =>
    exact ⟨hnodup.erase name, fun n hn => hattempted n (List.mem_of_mem_erase hn),
      fun c hc => hcreations c (List.mem_of_mem_eraseIdx hc), hleases, hreturning, hjobs⟩
  | residualPossible i name creation =>
    refine ⟨hnodup, hattempted, fun c hc n hn => ?_, hleases, hreturning, hjobs⟩
    rcases Ledger.mem_of_set hc with rfl | hc
    · exact hcreations _ (List.mem_of_getElem? creation) n hn
    · exact hcreations c hc n hn
  | closeAfter i name creation queue step =>
    refine ⟨hnodup, hattempted, fun c hc n hn => ?_, hleases, hreturning, fun job hjob => ?_⟩
    · rcases Ledger.mem_of_set hc with rfl | hc
      · exact hcreations _ (List.mem_of_getElem? creation) n hn
      · exact hcreations c hc n hn
    · cases step
      exact hjobs job hjob
  | abandon i creation | fail i name creation =>
    exact ⟨hnodup, hattempted, fun c hc => hcreations c (List.mem_of_mem_eraseIdx hc), hleases,
      hreturning, hjobs⟩
  | closeAdmission queue step =>
    refine ⟨hnodup, hattempted, hcreations, hleases, hreturning, fun job hjob => ?_⟩
    cases step
    exact hjobs job hjob
  | giveUp i name how lease =>
    refine ⟨hnodup, hattempted, hcreations, fun n hn => hleases n (List.mem_of_mem_eraseIdx hn),
      fun e he => ?_, hjobs⟩
    rcases List.mem_append.mp he with he | he
    · exact hreturning e he
    · rw [List.mem_singleton.mp he]
      exact hleases name (List.mem_of_getElem? lease)
  | submit i name how lease queue step =>
    refine ⟨hnodup, hattempted, hcreations, hleases,
      fun e he => hreturning e (List.mem_of_mem_eraseIdx he), fun job hjob => ?_⟩
    rcases (submitted (Cleanup.step_transition _ _ _ _ step)).jobs with ⟨_, hsame⟩ | ⟨_, _, new, hn, _, hmore⟩
    · exact hjobs job (hsame ▸ hjob)
    · have hjob : job ∈ queue.submission.jobs := hjob
      rw [hmore, List.mem_append, List.mem_singleton] at hjob
      rcases hjob with hjob | rfl
      · exact hjobs job hjob
      · rw [hn]
        exact hreturning _ (List.mem_of_getElem? lease)
  | submitPrewarmer name fresh queue step =>
    refine ⟨hnodup, fun n hn => List.mem_cons_of_mem _ (hattempted n hn),
      fun c hc n hn => List.mem_cons_of_mem _ (hcreations c hc n hn),
      fun n hn => List.mem_cons_of_mem _ (hleases n hn),
      fun e he => List.mem_cons_of_mem _ (hreturning e he), fun job hjob => ?_⟩
    rcases (submitted (Cleanup.step_transition _ _ _ _ step)).jobs with ⟨_, hsame⟩ | ⟨_, _, new, hn, _, hmore⟩
    · exact List.mem_cons_of_mem _ (hjobs job (hsame ▸ hjob))
    · have hjob : job ∈ queue.submission.jobs := hjob
      rw [hmore, List.mem_append, List.mem_singleton] at hjob
      rcases hjob with hjob | rfl
      · exact List.mem_cons_of_mem _ (hjobs job hjob)
      · rw [hn]
        exact List.mem_cons_self
  | queue a own queue step =>
    refine ⟨hnodup, hattempted, hcreations, hleases, hreturning, fun job hjob => ?_⟩
    exact hjobs job ((jobs_suffix (Cleanup.step_transition _ _ _ _ step) (internal_submits own)).subset hjob)
  | dropServer _ _ _ _ _ queue step =>
    refine ⟨hnodup, hattempted, hcreations, hleases, hreturning, fun job hjob => ?_⟩
    exact hjobs job ((jobs_suffix (Cleanup.step_transition _ _ _ _ step) rfl).subset hjob)
  | _ => exact ⟨hnodup, hattempted, hcreations, hleases, hreturning, hjobs⟩

theorem holders_eq (s : State) : s.holders = s.creations.length + s.leases.length +
    s.returning.length + s.handingBack + permitsIn s.queue := by
  rw [State.holders, permitsIn]
  omega

/-- Nobody takes permits that the semaphore does not have. -/
theorem permitsBounded_step (h : Transition l s t) (hs : PermitsBounded l s) :
    PermitsBounded l t := by
  have hless : t.holders ≤ s.holders → PermitsBounded l t := fun hle =>
    (Nat.mul_le_mul_right _ hle).trans hs
  cases h with
  | acquire room =>
    have := (canAcquire_iff.mp room).2.2
    simp only [PermitsBounded, State.holders, List.length_append, List.length_singleton] at this ⊢
    refine le_trans (Nat.mul_le_mul_right _ ?_) this
    omega
  | acquirePrewarmed name room fresh =>
    have := (canAcquire_iff.mp room).2.2
    simp only [PermitsBounded, State.holders, List.length_append, List.length_singleton] at this ⊢
    refine le_trans (Nat.mul_le_mul_right _ ?_) this
    omega
  | attempt i name creation opened fresh =>
    apply hless
    simp only [holders_eq, List.length_set]
    exact Nat.le_refl _
  | created i name creation =>
    apply hless
    have := Ledger.length_eraseIdx creation
    simp only [holders_eq, List.length_append, List.length_singleton]
    omega
  | noResidual i name creation | abandon i creation | fail i name creation =>
    apply hless
    have := Ledger.length_eraseIdx creation
    simp only [holders_eq]
    omega
  | residualPossible i name creation =>
    apply hless
    simp only [holders_eq, List.length_set]
    exact Nat.le_refl _
  | closeAfter i name creation queue step =>
    apply hless
    have := permitsIn_le (Cleanup.step_transition _ _ _ _ step) rfl
    simp only [holders_eq, List.length_set]
    omega
  | closeAdmission queue step =>
    apply hless
    have := permitsIn_le (Cleanup.step_transition _ _ _ _ step) rfl
    simp only [holders_eq]
    omega
  | giveUp i name how lease =>
    apply hless
    have := Ledger.length_eraseIdx lease
    simp only [holders_eq, List.length_append, List.length_singleton]
    omega
  | submit i name how lease queue step =>
    apply hless
    have := Ledger.length_eraseIdx lease
    have := permitsIn_submit (Cleanup.step_transition _ _ _ _ step)
    -- a deferred submission keeps its permit for a moment, the others give it to the job
    cases how with
    | cleanup | drop =>
      simp only [holders_eq, Return.permit, reduceCtorEq, false_and, if_true, if_false] at this ⊢
      omega
    | deferCleanup =>
      simp only [holders_eq, Return.permit, Bool.false_eq_true, true_and, if_false] at this ⊢
      split <;> omega
  | dropDeferredPermit pending =>
    apply hless
    simp only [holders_eq]
    omega
  | submitPrewarmer name fresh queue step =>
    apply hless
    have := permitsIn_submit (Cleanup.step_transition _ _ _ _ step)
    simp only [holders_eq, Bool.false_eq_true, if_false] at this ⊢
    omega
  | queue a own queue step =>
    apply hless
    have := permitsIn_le (Cleanup.step_transition _ _ _ _ step) (internal_submits own)
    simp only [holders_eq]
    omega
  | harnesses n handle => exact hs
  | dropServer _ _ _ _ _ queue step =>
    apply hless
    have := permitsIn_le (Cleanup.step_transition _ _ _ _ step) rfl
    simp only [holders_eq]
    omega

/-- A deferred submission waits for a slot, so jobs without a permit fit the capacity. -/
theorem bare_step (h : Transition l s t) (hf : Fresh s) (hs : s.bare ≤ l.queueCapacity) :
    t.bare ≤ l.queueCapacity := by
  have hless : t.bare ≤ s.bare → t.bare ≤ l.queueCapacity := fun hle => hle.trans hs
  cases h with
  | attempt i name creation opened fresh =>
    apply hless
    apply List.countP_mono_left
    intro job hjob hbare
    simp only [Bool.and_eq_true, decide_eq_true_eq, List.mem_cons] at hbare ⊢
    refine ⟨hbare.1, hbare.2.resolve_left ?_⟩
    intro heq
    obtain rfl := heq
    exact fresh (hf.jobs job hjob)
  | noResidual i name creation =>
    apply hless
    apply List.countP_mono_left
    intro job _ hbare
    simp only [Bool.and_eq_true, decide_eq_true_eq] at hbare ⊢
    exact ⟨hbare.1, List.mem_of_mem_erase hbare.2⟩
  | submit i name how lease queue step =>
    obtain ⟨hjobs, _⟩ := submitted (Cleanup.step_transition _ _ _ _ step)
    rcases hjobs with ⟨_, hsame⟩ | ⟨hopen, hroom, job, _, hpermit, hmore⟩
    · apply hless
      simp only [State.bare, hsame]
      exact Nat.le_refl _
    · simp only [State.bare, hmore, List.countP_append, List.countP_cons, List.countP_nil]
      cases hp : job.permit with
      | true =>
        simp only [Bool.not_true, Bool.false_and, Bool.false_eq_true, if_false]
        exact hs
      | false =>
        have hhow : how = .deferCleanup := by cases how <;> simp_all [Return.permit]
        have hlength := List.countP_le_length (l := s.queue.submission.jobs)
          (p := fun job => !job.permit && decide (job.databaseName ∈ s.attempted))
        have hcapacity : max l.queueCapacity 1 = l.queueCapacity := max_eq_left l.capacity_pos
        simp only [hhow, Return.admission, Cleanup.SubmissionState.mustWait, hopen, decide_true,
          Bool.true_and, Bool.not_false, Bool.and_true, decide_eq_false_iff_not, Limits.cleanup,
          hcapacity] at hroom
        split <;> omega
  | submitPrewarmer name fresh queue step =>
    obtain ⟨hjobs, _⟩ := submitted (Cleanup.step_transition _ _ _ _ step)
    apply hless
    rcases hjobs with ⟨_, hsame⟩ | ⟨_, _, job, hname, _, hmore⟩
    · simp only [State.bare, hsame]
      exact Nat.le_refl _
    · have hnot : job.databaseName ∉ s.attempted := fun hmem =>
        fresh (hname ▸ hf.attempted _ hmem)
      simp only [State.bare, hmore, List.countP_append, List.countP_cons, List.countP_nil, hnot,
        decide_false, Bool.and_false, Bool.false_eq_true, if_false]
      exact Nat.le_refl _
  | queue a own queue step =>
    exact hless ((jobs_suffix (Cleanup.step_transition _ _ _ _ step)
      (internal_submits own)).sublist.countP_le)
  | closeAfter i name creation queue step | closeAdmission queue step
  | dropServer _ _ _ _ _ queue step =>
    exact hless ((jobs_suffix (Cleanup.step_transition _ _ _ _ step) rfl).sublist.countP_le)
  | _ => exact hs

/-- A creation that has closed admission has closed it. -/
def FailingClosed (s : State) : Prop :=
  ∀ name, Creation.failing name ∈ s.creations → s.closed = true

theorem closed_step (h : Transition l s t) (hs : s.closed = true) : t.closed = true := by
  rcases queue_step h with heq | ⟨a, hstep, _⟩
  · rw [State.closed, heq]
    exact hs
  · exact admissionClosed_mono (Cleanup.step_transition _ _ _ _ hstep) hs

theorem failingClosed_step (h : Transition l s t) (hs : FailingClosed s) : FailingClosed t := by
  intro name hname
  have hold : Creation.failing name ∈ s.creations → t.closed = true := fun hmem =>
    closed_step h (hs name hmem)
  cases h with
  | acquire room =>
    rcases List.mem_append.mp hname with hname | hname
    · exact hold hname
    · cases List.mem_singleton.mp hname
  | attempt | residualPossible =>
    rcases Ledger.mem_of_set hname with heq | hname
    · cases heq
    · exact hold hname
  | closeAfter i n creation queue step =>
    cases step
    rfl
  | created | noResidual | abandon | fail => exact hold (List.mem_of_mem_eraseIdx hname)
  | _ => exact hold hname

theorem mem_existing {name : Text} :
    name ∈ s.existing ↔ name ∈ s.attempted ∧ name ∉ droppedIn s.queue := by
  rw [State.existing, List.mem_filter, decide_eq_true_eq]

theorem mem_covered {name : Text} :
    name ∈ s.covered ↔ name ∈ s.creations.flatMap Creation.names ∨ name ∈ s.leases ∨
      name ∈ s.returning.map Prod.fst ∨ name ∈ answeredIn s.queue := by
  simp only [State.covered, List.mem_append, or_assoc]

theorem droppedIn_step (h : Transition l s t) : droppedIn s.queue ⊆ droppedIn t.queue := by
  rcases queue_step h with heq | ⟨a, hstep, _⟩
  · rw [heq]
    exact List.Subset.refl _
  · exact droppedIn_mono (Cleanup.step_transition _ _ _ _ hstep)

/-- What a step keeps of the databases was there before it. -/
theorem existing_of_attempted (h : Transition l s t) (hattempted : t.attempted ⊆ s.attempted)
    {name : Text} (hname : name ∈ t.existing) : name ∈ s.existing := by
  obtain ⟨hmem, hnot⟩ := mem_existing.mp hname
  exact mem_existing.mpr ⟨hattempted hmem, fun hd => hnot (droppedIn_step h hd)⟩

/-- A waiting or running job's database stays answered for while admission is open. -/
theorem answered_step {a : Cleanup.Action} {queue : Cleanup.State}
    (step : s.queue.step l.cleanup a = some queue) (own : submits a = false)
    (honest : Cleanup.Honest s.queue) (hopen : ¬ queue.databaseAdmissionClosed = true) {name : Text}
    (hnot : name ∉ droppedIn queue) (hname : name ∈ answeredIn s.queue) :
    name ∈ answeredIn queue := by
  rcases answeredIn_step (Cleanup.step_transition _ _ _ _ step) own honest hname with h | h | h
  · exact h
  · exact absurd h hnot
  · exact absurd h hopen

theorem answered_submit {cfg : Cleanup.Config} {name new : Text} {permit : Bool}
    {admission : CleanupAdmission} {q r : Cleanup.State}
    (h : Submitted cfg new permit admission q r) (hname : name ∈ answeredIn q) :
    name ∈ answeredIn r := by
  rw [answeredIn, List.mem_append] at hname ⊢
  rw [h.workers]
  refine hname.imp_left fun hname => ?_
  rcases h.jobs with ⟨_, hsame⟩ | ⟨_, _, job, _, _, hmore⟩
  · rw [hsame]
    exact hname
  · rw [hmore, List.map_append]
    exact List.mem_append_left _ hname

theorem covered_step (h : Transition l s t) (hf : Fresh s) (hc : ClosedBy s.frozen s.queue)
    (hfail : FailingClosed s) (honest : Cleanup.Honest s.queue) (hs : Covered s) : Covered t := by
  intro hthawed name hname
  have hopen : ¬ s.frozen := fun hfrozen => hthawed (frozen_step h hfrozen)
  have hclosed : ¬ t.closed = true := fun hclosed => hthawed (Or.inl hclosed)
  have hnot := (mem_existing.mp hname).2
  have hold : t.attempted ⊆ s.attempted → name ∈ s.creations.flatMap Creation.names ∨
      name ∈ s.leases ∨ name ∈ s.returning.map Prod.fst ∨ name ∈ answeredIn s.queue := fun hsub =>
    mem_covered.mp (hs hopen name (existing_of_attempted h hsub hname))
  rw [mem_covered]
  cases h with
  | acquire room =>
    refine (hold (List.Subset.refl _)).imp_left fun hmem => ?_
    show name ∈ (s.creations ++ [Creation.admitted]).flatMap Creation.names
    rw [List.flatMap_append]
    exact List.mem_append_left _ hmem
  | acquirePrewarmed n room fresh =>
    exact (hold (List.Subset.refl _)).imp_right fun h => h.imp_left (List.mem_append_left _)
  | attempt i n creation opened fresh =>
    obtain ⟨hi, _⟩ := List.getElem?_eq_some_iff.mp creation
    by_cases hnew : name = n
    · left
      exact List.mem_flatMap.mpr ⟨_, List.mem_set hi _, List.mem_singleton.mpr hnew⟩
    · have hmem : name ∈ s.existing := by
        obtain ⟨hattempted, hnot⟩ := mem_existing.mp hname
        exact mem_existing.mpr ⟨(List.mem_cons.mp hattempted).resolve_left hnew, hnot⟩
      exact (mem_covered.mp (hs hopen name hmem)).imp_left
        (Ledger.mem_flatMap_set Creation.names creation fun h => nomatch h)
  | created i n creation =>
    rcases hold (List.Subset.refl _) with hmem | hrest
    · rcases Ledger.mem_flatMap_eraseIdx Creation.names creation hmem with hn | hmem
      · exact Or.inr (Or.inl (List.mem_append_right _ hn))
      · exact Or.inl hmem
    · exact Or.inr (hrest.imp_left (List.mem_append_left _))
  | noResidual i n creation =>
    refine (hold fun x hx => List.mem_of_mem_erase hx).imp_left fun hmem => ?_
    refine (Ledger.mem_flatMap_eraseIdx Creation.names creation hmem).resolve_left fun hn => ?_
    rw [List.mem_singleton.mp hn] at hname
    exact (hf.nodup.not_mem_erase) (mem_existing.mp hname).1
  | residualPossible i n creation =>
    exact (hold (List.Subset.refl _)).imp_left (Ledger.mem_flatMap_set Creation.names creation id)
  | closeAfter i n creation queue step =>
    cases step
    exact absurd rfl hclosed
  | abandon i creation =>
    refine (hold (List.Subset.refl _)).imp_left fun hmem => ?_
    exact (Ledger.mem_flatMap_eraseIdx Creation.names creation hmem).resolve_left
      List.not_mem_nil
  | fail i n creation => exact absurd (hfail n (List.mem_of_getElem? creation)) hclosed
  | closeAdmission queue step =>
    cases step
    exact absurd rfl hclosed
  | giveUp i n how lease =>
    rcases hold (List.Subset.refl _) with hmem | hmem | hmem | hmem
    · exact Or.inl hmem
    · rcases Ledger.mem_eraseIdx_or lease hmem with rfl | hmem
      · refine Or.inr (Or.inr (Or.inl ?_))
        exact List.mem_map.mpr ⟨(name, how), List.mem_append_right _ (List.mem_singleton.mpr rfl), rfl⟩
      · exact Or.inr (Or.inl hmem)
    · refine Or.inr (Or.inr (Or.inl ?_))
      rw [List.map_append]
      exact List.mem_append_left _ hmem
    · exact Or.inr (Or.inr (Or.inr hmem))
  | submit i n how lease queue step =>
    have hsubmitted := submitted (Cleanup.step_transition _ _ _ _ step)
    rcases hold (List.Subset.refl _) with hmem | hmem | hmem | hmem
    · exact Or.inl hmem
    · exact Or.inr (Or.inl hmem)
    · right
      right
      obtain ⟨e, he, rfl⟩ := List.mem_map.mp hmem
      rcases Ledger.mem_eraseIdx_or lease he with rfl | he
      · -- the given-up database itself: its job is in the queue, since the queue is open
        rcases hsubmitted.jobs with ⟨hqueue, _⟩ | ⟨_, _, job, hjob, _, hmore⟩
        · exact absurd (hc.closed hqueue) hopen
        · right
          rw [answeredIn, hmore, List.map_append]
          exact List.mem_append_left _ (List.mem_append_right _ (List.mem_singleton.mpr hjob.symm))
      · exact Or.inl (List.mem_map_of_mem he)
    · exact Or.inr (Or.inr (Or.inr (answered_submit hsubmitted hmem)))
  | submitPrewarmer n fresh queue step =>
    have hsubmitted := submitted (Cleanup.step_transition _ _ _ _ step)
    exact (hold (List.Subset.refl _)).imp_right fun h => h.imp_right fun h => h.imp_right
      (answered_submit hsubmitted)
  | queue a own queue step =>
    exact (hold (List.Subset.refl _)).imp_right fun h => h.imp_right fun h => h.imp_right
      (answered_step step (internal_submits own) honest hclosed hnot)
  | dropServer _ _ _ _ _ queue step =>
    exact (hold (List.Subset.refl _)).imp_right fun h => h.imp_right fun h => h.imp_right
      (answered_step step rfl honest hclosed hnot)
  | dropDeferredPermit | harnesses => exact hold (List.Subset.refl _)

end Steps

/-- A union is counted at most twice. -/
theorem countP_or_le {α : Type*} (p q : α → Bool) (xs : List α) :
    xs.countP (fun x => p x || q x) ≤ xs.countP p + xs.countP q := by
  induction xs with
  | nil => exact Nat.le_refl 0
  | cons x rest ih =>
    simp only [List.countP_cons]
    cases p x <;> cases q x <;> simp only [Bool.or_true, Bool.or_false, if_true,
      Bool.false_eq_true, if_false] <;> omega

section Runs
variable {l : Limits} {s t : State}

/-- The queue of a running server is a running queue. -/
theorem queue_reachable (hs : (machine l).Reachable s) :
    (Cleanup.machine l.cleanup).Reachable s.queue := by
  induction hs with
  | start h₀ =>
    rw [show _ = State.initial l from h₀]
    exact .start rfl
  | next a _ hstep ih =>
    rcases queue_step (step_transition _ _ _ _ hstep) with heq | ⟨b, hqueue, _⟩
    · rw [heq]
      exact ih
    · exact ih.next b hqueue

theorem honest_queue (hs : (machine l).Reachable s) : Cleanup.Honest s.queue :=
  ((Cleanup.custody_invariant l.cleanup).holds (queue_reachable hs)).honest

theorem workers_length (hs : (machine l).Reachable s) : s.queue.workers.length = l.workerCount := by
  refine Machine.Invariant.holds (I := fun q => q.workers.length = l.workerCount) ⟨?_, ?_⟩
    (queue_reachable hs)
  · intro q heq
    obtain rfl := heq
    exact List.length_replicate.trans (max_eq_left l.workers_pos)
  · intro q a r _ hI hstep
    exact (Cleanup.workers_length (Cleanup.step_transition _ _ _ _ hstep)).trans hI

/-- What keeps the databases of a server accounted for. -/
structure Accounted (l : Limits) (s : State) : Prop where
  fresh : Fresh s
  permits : PermitsBounded l s
  bare : s.bare ≤ l.queueCapacity
  closers : ClosedBy s.frozen s.queue
  held : Held s
  failing : FailingClosed s
  covered : Covered s

theorem accounted_initial (l : Limits) : Accounted l (State.initial l) where
  fresh := by
    refine ⟨List.nodup_nil, ?_, ?_, ?_, ?_, ?_⟩ <;> exact fun _ h => absurd h List.not_mem_nil
  permits := by
    rw [PermitsBounded, initial_holders, Nat.zero_mul]
    exact Nat.zero_le _
  bare := Nat.zero_le _
  closers := by
    refine ⟨(fun h => nomatch h), fun _ h => absurd h List.not_mem_nil, ?_⟩
    intro _ _ hparts
    cases hparts
  held h := nomatch h
  failing _ h := absurd h List.not_mem_nil
  covered _ _ h := absurd h List.not_mem_nil

theorem accounted_invariant (l : Limits) : (machine l).Invariant (Accounted l) where
  initial := by
    intro s heq
    obtain rfl := heq
    exact accounted_initial l
  preserved := by
    intro s a t hs hparts hstep
    obtain ⟨hfresh, hpermits, hbare, hclosers, hheld, hfailing, hcovered⟩ := hparts
    have h := step_transition l s t a hstep
    exact ⟨fresh_step h hfresh, permitsBounded_step h hpermits, bare_step h hfresh hbare,
      closedBy_frozen_step h hclosers, held_step h hheld, failingClosed_step h hfailing,
      covered_step h hfresh hclosers hfailing (honest_queue hs) hcovered⟩

theorem accounted (hs : (machine l).Reachable s) : Accounted l s :=
  (accounted_invariant l).holds hs

/-- Held permits are worth at most the simultaneous leases. -/
theorem Accounted.holders_le (ha : Accounted l s) : s.holders ≤ l.maxSimultaneousLeases :=
  (Nat.le_div_iff_mul_le l.connections_pos).mpr ha.permits

/-- While admission is open, permits, queue slots and workers answer for everything. -/
theorem Accounted.bounded_open (ha : Accounted l s)
    (hworkers : s.queue.workers.length = l.workerCount) (hopen : ¬ s.frozen) :
    s.existing.length ≤ l.maxSimultaneousLeases + l.workerCount + l.queueCapacity := by
  let answered := s.queue.submission.jobs.filter fun job =>
    job.permit || (!job.permit && decide (job.databaseName ∈ s.attempted))
  have hsub : s.existing ⊆ s.creations.flatMap Creation.names ++ s.leases ++
      s.returning.map Prod.fst ++ answered.map (·.databaseName) ++ s.queue.workers.flatMap dropping := by
    intro name hname
    have hattempted := (mem_existing.mp hname).1
    simp only [List.mem_append]
    rcases mem_covered.mp (ha.covered hopen name hname) with h | h | h | h
    · exact Or.inl (Or.inl (Or.inl (Or.inl h)))
    · exact Or.inl (Or.inl (Or.inl (Or.inr h)))
    · exact Or.inl (Or.inl (Or.inr h))
    · rcases List.mem_append.mp h with h | h
      · obtain ⟨job, hjob, rfl⟩ := List.mem_map.mp h
        refine Or.inl (Or.inr (List.mem_map.mpr ⟨job, List.mem_filter.mpr ⟨hjob, ?_⟩, rfl⟩))
        simp only [hattempted, decide_true, Bool.and_true, Bool.or_not_self]
      · exact Or.inr h
  have hnodup : s.existing.Nodup := ha.fresh.nodup.filter _
  have hlength := (List.subperm_of_subset hnodup hsub).length_le
  have hanswered : answered.length ≤ s.queue.submission.jobs.countP (·.permit) + s.bare := by
    rw [← List.countP_eq_length_filter, State.bare]
    exact countP_or_le _ _ _
  have hcreations := Ledger.length_flatMap_le Creation.names
    (fun c => by cases c <;> simp [Creation.names]) s.creations
  have hdropping := Ledger.length_flatMap_le dropping
    (fun w => by cases w <;> simp [dropping]) s.queue.workers
  have hholders := ha.holders_le
  have hbare := ha.bare
  simp only [List.length_append, List.length_map] at hlength
  rw [State.holders] at hholders
  omega

/-- After admission is closed, databases only go. -/
theorem existing_length_le (h : Transition l s t) (hheld : Held s) (hfrozen : t.frozen) :
    t.existing.length ≤ s.existing.length := by
  have hsub : ∀ {xs ys : List Text}, xs.Sublist ys →
      (xs.filter fun name => decide (name ∉ droppedIn t.queue)).length ≤
        (ys.filter fun name => decide (name ∉ droppedIn s.queue)).length := by
    intro xs ys hxs
    refine ((List.Sublist.filter _ hxs).trans (List.monotone_filter_right ys ?_)).length_le
    intro name hname
    simp only [decide_eq_true_eq] at hname ⊢
    exact fun hd => hname (droppedIn_step h hd)
  have hsame := hsub (List.Sublist.refl s.attempted)
  cases h with
  | attempt i name creation opened fresh =>
    exfalso
    rcases hfrozen with hclosed | hzero
    · exact Bool.false_ne_true (opened.symm.trans hclosed)
    · rw [(hheld hzero).2.1] at creation
      cases creation
  | noResidual i name creation => exact hsub List.erase_sublist
  | _ => exact hsame

theorem storage_bound (l : Limits) (s : State) (hs : (machine l).Reachable s) :
    s.existing.length ≤ l.maxSimultaneousLeases + l.workerCount + l.queueCapacity := by
  induction hs with
  | start h₀ =>
    rw [show _ = State.initial l from h₀]
    exact Nat.zero_le _
  | @next s t a hs hstep ih =>
    by_cases hfrozen : t.frozen
    · exact (existing_length_le (step_transition _ _ _ _ hstep) (accounted hs).held hfrozen).trans ih
    · have ht := hs.next a hstep
      exact (accounted ht).bounded_open (workers_length ht) hfrozen

/-- Two leases deferred with one permit, one queue slot and one worker, and a third
creation under way: three databases where the bound is three. -/
def deferredAndCreated : List Action :=
  [.acquire, .ensureOpen 0 "a".toList, .creationReturns 0 (.ok ()), .giveUp 0 .deferCleanup,
    .submit 0, .dropDeferredPermit, .queue (.nextJob 0),
    .acquire, .ensureOpen 0 "b".toList, .creationReturns 0 (.ok ()), .giveUp 0 .deferCleanup,
    .submit 0, .dropDeferredPermit, .acquire, .ensureOpen 0 "c".toList]

def oneOfEach : Limits := ⟨11, 11, 1, 1, by decide, by decide, by decide⟩

theorem storage_bound_reached : ∃ s, (machine oneOfEach).run (State.initial oneOfEach)
    deferredAndCreated = some s ∧ s.existing.length = 3 ∧
      s.existing.length ≤ oneOfEach.maxSimultaneousLeases + oneOfEach.workerCount +
        oneOfEach.queueCapacity := by
  refine ⟨_, rfl, by decide, ?_⟩
  exact storage_bound oneOfEach _ (Machine.reachable_of_run deferredAndCreated rfl rfl)

end Runs

end PostgresTestHarness.Lease
