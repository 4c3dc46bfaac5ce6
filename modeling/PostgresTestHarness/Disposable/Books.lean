import PostgresTestHarness.Disposable.System

/-! Who answers for a disposable database.

The place of a database follows its creation (`Staged`), and once it is a job's, the job's operation: a job that
was given a database has dropped it, or still has to, or comes to an outcome that may leave a residual
(`GivenPhase`); a job that makes one for a pool has it until the pool takes it or the job drops it again
(`RefillPhase`). What is said of a job's operation is said of its outcome when it is over (`At`). -/
namespace PostgresTestHarness.Disposable
open Postgres Admission
open Cleanup (CleanupJob CleanupOutcome Worker)

/-! ### Closures -/

section Closures
variable {cfg : Cleanup.Config} {q : Cleanup.State} {w w' : Nat} {job job' : CleanupJob}

theorem started_of_executing (hs : (Cleanup.machine cfg).Reachable q) (h : q.workers[w]? = some (.executing job)) :
    job ∈ q.history.started := by
  have hledger := (Cleanup.execution hs).started job
  have hpos := Ledger.count_flatMap_pos Worker.running h (b := job) List.mem_cons_self
  exact List.count_pos_iff.mp (by omega)

/-- A closure is one job's. -/
theorem job_unique (hs : (Cleanup.machine cfg).Reachable q) (h : job ∈ q.history.started) (h' : job' ∈ q.history.started)
    (heq : job.operation = job'.operation) : job = job' := by
  have hnodup : (q.history.started.map (·.operation)).Nodup := by
    refine List.nodup_iff_count_le_one.mpr fun op => ?_
    have := (Cleanup.execution hs).operations op
    split at this <;> omega
  exact List.inj_on_of_nodup_map hnodup h h' heq

/-- A job is run by one worker. -/
theorem worker_unique (hs : (Cleanup.machine cfg).Reachable q) (h : q.workers[w]? = some (.executing job))
    (h' : q.workers[w']? = some (.executing job')) (heq : job.operation = job'.operation) : w' = w := by
  cases job_unique hs (started_of_executing hs h) (started_of_executing hs h') heq
  by_contra hne
  have hledger := (Cleanup.execution hs).started job
  have hone := List.nodup_iff_count_le_one.mp (Cleanup.started_nodup hs).of_map job
  have hset := Ledger.count_flatMap_set Worker.running job q.workers w _ .idle h
  have hrest : (q.workers.set w .idle)[w']? = some (.executing job) := by rw [List.getElem?_set_ne (Ne.symm hne)]; exact h'
  have hpos := Ledger.count_flatMap_pos Worker.running hrest (b := job) List.mem_cons_self
  simp only [Worker.running, List.count_cons_self, List.count_nil] at hset
  omega

/-- A job that runs has not run. -/
theorem running_not_executed (hs : (Cleanup.machine cfg).Reachable q) (h : q.workers[w]? = some (.executing job))
    {x : CleanupJob × CleanupOutcome} (hx : x ∈ q.history.executed) : x.1.operation ≠ job.operation := by
  intro heq
  cases job_unique hs (Cleanup.started_of_executed hs (show (x.1, x.2) ∈ _ from hx)) (started_of_executing hs h) heq
  have hledger := (Cleanup.execution hs).started x.1
  have hone := List.nodup_iff_count_le_one.mp (Cleanup.started_nodup hs).of_map x.1
  have hpos := Ledger.count_flatMap_pos Worker.running h (b := x.1) List.mem_cons_self
  have hexecuted : 0 < (q.history.executed.map Prod.fst).count x.1 := List.count_pos_iff.mpr (List.mem_map_of_mem hx)
  omega

theorem waiting_lt (hs : (Cleanup.machine cfg).Reachable q) (h : job ∈ q.submission.jobs) :
    job.operation < q.history.submissions := by
  have hledger := (Cleanup.execution hs).operations job.operation
  have hpos : 0 < (q.submission.jobs.map (·.operation)).count job.operation :=
    List.count_pos_iff.mpr (List.mem_map_of_mem h)
  split at hledger
  · assumption
  · omega

/-- A job that waits has not started. -/
theorem waiting_not_started (hs : (Cleanup.machine cfg).Reachable q) (h : job ∈ q.submission.jobs)
    (h' : job' ∈ q.history.started) : job.operation ≠ job'.operation := by
  intro heq
  have hledger := (Cleanup.execution hs).operations job.operation
  have hwaiting : 0 < (q.submission.jobs.map (·.operation)).count job.operation :=
    List.count_pos_iff.mpr (List.mem_map_of_mem h)
  have hstarted : 0 < (q.history.started.map (·.operation)).count job.operation :=
    List.count_pos_iff.mpr (heq ▸ List.mem_map_of_mem h')
  split at hledger <;> omega

end Closures

/-! ### Phases -/

/-- The job of a closure is at an operation, or its outcome is one, of which `P` holds. -/
def At (c : Admission.State) (k : Nat) (P : Operation → Prop) : Prop :=
  (∃ (w : Nat) (job : CleanupJob) (o : Operation), c.queue.workers[w]? = some (.executing job) ∧ job.operation = k ∧
    c.operations[w]? = some o ∧ P o) ∨ ∃ x ∈ c.queue.history.executed, x.1.operation = k ∧ P (.over x.2)

def Waiting (c : Admission.State) (k : Nat) : Prop := ∃ job ∈ c.queue.submission.jobs, job.operation = k

/-- The job still has to drop its database, or has failed to. -/
def GivenPhase : Operation → Prop
  | .checkingOut _ | .dropping _ | .deleting => True
  | .over outcome => outcome.mayLeaveResidual = true
  | _ => False

/-- Somebody has to see to it that the database gets further. -/
def Place.loose : Place → Bool
  | .unmade | .doubtful | .tagged | .refilled | .unpublished => true
  | .held | .given | .gone => false

/-- The job that has made the database for a pool. -/
def RefillPhase (i : Nat) (place : Place) : Operation → Prop
  | .refilling j => j = i
  | .created => place = .refilled
  | .unpublishing => place = .unpublished
  | .over outcome => outcome.mayLeaveResidual = true ∨ place.loose = false
  | _ => False

theorem refillPhase_settled {i : Nat} {p p' : Place} {o : Operation} (hp : p.loose = false) (hp' : p'.loose = false)
    (h : RefillPhase i p o) : RefillPhase i p' o := by
  cases o with
  | refilling j => exact h
  | created =>
    rw [show p = .refilled from h] at hp
    cases hp
  | unpublishing =>
    rw [show p = .unpublished from h] at hp
    cases hp
  | idle | checkingOut | dropping | dropped | deleting => cases h
  | _ => exact Or.inr hp'

section At
variable {c d : Admission.State} {k : Nat} {P Q : Operation → Prop}

theorem At.mono (h : At c k P) (himp : ∀ o, P o → Q o) : At c k Q := by
  obtain ⟨w, job, o, hw, hk, ho, hP⟩ | ⟨x, hx, hk, hP⟩ := h
  · exact Or.inl ⟨w, job, o, hw, hk, ho, himp o hP⟩
  · exact Or.inr ⟨x, hx, hk, himp _ hP⟩

theorem At.of_same (h : At c k P) (workers : d.queue.workers = c.queue.workers)
    (executed : d.queue.history.executed = c.queue.history.executed) (operations : d.operations = c.operations) :
    At d k P := by
  unfold At
  rw [workers, executed, operations]
  exact h

/-- One worker's operation moves on. -/
theorem At.moved {cfg : Cleanup.Config} (hs : (Cleanup.machine cfg).Reachable c.queue) {w : Nat} {job : CleanupJob}
    {o o' : Operation} (worker : c.queue.workers[w]? = some (.executing job)) (operation : c.operations[w]? = some o)
    (workers : d.queue.workers = c.queue.workers) (executed : d.queue.history.executed = c.queue.history.executed)
    (operations : d.operations = c.operations.set w o') (h : At c k P) (here : job.operation = k → P o → Q o')
    (elsewhere : job.operation ≠ k → ∀ o, P o → Q o) : At d k Q := by
  obtain ⟨w', job', o'', hw', hk, ho, hP⟩ | ⟨x, hx, hk, hP⟩ := h
  · by_cases heq : job.operation = k
    · cases worker_unique hs worker hw' (heq.trans hk.symm)
      cases worker.symm.trans hw'
      cases operation.symm.trans ho
      refine Or.inl ⟨w, job, o', workers ▸ worker, heq, ?_, here heq hP⟩
      rw [operations]
      exact Ledger.getElem?_set_of_some operation
    · have hne : w ≠ w' := fun hww => heq (by subst hww; cases worker.symm.trans hw'; exact hk)
      refine Or.inl ⟨w', job', o'', workers ▸ hw', hk, ?_, elsewhere heq o'' hP⟩
      rw [operations, List.getElem?_set_ne hne]
      exact ho
  · refine Or.inr ⟨x, executed ▸ hx, hk, elsewhere (fun heq => ?_) _ hP⟩
    exact running_not_executed hs worker hx (hk.trans heq.symm)

/-- A worker that runs a job goes on, or the job is over with what its operation came to. -/
theorem running_next {cfg : Cleanup.Config} {b : Cleanup.Action} {queue : Cleanup.State} {w : Nat} {job : CleanupJob}
    (allowed : c.allows b = true) (stepped : Cleanup.Transition cfg c.queue b queue)
    (worker : c.queue.workers[w]? = some (.executing job)) :
    queue.workers[w]? = some (.executing job) ∧ (c.operationsAfter queue b)[w]? = c.operations[w]? ∨
      ∃ outcome, (job, outcome) ∈ queue.history.executed ∧
        (c.operations[w]? = some (.over outcome) ∨ outcome.mayLeaveResidual = true) := by
  have hother : ∀ {v : Nat} {before : Worker}, c.queue.workers[v]? = some before → (∀ j, before ≠ .executing j) → v ≠ w := by
    intro v before hv hbefore hvw
    subst hvw
    cases worker.symm.trans hv
    exact hbefore job rfl
  cases stepped with
  | start v job' rest idle jobs =>
    have hvw := hother idle nofun
    refine Or.inl ⟨(List.getElem?_set_ne hvw).trans worker, ?_⟩
    rw [State.operationsAfter]
    split
    · split
      · exact List.getElem?_set_ne hvw
      · rfl
    · rfl
  | exit v idle =>
    have hvw := hother idle nofun
    refine Or.inl ⟨(List.getElem?_set_ne hvw).trans worker, ?_⟩
    rw [State.operationsAfter]
    split
    · split
      · exact List.getElem?_set_ne hvw
      · rfl
    · rfl
  | operation b v job' outcome ends executing =>
    by_cases hvw : v = w
    · subst hvw
      cases worker.symm.trans executing
      refine Or.inr ⟨outcome, List.mem_append_right _ List.mem_cons_self, ?_⟩
      cases b with
      | operationReturns i o =>
        cases ends
        rw [State.allows] at allowed
        split at allowed
        · rename_i hover
          rw [of_decide_eq_true allowed]
          exact Or.inl hover
        · cases allowed
      | operationPanics i =>
        cases ends
        exact Or.inr rfl
      | _ => cases ends
    · refine Or.inl ⟨(List.getElem?_set_ne hvw).trans worker, ?_⟩
      cases b with
      | operationReturns i o | operationPanics i =>
        cases ends
        exact List.getElem?_set_ne hvw
      | _ => cases ends
  | check v _ _ before | permit v _ _ before | send v _ _ before | sendBack v _ _ before | defer v _ _ before
  | complete v _ _ before | release v _ before =>
    exact Or.inl ⟨(List.getElem?_set_ne (hother before nofun)).trans worker, rfl⟩
  | _ => exact Or.inl ⟨worker, rfl⟩

/-- A job's operation stays where it is while the queue goes on, or becomes the job's outcome. -/
theorem At.queue {cfg : Cleanup.Config} {b : Cleanup.Action} {queue : Cleanup.State} (h : At c k P)
    (residual : ∀ outcome : CleanupOutcome, outcome.mayLeaveResidual = true → P (.over outcome))
    (allowed : c.allows b = true) (stepped : Cleanup.Transition cfg c.queue b queue)
    (tqueue : d.queue = queue) (operations : d.operations = c.operationsAfter queue b) : At d k P := by
  subst tqueue
  obtain ⟨w, job, o, hw, hk, ho, hP⟩ | ⟨x, hx, hk, hP⟩ := h
  · obtain ⟨hw', ho'⟩ | ⟨outcome, hmem, hover | hresidual⟩ := running_next allowed stepped hw
    · exact Or.inl ⟨w, job, o, hw', hk, by rw [operations, ho', ho], hP⟩
    · cases ho.symm.trans hover
      exact Or.inr ⟨_, hmem, hk, hP⟩
    · exact Or.inr ⟨_, hmem, hk, residual outcome hresidual⟩
  · exact Or.inr ⟨x, (Cleanup.executed_grows stepped).subset hx, hk, hP⟩

end At

/-! ### Books -/

/-- A creation has its database. -/
def Place.making : Place → Bool
  | .unmade | .doubtful | .tagged => true
  | _ => false

theorem loose_of_making {p : Place} (h : p.making = true) : p.loose = true := by
  cases p <;> first | rfl | cases h

theorem refillPhase_making {i : Nat} {p p' : Place} {o : Operation} (hp : p.making = true) (h : RefillPhase i p o) :
    RefillPhase i p' o := by
  cases o with
  | refilling j => exact h
  | created =>
    rw [show p = .refilled from h] at hp
    cases hp
  | unpublishing =>
    rw [show p = .unpublished from h] at hp
    cases hp
  | idle | checkingOut | dropping | dropped | deleting => cases h
  | _ =>
    refine Or.inl ((show _ ∨ _ from h).resolve_right fun hloose => ?_)
    rw [loose_of_making hp] at hloose
    cases hloose

/-- Where a creation has its database, at each of its stages. -/
def stagePlace : CreationStage → Option Place
  | .requested => some .unmade
  | .attempting attempt => some (attemptPlace attempt)
  | .returned result => some (resultPlace result)
  | .delivered (.error failure) => some (resultPlace (.error failure))
  | .delivered (.ok _) | .unwound => none

section Books
variable {χ : Type}

structure Staged (c : Creation) (m : Made χ) : Prop where
  place : ∀ p, stagePlace c.stage = some p → m.place = p
  handed : c.stage = .delivered (.ok ()) → m.place.making = false
  unwound : c.stage = .unwound → m.refills.isSome = true
  refilled : m.place = .refilled ∨ m.place = .unpublished → m.refills.isSome = true

/-- What is known of one database. -/
structure Book (c : Admission.State) (i : Nat) (creation : Creation) (m : Made χ) : Prop where
  staged : Staged creation m
  refills : ∀ k, m.refills = some k → At c k (RefillPhase i m.place)
  given : m.place = .given →
    ∃ k, m.givenTo = some k ∧ (k ∈ c.queue.history.rejected ∨ Waiting c k ∨ At c k GivenPhase)
  numbered : ∀ k, m.givenTo = some k → k < c.queue.history.submissions

structure Books (s : State χ) : Prop where
  length : s.made.length = s.control.creations.length
  kinds : s.control.kinds.length = s.control.queue.history.submissions
  operations : s.control.operations.length = s.control.queue.workers.length
  busy : ∀ (w : Nat) o, s.control.operations[w]? = some o → o = .idle ∨ ∃ job, s.control.queue.workers[w]? = some (.executing job)
  refilling : ∀ (w i : Nat) job, s.control.operations[w]? = some (.refilling i) →
    s.control.queue.workers[w]? = some (.executing job) → ∃ m, s.made[i]? = some m ∧ m.refills = some job.operation
  book : ∀ (i : Nat) c m, s.control.creations[i]? = some c → s.made[i]? = some m → Book s.control i c m
  givenOnce : ∀ (i j : Nat) m m' k, s.made[i]? = some m → s.made[j]? = some m' → m.givenTo = some k →
    m'.givenTo = some k → i = j
  refillsOnce : ∀ (i j : Nat) m m' k, s.made[i]? = some m → s.made[j]? = some m' → m.refills = some k →
    m'.refills = some k → i = j

/-- The gate may have been closed. -/
structure SameQueue (q r : Cleanup.State) : Prop where
  workers : r.workers = q.workers
  submission : r.submission = q.submission
  history : r.history = q.history

variable {c d : Admission.State} {i : Nat} {before after : Creation} {m m' : Made χ}

/-- A database moves on, and no job's operation does. -/
theorem Book.still (hb : Book c i before m) (queue : SameQueue c.queue d.queue) (operations : d.operations = c.operations)
    (staged : Staged after m') (refills : m'.refills = m.refills) (givenTo : m'.givenTo = m.givenTo)
    (phase : ∀ o, RefillPhase i m.place o → RefillPhase i m'.place o) (given : m'.place = .given → m.place = .given) :
    Book d i after m' := by
  have hsame : ∀ {k P}, At c k P → At d k P := fun h => h.of_same queue.workers (by rw [queue.history]) operations
  refine ⟨staged, fun k hk => ?_, fun hplace => ?_, fun k hk => ?_⟩
  · exact (hsame (hb.refills k (refills ▸ hk))).mono phase
  · obtain ⟨k, hk, hcases⟩ := hb.given (given hplace)
    refine ⟨k, givenTo ▸ hk, ?_⟩
    rw [queue.history, Waiting, queue.submission]
    exact hcases.imp_right (Or.imp_right hsame)
  · rw [queue.history]
    exact hb.numbered k (givenTo ▸ hk)

/-- The operation of a job moves on, and a database perhaps with it. -/
theorem Book.moved {cfg : Cleanup.Config} (hs : (Cleanup.machine cfg).Reachable c.queue) {w : Nat} {job : CleanupJob}
    {o o' : Operation} (hb : Book c i before m) (worker : c.queue.workers[w]? = some (.executing job))
    (operation : c.operations[w]? = some o) (queue : SameQueue c.queue d.queue)
    (operations : d.operations = c.operations.set w o') (staged : Staged after m') (refills : m'.refills = m.refills)
    (givenTo : m'.givenTo = m.givenTo)
    (here : m.refills = some job.operation → RefillPhase i m.place o → RefillPhase i m'.place o')
    (elsewhere : m.refills ≠ some job.operation → ∀ o, RefillPhase i m.place o → RefillPhase i m'.place o)
    (given : m'.place = .given → m.place = .given ∧ (m.givenTo = some job.operation → GivenPhase o → GivenPhase o')) :
    Book d i after m' := by
  have hexecuted : d.queue.history.executed = c.queue.history.executed := by rw [queue.history]
  refine ⟨staged, fun k hk => ?_, fun hplace => ?_, fun k hk => ?_⟩
  · rw [refills] at hk
    exact (hb.refills k hk).moved hs worker operation queue.workers hexecuted operations
      (fun heq => here (heq ▸ hk)) fun hne => elsewhere fun h => hne (Option.some.inj (h.symm.trans hk))
  · obtain ⟨hbefore, hphase⟩ := given hplace
    obtain ⟨k, hk, hcases⟩ := hb.given hbefore
    refine ⟨k, givenTo ▸ hk, ?_⟩
    rw [queue.history, Waiting, queue.submission]
    exact hcases.imp_right (Or.imp_right fun h => h.moved hs worker operation queue.workers hexecuted operations
      (fun heq => hphase (heq ▸ hk)) fun _ _ h => h)
  · rw [queue.history]
    exact hb.numbered k (givenTo ▸ hk)

/-! ### Steps -/

variable {cfg : Config χ} {s t : State χ} {w : Nat}

theorem set_of_some {α : Type} {l : List α} {x : α} (h : l[i]? = some x) : l.set i x = l := by
  obtain ⟨hi, rfl⟩ := List.getElem?_eq_some_iff.mp h
  exact List.set_getElem_self hi

/-- A creation and its database move on, and nothing else does. -/
theorem Books.move (hs : Books s) (creation : s.control.creations[i]? = some before) (made : s.made[i]? = some m)
    (creations : t.control.creations = s.control.creations.set i after) (tmade : t.made = s.made.set i m')
    (queue : SameQueue s.control.queue t.control.queue) (operations : t.control.operations = s.control.operations)
    (kinds : t.control.kinds = s.control.kinds) (staged : Staged after m') (refills : m'.refills = m.refills)
    (givenTo : m'.givenTo = m.givenTo) (phase : ∀ o, RefillPhase i m.place o → RefillPhase i m'.place o)
    (given : m'.place = .given → m.place = .given) : Books t := by
  refine ⟨?_, ?_, ?_, fun v o ho => ?_, fun v j job ho hv => ?_, fun j c e hc he => ?_,
    fun j k e e' op he he' hop hop' => ?_, fun j k e e' op he he' hop hop' => ?_⟩
  · rw [tmade, creations, List.length_set, List.length_set]
    exact hs.length
  · rw [kinds, queue.history]
    exact hs.kinds
  · rw [operations, queue.workers]
    exact hs.operations
  · rw [operations] at ho
    rw [queue.workers]
    exact hs.busy v o ho
  · rw [operations] at ho
    rw [queue.workers] at hv
    obtain ⟨e, he, hop⟩ := hs.refilling v j job ho hv
    rw [tmade]
    by_cases hij : i = j
    · subst hij
      cases made.symm.trans he
      exact ⟨m', Ledger.getElem?_set_of_some made, refills.trans hop⟩
    · exact ⟨e, (List.getElem?_set_ne hij).trans he, hop⟩
  · rw [creations] at hc
    rw [tmade] at he
    obtain ⟨rfl, rfl⟩ | ⟨hji, hc⟩ := Ledger.getElem?_set_cases hc
    · cases (Ledger.getElem?_set_of_some made).symm.trans he
      exact (hs.book j before m creation made).still queue operations staged refills givenTo phase given
    · rw [List.getElem?_set_ne (Ne.symm hji)] at he
      have hb := hs.book j c e hc he
      exact hb.still queue operations hb.staged rfl rfl (fun _ h => h) id
  · rw [tmade] at he he'
    obtain ⟨x, hx, hxg⟩ := Ledger.kept_of_set Made.givenTo made givenTo he
    obtain ⟨y, hy, hyg⟩ := Ledger.kept_of_set Made.givenTo made givenTo he'
    exact hs.givenOnce j k x y op hx hy (hxg ▸ hop) (hyg ▸ hop')
  · rw [tmade] at he he'
    obtain ⟨x, hx, hxr⟩ := Ledger.kept_of_set Made.refills made refills he
    obtain ⟨y, hy, hyr⟩ := Ledger.kept_of_set Made.refills made refills he'
    exact hs.refillsOnce j k x y op hx hy (hxr ▸ hop) (hyr ▸ hop')

/-- A job's operation moves on, and a database that is its business, with its creation. -/
theorem Books.advance (hr : (Cleanup.machine cfg.cleanup).Reachable s.control.queue) (hs : Books s) {job : CleanupJob}
    {o o' : Operation} (worker : s.control.queue.workers[w]? = some (.executing job))
    (operation : s.control.operations[w]? = some o) (creation : s.control.creations[i]? = some before)
    (made : s.made[i]? = some m) (creations : t.control.creations = s.control.creations.set i after)
    (tmade : t.made = s.made.set i m') (queue : SameQueue s.control.queue t.control.queue)
    (operations : t.control.operations = s.control.operations.set w o') (kinds : t.control.kinds = s.control.kinds)
    (final : ∀ j, o' ≠ .refilling j) (staged : Staged after m') (refills : m'.refills = m.refills)
    (givenTo : m'.givenTo = m.givenTo)
    (here : m.refills = some job.operation → RefillPhase i m.place o → RefillPhase i m'.place o')
    (elsewhere : m.refills ≠ some job.operation → ∀ o, RefillPhase i m.place o → RefillPhase i m'.place o)
    (given : m'.place = .given → m.place = .given ∧ (m.givenTo = some job.operation → GivenPhase o → GivenPhase o'))
    (theirs : m.refills = some job.operation ∨ ∀ j p, ¬ RefillPhase j p o)
    (theirsGiven : m.givenTo = some job.operation ∨ ¬ GivenPhase o) : Books t := by
  refine ⟨?_, ?_, ?_, fun v p hp => ?_, fun v j job' hp hv => ?_, fun j c e hc he => ?_,
    fun j k e e' op he he' hop hop' => ?_, fun j k e e' op he he' hop hop' => ?_⟩
  · rw [tmade, creations, List.length_set, List.length_set]
    exact hs.length
  · rw [kinds, queue.history]
    exact hs.kinds
  · rw [operations, queue.workers, List.length_set]
    exact hs.operations
  · rw [operations] at hp
    rw [queue.workers]
    obtain ⟨rfl, _⟩ | ⟨_, hp⟩ := Ledger.getElem?_set_cases hp
    · exact Or.inr ⟨job, worker⟩
    · exact hs.busy v p hp
  · rw [operations] at hp
    rw [queue.workers] at hv
    obtain ⟨_, heq⟩ | ⟨_, hp⟩ := Ledger.getElem?_set_cases hp
    · exact absurd heq.symm (final j)
    · obtain ⟨e, he, hop⟩ := hs.refilling v j job' hp hv
      rw [tmade]
      by_cases hij : i = j
      · subst hij
        cases made.symm.trans he
        exact ⟨m', Ledger.getElem?_set_of_some made, refills.trans hop⟩
      · exact ⟨e, (List.getElem?_set_ne hij).trans he, hop⟩
  · rw [creations] at hc
    rw [tmade] at he
    obtain ⟨rfl, rfl⟩ | ⟨hji, hc⟩ := Ledger.getElem?_set_cases hc
    · cases (Ledger.getElem?_set_of_some made).symm.trans he
      exact (hs.book j before m creation made).moved hr worker operation queue operations staged refills givenTo here
        elsewhere given
    · rw [List.getElem?_set_ne (Ne.symm hji)] at he
      have hb := hs.book j c e hc he
      refine hb.moved hr worker operation queue operations hb.staged rfl rfl (fun hop hphase => ?_) (fun _ _ h => h)
        fun hplace => ⟨hplace, fun hop hphase => ?_⟩
      · obtain hmine | hnone := theirs
        · exact absurd (hs.refillsOnce j i e m _ he made hop hmine) hji
        · exact absurd hphase (hnone j e.place)
      · obtain hmine | hnone := theirsGiven
        · exact absurd (hs.givenOnce j i e m _ he made hop hmine) hji
        · exact absurd hphase hnone
  · rw [tmade] at he he'
    obtain ⟨x, hx, hxg⟩ := Ledger.kept_of_set Made.givenTo made givenTo he
    obtain ⟨y, hy, hyg⟩ := Ledger.kept_of_set Made.givenTo made givenTo he'
    exact hs.givenOnce j k x y op hx hy (hxg ▸ hop) (hyg ▸ hop')
  · rw [tmade] at he he'
    obtain ⟨x, hx, hxr⟩ := Ledger.kept_of_set Made.refills made refills he
    obtain ⟨y, hy, hyr⟩ := Ledger.kept_of_set Made.refills made refills he'
    exact hs.refillsOnce j k x y op hx hy (hxr ▸ hop) (hyr ▸ hop')

/-- A job's operation moves on, which is no database's business but that of the one it was given. -/
theorem Books.pass (hr : (Cleanup.machine cfg.cleanup).Reachable s.control.queue) (hs : Books s) {o o' : Operation}
    (operation : s.control.operations[w]? = some o) (busy : o ≠ .idle) (final : ∀ j, o' ≠ .refilling j)
    (refill : ∀ j p, ¬ RefillPhase j p o) (given : GivenPhase o → GivenPhase o') :
    Books { s with control := s.control.moveOperation w o' } := by
  obtain ⟨job, worker⟩ := (hs.busy w o operation).resolve_left busy
  refine ⟨hs.length, hs.kinds, List.length_set.trans hs.operations, fun v p hp => ?_, fun v j job' hp hv => ?_,
    fun j c e hc he => ?_, hs.givenOnce, hs.refillsOnce⟩
  · obtain ⟨rfl, _⟩ | ⟨_, hp⟩ := Ledger.getElem?_set_cases hp
    · exact Or.inr ⟨job, worker⟩
    · exact hs.busy v p hp
  · obtain ⟨_, heq⟩ | ⟨_, hp⟩ := Ledger.getElem?_set_cases hp
    · exact absurd heq.symm (final j)
    · exact hs.refilling v j job' hp hv
  · have hb := hs.book j c e hc he
    exact hb.moved hr worker operation ⟨rfl, rfl, rfl⟩ rfl hb.staged rfl rfl (fun _ h => absurd h (refill j e.place))
      (fun _ _ h => h) fun hplace => ⟨hplace, fun _ => given⟩

/-- One more creation, with its database. -/
theorem Books.concat (hs : Books s) {c : Creation} (requested : c.stage = .requested)
    (creations : t.control.creations = s.control.creations ++ [c]) (tmade : t.made = s.made ++ [m])
    (place : m.place = .unmade) (givenTo : m.givenTo = none) (kinds : t.control.kinds = s.control.kinds)
    (queue : SameQueue s.control.queue t.control.queue)
    (operations : t.control.operations.length = s.control.operations.length)
    (busy : ∀ (v : Nat) o, t.control.operations[v]? = some o →
      o = .idle ∨ ∃ job, s.control.queue.workers[v]? = some (.executing job))
    (refilling : ∀ (v j : Nat) job, t.control.operations[v]? = some (.refilling j) →
      s.control.queue.workers[v]? = some (.executing job) → s.control.operations[v]? = some (.refilling j) ∨
        j = s.made.length ∧ m.refills = some job.operation)
    (others : ∀ (j : Nat) before (e : Made χ), Book s.control j before e → Book t.control j before e)
    (refills : ∀ k, m.refills = some k → At t.control k (RefillPhase s.made.length .unmade) ∧
      ∀ (j : Nat) e, s.made[j]? = some e → e.refills ≠ some k) : Books t := by
  have hnew : t.made[s.made.length]? = some m := by rw [tmade]; exact List.getElem?_concat_length
  refine ⟨?_, ?_, ?_, fun v o ho => ?_, fun v j job ho hv => ?_, fun j d e hd he => ?_,
    fun j k e e' op he he' hop hop' => ?_, fun j k e e' op he he' hop hop' => ?_⟩
  · rw [tmade, creations, List.length_append, List.length_append, hs.length]
    rfl
  · rw [kinds, queue.history]
    exact hs.kinds
  · rw [operations, queue.workers]
    exact hs.operations
  · rw [queue.workers]
    exact busy v o ho
  · rw [queue.workers] at hv
    obtain hold | ⟨rfl, hop⟩ := refilling v j job ho hv
    · obtain ⟨e, he, hop⟩ := hs.refilling v j job hold hv
      exact ⟨e, by rw [tmade]; exact Ledger.getElem?_concat_of_some he, hop⟩
    · exact ⟨m, hnew, hop⟩
  · rw [creations] at hd
    obtain ⟨rfl, rfl⟩ | hd := Ledger.getElem?_concat_cases hd
    · rw [← hs.length] at he ⊢
      cases hnew.symm.trans he
      refine ⟨⟨fun p hp => ?_, fun h => ?_, fun h => ?_, fun h => ?_⟩, fun k hk => ?_, fun h => ?_, fun k hk => ?_⟩
      · rw [requested] at hp
        exact place.trans (Option.some.inj hp)
      · rw [requested] at h
        cases h
      · rw [requested] at h
        cases h
      · rw [place] at h
        obtain h | h := h <;> cases h
      · rw [place]
        exact (refills k hk).1
      · rw [place] at h
        cases h
      · rw [givenTo] at hk
        cases hk
    · have hlt : j < s.made.length := hs.length ▸ (List.getElem?_eq_some_iff.mp hd).1
      rw [tmade, List.getElem?_append_left hlt] at he
      exact others j d e (hs.book j d e hd he)
  · rw [tmade] at he he'
    obtain ⟨rfl, rfl⟩ | he := Ledger.getElem?_concat_cases he
    · rw [givenTo] at hop
      cases hop
    · obtain ⟨rfl, rfl⟩ | he' := Ledger.getElem?_concat_cases he'
      · rw [givenTo] at hop'
        cases hop'
      · exact hs.givenOnce j k e e' op he he' hop hop'
  · rw [tmade] at he he'
    obtain ⟨rfl, rfl⟩ | he := Ledger.getElem?_concat_cases he
    · obtain ⟨rfl, rfl⟩ | he' := Ledger.getElem?_concat_cases he'
      · rfl
      · exact absurd hop' ((refills op hop).2 k e' he')
    · obtain ⟨rfl, rfl⟩ | he' := Ledger.getElem?_concat_cases he'
      · exact absurd hop ((refills op hop').2 j e ‹s.made[j]? = some e›)
      · exact hs.refillsOnce j k e e' op he he' hop hop'

end Books

end PostgresTestHarness.Disposable
