import PostgresTestHarness.Disposable.Books

/-! Every step keeps the books.

A step of the queue moves jobs on (`Books.queued`), a submission is recorded before a worker sees it
(`Books.submitted`), and the rest is one creation's, one job's or a holder's. -/
namespace PostgresTestHarness.Disposable
open Postgres Admission
open Cleanup (CleanupJob CleanupOutcome Worker)

variable {χ : Type} {cfg : Config χ} {s t : State χ} {w i : Nat} {m : Made χ}

section Queue

/-- An operation after a step of the queue was there before, on the same job, or has been started. -/
theorem busy_after {a : Admission.State} {b : Cleanup.Action} {q : Cleanup.State} {cfg : Cleanup.Config} {o : Operation}
    (stepped : Cleanup.Transition cfg a.queue b q)
    (busy : ∀ (v : Nat) p, a.operations[v]? = some p → p = .idle ∨ ∃ job, a.queue.workers[v]? = some (.executing job))
    (h : (a.operationsAfter q b)[w]? = some o) (hidle : o ≠ .idle) :
    ∃ job, q.workers[w]? = some (.executing job) ∧
      (a.queue.workers[w]? = some (.executing job) ∧ a.operations[w]? = some o ∨ ∃ kind, o = .start kind) := by
  have hother : ∀ {v : Nat} {x y : Worker}, a.queue.workers[v]? = some x → (∀ j, x ≠ .executing j) →
      a.operations[w]? = some o → ∃ job, (a.queue.workers.set v y)[w]? = some (.executing job) ∧
        (a.queue.workers[w]? = some (.executing job) ∧ a.operations[w]? = some o ∨ ∃ kind, o = .start kind) := by
    intro v x y hv hx ho
    obtain ⟨job, hw⟩ := (busy w o ho).resolve_left hidle
    have hvw : v ≠ w := by
      intro hvw
      subst hvw
      cases hv.symm.trans hw
      exact hx job rfl
    exact ⟨job, (List.getElem?_set_ne hvw).trans hw, Or.inl ⟨hw, ho⟩⟩
  cases stepped with
  | start v job rest worker jobs =>
    by_cases hvw : v = w
    · subst hvw
      have hnew : (a.queue.workers.set v (.executing job))[v]? = some (.executing job) :=
        Ledger.getElem?_set_of_some worker
      simp only [Admission.State.operationsAfter, hnew] at h
      split at h
      · obtain ⟨_, rfl⟩ | ⟨hne, _⟩ := Ledger.getElem?_set_cases h
        · exact ⟨job, hnew, Or.inr ⟨_, rfl⟩⟩
        · exact absurd rfl hne
      · obtain ⟨job', hw⟩ := (busy v o h).resolve_left hidle
        cases worker.symm.trans hw
    · refine hother worker (fun _ h => by cases h) ?_
      rw [Admission.State.operationsAfter] at h
      split at h
      · split at h
        · rwa [List.getElem?_set_ne hvw] at h
        · exact h
      · exact h
  | exit v worker jobs closed =>
    refine hother worker (fun _ h => by cases h) ?_
    simp only [Admission.State.operationsAfter, Ledger.getElem?_set_of_some worker] at h
    exact h
  | operation b v job outcome ended worker =>
    have hset : (a.operations.set v .idle)[w]? = some o := by
      cases b with
      | operationReturns | operationPanics =>
        cases ended
        exact h
      | _ => cases ended
    obtain ⟨_, rfl⟩ | ⟨hwv, ho⟩ := Ledger.getElem?_set_cases hset
    · exact absurd rfl hidle
    · obtain ⟨job', hw⟩ := (busy w o ho).resolve_left hidle
      exact ⟨job', (List.getElem?_set_ne (Ne.symm hwv)).trans hw, Or.inl ⟨hw, ho⟩⟩
  | check v _ _ worker | permit v _ _ worker | send v _ _ worker | sendBack v _ _ worker | defer v _ _ worker
  | complete v _ _ worker | release v _ worker => exact hother worker (fun _ h => by cases h) h
  | _ =>
    obtain ⟨job, hw⟩ := (busy w o h).resolve_left hidle
    exact ⟨job, hw, Or.inl ⟨hw, h⟩⟩

/-- A job that waits goes on waiting, or is started on the database it was given. -/
theorem waiting_queue {a a' : Admission.State} {b : Cleanup.Action} {q : Cleanup.State} {cfg : Cleanup.Config} {k : Nat}
    (hr : (Cleanup.machine cfg).Reachable a.queue) (kinds : a.kinds.length = a.queue.history.submissions)
    (length : a.operations.length = a.queue.workers.length) (allowed : a.allows b = true)
    (stepped : Cleanup.Transition cfg a.queue b q) (queue : a'.queue = q) (operations : a'.operations = a.operationsAfter q b)
    (h : Waiting a k) : Waiting a' k ∨ At a' k GivenPhase := by
  obtain ⟨job, hjob, hk⟩ := h
  rw [Waiting, At, queue, operations]
  cases stepped with
  | accept | reject => cases allowed
  | start v first rest worker jobs =>
    rw [jobs] at hjob
    obtain rfl | hjob := List.mem_cons.mp hjob
    · have hlt : job.operation < a.kinds.length := kinds ▸ waiting_lt hr (jobs ▸ List.mem_cons_self)
      obtain ⟨kind, hkind⟩ : ∃ kind, a.kinds[job.operation]? = some kind := ⟨_, List.getElem?_eq_getElem hlt⟩
      have hv : v < a.operations.length := length ▸ (List.getElem?_eq_some_iff.mp worker).1
      have hnew : (a.queue.workers.set v (.executing job))[v]? = some (.executing job) :=
        Ledger.getElem?_set_of_some worker
      refine Or.inr (Or.inl ⟨v, job, .start kind, hnew, hk, ?_, ?_⟩)
      · simp only [Admission.State.operationsAfter, hnew, hkind]
        exact Ledger.getElem?_set_of_some (List.getElem?_eq_getElem hv)
      · cases kind <;> trivial
    · exact Or.inl ⟨job, hjob, hk⟩
  | _ => exact Or.inl ⟨job, hjob, hk⟩

/-- A panic in the creation of a replacement ends the creation, and every other creation stays as it is. -/
theorem staged_after {a : Admission.State} {b : Cleanup.Action} {c' : Creation}
    (refilling : ∀ v : Nat, a.operations[v]? = some (.refilling i) → m.refills.isSome = true)
    (before : ∀ c, a.creations[i]? = some c → Staged c m) (h : (a.creationsAfter b)[i]? = some c') : Staged c' m := by
  cases b with
  | operationPanics v =>
    rw [Admission.State.creationsAfter] at h
    split at h
    · rename_i j hv
      rw [List.getElem?_modify] at h
      obtain ⟨c, hc, rfl⟩ := Option.map_eq_some_iff.mp h
      have hstaged := before c hc
      split
      · rename_i hji
        subst hji
        split
        · exact hstaged
        · exact ⟨fun p hp => (by cases hp), fun h => (by cases h), fun _ => refilling v hv, hstaged.refilled⟩
      · exact hstaged
    · exact before c' h
  | _ => exact before c' h

theorem creationsAfter_length {a : Admission.State} {b : Cleanup.Action} :
    (a.creationsAfter b).length = a.creations.length := by
  cases b with
  | operationPanics v =>
    rw [Admission.State.creationsAfter]
    split
    · exact List.length_modify _ _ _
    · rfl
  | _ => rfl

theorem operationsAfter_length {a : Admission.State} {b : Cleanup.Action} {q : Cleanup.State} :
    (a.operationsAfter q b).length = a.operations.length := by
  cases b with
  | nextJob v =>
    simp only [Admission.State.operationsAfter]
    split
    · split
      · exact List.length_set
      · rfl
    · rfl
  | operationReturns | operationPanics => exact List.length_set
  | _ => rfl

theorem submissions_kept {cfg : Cleanup.Config} {a : Admission.State} {b : Cleanup.Action} {q : Cleanup.State}
    (allowed : a.allows b = true) (stepped : Cleanup.Transition cfg a.queue b q) :
    q.history.submissions = a.queue.history.submissions ∧ q.history.rejected = a.queue.history.rejected := by
  cases stepped with
  | accept | reject => cases allowed
  | _ => exact ⟨rfl, rfl⟩

theorem Books.queued (hr : (Cleanup.machine cfg.cleanup).Reachable s.control.queue) (hs : Books s) {a : Cleanup.Action}
    {queue : Cleanup.State} (allowed : s.control.allows a = true)
    (stepped : Cleanup.Transition cfg.cleanup s.control.queue a queue) :
    Books { s with control := { s.control with
      queue
      operations := s.control.operationsAfter queue a
      creations := s.control.creationsAfter a
      judged := s.control.judgedAfter a } } := by
  obtain ⟨hsubmissions, hrejected⟩ := submissions_kept allowed stepped
  refine ⟨?_, ?_, ?_, fun v o ho => ?_, fun v j job ho hv => ?_, fun j c e hc he => ?_, hs.givenOnce, hs.refillsOnce⟩
  · exact hs.length.trans creationsAfter_length.symm
  · exact hs.kinds.trans hsubmissions.symm
  · exact operationsAfter_length.trans (hs.operations.trans (Cleanup.workers_length stepped).symm)
  · by_cases hidle : o = .idle
    · exact Or.inl hidle
    · obtain ⟨job, hw, _⟩ := busy_after stepped hs.busy ho hidle
      exact Or.inr ⟨job, hw⟩
  · obtain ⟨job', hv', ⟨hworker, hold⟩ | ⟨kind, hstart⟩⟩ := busy_after stepped hs.busy ho nofun
    · cases hv.symm.trans hv'
      exact hs.refilling v j job hold hworker
    · cases kind <;> cases hstart
  · obtain ⟨d, hd⟩ : ∃ d, s.control.creations[j]? = some d := by
      have hj : j < s.control.creations.length := hs.length ▸ (List.getElem?_eq_some_iff.mp he).1
      exact ⟨_, List.getElem?_eq_getElem hj⟩
    have hb := hs.book j d e hd he
    have hat : ∀ {k P}, (∀ outcome : CleanupOutcome, outcome.mayLeaveResidual = true → P (.over outcome)) →
        At s.control k P → At { s.control with
          queue
          operations := s.control.operationsAfter queue a
          creations := s.control.creationsAfter a
          judged := s.control.judgedAfter a } k P := fun hres h => h.queue hres allowed stepped rfl rfl
    refine ⟨staged_after (fun v hv => ?_) (fun d' hd' => (hs.book j d' e hd' he).staged) hc, fun k hk => ?_,
      fun hplace => ?_, fun k hk => ?_⟩
    · obtain ⟨job, hworker⟩ := (hs.busy v _ hv).resolve_left nofun
      obtain ⟨e', he', hop⟩ := hs.refilling v j job hv hworker
      cases he.symm.trans he'
      rw [hop]
      rfl
    · exact hat (fun _ => Or.inl) (hb.refills k hk)
    · obtain ⟨k, hk, hrej | hwait | hphase⟩ := hb.given hplace
      · exact ⟨k, hk, Or.inl (hrejected ▸ hrej)⟩
      · exact ⟨k, hk, Or.inr (waiting_queue hr hs.kinds hs.operations allowed stepped rfl rfl hwait)⟩
      · exact ⟨k, hk, Or.inr (Or.inr (hat (fun _ h => h) hphase))⟩
    · exact hsubmissions.symm ▸ hb.numbered k hk

/-- A submission is recorded, and no worker sees it yet. -/
theorem submit_queue {cfg : Cleanup.Config} {q q' : Cleanup.State} {databaseName : Text}
    {completion : Cleanup.CleanupCompletion} {permit : Bool} {admission : Cleanup.CleanupAdmission}
    (stepped : Cleanup.Transition cfg q (.submit databaseName completion permit admission) q') :
    q'.workers = q.workers ∧ q'.history.executed = q.history.executed ∧
      q'.history.submissions = q.history.submissions + 1 ∧ q.submission.jobs ⊆ q'.submission.jobs ∧
      q.history.rejected ⊆ q'.history.rejected ∧
      (q.history.submissions ∈ q'.history.rejected ∨ ∃ job ∈ q'.submission.jobs, job.operation = q.history.submissions) := by
  cases stepped with
  | accept =>
    exact ⟨rfl, rfl, rfl, List.subset_append_left _ _, List.Subset.refl _, Or.inr ⟨_, List.mem_append_right _ List.mem_cons_self, rfl⟩⟩
  | reject =>
    exact ⟨rfl, rfl, rfl, List.Subset.refl _, List.subset_append_left _ _, Or.inl (List.mem_append_right _ List.mem_cons_self)⟩
  | operation _ _ _ _ ended => cases ended

end Queue

/-! ### Creations, jobs and holders -/

section Steps

/-- A creation's database is with the creation, or nowhere. -/
theorem stagePlace_making {stage : CreationStage} {p : Place} (h : stagePlace stage = some p) :
    p.making = true ∨ p = .gone := by
  have hresult : ∀ result : Attempted, (resultPlace result).making = true ∨ resultPlace result = .gone := by
    intro result
    match result with
    | .ok () | .error (.residualPossible _) => exact Or.inl rfl
    | .error (.noResidual _) => exact Or.inr rfl
  cases stage with
  | requested =>
    cases h
    exact Or.inl rfl
  | attempting attempt =>
    cases h
    cases attempt with
    | creating | tagging | compensating => exact Or.inl rfl
    | _ => exact hresult _
  | returned result =>
    cases h
    exact hresult result
  | delivered result =>
    cases result with
    | ok _ => cases h
    | error failure =>
      cases h
      exact hresult (.error failure)
  | unwound => cases h

/-- What is with its creation, or nowhere, is with no job. -/
theorem not_with_job {p : Place} (h : p.making = true ∨ p = .gone) : ¬ (p = .refilled ∨ p = .unpublished) ∧ p ≠ .given := by
  cases p with
  | refilled | unpublished | given => obtain h | h := h <;> cases h
  | _ => exact ⟨by simp only [reduceCtorEq, or_self, not_false_eq_true], nofun⟩

theorem Staged.elsewhere {c : Creation} (h : Staged c m) (hmaking : m.place.making = false) (hgone : m.place ≠ .gone) :
    stagePlace c.stage = none := by
  cases hp : stagePlace c.stage with
  | none => rfl
  | some p =>
    obtain hm | hg := stagePlace_making hp
    · rw [← h.place p hp, hmaking] at hm
      cases hm
    · exact absurd ((h.place p hp).trans hg) hgone

theorem Books.submitted (hs : Books s) {kind : JobKind} {completion : Cleanup.CleanupCompletion} {permit : Bool}
    {admission : Cleanup.CleanupAdmission} {queue : Cleanup.State} (made : s.made[i]? = some m) (held : m.place = .held)
    (stepped : Cleanup.Transition cfg.cleanup s.control.queue (.submit m.name.value completion permit admission) queue) :
    Books { s with
      control := { s.control with queue, kinds := s.control.kinds ++ [kind] }
      made := s.made.set i { m with place := .given, givenTo := some s.control.queue.history.submissions } } := by
  obtain ⟨hworkers, hexecuted, hsubmissions, hjobs, hrejected, hnew⟩ := submit_queue stepped
  have hat : ∀ {k P}, At s.control k P → At { s.control with queue, kinds := s.control.kinds ++ [kind] } k P :=
    fun h => h.of_same hworkers hexecuted rfl
  have hold : ∀ {j : Nat} {e : Made χ} {k : Nat}, s.made[j]? = some e → e.givenTo = some k →
      k < s.control.queue.history.submissions := by
    intro j e k he hk
    have hj : j < s.control.creations.length := hs.length ▸ (List.getElem?_eq_some_iff.mp he).1
    exact (hs.book j _ e (List.getElem?_eq_getElem hj) he).numbered k hk
  refine ⟨List.length_set.trans hs.length, ?_, hs.operations.trans (by rw [hworkers]), fun v o ho => ?_,
    fun v j job ho hv => ?_, fun j c e hc he => ?_, fun j j' e e' k he he' hk hk' => ?_, fun j j' e e' k he he' hk hk' => ?_⟩
  · rw [List.length_append, hsubmissions, hs.kinds]
    rfl
  · exact hworkers.symm ▸ hs.busy v o ho
  · obtain ⟨e, he, hop⟩ := hs.refilling v j job ho (hworkers ▸ hv)
    by_cases hij : i = j
    · subst hij
      cases made.symm.trans he
      exact ⟨_, Ledger.getElem?_set_of_some made, hop⟩
    · exact ⟨e, (List.getElem?_set_ne hij).trans he, hop⟩
  · obtain ⟨rfl, rfl⟩ | ⟨_, he⟩ := Ledger.getElem?_set_cases he
    · have hb := hs.book j c m hc made
      refine ⟨⟨fun p hp => ?_, fun _ => rfl, hb.staged.unwound, fun h => ?_⟩, fun k hk => ?_, fun _ => ?_, fun k hk => ?_⟩
      · rw [hb.staged.elsewhere (held ▸ rfl) (held ▸ nofun)] at hp
        cases hp
      · obtain h | h := h <;> cases h
      · exact (hat (hb.refills k hk)).mono fun _ => refillPhase_settled (held ▸ rfl) rfl
      · refine ⟨_, rfl, hnew.imp_right fun ⟨job, hjob, hop⟩ => Or.inl ⟨job, hjob, hop⟩⟩
      · cases hk
        exact hsubmissions ▸ Nat.lt_succ_self _
    · have hb := hs.book j c e hc he
      refine ⟨hb.staged, fun k hk => hat (hb.refills k hk), fun hplace => ?_, fun k hk => ?_⟩
      · obtain ⟨k, hk, hrej | ⟨job, hjob, hop⟩ | hphase⟩ := hb.given hplace
        · exact ⟨k, hk, Or.inl (hrejected hrej)⟩
        · exact ⟨k, hk, Or.inr (Or.inl ⟨job, hjobs hjob, hop⟩)⟩
        · exact ⟨k, hk, Or.inr (Or.inr (hat hphase))⟩
      · exact hsubmissions ▸ Nat.lt_succ_of_lt (hb.numbered k hk)
  · obtain ⟨hj, rfl⟩ | ⟨_, he₀⟩ := Ledger.getElem?_set_cases he
    · obtain ⟨hj', rfl⟩ | ⟨_, he₁⟩ := Ledger.getElem?_set_cases he'
      · exact hj.trans hj'.symm
      · cases hk
        exact absurd (hold he₁ hk') (Nat.lt_irrefl _)
    · obtain ⟨hj', rfl⟩ | ⟨_, he₁⟩ := Ledger.getElem?_set_cases he'
      · cases hk'
        exact absurd (hold he₀ hk) (Nat.lt_irrefl _)
      · exact hs.givenOnce j j' e e' k he₀ he₁ hk hk'
  · obtain ⟨x, hx, hxr⟩ := Ledger.kept_of_set Made.refills made (by rfl) he
    obtain ⟨y, hy, hyr⟩ := Ledger.kept_of_set Made.refills made (by rfl) he'
    exact hs.refillsOnce j j' x y k hx hy (hxr ▸ hk) (hyr ▸ hk')

theorem Books.asked (hs : Books s) {kind : CreationKind} {uuid : SimpleUuid} {source : Source} :
    Books { s with
      control := { s.control with creations := s.control.creations ++ [⟨kind, kind.permit, .requested, 0⟩] }
      made := s.made ++ [⟨.test cfg.project uuid, source, none, none, .unmade, false, []⟩] } :=
  hs.concat rfl rfl rfl rfl rfl rfl ⟨rfl, rfl, rfl⟩ rfl hs.busy (fun _ _ _ h _ => Or.inl h)
    (fun _ _ _ hb => hb.still ⟨rfl, rfl, rfl⟩ rfl hb.staged rfl rfl (fun _ h => h) id) fun k hk => by cases hk

theorem Books.opened (hs : Books s) {c : Creation} (creation : s.control.creations[i]? = some c)
    (stage : c.stage = .requested) (made : s.made[i]? = some m) {next : CreationStage} {place : Place}
    (gate : next = .attempting .creating ∧ place = .unmade ∨
      next = .returned (.error (.noResidual .connectionBudgetClosed)) ∧ place = .gone) :
    Books { s with
      control := s.control.moveCreation i { c with stage := next }
      made := s.made.set i { m with place } } := by
  have hb := hs.book i c m creation made
  have hplace : m.place = .unmade := hb.staged.place _ (stage ▸ rfl)
  have hafter : place.making = true ∨ place = .gone := by
    obtain ⟨_, rfl⟩ | ⟨_, rfl⟩ := gate
    · exact Or.inl rfl
    · exact Or.inr rfl
  refine hs.move creation made rfl rfl ⟨rfl, rfl, rfl⟩ rfl rfl
    ⟨fun p hp => ?_, fun h => ?_, fun h => ?_, fun h => absurd h (not_with_job hafter).1⟩ rfl rfl
    (fun o => refillPhase_making (hplace ▸ rfl)) fun h => absurd h (not_with_job hafter).2
  all_goals obtain ⟨rfl, rfl⟩ | ⟨rfl, rfl⟩ := gate
  · exact Option.some.inj hp
  · exact Option.some.inj hp
  all_goals cases h

theorem Books.stated (hs : Books s) {c : Creation} {attempt : Attempt} {stmt : Statement Unit} {now : UInt64}
    {result : Except Error Unit} {base : Template.State χ} (creation : s.control.creations[i]? = some c)
    (stage : c.stage = .attempting attempt) (made : s.made[i]? = some m)
    (statement : m.statement cfg now attempt = some stmt) :
    Books { s with
      control := s.control.moveCreation i
        { c with stage := .attempting (attempt.answer result), statements := c.statements + 1 }
      base
      made := s.made.set i (m.answered (s.supplies m.source) attempt result) } := by
  have hb := hs.book i c m creation made
  have hmaking : m.place.making = true := by
    rw [hb.staged.place (attemptPlace attempt) (stage ▸ rfl)]
    cases attempt with
    | creating | tagging | compensating => rfl
    | _ => cases statement
  have hafter := stagePlace_making (show stagePlace (.attempting (attempt.answer result)) = some _ from rfl)
  exact hs.move creation made rfl rfl ⟨rfl, rfl, rfl⟩ rfl rfl
    ⟨fun p hp => Option.some.inj hp, nofun, nofun, fun h => absurd h (not_with_job hafter).1⟩ rfl rfl
    (fun o => refillPhase_making hmaking) fun h => absurd h (not_with_job hafter).2

theorem Books.judged (hs : Books s) {c : Creation} {result : Attempted} (creation : s.control.creations[i]? = some c)
    (stage : c.stage = .attempting (.over result)) :
    Books { s with control :=
      (if mayLeaveResidual result then s.control.close else s.control).moveCreation i { c with stage := .returned result } } := by
  obtain ⟨m, made⟩ : ∃ m, s.made[i]? = some m :=
    ⟨_, List.getElem?_eq_getElem (hs.length ▸ (List.getElem?_eq_some_iff.mp creation).1)⟩
  have hb := hs.book i c m creation made
  have hplace : m.place = resultPlace result := hb.staged.place _ (stage ▸ rfl)
  cases mayLeaveResidual result <;>
    exact hs.move creation made rfl (set_of_some made).symm ⟨rfl, rfl, rfl⟩ rfl rfl
      ⟨fun p hp => hplace.trans (Option.some.inj hp), nofun, nofun, hb.staged.refilled⟩ rfl rfl (fun _ h => h) id

theorem Books.permitDropped (hs : Books s) {c : Creation} (creation : s.control.creations[i]? = some c) :
    Books { s with control := s.control.moveCreation i { c with permit := false } } := by
  obtain ⟨m, made⟩ : ∃ m, s.made[i]? = some m :=
    ⟨_, List.getElem?_eq_getElem (hs.length ▸ (List.getElem?_eq_some_iff.mp creation).1)⟩
  have hstaged := (hs.book i c m creation made).staged
  exact hs.move creation made rfl (set_of_some made).symm ⟨rfl, rfl, rfl⟩ rfl rfl
    ⟨hstaged.place, hstaged.handed, hstaged.unwound, hstaged.refilled⟩ rfl rfl (fun _ h => h) id

/-- A result is handed on: the database goes to `p`, or stays where its creation has left it. -/
theorem Staged.handedOn {c : Creation} (h : Staged c m) {result : Attempted} (stage : c.stage = .returned result) {p : Place}
    (hp : p.making = false) (refills : p = .refilled ∨ p = .unpublished → m.refills.isSome = true) :
    Staged { c with stage := .delivered result } { m with place := if result.isOk then p else m.place } := by
  have hplace : m.place = resultPlace result := h.place _ (stage ▸ rfl)
  cases result with
  | ok _ => exact ⟨fun _ h => (by cases h), fun _ => hp, fun h => (by cases h), refills⟩
  | error failure => exact ⟨fun p hp => hplace.trans (Option.some.inj hp), fun h => (by cases h), fun h => (by cases h), h.refilled⟩

theorem Books.delivered (hs : Books s) {c : Creation} {result : Attempted} (creation : s.control.creations[i]? = some c)
    (stage : c.stage = .returned result) (made : s.made[i]? = some m) :
    Books { s with
      control := s.control.moveCreation i { c with stage := .delivered result }
      made := s.made.set i { m with place := if result.isOk then .held else m.place } } := by
  have hb := hs.book i c m creation made
  have hplace : m.place = resultPlace result := hb.staged.place _ (stage ▸ rfl)
  refine hs.move creation made rfl rfl ⟨rfl, rfl, rfl⟩ rfl rfl
    (hb.staged.handedOn stage rfl fun h => by obtain h | h := h <;> cases h) rfl rfl (fun o h => ?_) fun h => ?_
  · cases result with
    | ok _ => exact refillPhase_making (hplace ▸ rfl) h
    | error _ => exact h
  · cases result with
    | ok _ => cases h
    | error _ => exact h

theorem Books.checkedOut (hr : (Cleanup.machine cfg.cleanup).Reachable s.control.queue) (hs : Books s)
    {prewarmReturn : Bool} {result : Except Error Unit} {next : Operation}
    (operation : s.control.operations[w]? = some (.checkingOut prewarmReturn))
    (answered : (Operation.checkingOut prewarmReturn).answer result = some next) :
    Books { s with control := s.control.moveOperation w next } := by
  obtain rfl | ⟨error, rfl⟩ : next = .dropping prewarmReturn ∨ ∃ error, next = .over (.residualPossible error) := by
    cases result with
    | ok _ => exact Or.inl (Option.some.inj answered).symm
    | error error => exact Or.inr ⟨error, (Option.some.inj answered).symm⟩
  · exact hs.pass hr operation nofun nofun (fun _ _ h => h) id
  · exact hs.pass hr operation nofun nofun (fun _ _ h => h) fun _ => rfl

/-- What a job's `DROP` comes to. -/
theorem answer_drop {o next : Operation} {result : Except Error Unit} (ho : dropsGiven o = true ∨ o = .unpublishing)
    (answered : o.answer result = some next) :
    (∀ j, next ≠ .refilling j) ∧ (result.isOk = false → ∃ error, next = .over (.residualPossible error)) ∧
      (o = .unpublishing → result.isOk = true → next = .over .succeeded) := by
  cases o with
  | dropping prewarmReturn =>
    cases result with
    | ok _ => cases prewarmReturn <;> cases answered <;> exact ⟨nofun, nofun, nofun⟩
    | error error => cases prewarmReturn <;> cases answered <;> exact ⟨nofun, fun _ => ⟨error, rfl⟩, nofun⟩
  | deleting =>
    cases result with
    | ok _ =>
      cases answered
      exact ⟨nofun, nofun, nofun⟩
    | error error =>
      cases answered
      exact ⟨nofun, fun _ => ⟨error, rfl⟩, nofun⟩
  | unpublishing =>
    cases result with
    | ok _ =>
      cases answered
      exact ⟨nofun, nofun, fun _ _ => rfl⟩
    | error error =>
      cases answered
      exact ⟨nofun, fun _ => ⟨error, rfl⟩, nofun⟩
  | _ => obtain ho | ho := ho <;> cases ho

theorem not_refillPhase_of_dropsGiven {o : Operation} (h : dropsGiven o = true) (j : Nat) (p : Place) : ¬ RefillPhase j p o := by
  cases o with
  | dropping | deleting => exact id
  | _ => cases h

theorem Books.dropped (hr : (Cleanup.machine cfg.cleanup).Reachable s.control.queue) (hs : Books s)
    {job : CleanupJob} {o next : Operation} {result : Except Error Unit} {base : Template.State χ}
    (worker : s.control.queue.workers[w]? = some (.executing job)) (operation : s.control.operations[w]? = some o)
    (made : s.made[i]? = some m)
    (owner : dropsGiven o = true ∧ m.place = .given ∧ m.givenTo = some job.operation ∨
      o = .unpublishing ∧ m.place = .unpublished ∧ m.refills = some job.operation)
    (answered : o.answer result = some next) :
    Books { s with
      control := s.control.moveOperation w next
      base
      made := s.made.set i { m with place := if result.isOk then .gone else m.place } } := by
  obtain ⟨c, creation⟩ : ∃ c, s.control.creations[i]? = some c :=
    ⟨_, List.getElem?_eq_getElem (hs.length ▸ (List.getElem?_eq_some_iff.mp made).1)⟩
  have hb := hs.book i c m creation made
  have hnone : stagePlace c.stage = none := by
    obtain ⟨_, hplace, _⟩ | ⟨_, hplace, _⟩ := owner
    · exact hb.staged.elsewhere (hplace ▸ rfl) (hplace ▸ nofun)
    · exact hb.staged.elsewhere (hplace ▸ rfl) (hplace ▸ nofun)
  have hplace : m.place ≠ .refilled := by
    obtain ⟨_, h, _⟩ | ⟨_, h, _⟩ := owner <;> exact h ▸ nofun
  obtain ⟨hfinal, hfailed, hdropped⟩ := answer_drop (owner.imp And.left And.left) answered
  refine hs.advance hr worker operation creation made (set_of_some creation).symm rfl ⟨rfl, rfl, rfl⟩ rfl rfl hfinal
    ⟨fun p hp => ?_, fun _ => ?_, hb.staged.unwound, fun h => ?_⟩ rfl rfl (fun _ h => ?_) (fun hne p h => ?_) (fun h => ?_) ?_ ?_
  · rw [hnone] at hp
    cases hp
  · cases result with
    | ok _ => rfl
    | error _ => obtain ⟨_, h, _⟩ | ⟨_, h, _⟩ := owner <;> exact (congrArg Place.making h)
  · cases result with
    | ok _ => obtain h | h := h <;> cases h
    | error _ => exact hb.staged.refilled h
  · obtain ⟨ho, _⟩ | ⟨rfl, _⟩ := owner
    · exact absurd h (not_refillPhase_of_dropsGiven ho i m.place)
    · cases hresult : result.isOk with
      | true =>
        rw [hdropped rfl hresult]
        exact Or.inr rfl
      | false =>
        obtain ⟨error, rfl⟩ := hfailed hresult
        exact Or.inl rfl
  · obtain ⟨_, hgiven, _⟩ | ⟨_, _, hmine⟩ := owner
    · cases result with
      | ok _ => exact refillPhase_settled (hgiven ▸ rfl) rfl h
      | error _ => exact h
    · exact absurd hmine hne
  · cases hresult : result.isOk with
    | true =>
      rw [hresult] at h
      cases h
    | false =>
      rw [hresult] at h
      obtain ⟨error, rfl⟩ := hfailed hresult
      exact ⟨h, fun _ _ => rfl⟩
  · exact owner.symm.imp (fun h => h.2.2) fun h => not_refillPhase_of_dropsGiven h.1
  · obtain ⟨_, _, hmine⟩ | ⟨rfl, _⟩ := owner
    · exact Or.inl hmine
    · exact Or.inr id

theorem Books.refilling_step (hr : (Cleanup.machine cfg.cleanup).Reachable s.control.queue) (hs : Books s)
    {job : CleanupJob} {uuid : SimpleUuid} {source : Source} (worker : s.control.queue.workers[w]? = some (.executing job))
    (operation : s.control.operations[w]? = some .dropped) :
    Books { s with
      control := { s.control.moveOperation w (.refilling s.control.creations.length) with
        creations := s.control.creations ++ [⟨.refill w, false, .requested, 0⟩] }
      made := s.made ++ [⟨.test cfg.project uuid, source, some job.operation, none, .unmade, false, []⟩] } := by
  refine hs.concat rfl rfl rfl rfl rfl rfl ⟨rfl, rfl, rfl⟩ List.length_set (fun v o ho => ?_) (fun v j job' ho hv => ?_)
    (fun _ _ _ hb => ?_) fun k hk => ?_
  · obtain ⟨rfl, _⟩ | ⟨_, ho⟩ := Ledger.getElem?_set_cases ho
    · exact Or.inr ⟨job, worker⟩
    · exact hs.busy v o ho
  · obtain ⟨rfl, heq⟩ | ⟨_, ho⟩ := Ledger.getElem?_set_cases ho
    · cases heq
      cases worker.symm.trans hv
      exact Or.inr ⟨hs.length.symm, rfl⟩
    · exact Or.inl ho
  · exact hb.moved hr worker operation ⟨rfl, rfl, rfl⟩ rfl hb.staged rfl rfl (fun _ h => h.elim) (fun _ _ h => h)
      fun hplace => ⟨hplace, fun _ h => h.elim⟩
  · cases hk
    refine ⟨Or.inl ⟨w, job, _, worker, rfl, Ledger.getElem?_set_of_some operation, hs.length.symm⟩, fun j e he hop => ?_⟩
    have hj : j < s.control.creations.length := hs.length ▸ (List.getElem?_eq_some_iff.mp he).1
    obtain ⟨v, job', o, hv, hk, ho, hphase⟩ | ⟨x, hx, hk, _⟩ := (hs.book j _ e (List.getElem?_eq_getElem hj) he).refills _ hop
    · cases worker_unique hr worker hv hk.symm
      cases operation.symm.trans ho
      exact hphase
    · exact running_not_executed hr worker hx hk

theorem Books.refilled (hr : (Cleanup.machine cfg.cleanup).Reachable s.control.queue) (hs : Books s) {c : Creation}
    {result : Attempted} (operation : s.control.operations[w]? = some (.refilling i))
    (creation : s.control.creations[i]? = some c) (stage : c.stage = .returned result) (made : s.made[i]? = some m) :
    Books { s with
      control := (s.control.moveCreation i { c with stage := .delivered result }).moveOperation w (.refilled result)
      made := s.made.set i { m with place := if result.isOk then .refilled else m.place } } := by
  have hb := hs.book i c m creation made
  have hplace : m.place = resultPlace result := hb.staged.place _ (stage ▸ rfl)
  obtain ⟨job, worker⟩ := (hs.busy w _ operation).resolve_left nofun
  have hmine : m.refills = some job.operation := by
    obtain ⟨e, he, hop⟩ := hs.refilling w i job operation worker
    cases made.symm.trans he
    exact hop
  refine hs.advance hr worker operation creation made rfl rfl ⟨rfl, rfl, rfl⟩ rfl rfl (fun j h => ?_)
    (hb.staged.handedOn stage rfl fun _ => hmine ▸ rfl) rfl rfl (fun _ _ => ?_) (fun hne => absurd hmine hne) (fun h => ?_)
    (Or.inl hmine) (Or.inr id)
  · cases result with
    | ok _ => cases h
    | error failure => cases h
  · match result with
    | .ok () => rfl
    | .error (.noResidual _) => exact Or.inr (hplace ▸ rfl)
    | .error (.residualPossible _) => exact Or.inl rfl
  · cases result with
    | ok _ => cases h
    | error failure =>
      have hmaking := stagePlace_making (show stagePlace (.returned (.error failure)) = some _ from rfl)
      exact absurd (hplace.symm.trans h) (not_with_job hmaking).2

theorem Books.published (hr : (Cleanup.machine cfg.cleanup).Reachable s.control.queue) (hs : Books s) {job : CleanupJob}
    {accepted : Bool} (worker : s.control.queue.workers[w]? = some (.executing job))
    (operation : s.control.operations[w]? = some .created) (made : s.made[i]? = some m) (place : m.place = .refilled)
    (refills : m.refills = some job.operation) :
    Books { s with
      control := s.control.moveOperation w (.published accepted)
      made := s.made.set i { m with place := if accepted then .held else .unpublished } } := by
  obtain ⟨c, creation⟩ : ∃ c, s.control.creations[i]? = some c :=
    ⟨_, List.getElem?_eq_getElem (hs.length ▸ (List.getElem?_eq_some_iff.mp made).1)⟩
  have hb := hs.book i c m creation made
  have hnone : stagePlace c.stage = none := hb.staged.elsewhere (place ▸ rfl) (place ▸ nofun)
  refine hs.advance hr worker operation creation made (set_of_some creation).symm rfl ⟨rfl, rfl, rfl⟩ rfl rfl (fun j h => ?_)
    ⟨fun p hp => ?_, fun _ => ?_, hb.staged.unwound, fun _ => refills ▸ rfl⟩ rfl rfl (fun _ _ => ?_)
    (fun hne => absurd refills hne) (fun h => ?_) (Or.inl refills) (Or.inr id)
  · cases accepted <;> cases h
  · rw [hnone] at hp
    cases hp
  · cases accepted <;> rfl
  · cases accepted with
    | true => exact Or.inr rfl
    | false => rfl
  · cases accepted <;> cases h

theorem Books.closed (hs : Books s) : Books { s with control := { s.control.close with shutdownBegun := true } } where
  length := hs.length
  kinds := hs.kinds
  operations := hs.operations
  busy := hs.busy
  refilling := hs.refilling
  book i c m hc hm :=
    have hb := hs.book i c m hc hm
    hb.still ⟨rfl, rfl, rfl⟩ rfl hb.staged rfl rfl (fun _ h => h) id
  givenOnce := hs.givenOnce
  refillsOnce := hs.refillsOnce

theorem Books.used (hs : Books s) (made : s.made[i]? = some m) {base : Template.State χ} {change : χ → χ} :
    Books { s with base, made := s.made.set i { m with changes := m.changes ++ [change] } } := by
  obtain ⟨c, creation⟩ : ∃ c, s.control.creations[i]? = some c :=
    ⟨_, List.getElem?_eq_getElem (hs.length ▸ (List.getElem?_eq_some_iff.mp made).1)⟩
  have hstaged := (hs.book i c m creation made).staged
  exact hs.move creation made (set_of_some creation).symm rfl ⟨rfl, rfl, rfl⟩ rfl rfl
    ⟨hstaged.place, hstaged.handed, hstaged.unwound, hstaged.refilled⟩ rfl rfl (fun _ h => h) id

theorem books_initial (cfg : Config χ) (base : Template.State χ) : Books (.initial cfg base) where
  length := rfl
  kinds := rfl
  operations := List.length_replicate.trans List.length_replicate.symm
  busy w o h := Or.inl (List.eq_of_mem_replicate (List.mem_of_getElem? h))
  refilling w i job h _ := by cases List.eq_of_mem_replicate (List.mem_of_getElem? h)
  book i c m h _ := by cases h
  givenOnce i j m m' k h := by cases h
  refillsOnce i j m m' k h := by cases h

theorem books_step (hr : (Cleanup.machine cfg.cleanup).Reachable s.control.queue) (hs : Books s) {a : Action χ} (h : Transition cfg s a t) :
    Books t := by
  cases h with
  | asked => exact hs.asked
  | opened i c m creation stage made next place gate => exact hs.opened creation stage made gate
  | stated i c m attempt stmt now result effect base creation stage made statement =>
    exact hs.stated creation stage made statement
  | judged i c result creation stage => exact hs.judged creation stage
  | permitDropped i c creation => exact hs.permitDropped creation
  | delivered i c m result creation stage made => exact hs.delivered creation stage made
  | submitted i m kind completion permit admission queue made held stepped => exact hs.submitted made held stepped
  | queued a queue allowed stepped => exact hs.queued hr allowed stepped
  | checkedOut w prewarmReturn result next operation answered => exact hs.checkedOut hr operation answered
  | dropped w i job o next m result effect base worker operation made owner answered =>
    exact hs.dropped hr worker operation made owner answered
  | spared w operation => exact hs.pass hr operation nofun nofun (fun _ _ h => h) fun h => h.elim
  | refilling w job uuid source worker operation => exact hs.refilling_step hr worker operation
  | refilled w i c m result operation creation stage made => exact hs.refilled hr operation creation stage made
  | published w i job m accepted worker operation made place refills =>
    exact hs.published hr worker operation made place refills
  | closed => exact hs.closed
  | used i m db change made => exact hs.used made
  | based a base => exact ⟨hs.length, hs.kinds, hs.operations, hs.busy, hs.refilling, hs.book, hs.givenOnce, hs.refillsOnce⟩
  | ownerLost => exact ⟨hs.length, hs.kinds, hs.operations, hs.busy, hs.refilling, hs.book, hs.givenOnce, hs.refillsOnce⟩

end Steps

/-! ### Runs -/

section Runs

theorem control_of_stepControl {a : Admission.Action} (h : s.stepControl cfg a = some t) :
    s.control.step cfg.cleanup a = some t.control := by
  obtain ⟨control, hcontrol, rfl⟩ := stepControl_eq_some h
  exact hcontrol

/-- The gate, the creations and the jobs take their own steps. -/
theorem control_step {a : Action χ} (h : s.step cfg a = some t) :
    t.control = s.control ∨ ∃ b, s.control.step cfg.cleanup b = some t.control := by
  have hmap : ∀ {u : State χ} {b : Admission.Action} {f : State χ → State χ}, (u.stepControl cfg b).map f = some t →
      (∀ v : State χ, (f v).control = v.control) → u.control = s.control →
      ∃ b, s.control.step cfg.cleanup b = some t.control := by
    intro u b f h hf hu
    obtain ⟨v, hv, rfl⟩ := Option.map_eq_some_iff.mp h
    exact ⟨b, by rw [hf, ← hu]; exact control_of_stepControl hv⟩
  cases a with
  | create kind uuid source =>
    obtain ⟨_, h⟩ := Option.ite_none_right_eq_some.mp h
    exact Or.inr (hmap h (fun _ => rfl) rfl)
  | ensureOpen i =>
    obtain ⟨m, _, h⟩ := Option.bind_eq_some_iff.mp h
    exact Or.inr (hmap h (fun _ => rfl) rfl)
  | statement i now result effect =>
    simp only [State.step, State.statement] at h
    split at h
    · obtain ⟨stmt, _, h⟩ := Option.bind_eq_some_iff.mp h
      obtain ⟨u, hu, h⟩ := Option.bind_eq_some_iff.mp h
      obtain ⟨base, rfl⟩ := perform_eq_some hu
      exact Or.inr (hmap h (fun _ => rfl) rfl)
    · cases h
  | deliver i =>
    simp only [State.step, State.deliver] at h
    split at h
    · exact Or.inr (hmap h (fun _ => rfl) rfl)
    · cases h
  | submit i kind completion permit admission =>
    obtain ⟨m, _, h⟩ := Option.bind_eq_some_iff.mp h
    obtain ⟨_, h⟩ := Option.ite_none_right_eq_some.mp h
    exact Or.inr (hmap h (fun _ => rfl) rfl)
  | checkOut w result =>
    simp only [State.step, State.checkOut] at h
    split at h
    · exact Or.inr ⟨_, control_of_stepControl h⟩
    · cases h
  | drop w i result effect =>
    simp only [State.step, State.drop] at h
    split at h
    · obtain ⟨_, h⟩ := Option.ite_none_right_eq_some.mp h
      obtain ⟨u, hu, h⟩ := Option.bind_eq_some_iff.mp h
      obtain ⟨base, rfl⟩ := perform_eq_some hu
      exact Or.inr (hmap h (fun _ => rfl) rfl)
    · cases h
  | afterDrop w refill =>
    cases refill with
    | none => exact Or.inr ⟨_, control_of_stepControl h⟩
    | some refill =>
      simp only [State.step, State.afterDrop] at h
      split at h
      · obtain ⟨_, h⟩ := Option.ite_none_right_eq_some.mp h
        exact Or.inr (hmap h (fun _ => rfl) rfl)
      · cases h
  | refilled w =>
    simp only [State.step, State.refilled] at h
    split at h
    · split at h
      · exact Or.inr (hmap h (fun _ => rfl) rfl)
      · cases h
    · cases h
  | publish w i accepted =>
    simp only [State.step, State.publish] at h
    split at h
    · obtain ⟨_, h⟩ := Option.ite_none_right_eq_some.mp h
      exact Or.inr (hmap h (fun _ => rfl) rfl)
    · cases h
  | judge | dropPermit | queue | closeAdmission => exact Or.inr ⟨_, control_of_stepControl h⟩
  | use i change =>
    obtain ⟨m, _, h⟩ := Option.bind_eq_some_iff.mp h
    obtain ⟨db, _, rfl⟩ := Option.map_eq_some_iff.mp h
    exact Or.inl rfl
  | base a =>
    obtain ⟨_, h⟩ := Option.ite_none_right_eq_some.mp h
    obtain ⟨base, _, rfl⟩ := Option.map_eq_some_iff.mp h
    exact Or.inl rfl
  | loseOwner =>
    cases h
    exact Or.inl rfl

theorem control_reachable (hs : (machine cfg).Reachable s) : (Admission.machine cfg.cleanup).Reachable s.control := by
  induction hs with
  | start h =>
    obtain ⟨base, _, rfl⟩ := h
    exact .start rfl
  | next a hs hstep ih =>
    obtain heq | ⟨b, hb⟩ := control_step hstep
    · exact heq ▸ ih
    · exact ih.next b hb

theorem books (hs : (machine cfg).Reachable s) : Books s := by
  induction hs with
  | start h =>
    obtain ⟨base, _, rfl⟩ := h
    exact books_initial cfg base
  | next a hs hstep ih => exact books_step (queue_reachable (control_reachable hs)) ih (step_transition hstep)

end Runs

end PostgresTestHarness.Disposable
