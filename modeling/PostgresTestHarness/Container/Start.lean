import PostgresTestHarness.Container.Ownership

/-! What a start that fails leaves behind.

Until it has made the owner, a start that fails joins the worker, and says so where the removal has
failed as well; only a URL that does not parse leaves the thread alone, with nobody to talk to
(`Gone`). After that the owner's destructor does it (`Inherited`), unless the process is exiting and
the exit hook has the owner in its hands. -/
namespace PostgresTestHarness.Container

variable {cfg : Config} {s t : State} {error : Error} {c d : Caller}

/-- A worker that has sent what it has to send. -/
def Worker.sent : Worker → Bool
  | .monitoring | .checking | .recording _ | .parked | .removing | .ended (.returned _) => true
  | _ => false

theorem Worker.panicked_of_not_sent {result : Ended} (h : (Worker.ended result).sent = false) : result = .panicked := by
  cases result with
  | returned removal => cases h
  | panicked => rfl

/-- What a start that fails before it has made the owner has done about the worker. -/
def Gone (cfg : Config) (s : State) (error : Error) : Prop :=
  error = .containerWorkerStart ∧ s.worker = .absent ∨
    (∃ reason, error = .harness (.invalidAdminDatabaseUrl reason) ∧ s.sender = false) ∨
    ∃ startup result, s.worker = .ended result ∧ error = combineStartupAndCleanup startup result.joined ∧
      ((∃ source, startup = mapContainerStartError cfg source) ∨
        startup = .containerStartupTimeout cfg.startupTimeout ∨
        startup = .containerWorkerStopped ∧ result = .panicked)

structure Joining (cfg : Config) (s : State) : Prop where
  message : s.starter = .receiving → s.worker.sent = true → s.started ≠ none
  receiver : s.starter = .receiving → s.startedReceiver = true
  joining : ∀ startup, s.starter = .joining startup →
    (∃ source, startup = mapContainerStartError cfg source) ∨ startup = .containerStartupTimeout cfg.startupTimeout ∨
      startup = .containerWorkerStopped ∧ s.worker = .ended .panicked
  gone : ∀ error, s.starter = .failed error → s.created = false → Gone cfg s error
  spawning : s.starter = .spawning → s.worker = .absent ∧ s.startedReceiver = true

theorem joining_initial : Joining cfg State.initial := ⟨nofun, nofun, nofun, nofun, fun _ => ⟨rfl, rfl⟩⟩

theorem Works.not_absent (h : Works cfg s t) : s.worker ≠ .absent := by
  intro absent
  cases h <;> simp_all only [reduceCtorEq, exists_false, or_self]

theorem Gone.works (h : Gone cfg s error) (hw : Works cfg s t) : Gone cfg t error := by
  obtain ⟨_, habsent⟩ | ⟨reason, herror, hsender⟩ | ⟨_, result, hended, _⟩ := h
  · exact absurd habsent hw.not_absent
  · exact Or.inr (Or.inl ⟨reason, herror, hw.elsewhere.sender.trans hsender⟩)
  · exact absurd hended (hw.not_ended result)

theorem Works.message (h : Works cfg s t) (receiver : s.startedReceiver = true)
    (message : s.worker.sent = true → s.started ≠ none) (hsent : t.worker.sent = true) : t.started ≠ none := by
  cases h with
  | refused source worker =>
    rw [if_pos receiver]
    nofun
  | sent started worker _ => nofun
  | unsent started worker lost => cases lost.symm.trans receiver
  | hungUp worker queue sender =>
    obtain worker | worker := worker
    · exact message (by rw [worker]; rfl)
    · exact message (by rw [worker]; rfl)
  | started | notStarted | resolved | retried | unwound => cases hsent
  | readied _ worker | stopped _ worker | timedOut worker | running worker | exited _ worker | recorded _ worker
    | unparked _ _ worker | removed _ worker => exact message (by rw [worker]; rfl)

theorem joining_works (hj : Joining cfg s) (h : Works cfg s t) : Joining cfg t := by
  have hsame := h.elsewhere
  constructor
  · intro hstarter
    rw [hsame.starter] at hstarter
    exact h.message (hj.receiver hstarter) (hj.message hstarter)
  · rw [hsame.starter, hsame.startedReceiver]
    exact hj.receiver
  · rw [hsame.starter]
    intro startup hstarter
    obtain hsource | htimeout | ⟨_, hended⟩ := hj.joining startup hstarter
    · exact Or.inl hsource
    · exact Or.inr (Or.inl htimeout)
    · exact absurd hended (h.not_ended _)
  · rw [hsame.starter, hsame.created]
    exact fun error herror hcreated => (hj.gone error herror hcreated).works h
  · rw [hsame.starter]
    exact fun hstarter => absurd (hj.spawning hstarter).1 h.not_absent

/-- A place of the start where nothing is said of the worker. -/
theorem Joining.quiet (receiving : s.starter ≠ .receiving) (joining : ∀ startup, s.starter ≠ .joining startup)
    (spawning : s.starter ≠ .spawning) (gone : ∀ error, s.starter = .failed error → s.created = false → Gone cfg s error) :
    Joining cfg s :=
  ⟨fun h => absurd h receiving, fun h => absurd h receiving, fun startup h => absurd h (joining startup), gone,
    fun h => absurd h spawning⟩

/-- What the owner does, once there is one. -/
theorem Joining.created (stands : s.starter.Stands s.created s.sender s.owned) (created : s.created = true) :
    Joining cfg s := by
  rw [created] at stands
  refine .quiet (fun h => ?_) (fun startup h => ?_) (fun h => ?_) fun error _ h => ?_
  · rw [h] at stands
    cases stands.1
  · rw [h] at stands
    cases stands.1
  · rw [h] at stands
    cases stands.1
  · cases created.symm.trans h

theorem joining_begins (hj : Joining cfg s) (hs : Staged s) (h : Begins cfg s t) : Joining cfg t := by
  have hstands := hs.stands
  have ht := staged_begins hs h
  cases h with
  | spawned starter =>
    obtain ⟨_, hreceiver⟩ := hj.spawning starter
    exact ⟨fun _ hsent => (by cases hsent), fun _ => hreceiver, nofun, nofun, nofun⟩
  | unspawned starter =>
    refine .quiet nofun nofun nofun fun error herror _ => ?_
    cases herror
    exact Or.inl ⟨rfl, (hj.spawning starter).1⟩
  | received started starter message => exact .quiet nofun nofun nofun nofun
  | gaveUp startup starter reason =>
    refine ⟨nofun, nofun, fun startup' hstartup => ?_, nofun, nofun⟩
    cases hstartup
    cases reason with
    | refused source message => exact Or.inl ⟨source, rfl⟩
    | timedOut => exact Or.inr (Or.inl rfl)
    | stopped result message worker =>
      refine Or.inr (Or.inr ⟨rfl, ?_⟩)
      have hnot : s.worker.sent ≠ true := fun hsent => hj.message starter hsent message
      rw [worker] at hnot
      exact worker.trans (congrArg Worker.ended (Worker.panicked_of_not_sent (Bool.eq_false_iff.mpr hnot)))
  | joined startup result starter worker =>
    refine .quiet nofun nofun nofun fun error herror _ => ?_
    cases herror
    refine Or.inr (Or.inr ⟨startup, result, worker, rfl, ?_⟩)
    obtain hsource | htimeout | ⟨hstopped, hended⟩ := hj.joining startup starter
    · exact Or.inl hsource
    · exact Or.inr (Or.inl htimeout)
    · cases worker.symm.trans hended
      exact Or.inr (Or.inr ⟨hstopped, rfl⟩)
  | parsed started starter => exact .created ht.stands rfl
  | unparsed started reason starter =>
    refine .quiet nofun nofun nofun fun error herror _ => ?_
    cases herror
    exact Or.inr (Or.inl ⟨reason, rfl, rfl⟩)
  | registered starter => exact .created ht.stands (hstands.created (Or.inl starter)).1
  | ready starter => exact .created ht.stands (hstands.created (Or.inr (Or.inl starter))).1
  | marked starter lock slot => exact .created ht.stands (hstands.created (Or.inr (Or.inr (Or.inl starter)))).1
  | served starter => exact .created ht.stands (hstands.created (Or.inr (Or.inr (Or.inr starter)))).1
  | failed error starter => exact .created ht.stands (hstands.created starter).1
  | destroyed error c result starter caller kind stage =>
    rw [starter] at hstands
    exact .created ht.stands hstands.1
  | dropped starter owned =>
    rw [starter] at hstands
    exact .created ht.stands hstands

theorem Calls.created (hs : Staged s) (h : Calls s t) : s.created = true ∧ t.created = true := by
  have hstands := hs.stands
  cases h with
  | called starter owned =>
    rw [starter] at hstands
    exact ⟨hstands, hstands⟩
  | exits registered alive =>
    suffices s.created = true from ⟨this, this⟩
    by_contra h
    rw [(hs.uncreated (Bool.eq_false_iff.mpr h)).2.2.2.1] at registered
    cases registered
  | takes i c caller | finds i c caller | joins i c _ caller | releases i c _ caller | abandons i c caller =>
    have hcreated := hs.created_of_callers (List.mem_of_getElem? caller)
    exact ⟨hcreated, hcreated⟩

theorem joining_step {a : Action} (hj : Joining cfg s) (hs : Staged s) (h : s.step cfg a = some t) : Joining cfg t := by
  obtain hworks | hbegins | hcalls := step_cases h
  · exact joining_works hj hworks
  · exact joining_begins hj hs hbegins
  · exact .created (staged_calls hs hcalls).stands (hcalls.created hs).2

theorem joining (hs : (machine cfg).Reachable s) : Joining cfg s :=
  Machine.Invariant.holds (m := machine cfg)
    ⟨fun _ h => h ▸ joining_initial, fun _ _ _ hr hj h => joining_step hj (staged hr) h⟩ hs

/-! ### Who drops the owner -/

/-- The owner has somebody who has it, or its destructor has been called. While the start has it, only the exit hook can
have it as well. -/
structure Inherited (s : State) : Prop where
  hooks : s.starter.Owning → ∀ c ∈ s.callers, c.kind = .exitHook
  heir : s.created = true → s.owned = false →
    (∃ c ∈ s.callers, c.holds = true) ∨ ∃ c ∈ s.callers, c.kind = .destructor
  failed : s.created = true → ∀ error, s.starter = .failed error →
    (∃ result, s.worker = .ended result) ∨ ∃ c ∈ s.callers, c.kind = .exitHook

theorem inherited_initial : Inherited State.initial := ⟨fun h => (by simp [Starter.Owning, State.initial] at h), nofun, nofun⟩

theorem Inherited.elsewhere (hi : Inherited s) (h : Elsewhere s t)
    (worker : ∀ result, s.worker = .ended result → t.worker = .ended result) : Inherited t := by
  constructor
  · rw [h.starter, h.callers]
    exact hi.hooks
  · rw [h.created, h.owned, h.callers]
    exact hi.heir
  · rw [h.created, h.starter, h.callers]
    intro hcreated error herror
    obtain ⟨result, hresult⟩ | hhook := hi.failed hcreated error herror
    · exact Or.inl ⟨result, worker result hresult⟩
    · exact Or.inr hhook

theorem dropOwner_heir (owned : s.owned = false) :
    (∃ c ∈ s.dropOwner.callers, c.holds = true) ∨ ∃ c ∈ s.dropOwner.callers, c.kind = .destructor := by
  rw [State.dropOwner]
  split
  · exact Or.inr ⟨_, List.mem_concat_self, rfl⟩
  · rename_i hcount
    rw [State.strongCount, owned, Bool.toNat_false, Nat.zero_add] at hcount
    obtain ⟨c, hc, hholds⟩ := List.countP_pos_iff.mp (Nat.pos_of_ne_zero hcount)
    exact Or.inl ⟨c, hc, hholds⟩

theorem mem_dropOwner (hc : c ∈ s.callers) : c ∈ s.dropOwner.callers := by
  rw [State.dropOwner]
  split
  · exact List.mem_append_left _ hc
  · exact hc

theorem Inherited.uncreated (created : s.created = false) (stands : s.starter.Stands s.created s.sender s.owned) :
    Inherited s := by
  refine ⟨fun h => ?_, fun h => ?_, fun h => ?_⟩
  · cases created.symm.trans (stands.created h).1
  · cases created.symm.trans h
  · cases created.symm.trans h

/-- A step of the start with the owner in its hands. -/
theorem Inherited.owned (owned : s.owned = true) (hooks : ∀ c ∈ s.callers, c.kind = .exitHook)
    (place : ∀ error, s.starter ≠ .failed error) : Inherited s :=
  ⟨fun _ => hooks, fun _ h => (by cases owned.symm.trans h), fun _ error h => absurd h (place error)⟩

theorem inherited_begins (hi : Inherited s) (hs : Staged s) (ht : Taken s) (h : Begins cfg s t) : Inherited t := by
  have hstands := hs.stands
  have hstands' := (staged_begins hs h).stands
  cases h with
  | spawned starter | unspawned starter | received _ starter | gaveUp _ starter | joined _ _ starter | unparsed _ _ starter =>
    rw [starter] at hstands
    exact .uncreated hstands.1 hstands'
  | parsed started starter =>
    rw [starter] at hstands
    refine .owned rfl (fun c hc => ?_) (fun _ h => by cases h)
    rw [(hs.uncreated hstands.1).2.2.1] at hc
    cases hc
  | registered starter => exact .owned (hstands.created (Or.inl starter)).2 (hi.hooks (Or.inl starter)) fun _ h => by cases h
  | ready starter =>
    exact .owned (hstands.created (Or.inr (Or.inl starter))).2 (hi.hooks (Or.inr (Or.inl starter)))
      fun _ h => by cases h
  | marked starter lock slot =>
    have hplace : s.starter.Owning := Or.inr (Or.inr (Or.inl starter))
    exact .owned (hstands.created hplace).2 (hi.hooks hplace) fun _ h => by cases h
  | served starter =>
    have hplace : s.starter.Owning := Or.inr (Or.inr (Or.inr starter))
    exact .owned (hstands.created hplace).2 (hi.hooks hplace) fun _ h => by cases h
  | failed error starter =>
    refine ⟨fun h => ?_, fun _ _ => dropOwner_heir rfl, fun _ error' herror => ?_⟩
    · simp only [State.failWith] at h
      split at h <;> simp only [Starter.Owning, reduceCtorEq, or_self] at h
    · -- somebody else has the owner, and it can only be the exit hook
      simp only [State.failWith] at herror
      split at herror
      · cases herror
      · rename_i hcount
        rw [State.strongCount, Bool.toNat_false, Nat.zero_add] at hcount
        obtain ⟨c, hc, _⟩ := List.countP_pos_iff.mp (Nat.pos_of_ne_zero hcount)
        exact Or.inr ⟨c, mem_dropOwner hc, hi.hooks starter c hc⟩
  | destroyed error c result starter caller kind stage =>
    rw [starter] at hstands
    obtain ⟨_, e, he, _⟩ := ht.returned c caller result stage
    refine ⟨fun h => ?_, hi.heir, fun _ _ _ => Or.inl ⟨e, he⟩⟩
    change Starter.Owning (.failed error) at h
    simp only [Starter.Owning, reduceCtorEq, or_self] at h
  | dropped starter owned =>
    refine ⟨fun h => ?_, fun _ _ => dropOwner_heir rfl, fun _ error herror => ?_⟩
    · change s.starter.Owning at h
      simp only [Starter.Owning, starter, reduceCtorEq, or_self] at h
    · cases starter.symm.trans herror

theorem exists_mem_set {i : Nat} {callers : List Caller} {p : Caller → Prop} (caller : callers[i]? = some c) (hp : p c → p d)
    (h : ∃ e ∈ callers, p e) : ∃ e ∈ callers.set i d, p e := by
  obtain ⟨e, he, hpe⟩ := h
  obtain ⟨j, hj⟩ := List.mem_iff_getElem?.mp he
  by_cases hij : i = j
  · subst hij
    cases caller.symm.trans hj
    exact ⟨d, List.mem_of_getElem? (Ledger.getElem?_set_of_some caller), hp hpe⟩
  · exact ⟨e, List.mem_of_getElem? (by rw [List.getElem?_set_ne hij]; exact hj), hpe⟩

/-- A caller moves and stays what it is. -/
theorem Inherited.move {i : Nat} (hi : Inherited s) (d : Caller) (caller : s.callers[i]? = some c) (kind : d.kind = c.kind)
    (holds : d.holds = c.holds) (callers : t.callers = s.callers.set i d)
    (same : t.starter = s.starter ∧ t.created = s.created ∧ t.owned = s.owned ∧ t.worker = s.worker) : Inherited t := by
  obtain ⟨hstarter, hcreated, howned, hworker⟩ := same
  constructor
  · rw [hstarter, callers]
    intro hplace e he
    obtain rfl | he := Ledger.mem_of_set he
    · exact kind.trans (hi.hooks hplace c (List.mem_of_getElem? caller))
    · exact hi.hooks hplace e he
  · rw [hcreated, howned, callers]
    intro h1 h2
    exact (hi.heir h1 h2).imp (exists_mem_set caller (holds.trans ·)) (exists_mem_set caller (kind.trans ·))
  · rw [hcreated, hstarter, hworker, callers]
    intro h1 error h2
    exact (hi.failed h1 error h2).imp_right (exists_mem_set caller (kind.trans ·))

/-- A caller gives its `Arc` up. -/
theorem Inherited.release {i : Nat} (hi : Inherited s) (hs : Staged s) (d : Caller) (caller : s.callers[i]? = some c)
    (kind : d.kind = c.kind) : Inherited { s with callers := s.callers.set i d }.dropOwner := by
  refine ⟨fun hplace e he => ?_, fun _ howned => dropOwner_heir howned, fun hcreated error herror => ?_⟩
  · have howned := (hs.stands.created hplace).2
    rw [State.dropOwner, State.strongCount, howned] at he
    obtain rfl | he := Ledger.mem_of_set (by simpa using he)
    · exact kind.trans (hi.hooks hplace c (List.mem_of_getElem? caller))
    · exact hi.hooks hplace e he
  · refine (hi.failed hcreated error herror).imp_right fun hhook => ?_
    obtain ⟨e, he, hkind⟩ := exists_mem_set (d := d) caller (kind.trans ·) hhook
    exact ⟨e, mem_dropOwner he, hkind⟩

theorem inherited_calls (hi : Inherited s) (hs : Staged s) (h : Calls s t) : Inherited t := by
  cases h with
  | called starter owned =>
    refine ⟨fun h => ?_, fun _ h => ?_, fun _ error herror => ?_⟩
    · change s.starter.Owning at h
      simp only [Starter.Owning, starter, reduceCtorEq, or_self] at h
    · cases owned.symm.trans h
    · cases starter.symm.trans herror
  | exits registered alive =>
    refine ⟨fun h c hc => ?_, fun _ _ => Or.inl ⟨_, List.mem_concat_self, rfl⟩,
      fun _ _ _ => Or.inr ⟨_, List.mem_concat_self, rfl⟩⟩
    obtain hc | hc := List.mem_append.mp hc
    · exact hi.hooks h c hc
    · cases List.mem_singleton.mp hc
      rfl
  | takes i c caller stage lock slot =>
    exact hi.move { c with stage := .joining, took := true } caller rfl rfl rfl ⟨rfl, rfl, rfl, rfl⟩
  | finds i c caller stage lock slot =>
    exact hi.move { c with stage := .returned (.ok ()) } caller rfl rfl rfl ⟨rfl, rfl, rfl, rfl⟩
  | joins i c result caller stage worker =>
    exact hi.move { c with stage := .returned result.joined } caller rfl rfl rfl ⟨rfl, rfl, rfl, rfl⟩
  | releases i c result caller stage => exact hi.release hs { c with holds := false } caller rfl
  | abandons i c caller stage kind => exact hi.release hs { c with stage := .abandoned, holds := false } caller rfl

theorem inherited_step {a : Action} (hi : Inherited s) (hs : Staged s) (ht : Taken s) (h : s.step cfg a = some t) :
    Inherited t := by
  obtain hworks | hbegins | hcalls := step_cases h
  · exact hi.elsewhere hworks.elsewhere hworks.sameTaking.worker
  · exact inherited_begins hi hs ht hbegins
  · exact inherited_calls hi hs hcalls

theorem inherited (hs : (machine cfg).Reachable s) : Inherited s :=
  Machine.Invariant.holds (m := machine cfg)
    ⟨fun _ h => h ▸ inherited_initial, fun _ _ _ hr hi h => inherited_step hi (staged hr) (taken hr) h⟩ hs

/-- A start that fails has ended the worker and says what the removal of its container has come to, or has never had one; a
URL that does not parse has left the worker without a sender. Once it has made the owner, the worker has ended,
or the exit hook has the owner too. -/
theorem failed_start_settles (hs : (machine cfg).Reachable s) (h : s.starter = .failed error) :
    s.created = false ∧ Gone cfg s error ∨
      s.created = true ∧ s.owned = false ∧
        ((∃ result, s.worker = .ended result) ∨
          (∃ c ∈ s.callers, c.kind = .exitHook) ∧
            ((∃ c ∈ s.callers, c.holds = true) ∨ ∃ c ∈ s.callers, c.kind = .destructor)) := by
  have hstands := (staged hs).stands
  rw [h] at hstands
  cases hcreated : s.created with
  | false => exact Or.inl ⟨rfl, (joining hs).gone error h hcreated⟩
  | true =>
    have hi := inherited hs
    exact Or.inr ⟨rfl, hstands.1, (hi.failed hcreated error h).imp_right fun hhook => ⟨hhook, hi.heir hcreated hstands.1⟩⟩

/-- The engine is slow, the start gives up, and the removal fails. -/
def lateStart : List Action :=
  [.spawn true, .startupTimeout, .engineStart (.ok ()), .resolve (.ok ⟨"c".toList, "127.0.0.1".toList, 5433⟩) false 0,
    .send, .remove (.error ⟨"busy".toList⟩), .joinFailed]

theorem failed_start_settles_late : ∃ s, (machine exampleConfig).run .initial lateStart = some s ∧
    s.starter = .failed (.containerStartupAndCleanup (.containerStartupTimeout (10 ^ 9))
      (.containerRemove ⟨"busy".toList⟩)) ∧
    Gone exampleConfig s (.containerStartupAndCleanup (.containerStartupTimeout (10 ^ 9))
      (.containerRemove ⟨"busy".toList⟩)) := by
  refine ⟨_, rfl, rfl, ?_⟩
  have h := failed_start_settles (Machine.reachable_of_run (m := machine exampleConfig) lateStart rfl rfl) rfl
  exact (h.resolve_right fun hcreated => nomatch hcreated.1).2

end PostgresTestHarness.Container
