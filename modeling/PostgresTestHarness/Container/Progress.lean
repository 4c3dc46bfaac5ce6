import PostgresTestHarness.Container.Removal

/-! Nobody waits for a worker that does not end.

A worker without a sender has so many steps left at most (`Worker.work`), and can take the next one whatever
the engine answers. Whoever joins it has seen to that. -/
namespace PostgresTestHarness.Container

variable {cfg : Config} {s t : State} {i : Nat} {c : Caller}

/-- The steps that a worker without a sender has left. -/
def Worker.work (cfg : Config) : Worker → Nat
  | .absent | .ended _ => 0
  | .starting => cfg.startupTimeout + 9
  | .resolving elapsed => cfg.startupTimeout - elapsed + 8
  | .refusing _ => 1
  | .sending _ => 7
  | .checking => 6
  | .recording _ => 5
  | .monitoring => 4
  | .parked => 3
  | .removing => 2

/-- Without a thread the start has not begun, or has failed. -/
def Present (s : State) : Prop :=
  s.worker = .absent → s.created = false ∧ (s.starter = .spawning ∨ ∃ error, s.starter = .failed error)

theorem Works.present (h : Works cfg s t) : t.worker ≠ .absent := by
  cases h with
  | recorded _ worker | unparked _ _ worker | removed _ worker | refused _ worker => nofun
  | _ => nofun

theorem Present.elsewhere (hp : Present s) (worker : t.worker = s.worker) (created : t.created = s.created)
    (starter : t.starter = s.starter) : Present t := by
  rw [Present, worker, created, starter]
  exact hp

theorem present_begins (hp : Present s) (h : Begins cfg s t) : Present t := by
  -- a place that only a start with a thread comes to
  have hplace : ∀ {starter}, s.starter = starter → starter ≠ .spawning → (∀ error, starter ≠ .failed error) →
      t.worker = s.worker → Present t := by
    intro starter h1 h2 h3 hworker habsent
    obtain ⟨_, hspawning | ⟨error, herror⟩⟩ := hp (hworker.symm.trans habsent)
    · exact absurd (h1.symm.trans hspawning) h2
    · exact absurd (h1.symm.trans herror) (h3 error)
  cases h with
  | spawned starter => nofun
  | unspawned starter => exact fun habsent => ⟨(hp habsent).1, Or.inr ⟨_, rfl⟩⟩
  | failed error starter =>
    obtain starter | starter | starter | starter := starter <;> exact hplace starter nofun nofun rfl
  | received _ starter | gaveUp _ starter | joined _ _ starter | parsed _ starter | unparsed _ _ starter
    | registered starter | ready starter | marked starter | served starter | destroyed _ _ _ starter
    | dropped starter => exact hplace starter nofun nofun rfl

theorem present_calls (hp : Present s) (h : Calls s t) : Present t := by
  cases h <;> exact hp.elsewhere rfl rfl rfl

theorem present_step {a : Action} (hp : Present s) (h : s.step cfg a = some t) : Present t := by
  obtain hworks | hbegins | hcalls := step_cases h
  · exact fun habsent => absurd habsent hworks.present
  · exact present_begins hp hbegins
  · exact present_calls hp hcalls

theorem present (hs : (machine cfg).Reachable s) : Present s :=
  Machine.Invariant.holds (m := machine cfg)
    ⟨fun _ h _ => h ▸ ⟨rfl, Or.inl rfl⟩, fun _ _ _ _ hp h => present_step hp h⟩ hs

theorem Works.work_lt (h : Works cfg s t) (sender : s.sender = false) : t.worker.work cfg < s.worker.work cfg := by
  cases h with
  | timedOut worker queue alive => cases alive.symm.trans sender
  | retried before elapsed worker later early =>
    rw [worker]
    show cfg.startupTimeout - (elapsed + min startupRetryInterval (cfg.startupTimeout - elapsed)) + 8 <
      cfg.startupTimeout - before + 8
    have : 0 < startupRetryInterval := by decide
    omega
  | hungUp worker =>
    obtain worker | worker := worker <;>
    · rw [worker]
      simp only [Worker.work]
      omega
  | unwound worker =>
    obtain worker | ⟨_, worker⟩ | worker | ⟨_, worker⟩ | worker := worker <;>
    · rw [worker]
      exact Nat.succ_pos _
  | started worker | notStarted _ worker | resolved _ _ worker | refused _ worker | sent _ worker | unsent _ worker
    | readied _ worker | stopped _ worker | running worker | exited _ worker | recorded _ worker
    | unparked _ _ worker | removed _ worker =>
    rw [worker]
    simp only [Worker.work]
    omega

theorem Begins.worker (h : Begins cfg s t) (hs : Staged s) (sender : s.sender = false) :
    t.sender = false ∧ t.worker = s.worker := by
  cases h with
  | spawned starter =>
    have hstands := hs.stands
    rw [starter] at hstands
    cases hstands.2.symm.trans sender
  | unspawned | gaveUp | unparsed => exact ⟨rfl, rfl⟩
  | _ => exact ⟨sender, rfl⟩

theorem Calls.worker (h : Calls s t) (sender : s.sender = false) : t.sender = false ∧ t.worker = s.worker := by
  cases h with
  | takes => exact ⟨rfl, rfl⟩
  | _ => exact ⟨sender, rfl⟩

/-- A worker without a sender runs out of steps, whatever the others do in between. -/
theorem works_bounded {actions : List Action} (hs : (machine cfg).Reachable s) (sender : s.sender = false)
    (h : (machine cfg).run s actions = some t) :
    actions.countP Action.works + t.worker.work cfg ≤ s.worker.work cfg := by
  induction actions generalizing s with
  | nil =>
    cases h
    exact Nat.le_of_eq (Nat.zero_add _)
  | cons a rest ih =>
    obtain ⟨u, hu, hrest⟩ := Option.bind_eq_some_iff.mp h
    have hru := hs.next a hu
    cases hworks : a.works with
    | true =>
      have hstep := works_of_step hu hworks
      have hlt := hstep.work_lt sender
      have := ih hru (hstep.elsewhere.sender.trans sender) hrest
      rw [List.countP_cons_of_pos hworks]
      omega
    | false =>
      have hsame : u.sender = false ∧ u.worker = s.worker := by
        cases hcalls : a.calls with
        | true => exact (calls_of_step hu hcalls).worker sender
        | false => exact (begins_of_step hu hworks hcalls).worker (staged hs) sender
      have := ih hru hsame.1 hrest
      rw [List.countP_cons_of_neg (by rw [hworks]; nofun)]
      rwa [hsame.2] at this

/-- What the engine and the clock answer to a worker. -/
structure Answers where
  start : Except TestcontainersError Unit
  resolved : Except TestcontainersError StartedContainer
  stopped : Bool
  /-- The time that has passed since the clock was last read. -/
  passed : Nat
  exit : Option ContainerExit
  removal : Except TestcontainersError Unit

/-- The worker's next step. -/
def State.next (s : State) (answers : Answers) : Action :=
  match s.worker with
  | .starting => .engineStart answers.start
  | .resolving elapsed => .resolve answers.resolved answers.stopped (elapsed + answers.passed)
  | .refusing _ | .sending _ => .send
  | .checking => .check answers.exit
  | .recording _ => .record
  | .parked => .unpark
  | .removing => .remove answers.removal
  | .monitoring | .absent | .ended _ => .poll

theorem next_works (s : State) (answers : Answers) : (s.next answers).works = true := by
  rw [State.next]
  split <;> rfl

theorem next_enabled (sender : s.sender = false) (present : s.worker ≠ .absent) (running : ∀ result, s.worker ≠ .ended result)
    (answers : Answers) : (s.step cfg (s.next answers)).isSome = true := by
  cases hworker : s.worker with
  | absent => exact absurd hworker present
  | ended result => exact absurd hworker (running result)
  | starting =>
    rw [State.next, hworker]
    simp only [State.step, State.engineStart, hworker]
    cases answers.start <;> rfl
  | resolving elapsed =>
    rw [State.next, hworker]
    simp only [State.step, State.resolve, hworker, if_neg (show ¬ elapsed + answers.passed < elapsed by omega)]
    cases answers.resolved with
    | ok container => rfl
    | error error =>
      simp only
      split
      · rfl
      · split <;> rfl
  | sending started =>
    rw [State.next, hworker]
    simp only [State.step, State.send, hworker]
    split <;> rfl
  | monitoring =>
    rw [State.next, hworker]
    simp only [State.step, State.poll, hworker]
    split
    · rfl
    · rfl
    · split <;> rfl
  | checking =>
    rw [State.next, hworker]
    simp only [State.step, State.check, hworker]
    cases answers.exit <;> rfl
  | parked =>
    rw [State.next, hworker]
    simp only [State.step, State.unpark, hworker]
    cases s.commands with
    | cons command rest => rfl
    | nil =>
      simp only [sender]
      rfl
  | _ =>
    rw [State.next, hworker]
    simp only [State.step, State.send, State.record, State.remove, hworker]
    rfl

/-- Somebody joins the worker. -/
def State.Awaited (s : State) : Prop := s.lock ≠ none ∨ ∃ startup, s.starter = .joining startup

theorem awaited_told (hs : (machine cfg).Reachable s) (h : s.Awaited) : s.sender = false ∧ s.worker ≠ .absent := by
  have hstands := (staged hs).stands
  obtain hlock | ⟨startup, hstarter⟩ := h
  · obtain ⟨i, hi⟩ := Option.ne_none_iff_exists'.mp hlock
    obtain ⟨c, hc, hstage⟩ := (taken hs).locked i hi
    have hcreated := (staged hs).created_of_callers (List.mem_of_getElem? hc)
    have htook := (taken hs).joining i c hc hstage
    refine ⟨?_, fun habsent => ?_⟩
    · rw [(staged hs).sender hcreated]
      exact (taken hs).slot_of_took (List.mem_of_getElem? hc) htook.2
    · cases hcreated.symm.trans (present hs habsent).1
  · rw [hstarter] at hstands
    refine ⟨hstands.2, fun habsent => ?_⟩
    obtain hspawning | ⟨error, herror⟩ := (present hs habsent).2
    · cases hstarter.symm.trans hspawning
    · cases hstarter.symm.trans herror

/-- Whoever joins the worker waits for so many of its steps at most. Until it has ended it can take the next one, whatever
the engine answers; when it has, the one who joins it returns, and so does whoever waits for the mutex then. -/
theorem shutdown_returns (hs : (machine cfg).Reachable s) (h : s.Awaited) :
    (∀ actions t, (machine cfg).run s actions = some t →
      actions.countP Action.works + t.worker.work cfg ≤ s.worker.work cfg) ∧
      ((∀ result, s.worker ≠ .ended result) → ∀ answers, (s.next answers).works = true ∧
        (s.step cfg (s.next answers)).isSome = true) ∧
      ∀ result, s.worker = .ended result →
        (∀ startup, s.starter = .joining startup → (s.step cfg .joinFailed).isSome = true) ∧
        ∀ i, s.lock = some i → ∃ t, s.step cfg (.join i) = some t ∧ ∀ j c, t.callers[j]? = some c →
          c.stage = .locking → (t.step cfg (.lock j)).isSome = true := by
  obtain ⟨hsender, hpresent⟩ := awaited_told hs h
  refine ⟨fun actions t ht => works_bounded hs hsender ht, fun hrunning answers => ?_, fun result hended => ⟨?_, ?_⟩⟩
  · exact ⟨next_works s answers, next_enabled hsender hpresent hrunning answers⟩
  · intro startup hstarter
    simp only [State.step, State.joinFailed, hstarter, hended]
    rfl
  · intro i hi
    obtain ⟨⟨kind, stage, holds, took⟩, hc, hstage⟩ := (taken hs).locked i hi
    cases hstage
    refine ⟨_, by simp only [State.step, State.join, hc, hended]; rfl, fun j d hd hlocking => ?_⟩
    obtain ⟨kind', stage', holds', took'⟩ := d
    cases hlocking
    simp only [State.step, State.lockWorker, hd]
    split <;> rfl

/-- A start that has timed out joins a worker that has not heard from the engine yet. -/
theorem shutdown_returns_late : ∃ s, (machine exampleConfig).run .initial [.spawn true, .startupTimeout] = some s ∧
    s.worker.work exampleConfig = 10 ^ 9 + 9 ∧ ∀ answers, (s.step exampleConfig (s.next answers)).isSome = true := by
  refine ⟨_, rfl, rfl, fun answers => ?_⟩
  have hs := Machine.reachable_of_run (m := machine exampleConfig) [.spawn true, .startupTimeout] rfl rfl
  exact ((shutdown_returns hs (Or.inr ⟨_, rfl⟩)).2.1 nofun answers).2

end PostgresTestHarness.Container
