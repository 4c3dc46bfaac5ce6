import PostgresTestHarness.Container.Start

/-! When a container is removed.

The worker removes what it has started, once, and not before it is told: the channel has no sender any
more, or a shutdown in it, or the container was seen stopped before the server was ready (`Removal`).
The start says `Ready` once at most, so the command that a ready worker waits for is the shutdown. -/
namespace PostgresTestHarness.Container

variable {cfg : Config} {s t : State}

/-- How often the engine was asked to start and to remove a container. -/
def Worker.Counts (starts removals : Nat) : Worker → Prop
  | .absent | .starting | .refusing _ => starts = 0 ∧ removals = 0
  | .ended (.returned _) => starts ≤ 1 ∧ removals = starts
  | .ended .panicked => starts ≤ 1 ∧ removals = 0
  | _ => starts = 1 ∧ removals = 0

/-- The start has sent `Ready`, or never will. -/
def Starter.past : Starter → Bool
  | .finishing | .serving | .dropping _ | .failed _ => true
  | _ => false

structure Removal (s : State) : Prop where
  counts : s.worker.Counts s.starts s.removals
  told : s.worker = .removing ∨ 0 < s.removals → s.sender = false ∨ s.startupExit ≠ none
  parked : s.worker = .parked → s.startupExit ≠ none ∨ .ready ∉ s.commands ∧ s.starter.past = true
  ready : .ready ∈ s.commands → s.starter.past = true
  once : s.commands.count .ready ≤ 1
  shutdown : .shutdown ∈ s.commands → s.sender = false
  receiver : s.startedReceiver = false → s.sender = false

theorem removal_initial : Removal State.initial :=
  ⟨⟨rfl, rfl⟩, fun h => (by simp [State.initial] at h), nofun, nofun, Nat.zero_le 1, nofun, nofun⟩

theorem Works.counts (h : Works cfg s t) (counts : s.worker.Counts s.starts s.removals) :
    t.worker.Counts t.starts t.removals := by
  cases h with
  | started worker =>
    rw [worker] at counts
    exact ⟨congrArg Nat.succ counts.1, counts.2⟩
  | notStarted source worker =>
    rw [worker] at counts
    exact counts
  | refused source worker =>
    rw [worker] at counts
    exact ⟨by simp [counts.1], counts.2.trans counts.1.symm⟩
  | hungUp worker =>
    obtain worker | worker := worker <;>
    · rw [worker] at counts
      exact counts
  | removed result worker =>
    rw [worker] at counts
    exact ⟨Nat.le_of_eq counts.1, by simp [counts.1, counts.2]⟩
  | unwound worker =>
    obtain worker | ⟨_, worker⟩ | worker | ⟨_, worker⟩ | worker := worker <;>
    · rw [worker] at counts
      exact ⟨by simp [counts.1], counts.2⟩
  | resolved _ _ worker | retried _ _ worker | sent _ worker | unsent _ worker | readied _ worker | stopped _ worker
    | timedOut worker | running worker | exited _ worker | recorded _ worker | unparked _ _ worker =>
    rw [worker] at counts
    exact counts

/-- A worker reads its commands in order. -/
theorem Works.commands (h : Works cfg s t) : t.commands <:+ s.commands := by
  cases h with
  | readied rest worker queue | stopped rest worker queue | unparked command rest worker queue =>
    rw [queue]
    exact List.suffix_cons _ _
  | _ => exact List.suffix_rfl

theorem Works.startupExit (h : Works cfg s t) (exit : s.startupExit ≠ none) : t.startupExit ≠ none := by
  cases h with
  | recorded exit worker => nofun
  | _ => exact exit

theorem Removal.works_told (hr : Removal s) (h : Works cfg s t) (going : t.worker = .removing ∨ 0 < t.removals) :
    s.sender = false ∨ t.startupExit ≠ none := by
  cases h with
  | unsent started worker receiver => exact Or.inl (hr.receiver receiver)
  | stopped rest worker queue => exact Or.inl (hr.shutdown (queue ▸ List.mem_cons_self))
  | hungUp worker queue sender => exact Or.inl sender
  | unparked command rest worker queue =>
    obtain hexit | ⟨hnone, _⟩ := hr.parked worker
    · exact Or.inr hexit
    · cases command with
      | ready => exact absurd (queue ▸ List.mem_cons_self) hnone
      | shutdown => exact Or.inl (hr.shutdown (queue ▸ List.mem_cons_self))
  | removed result worker => exact hr.told (Or.inl worker)
  | recorded exit worker => exact Or.inr nofun
  | _ => exact hr.told (Or.inr (going.resolve_left nofun))

theorem Removal.works_parked (hr : Removal s) (h : Works cfg s t) (parked : t.worker = .parked) :
    t.startupExit ≠ none ∨ .ready ∉ t.commands ∧ s.starter.past = true := by
  cases h with
  | readied rest worker queue =>
    have honce := hr.once
    rw [queue, List.count_cons_self] at honce
    refine Or.inr ⟨?_, hr.ready (queue ▸ List.mem_cons_self)⟩
    exact List.count_eq_zero.mp (show rest.count .ready = 0 by omega)
  | recorded exit worker => exact Or.inl nofun
  | _ => cases parked

theorem removal_works (hr : Removal s) (h : Works cfg s t) : Removal t := by
  have hsame := h.elsewhere
  have hcommands := h.commands
  constructor
  · exact h.counts hr.counts
  · rw [hsame.sender]
    exact hr.works_told h
  · rw [hsame.starter]
    exact hr.works_parked h
  · rw [hsame.starter]
    exact fun hready => hr.ready (hcommands.mem hready)
  · exact (hcommands.sublist.count_le _).trans hr.once
  · rw [hsame.sender]
    exact fun hshutdown => hr.shutdown (hcommands.mem hshutdown)
  · rw [hsame.sender, hsame.startedReceiver]
    exact hr.receiver

/-- A step that leaves the worker and its commands alone. -/
theorem Removal.same (hr : Removal s) (worker : t.worker = s.worker ∧ t.starts = s.starts ∧ t.removals = s.removals ∧
    t.startupExit = s.startupExit ∧ t.commands = s.commands) (sender : s.sender = false → t.sender = false)
    (receiver : t.startedReceiver = false → t.sender = false) (past : s.starter.past = true → t.starter.past = true) :
    Removal t := by
  obtain ⟨hworker, hstarts, hremovals, hexit, hcommands⟩ := worker
  constructor
  · rw [hworker, hstarts, hremovals]
    exact hr.counts
  · rw [hworker, hremovals, hexit]
    exact fun h => (hr.told h).imp_left sender
  · rw [hworker, hexit, hcommands]
    exact fun h => (hr.parked h).imp_right fun ⟨h1, h2⟩ => ⟨h1, past h2⟩
  · rw [hcommands]
    exact fun h => past (hr.ready h)
  · rw [hcommands]
    exact hr.once
  · rw [hcommands]
    exact fun h => sender (hr.shutdown h)
  · exact receiver

theorem removal_begins (hr : Removal s) (hj : Joining cfg s) (h : Begins cfg s t) : Removal t := by
  have hunpast : ∀ {starter}, s.starter = starter → starter.past = false → s.starter.past = true → t.starter.past = true :=
    fun h1 h2 h3 => by cases (h1 ▸ h2).symm.trans h3
  cases h with
  | spawned starter =>
    have hcounts := hr.counts
    rw [(hj.spawning starter).1] at hcounts
    refine ⟨hcounts, fun h => ?_, nofun, fun h => ?_, hr.once, hr.shutdown, hr.receiver⟩
    · exact hr.told (Or.inr (h.resolve_left nofun))
    · cases (starter ▸ hr.ready h : Starter.spawning.past = true)
  | unspawned starter => exact hr.same ⟨rfl, rfl, rfl, rfl, rfl⟩ (fun _ => rfl) (fun _ => rfl) fun _ => rfl
  | received started starter message =>
    exact hr.same ⟨rfl, rfl, rfl, rfl, rfl⟩ id hr.receiver (hunpast starter rfl)
  | gaveUp startup starter reason =>
    exact hr.same ⟨rfl, rfl, rfl, rfl, rfl⟩ (fun _ => rfl) (fun _ => rfl) (hunpast starter rfl)
  | joined startup result starter worker => exact hr.same ⟨rfl, rfl, rfl, rfl, rfl⟩ id hr.receiver fun _ => rfl
  | parsed started starter => exact hr.same ⟨rfl, rfl, rfl, rfl, rfl⟩ id hr.receiver (hunpast starter rfl)
  | unparsed started reason starter =>
    exact hr.same ⟨rfl, rfl, rfl, rfl, rfl⟩ (fun _ => rfl) (fun _ => rfl) fun _ => rfl
  | registered starter => exact hr.same ⟨rfl, rfl, rfl, rfl, rfl⟩ id hr.receiver (hunpast starter rfl)
  | ready starter => exact hr.same ⟨rfl, rfl, rfl, rfl, rfl⟩ id hr.receiver (hunpast starter rfl)
  | marked starter lock slot =>
    have hnone : .ready ∉ s.commands := fun h => by cases (starter ▸ hr.ready h : Starter.marking.past = true)
    refine ⟨hr.counts, hr.told, fun h => ?_, fun _ => rfl, ?_, fun h => ?_, hr.receiver⟩
    · obtain hexit | ⟨_, hpast⟩ := hr.parked h
      · exact Or.inl hexit
      · cases (starter ▸ hpast : Starter.marking.past = true)
    · show (s.commands ++ [ContainerCommand.ready]).count .ready ≤ 1
      rw [List.count_append, List.count_eq_zero.mpr hnone]
      exact Nat.le_refl 1
    · obtain h | h := List.mem_append.mp h
      · exact hr.shutdown h
      · cases List.mem_singleton.mp h
  | served starter => exact hr.same ⟨rfl, rfl, rfl, rfl, rfl⟩ id hr.receiver fun _ => rfl
  | failed error starter =>
    refine hr.same ⟨rfl, rfl, rfl, rfl, rfl⟩ id hr.receiver fun _ => ?_
    simp only [State.failWith]
    split <;> rfl
  | destroyed error c result starter caller kind stage => exact hr.same ⟨rfl, rfl, rfl, rfl, rfl⟩ id hr.receiver fun _ => rfl
  | dropped starter owned => exact hr.same ⟨rfl, rfl, rfl, rfl, rfl⟩ id hr.receiver id

theorem removal_calls (hr : Removal s) (h : Calls s t) : Removal t := by
  cases h with
  | takes i c caller stage lock slot =>
    have hready : .ready ∈ s.commands ++ [ContainerCommand.shutdown] → .ready ∈ s.commands := fun h => by
      obtain h | h := List.mem_append.mp h
      · exact h
      · cases List.mem_singleton.mp h
    refine ⟨hr.counts, fun _ => Or.inl rfl, fun h => ?_, fun h => hr.ready (hready h), ?_, fun _ => rfl, fun _ => rfl⟩
    · exact (hr.parked h).imp_right fun hnone => ⟨fun h => hnone.1 (hready h), hnone.2⟩
    · show (s.commands ++ [ContainerCommand.shutdown]).count .ready ≤ 1
      rw [List.count_append]
      exact hr.once
  | called | exits | finds | joins | releases | abandons => exact hr.same ⟨rfl, rfl, rfl, rfl, rfl⟩ id hr.receiver id

theorem removal_step {a : Action} (hr : Removal s) (hj : Joining cfg s) (h : s.step cfg a = some t) : Removal t := by
  obtain hworks | hbegins | hcalls := step_cases h
  · exact removal_works hr hworks
  · exact removal_begins hr hj hbegins
  · exact removal_calls hr hcalls

theorem removal (hs : (machine cfg).Reachable s) : Removal s :=
  Machine.Invariant.holds (m := machine cfg)
    ⟨fun _ h => h ▸ removal_initial, fun _ _ _ hs hr h => removal_step hr (joining hs) h⟩ hs

/-- The engine is asked to start one container at most and to remove none that it has not started. A worker that has ended
without a panic has asked for both or for neither; and it does not ask for the removal while the owner has it,
unless it saw the container stopped before the server was ready. -/
theorem container_removed_once (hs : (machine cfg).Reachable s) :
    s.removals ≤ s.starts ∧ s.starts ≤ 1 ∧
      (∀ result, s.worker = .ended (.returned result) → s.removals = s.starts) ∧
      (s.slot = true → s.startupExit = none → s.worker ≠ .removing ∧ s.removals = 0) := by
  have hr := removal hs
  have hcounts := hr.counts
  refine ⟨?_, ?_, fun result h => ?_, fun hslot hexit => ?_⟩
  · cases hworker : s.worker with
    | ended result =>
      rw [hworker] at hcounts
      cases result with
      | returned result => exact Nat.le_of_eq hcounts.2
      | panicked => exact hcounts.2 ▸ Nat.zero_le _
    | _ =>
      rw [hworker] at hcounts
      exact hcounts.2 ▸ Nat.zero_le _
  · cases hworker : s.worker with
    | ended result =>
      rw [hworker] at hcounts
      cases result with
      | returned result => exact hcounts.1
      | panicked => exact hcounts.1
    | absent | starting | refusing =>
      rw [hworker] at hcounts
      exact hcounts.1 ▸ Nat.zero_le 1
    | _ =>
      rw [hworker] at hcounts
      exact Nat.le_of_eq hcounts.1
  · rw [h] at hcounts
    exact hcounts.2
  · have hcreated : s.created = true := by
      by_contra h
      cases hslot.symm.trans ((staged hs).uncreated (Bool.eq_false_iff.mpr h)).1
    have hnot : ¬ (s.worker = .removing ∨ 0 < s.removals) := fun h => by
      obtain hsender | hsome := hr.told h
      · cases hslot.symm.trans (((staged hs).sender hcreated).symm.trans hsender)
      · exact hsome hexit
    exact ⟨fun h => hnot (Or.inl h), Nat.eq_zero_of_not_pos fun h => hnot (Or.inr h)⟩

theorem container_removed_once_shutdown : ∃ s, (machine exampleConfig).run .initial concurrentShutdowns = some s ∧
    s.starts = 1 ∧ s.removals = 1 := by
  refine ⟨_, rfl, rfl, ?_⟩
  have h := container_removed_once (Machine.reachable_of_run (m := machine exampleConfig) concurrentShutdowns rfl rfl)
  exact h.2.2.1 (.error ⟨"busy".toList⟩) rfl

end PostgresTestHarness.Container
