import PostgresTestHarness.StaleCleanup.System

/-! What a sweep drops.

Between the try of a lock and its unlock a sweep holds the key of the record at hand, and
nothing else. A record that is read again under its own key cannot change until it is
dropped, since whoever may change it holds that key: the sweep that reads it (`Steady`). So
every drop is of the database that was listed (`Justified`), and no database is dropped by
two sweeps. -/
namespace PostgresTestHarness.StaleCleanup
open SessionLock Postgres

variable {χ : Type} {s t : State χ} {i : Nat}

/-! ### Locks -/

theorem program_discipline : Discipline Program.code Program.holds := by
  intro p next h
  cases p with
  | sweep sw phase =>
    obtain ⟨next, hnext, rfl⟩ := Option.map_eq_some_iff.mp h
    exact (Code.follows_map _ _ _ _).mpr (discipline sw phase next hnext)
  | other asked =>
    obtain ⟨⟨mode, key⟩, rfl, rfl⟩ := Option.map_eq_some_iff.mp h
    exact ⟨nofun, rfl⟩

abbrev Tidy (s : State χ) : Prop := Kept Program.code Program.holds s

theorem tidy_step {a : Action} (hs : Tidy s) (h : step s a = some t) : Tidy t := by
  cases a with
  | startSweep sw =>
    cases h
    exact hs.connect _ fun l hl => (Option.some.inj hl).symm
  | startOther =>
    cases h
    exact hs.connect _ fun _ hl => by cases hl
  | advance i o => exact hs.advance program_discipline h
  | lose i => exact hs.lose h
  | ask i mode key =>
    obtain ⟨hfree, heq⟩ := Option.ite_none_right_eq_some.mp h
    cases heq
    exact hs.goto (free_cases hfree) rfl rfl rfl rfl (fun h => by cases h) fun _ hl => by cases hl
  | perform i holder stmt =>
    obtain ⟨hboth, heq⟩ := Option.ite_none_right_eq_some.mp h
    obtain ⟨⟨server, answer⟩, hrun, heq⟩ := Option.map_eq_some_iff.mp heq
    cases heq
    have hc := free_cases (Bool.and_eq_true_iff.mp hboth).1
    have hframe := Server.execute_lockFrame hrun
    refine hs.step hc (d := ⟨.other none, false, true⟩) ?_ (hframe.compatible hs.compatible)
      (fun j hj => ⟨hframe.others j hj, hframe.requested j⟩) (fun h => by cases h) ?_ (fun _ _ hl => by cases hl)
    · obtain ⟨hi, heq⟩ := List.getElem?_eq_some_iff.mp hc
      rw [← heq, List.set_getElem_self]
    · rw [hframe.requested, hs.requested i _ hc]

theorem tidy_initial (h : Initial s) : Tidy s := .initial h.locks h.clients

theorem tidy (hs : (machine χ).Reachable s) : Tidy s :=
  Machine.Invariant.holds (m := machine χ) ⟨fun _ => tidy_initial, fun _ _ _ _ => tidy_step⟩ hs

/-- A session that runs a sweep. -/
def State.sweeps (s : State χ) (i : Nat) (c : Client Program) (sw : Sweep) (phase : Phase) : Prop :=
  s.clients[i]? = some c ∧ c.program = .sweep sw phase

/-- The sweeps after a step: a new one, the one that had its turn, or one that was there, with
its session or without. -/
theorem sweeps_cases {actor : Option Nat} (h : Transition s t actor) {j : Nat} {d : Client Program} {sw : Sweep}
    {phase : Phase} (hd : t.sweeps j d sw phase) :
    (phase = .listing ∧ j = s.clients.length) ∨
    (∃ c before, s.sweeps j c sw before ∧ d.connected = c.connected ∧
      Turn sw j c.connected s.server before t.server phase) ∨
    ∃ c, s.sweeps j c sw phase ∧ (d.connected = true → c.connected = true) ∧
      (actor ≠ some j ∨ t.server.databases = s.server.databases ∧ t.server.drops = s.server.drops) := by
  obtain ⟨hj, hprogram⟩ := hd
  cases h with
  | connected hp ht =>
    rw [ht] at hj
    rcases Ledger.getElem?_concat_cases hj with ⟨rfl, rfl⟩ | hj
    · rcases hp with ⟨sw', hp⟩ | hp
      · cases hprogram.symm.trans hp
        exact Or.inl ⟨rfl, rfl⟩
      · cases hprogram.symm.trans hp
    · exact Or.inr (Or.inr ⟨d, ⟨hj, hprogram⟩, id, Or.inl nofun⟩)
  | @turned i _ _ _ _ hc hc' hturn hclients =>
    rw [hclients] at hj
    rcases Ledger.getElem?_set_cases hj with ⟨rfl, rfl⟩ | ⟨hji, hj⟩
    · cases hprogram
      exact Or.inr (Or.inl ⟨_, _, ⟨hc, hc'⟩, rfl, hturn⟩)
    · exact Or.inr (Or.inr ⟨d, ⟨hj, hprogram⟩, id, Or.inl fun h => hji (Option.some.inj h).symm⟩)
  | otherLocks hc hc' hd' hclients =>
    rw [hclients] at hj
    rcases Ledger.getElem?_set_cases hj with ⟨rfl, rfl⟩ | ⟨hji, hj⟩
    · cases hprogram.symm.trans hd'
    · exact Or.inr (Or.inr ⟨d, ⟨hj, hprogram⟩, id, Or.inl fun h => hji (Option.some.inj h).symm⟩)
  | @performed i _ _ _ _ _ c hc hc' _ _ hclients =>
    rw [hclients] at hj
    refine Or.inr (Or.inr ⟨d, ⟨hj, hprogram⟩, id, Or.inl fun h => ?_⟩)
    rw [← Option.some.inj h, hc, Option.some.injEq] at hj
    cases (hj ▸ hc').symm.trans hprogram
  | lost hc hserver hclients =>
    have hsame : t.server.databases = s.server.databases ∧ t.server.drops = s.server.drops := by
      rw [hserver]
      exact ⟨rfl, rfl⟩
    rw [hclients] at hj
    rcases Ledger.getElem?_set_cases hj with ⟨rfl, rfl⟩ | ⟨_, hj⟩
    · exact Or.inr (Or.inr ⟨_, ⟨hc, hprogram⟩, nofun, Or.inr hsame⟩)
    · exact Or.inr (Or.inr ⟨d, ⟨hj, hprogram⟩, id, Or.inr hsame⟩)

/-- A sweep that holds a key is the only one that does. -/
theorem Tidy.alone (hs : Tidy s) {c : Client Program} {sw : Sweep} {phase : Phase} {key : Int64}
    (hc : s.sweeps i c sw phase) (hconnected : c.connected = true)
    (hphase : holds phase = some [(key, .exclusive)]) :
    (⟨i, key, .exclusive⟩ : Lock Nat Int64) ∈ s.server.locks.held ∧
      ∀ lock ∈ s.server.locks.held, lock.key = key → lock.session = i := by
  have hheld := hs.held i c [(key, .exclusive)] hc.1 hconnected (by rw [hc.2]; exact hphase)
  have hmem : (⟨i, key, .exclusive⟩ : Lock Nat Int64) ∈ s.server.locks.heldBy i := by
    rw [hheld]
    exact List.mem_singleton_self _
  have hlock := (Table.mem_heldBy.mp hmem).1
  exact ⟨hlock, fun lock hlock' hkey => hs.compatible.alone hlock hlock' hkey rfl⟩

/-! ### The record at hand -/

/-- The record at hand is a candidate for its key. -/
def Phase.Grounded (sw : Sweep) : Phase → Prop
  | .locking record key _ _ | .finding record key _ _ =>
    ∃ name, classifyCleanupRecord sw record = .candidate name key
  | .dropping record key name _ _ => classifyCleanupRecord sw record = .candidate name key
  | _ => True

theorem Turn.grounded {sw : Sweep} {connected : Bool} {server after : Server χ} {phase next : Phase}
    (h : Turn sw i connected server phase after next) (hs : phase.Grounded sw) : next.Grounded sw := by
  cases h with
  | @scanned record rest report =>
    rw [scan]
    split
    · trivial
    · trivial
    · trivial
    · rename_i name key hclass
      exact ⟨name, hclass⟩
  | acquired => exact hs
  | @found record key rest report =>
    rw [revalidated]
    split
    · rename_i name _ hname
      exact (revalidate_eq_some hname).2.1
    · trivial
  | @unlocked key result rest report =>
    rcases result with _ | _ | _ <;> trivial
  | _ => trivial

def Grounded (s : State χ) : Prop := ∀ i c sw phase, s.sweeps i c sw phase → phase.Grounded sw

/-- There is no sweep at the start. -/
theorem not_sweeps_initial (h : Initial s) {c : Client Program} {sw : Sweep} {phase : Phase} :
    ¬ s.sweeps i c sw phase := by
  intro hparts
  obtain ⟨hc, _⟩ := hparts
  rw [h.clients] at hc
  cases hc

theorem grounded (hs : (machine χ).Reachable s) : Grounded s := by
  refine Machine.Invariant.holds (m := machine χ) ⟨?_, ?_⟩ hs
  · intro s h i c sw phase hc
    exact (not_sweeps_initial h hc).elim
  · intro s a t _ ih h i c sw phase hc
    obtain ⟨actor, htransition⟩ := step_transition h
    rcases sweeps_cases htransition hc with ⟨rfl, _⟩ | ⟨_, _, hbefore, _, hturn⟩ | ⟨_, hbefore, _⟩
    · trivial
    · exact hturn.grounded (ih i _ sw _ hbefore)
    · exact ih i _ sw phase hbefore

/-- What is about to be dropped is what was listed. -/
def Steady (s : State χ) : Prop :=
  ∀ i c sw record key name rest report, s.sweeps i c sw (.dropping record key name rest report) →
    c.connected = true → (s.server.find record.name).map (Server.record record.name) = some record

/-- What a sweep drops stands for its key. -/
theorem metadata_of_dropping (hg : Grounded s) (hs : Steady s) {c : Client Program} {sw : Sweep}
    {record : DatabaseRecord} {key : Int64} {name : DatabaseName} {rest : List DatabaseRecord} {report : CleanupReport}
    (hc : s.sweeps i c sw (.dropping record key name rest report)) (hconnected : c.connected = true) :
    name.value = record.name ∧ ∃ metadata, s.metadata record.name = some metadata ∧ metadata.lockKey = key := by
  obtain ⟨metadata, hcandidate, hkey⟩ := classify_eq_candidate.mp (hg i c sw _ hc)
  obtain ⟨db, hdb, hrecord⟩ := Option.map_eq_some_iff.mp (hs i c sw _ _ _ _ _ hc hconnected)
  refine ⟨(DatabaseName.fromExisting_eq_some.mp hcandidate.managed).1, metadata, ?_, hkey⟩
  rw [State.metadata, hdb, Option.bind_some, show db.comment = record.comment from congrArg (·.comment) hrecord]
  exact hcandidate.parses

/-- The database of a record that is about to be dropped is changed by nobody else. -/
theorem find_unchanged (ht : Tidy s) (hg : Grounded s) (hs : Steady s) {actor : Option Nat}
    (h : Transition s t actor) {c : Client Program} {sw : Sweep} {record : DatabaseRecord} {key : Int64}
    {name : DatabaseName} {rest : List DatabaseRecord} {report : CleanupReport}
    (hc : s.sweeps i c sw (.dropping record key name rest report)) (hconnected : c.connected = true)
    (hactor : actor ≠ some i) : t.server.find record.name = s.server.find record.name := by
  obtain ⟨_, halone⟩ := ht.alone hc hconnected rfl
  obtain ⟨_, metadata, hmetadata, hkey⟩ := metadata_of_dropping hg hs hc hconnected
  cases h with
  | connected _ ht => rw [ht]; rfl
  | @turned j sw' before after d hd hprogram hturn _ =>
    -- another sweep drops under another key, so its record has another name
    have hdrop : ∀ {record' key' name' rest' report'}, before = .dropping record' key' name' rest' report' →
        d.connected = true → (s.server.dropDatabase j name'.value).find record.name = s.server.find record.name := by
      intro record' key' name' rest' report' hbefore hconnected'
      have hd' : s.sweeps j d sw' (.dropping record' key' name' rest' report') := ⟨hd, hbefore ▸ hprogram⟩
      obtain ⟨hvalue, metadata', hmetadata', hkey'⟩ := metadata_of_dropping hg hs hd' hconnected'
      refine (Server.find_drop _ _).trans (if_neg fun heq => hactor (congrArg some ?_))
      rw [← hvalue, ← heq, hmetadata, Option.some.injEq] at hmetadata'
      have hsamekey : key' = key := by rw [← hkey', ← hmetadata', hkey]
      exact halone _ (ht.alone hd' hconnected' rfl).1 hsamekey
    generalize hserver : t.server = server at hturn
    cases hturn with
    | dropped hconnected' => exact hdrop rfl hconnected'
    | droppedUnseen hconnected' => exact hdrop rfl hconnected'
    | lockFailed hdatabases => rw [Server.find, hdatabases, Server.find]
    | unlockFailed hdatabases => rw [Server.find, hdatabases, Server.find]
    | _ => rfl
  | otherLocks _ _ _ _ hdatabases => rw [Server.find, hdatabases, Server.find]
  | @performed j holder _ stmt _ asked d hd hprogram hentitled hrun _ =>
    refine Server.execute_find hrun fun htarget => ?_
    have hentitled := hentitled record.name htarget
    rw [State.entitled, hmetadata, Bool.and_eq_true, List.any_eq_true] at hentitled
    obtain ⟨hother, lock, hmem, hboth⟩ := hentitled
    rw [Bool.and_eq_true, beq_iff_eq, beq_iff_eq] at hboth
    -- the session that stands for the change would be the sweep
    have hholder : holder = i := hboth.1.symm.trans (halone lock hmem (hboth.2.trans hkey))
    rw [State.other, hholder, hc.1] at hother
    obtain ⟨program, waiting, connected⟩ := c
    cases hc.2
    cases hother
  | lost _ hserver _ => rw [hserver]; rfl

theorem steady (hs : (machine χ).Reachable s) : Steady s := by
  refine Machine.Invariant.holds (m := machine χ) ⟨?_, ?_⟩ hs
  · intro s h i c sw record key name rest report hc
    exact (not_sweeps_initial h hc).elim
  · intro s a t hr ih h i d sw record key name rest report hd hconnected
    obtain ⟨actor, htransition⟩ := step_transition h
    rcases sweeps_cases htransition hd with ⟨hphase, _⟩ | ⟨c, before, hbefore, _, hturn⟩ |
      ⟨c, hbefore, hconnected', hsame⟩
    · cases hphase
    · -- it has just read the record again
      generalize hafter : Phase.dropping record key name rest report = after at hturn
      generalize t.server = server at hturn ⊢
      cases hturn with
      | @found record' key' rest' report' hconnected' =>
        rw [revalidated] at hafter
        split at hafter
        · rename_i hname
          cases hafter
          exact (revalidate_eq_some hname).1
        · cases hafter
      | @scanned record' rest' report' =>
        rw [scan] at hafter
        split at hafter <;> cases hafter
      | @unlocked key' result rest' report' =>
        rcases result with _ | _ | _ <;> cases hafter
      | _ => cases hafter
    · have hcurrent := ih i c sw record key name rest report hbefore (hconnected' hconnected)
      rw [← hcurrent]
      rcases hsame with hactor | ⟨hdatabases, _⟩
      · rw [find_unchanged (tidy hr) (grounded hr) ih htransition hbefore (hconnected' hconnected) hactor]
      · rw [Server.find, hdatabases, Server.find]

end PostgresTestHarness.StaleCleanup
