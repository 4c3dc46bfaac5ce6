import PostgresTestHarness.StaleCleanup.Safety

/-! What a sweep reports.

A sweep goes through the records it has listed, in their order, and counts each of them once
at most (`Onward`). The databases it says it dropped are those it dropped: the server's log
has an entry for each, and each removed a database (`Logged`). -/
namespace PostgresTestHarness.StaleCleanup
open SessionLock Postgres

variable {χ : Type} {s t : State χ} {i : Nat}

/-! ### Counters -/

/-- The records that a sweep is not done with. -/
def Phase.ahead : Phase → List DatabaseRecord
  | .scanning records _ => records
  | .locking record _ rest _ | .finding record _ rest _ | .dropping record _ _ rest _ => record :: rest
  | .unlocking _ _ rest _ => rest
  | .listing | .finished _ => []

/-- What the counters can come to: what they say, and each record that may still be counted. -/
def Phase.bound : Phase → Nat
  | .listing => 0
  | .scanning records report => report.total + records.length
  | .locking _ _ rest report | .finding _ _ rest report | .dropping _ _ _ rest report => report.total + (rest.length + 1)
  | .unlocking _ (some (some _)) rest report => report.total + (rest.length + 1)
  | .unlocking _ _ rest report => report.total + rest.length
  | .finished (some report) => report.total
  | .finished none => 0

/-- The databases of a kind that a sweep has dropped, where it goes on without an error. -/
def Phase.dropped (kind : DatabaseKind) : Phase → Option Nat
  | .listing => some 0
  | .scanning _ report | .locking _ _ _ report | .finding _ _ _ report | .dropping _ _ _ _ report =>
    some (report.dropped kind)
  | .unlocking _ none _ _ => none
  | .unlocking _ (some none) _ report => some (report.dropped kind)
  | .unlocking _ (some (some dropped)) _ report => some (report.dropped kind + if dropped = kind then 1 else 0)
  | .finished result => result.map (·.dropped kind)

theorem CleanupReport.total_drop (r : CleanupReport) (kind : DatabaseKind) : (r.drop kind).total = r.total + 1 := by
  cases kind
  · simp only [total, totalDropped, drop]
    omega
  · simp only [total, totalDropped, drop]
    omega

theorem CleanupReport.dropped_drop (r : CleanupReport) (dropped kind : DatabaseKind) :
    (r.drop dropped).dropped kind = r.dropped kind + if dropped = kind then 1 else 0 := by
  cases dropped <;> cases kind <;> rfl

theorem CleanupReport.total_skip (r : CleanupReport) :
    r.skipUnrecognized.total = r.total + 1 ∧ r.skipFresh.total = r.total + 1 ∧ r.skipActive.total = r.total + 1 := by
  refine ⟨rfl, ?_, ?_⟩
  · simp only [total, totalDropped, skipFresh]
    omega
  · simp only [total, totalDropped, skipActive]
    omega

/-- How a sweep that has listed its records goes on. -/
structure Onward (before after : Phase) : Prop where
  listed : after ≠ .listing
  ahead : after.ahead <:+ before.ahead
  bound : after.bound ≤ before.bound

theorem Onward.refl {phase : Phase} (h : phase ≠ .listing) : Onward phase phase :=
  ⟨h, List.suffix_refl _, Nat.le_refl _⟩

theorem Onward.trans {a b c : Phase} (hab : Onward a b) (hbc : Onward b c) : Onward a c :=
  ⟨hbc.listed, hbc.ahead.trans hab.ahead, Nat.le_trans hbc.bound hab.bound⟩

section Turn
variable {sw : Sweep} {connected : Bool} {server after : Server χ} {phase next : Phase}

theorem Turn.onward (h : Turn sw i connected server phase after next) (hlisted : phase ≠ .listing) :
    Onward phase next := by
  cases h with
  | listed => exact (hlisted rfl).elim
  | listFailed => exact (hlisted rfl).elim
  | ended => exact ⟨by simp, List.suffix_refl _, Nat.le_refl _⟩
  | @scanned record rest report =>
    rw [scan]
    split
    · exact ⟨by simp, List.suffix_cons .., Nat.le_succ _⟩
    · refine ⟨by simp, List.suffix_cons .., ?_⟩
      rw [Phase.bound, report.total_skip.1, Phase.bound, List.length_cons]
      omega
    · refine ⟨by simp, List.suffix_cons .., ?_⟩
      rw [Phase.bound, report.total_skip.2.1, Phase.bound, List.length_cons]
      omega
    · exact ⟨by simp, List.suffix_refl _, Nat.le_refl _⟩
  | acquired => exact ⟨by simp, List.suffix_refl _, Nat.le_refl _⟩
  | @refused record key rest report =>
    refine ⟨by simp, List.suffix_cons .., ?_⟩
    rw [Phase.bound, report.total_skip.2.2, Phase.bound]
    omega
  | lockFailed => exact ⟨by simp, List.nil_suffix, Nat.zero_le _⟩
  | @found record key rest report =>
    rw [revalidated]
    split
    · rename_i hname
      obtain ⟨_, _, rfl⟩ := revalidate_eq_some hname
      exact ⟨by simp, List.suffix_refl _, Nat.le_refl _⟩
    · rename_i hname
      refine ⟨by simp, List.suffix_cons .., ?_⟩
      have := (revalidate_eq_none hname).1
      rw [Phase.bound, Phase.bound]
      omega
      all_goals simp
  | findFailed => exact ⟨by simp, List.suffix_cons .., Nat.le_succ _⟩
  | dropped => exact ⟨by simp, List.suffix_cons .., Nat.le_refl _⟩
  | droppedUnseen => exact ⟨by simp, List.suffix_cons .., Nat.le_succ _⟩
  | dropFailed => exact ⟨by simp, List.suffix_cons .., Nat.le_succ _⟩
  | @unlocked key result rest report =>
    rcases result with _ | _ | kind
    · exact ⟨by simp [StaleCleanup.unlocked], List.nil_suffix, Nat.zero_le _⟩
    · exact ⟨by simp [StaleCleanup.unlocked], List.suffix_refl _, Nat.le_refl _⟩
    · refine ⟨by simp [StaleCleanup.unlocked], List.suffix_refl _, ?_⟩
      rw [StaleCleanup.unlocked, Phase.bound, report.total_drop, Phase.bound]
      omega
  | unlockFailed => exact ⟨by simp, List.nil_suffix, Nat.zero_le _⟩

/-- What a turn adds to the log of drops, and to the counters. -/
theorem Turn.logged (h : Turn sw i connected server phase after next) :
    (after.drops = server.drops ∧ ∀ kind n, next.dropped kind = some n → phase.dropped kind = some n) ∨
    ∃ record key name rest report, phase = .dropping record key name rest report ∧ connected = true ∧
      after.drops = ⟨i, name.value, (server.find name.value).map (·.oid)⟩ :: server.drops ∧
      ∀ kind n, next.dropped kind = some n →
        (phase.dropped kind).map (· + if name.kind = kind then 1 else 0) = some n := by
  cases h with
  | listed =>
    refine Or.inl ⟨rfl, fun kind n hn => ?_⟩
    cases kind <;> exact hn
  | listFailed => exact Or.inl ⟨rfl, by simp [Phase.dropped]⟩
  | ended => exact Or.inl ⟨rfl, fun _ _ h => h⟩
  | @scanned record rest report =>
    refine Or.inl ⟨rfl, fun kind n hn => ?_⟩
    rw [scan] at hn
    split at hn
    · exact hn
    · rwa [Phase.dropped, (report.dropped_skip kind).1] at hn
    · rwa [Phase.dropped, (report.dropped_skip kind).2.1] at hn
    · exact hn
  | acquired => exact Or.inl ⟨rfl, fun _ _ h => h⟩
  | @refused record key rest report =>
    refine Or.inl ⟨rfl, fun kind n hn => ?_⟩
    rwa [Phase.dropped, (report.dropped_skip kind).2.2] at hn
  | lockFailed _ hdrops => exact Or.inl ⟨hdrops, by simp [Phase.dropped]⟩
  | @found record key rest report =>
    refine Or.inl ⟨rfl, fun kind n hn => ?_⟩
    rw [revalidated] at hn
    split at hn
    · rename_i hname
      obtain ⟨_, _, rfl⟩ := revalidate_eq_some hname
      exact hn
    · rename_i hname
      rw [Phase.dropped, (revalidate_eq_none hname).2] at hn
      exact hn
  | findFailed => exact Or.inl ⟨rfl, by simp [Phase.dropped]⟩
  | dropped hconnected => exact Or.inr ⟨_, _, _, _, _, rfl, hconnected, rfl, fun _ _ h => h⟩
  | droppedUnseen hconnected => exact Or.inr ⟨_, _, _, _, _, rfl, hconnected, rfl, by simp [Phase.dropped]⟩
  | dropFailed => exact Or.inl ⟨rfl, by simp [Phase.dropped]⟩
  | @unlocked key result rest report =>
    refine Or.inl ⟨rfl, fun kind n hn => ?_⟩
    rcases result with _ | _ | dropped
    · cases hn
    · exact hn
    · rw [StaleCleanup.unlocked, Phase.dropped, report.dropped_drop] at hn
      exact hn
  | unlockFailed _ hdrops => exact Or.inl ⟨hdrops, by simp [Phase.dropped]⟩

end Turn

/-- A sweep stays where it is while others act, or has its turn. -/
theorem sweeps_next {actor : Option Nat} (h : Transition s t actor) {c : Client Program} {sw : Sweep} {phase : Phase}
    (hc : s.sweeps i c sw phase) : ∃ d after, t.sweeps i d sw after ∧
      (after = phase ∧ (actor ≠ some i ∨ t.server.drops = s.server.drops) ∨
        Turn sw i c.connected s.server phase t.server after) := by
  obtain ⟨hi, hprogram⟩ := hc
  have hlt : i < s.clients.length := (List.getElem?_eq_some_iff.mp hi).1
  cases h with
  | connected _ ht =>
    refine ⟨c, phase, ⟨?_, hprogram⟩, Or.inl ⟨rfl, Or.inl nofun⟩⟩
    rw [ht, System.connect, List.getElem?_append_left hlt]
    exact hi
  | @turned j sw' before after d hd hd' hturn hclients =>
    by_cases hji : j = i
    · subst hji
      rw [hi, Option.some.injEq] at hd
      subst hd
      cases hprogram.symm.trans hd'
      exact ⟨_, after, ⟨by rw [hclients, List.getElem?_set_self hlt], rfl⟩, Or.inr hturn⟩
    · refine ⟨c, phase, ⟨?_, hprogram⟩, Or.inl ⟨rfl, Or.inl fun h => hji (Option.some.inj h)⟩⟩
      rw [hclients, List.getElem?_set_ne hji]
      exact hi
  | @otherLocks j d _ _ _ hd hd' _ hclients =>
    have hji : j ≠ i := fun hji => by
      rw [hji, hi, Option.some.injEq] at hd
      cases (hd ▸ hprogram).symm.trans hd'
    refine ⟨c, phase, ⟨?_, hprogram⟩, Or.inl ⟨rfl, Or.inl fun h => hji (Option.some.inj h)⟩⟩
    rw [hclients, List.getElem?_set_ne hji]
    exact hi
  | @performed j _ _ _ _ _ d hd hd' _ _ hclients =>
    refine ⟨c, phase, ⟨by rw [hclients]; exact hi, hprogram⟩, Or.inl ⟨rfl, Or.inl fun h => ?_⟩⟩
    rw [Option.some.inj h, hi, Option.some.injEq] at hd
    cases (hd ▸ hprogram).symm.trans hd'
  | @lost j d hd hserver hclients =>
    have hdrops : t.server.drops = s.server.drops := by rw [hserver]
    by_cases hji : j = i
    · subst hji
      rw [hi, Option.some.injEq] at hd
      subst hd
      exact ⟨{ c with connected := false, waiting := false }, phase,
        ⟨by rw [hclients, List.getElem?_set_self hlt], hprogram⟩, Or.inl ⟨rfl, Or.inr hdrops⟩⟩
    · refine ⟨c, phase, ⟨?_, hprogram⟩, Or.inl ⟨rfl, Or.inr hdrops⟩⟩
      rw [hclients, List.getElem?_set_ne hji]
      exact hi

/-- Over any run. -/
theorem onward (hs : (machine χ).Reachable s) {actions : List Action} (h : (machine χ).run s actions = some t)
    {c : Client Program} {sw : Sweep} {phase : Phase} (hc : s.sweeps i c sw phase) (hlisted : phase ≠ .listing) :
    ∃ d after, t.sweeps i d sw after ∧ Onward phase after := by
  refine Machine.Reachable.run_related (m := machine χ)
    (R := fun _ t => ∃ d after, t.sweeps i d sw after ∧ Onward phase after) hs
    ⟨c, phase, hc, .refl hlisted⟩ (fun u a v _ ih hstep => ?_) h
  obtain ⟨d, after, hd, honward⟩ := ih
  obtain ⟨actor, htransition⟩ := step_transition hstep
  obtain ⟨e, next, he, ⟨rfl, _⟩ | hturn⟩ := sweeps_next htransition hd
  · exact ⟨e, next, he, honward⟩
  · exact ⟨e, next, he, honward.trans (hturn.onward honward.listed)⟩

/-! ### The log -/

/-- The drops of one session. -/
def dropsOf (s : State χ) (i : Nat) : List Dropped := s.server.drops.filter (·.session == i)

/-- The kind of a database that was dropped, by its name. -/
def Sweep.kindOf (sw : Sweep) (entry : Dropped) : Option DatabaseKind :=
  (DatabaseName.fromExisting sw.project entry.name).map (·.kind)

/-- Drops of one of two kinds. -/
theorem length_of_kinds {sw : Sweep} {drops : List Dropped} (h : ∀ entry ∈ drops, (sw.kindOf entry).isSome = true) :
    drops.length = drops.countP (sw.kindOf · == some .test) + drops.countP (sw.kindOf · == some .template) := by
  induction drops with
  | nil => rfl
  | cons entry drops ih =>
    have hrest := ih fun other hother => h other (List.mem_cons_of_mem _ hother)
    obtain ⟨kind, hkind⟩ := Option.isSome_iff_exists.mp (h entry List.mem_cons_self)
    rw [List.length_cons, List.countP_cons, List.countP_cons, hkind, hrest]
    cases kind with
    | test => exact Nat.add_right_comm _ _ 1
    | template => rfl

/-- What the log has of the sweeps. -/
structure Logged (s : State χ) : Prop where
  known : ∀ entry ∈ s.server.drops, entry.session < s.clients.length
  removed : ∀ entry ∈ s.server.drops, ∀ c sw phase, s.sweeps entry.session c sw phase →
    entry.removed.isSome = true ∧ (sw.kindOf entry).isSome = true
  counted : ∀ i c sw phase kind n, s.sweeps i c sw phase → phase.dropped kind = some n →
    (dropsOf s i).countP (sw.kindOf · == some kind) = n

/-- What a sweep is about to drop has its kind in its name. -/
theorem kindOf_dropping (hg : Grounded s) {c : Client Program} {sw : Sweep} {record : DatabaseRecord} {key : Int64}
    {name : DatabaseName} {rest : List DatabaseRecord} {report : CleanupReport}
    (hc : s.sweeps i c sw (.dropping record key name rest report)) (j : Nat) (oid : Option Nat) :
    sw.kindOf ⟨j, name.value, oid⟩ = some name.kind := by
  obtain ⟨metadata, hcandidate, _⟩ := classify_eq_candidate.mp (hg i c sw _ hc)
  rw [Sweep.kindOf, (DatabaseName.fromExisting_eq_some.mp hcandidate.managed).1, hcandidate.managed, Option.map_some]

/-- A new entry of the log is the actor's. -/
theorem drops_cases {actor : Option Nat} (h : Transition s t actor) :
    t.server.drops = s.server.drops ∨ ∃ j name, actor = some j ∧ j < s.clients.length ∧
      t.server.drops = ⟨j, name, (s.server.find name).map (·.oid)⟩ :: s.server.drops := by
  cases h with
  | connected _ ht => exact Or.inl (by rw [ht]; rfl)
  | turned hc _ hturn _ =>
    rcases hturn.logged with ⟨hdrops, _⟩ | ⟨_, _, name, _, _, _, _, hdrops, _⟩
    · exact Or.inl hdrops
    · exact Or.inr ⟨_, _, rfl, (List.getElem?_eq_some_iff.mp hc).1, hdrops⟩
  | otherLocks _ _ _ _ _ _ hdrops => exact Or.inl hdrops
  | performed _ hc _ _ hrun _ =>
    rcases Server.execute_drops hrun with hdrops | ⟨name, hdrops⟩
    · exact Or.inl hdrops
    · exact Or.inr ⟨_, _, rfl, (List.getElem?_eq_some_iff.mp hc).1, hdrops⟩
  | lost _ hserver _ => exact Or.inl (by rw [hserver])

theorem clients_length {actor : Option Nat} (h : Transition s t actor) : s.clients.length ≤ t.clients.length := by
  cases h with
  | connected _ ht => rw [ht, System.connect, List.length_append]; exact Nat.le_add_right _ _
  | turned _ _ _ hclients => rw [hclients, List.length_set]
  | otherLocks _ _ _ hclients => rw [hclients, List.length_set]
  | performed _ _ _ _ _ hclients => rw [hclients]
  | lost _ _ hclients => rw [hclients, List.length_set]

theorem logged_initial (h : Initial s) : Logged s := by
  refine ⟨fun entry hentry => ?_, fun entry hentry => ?_, fun i c sw phase kind n hc => (not_sweeps_initial h hc).elim⟩
  all_goals
    rw [h.drops] at hentry
    cases hentry

theorem logged_step (hs : Steady s) (hg : Grounded s) {actor : Option Nat} (ih : Logged s)
    (h : Transition s t actor) : Logged t := by
  have hlength := clients_length h
  refine ⟨fun entry hentry => ?_, fun entry hentry d sw phase hd => ?_, fun j d sw phase kind n hd hn => ?_⟩
  · rcases drops_cases h with hdrops | ⟨j, name, _, hj, hdrops⟩
    · exact Nat.lt_of_lt_of_le (ih.known entry (hdrops ▸ hentry)) hlength
    · rw [hdrops, List.mem_cons] at hentry
      rcases hentry with rfl | hentry
      · exact Nat.lt_of_lt_of_le hj hlength
      · exact Nat.lt_of_lt_of_le (ih.known entry hentry) hlength
  · -- an entry that was there is a sweep's that was there
    have hold : entry ∈ s.server.drops → entry.removed.isSome = true ∧ (sw.kindOf entry).isSome = true := by
      intro hentry
      rcases sweeps_cases h hd with ⟨_, hnew⟩ | ⟨c, before, hbefore, _⟩ | ⟨c, hbefore, _⟩
      · exact absurd (ih.known entry hentry) (by rw [hnew]; exact Nat.lt_irrefl _)
      · exact ih.removed entry hentry c sw before hbefore
      · exact ih.removed entry hentry c sw phase hbefore
    rcases drops_cases h with hdrops | ⟨j, name, hactor, hj, hdrops⟩
    · exact hold (hdrops ▸ hentry)
    · rw [hdrops, List.mem_cons] at hentry
      rcases hentry with rfl | hentry
      · rcases sweeps_cases h hd with ⟨_, hnew⟩ | ⟨c, before, hbefore, _, hturn⟩ | ⟨_, _, _, hne | ⟨_, hsame⟩⟩
        · exact absurd hj (Nat.not_lt_of_ge (Nat.le_of_eq hnew.symm))
        · rcases hturn.logged with ⟨hsame, _⟩ | ⟨record, key, name', rest, report, rfl, hconnected, hdrops', _⟩
          · exact absurd (hsame.symm.trans hdrops) (List.ne_cons_self)
          · obtain ⟨hvalue, _⟩ := metadata_of_dropping hg hs hbefore hconnected
            obtain ⟨db, hdb, _⟩ := Option.map_eq_some_iff.mp (hs _ c sw _ _ _ _ _ hbefore hconnected)
            rw [(List.cons.inj (hdrops.symm.trans hdrops')).1, kindOf_dropping hg hbefore, hvalue, hdb]
            exact ⟨rfl, rfl⟩
        · exact absurd hactor hne
        · exact absurd (hsame.symm.trans hdrops) (List.ne_cons_self)
      · exact hold hentry
  · have hothers : ∀ {k : Nat} {name : Text} {oid : Option Nat}, k ≠ j →
        t.server.drops = ⟨k, name, oid⟩ :: s.server.drops → dropsOf t j = dropsOf s j := by
      intro k name oid hk hdrops
      rw [dropsOf, dropsOf, hdrops, List.filter_cons, if_neg]
      exact fun heq => hk (beq_iff_eq.mp heq)
    rcases sweeps_cases h hd with ⟨rfl, hnew⟩ | ⟨c, before, hbefore, _, hturn⟩ | ⟨c, hbefore, _, hsame⟩
    · have hnone : dropsOf s j = [] := by
        refine List.filter_eq_nil_iff.mpr fun entry hentry heq => ?_
        rw [beq_iff_eq, hnew] at heq
        exact absurd (ih.known entry hentry) (by rw [heq]; exact Nat.lt_irrefl _)
      cases hn
      rcases drops_cases h with hdrops | ⟨k, name, _, hk, hdrops⟩
      · rw [dropsOf, hdrops, ← dropsOf, hnone]
        rfl
      · rw [hothers (by rw [hnew]; exact Nat.ne_of_lt hk) hdrops, hnone]
        rfl
    · rcases hturn.logged with ⟨hdrops, hdropped⟩ | ⟨_, _, name, _, _, rfl, _, hdrops, hdropped⟩
      · rw [dropsOf, hdrops]
        exact ih.counted j c sw before kind n hbefore (hdropped kind n hn)
      · have hkind := kindOf_dropping hg hbefore j ((s.server.find name.value).map (·.oid))
        obtain ⟨m, hm, rfl⟩ := Option.map_eq_some_iff.mp (hdropped kind n hn)
        rw [dropsOf, hdrops, List.filter_cons, if_pos (beq_self_eq_true _), List.countP_cons,
          hkind, ← dropsOf, ih.counted j c sw _ kind m hbefore hm]
        simp only [beq_iff_eq, Option.some.injEq]
    · have hkeep : dropsOf t j = dropsOf s j := by
        rcases drops_cases h with hdrops | ⟨k, name, hactor, _, hdrops⟩
        · rw [dropsOf, hdrops, dropsOf]
        · rcases hsame with hne | ⟨_, hdrops'⟩
          · exact hothers (fun hk => hne (hactor.trans (congrArg some hk))) hdrops
          · rw [dropsOf, hdrops', dropsOf]
      rw [hkeep]
      exact ih.counted j c sw phase kind n hbefore hn

theorem logged (hs : (machine χ).Reachable s) : Logged s := by
  refine Machine.Invariant.holds (m := machine χ) ⟨fun s h => logged_initial h, fun s a t hr ih h => ?_⟩ hs
  obtain ⟨actor, htransition⟩ := step_transition h
  exact logged_step (steady hr) (grounded hr) ih htransition

theorem numbered (hs : (machine χ).Reachable s) : s.server.Numbered := by
  refine Machine.Invariant.holds (m := machine χ) (I := fun s => s.server.Numbered)
    ⟨fun s h => h.numbered, fun s a t hr ih h => ?_⟩ hs
  obtain ⟨actor, htransition⟩ := step_transition h
  cases htransition with
  | connected _ ht => rw [ht]; exact ih
  | turned _ _ hturn _ =>
    generalize t.server = server at hturn ⊢
    cases hturn with
    | acquired => exact ih.of_catalog rfl rfl rfl
    | unlocked => exact ih.of_catalog rfl rfl rfl
    | lockFailed hdatabases hdrops hnext => exact ih.of_catalog hdatabases hnext hdrops
    | unlockFailed hdatabases hdrops hnext => exact ih.of_catalog hdatabases hnext hdrops
    | dropped => exact ih.drop _
    | droppedUnseen => exact ih.drop _
    | _ => exact ih
  | otherLocks _ _ _ _ hdatabases hnext hdrops => exact ih.of_catalog hdatabases hnext hdrops
  | performed _ _ _ _ hrun _ => exact ih.execute hrun
  | lost _ hserver _ => rw [hserver]; exact ih.of_catalog rfl rfl rfl

/-! ### The sweep -/

/-- What stands behind a drop at the moment it is made: the record that was listed is read again as
it was, says that the database is an old one of the project and of this name, and its key is
the session's and nobody else's. -/
structure Justified (s : State χ) (sw : Sweep) (entry : Dropped) (record : DatabaseRecord)
    (metadata : ResourceMetadata) (name : DatabaseName) : Prop where
  target : entry.name = record.name
  candidate : Candidate sw record name metadata
  current : (s.server.find record.name).map (Server.record record.name) = some record
  held : ⟨entry.session, metadata.lockKey, .exclusive⟩ ∈ s.server.locks.held
  alone : ∀ lock ∈ s.server.locks.held, lock.key = metadata.lockKey → lock.session = entry.session

theorem drop_justified (hs : (machine χ).Reachable s) {a : Action} (h : step s a = some t) {entry : Dropped}
    (hdrops : t.server.drops = entry :: s.server.drops) {c : Client Program} {sw : Sweep} {phase : Phase}
    (hc : s.sweeps entry.session c sw phase) : ∃ record metadata name rest report,
      phase = .dropping record metadata.lockKey name rest report ∧ Justified s sw entry record metadata name := by
  obtain ⟨actor, htransition⟩ := step_transition h
  rcases drops_cases htransition with hsame | ⟨j, name, hactor, _, hdrops'⟩
  · exact absurd (hsame.symm.trans hdrops) List.ne_cons_self
  · have hentry := (List.cons.inj (hdrops.symm.trans hdrops')).1
    obtain ⟨d, after, hd, ⟨_, hne | hsame⟩ | hturn⟩ := sweeps_next htransition hc
    · exact absurd (by rw [hactor, hentry]) hne
    · exact absurd (hsame.symm.trans hdrops) List.ne_cons_self
    rcases hturn.logged with ⟨hsame, _⟩ | ⟨record, key, name', rest, report, rfl, hconnected, hdrops'', _⟩
    · exact absurd (hsame.symm.trans hdrops) List.ne_cons_self
    obtain ⟨metadata, hcandidate, rfl⟩ := classify_eq_candidate.mp (grounded hs _ c sw _ hc)
    obtain ⟨hheld, halone⟩ := (tidy hs).alone hc hconnected rfl
    refine ⟨record, metadata, name', rest, report, rfl, ?_, hcandidate, ?_, hheld, halone⟩
    · rw [(List.cons.inj (hdrops.symm.trans hdrops'')).1]
      exact (DatabaseName.fromExisting_eq_some.mp hcandidate.managed).1
    · exact steady hs _ c sw _ _ _ _ _ hc hconnected

/-- A sweep, among any other sessions: every drop is justified; between records its session has no
lock, and at a record only the record's key; of the records it listed, each adds at most one to its
counters; the databases of each kind that it reports are those it dropped; and no two sweeps work under
one key, or drop one database. -/
theorem sweep_safe (hs : (machine χ).Reachable s) :
    (∀ a t, step s a = some t → ∀ entry, t.server.drops = entry :: s.server.drops →
      ∀ c sw phase, s.sweeps entry.session c sw phase → ∃ record metadata name rest report,
        phase = .dropping record metadata.lockKey name rest report ∧ Justified s sw entry record metadata name) ∧
    (∀ i c sw phase l, s.sweeps i c sw phase → c.connected = true → holds phase = some l →
      s.server.locks.heldBy i = locksOf i l) ∧
    (∀ actions t, (machine χ).run s actions = some t → ∀ i c sw phase, s.sweeps i c sw phase → phase ≠ .listing →
      ∃ d after, t.sweeps i d sw after ∧ Onward phase after) ∧
    (∀ i c sw report, s.sweeps i c sw (.finished (some report)) →
      report.totalDropped = (dropsOf s i).length ∧
      report.droppedTestDatabases = (dropsOf s i).countP (sw.kindOf · == some .test) ∧
      report.droppedTemplates = (dropsOf s i).countP (sw.kindOf · == some .template) ∧
      ∀ entry ∈ dropsOf s i, entry.removed.isSome = true) ∧
    (∀ i j c d sw sw' phase phase' key key', s.sweeps i c sw phase → s.sweeps j d sw' phase' → i ≠ j →
      c.connected = true → d.connected = true → holds phase = some [(key, .exclusive)] →
      holds phase' = some [(key', .exclusive)] → key ≠ key') ∧
    (s.server.drops.filterMap (·.removed)).Nodup := by
  refine ⟨fun a t h entry hdrops c sw phase hc => drop_justified hs h hdrops hc,
    fun i c sw phase l hc hconnected hl => (tidy hs).held i c l hc.1 hconnected (by rw [hc.2]; exact hl),
    fun actions t h i c sw phase hc hlisted => onward hs h hc hlisted, fun i c sw report hc => ?_, ?_,
    (numbered hs).once⟩
  · have hremoved : ∀ entry ∈ dropsOf s i, entry.removed.isSome = true ∧ (sw.kindOf entry).isSome = true := by
      intro entry hentry
      obtain ⟨hmem, hsession⟩ := List.mem_filter.mp hentry
      refine (logged hs).removed entry hmem c sw (.finished (some report)) ?_
      rw [beq_iff_eq.mp hsession]
      exact hc
    have htest := (logged hs).counted i c sw _ .test _ hc rfl
    have htemplate := (logged hs).counted i c sw _ .template _ hc rfl
    refine ⟨?_, htest.symm, htemplate.symm, fun entry hentry => (hremoved entry hentry).1⟩
    rw [length_of_kinds fun entry hentry => (hremoved entry hentry).2, htest, htemplate]
    rfl
  · intro i j c d sw sw' phase phase' key key' hc hd hne hconnected hconnected' hphase hphase' heq
    obtain ⟨hlock, _⟩ := (tidy hs).alone hc hconnected hphase
    obtain ⟨_, halone⟩ := (tidy hs).alone hd hconnected' hphase'
    exact hne (halone _ hlock heq)

def sampleProject : ProjectName := ⟨"shop".toList, rejection_shop⟩

/-- A catalog with one database, which a server left behind 100 seconds after the epoch. -/
def leftover : State Unit where
  server :=
    { databases := (∅ : AList fun _ : Text => Database Unit).insert
        ("pgh_shop_test_".toList ++ List.replicate 32 '0')
        ⟨0, some (ResourceMetadata.test sampleProject 7 100).encode, true, [], ()⟩
      locks := Table.empty
      nextOid := 1
      drops := [] }
  clients := []

def sampleSweep : Sweep := ⟨sampleProject, ⟨60, 0, by decide⟩, 160⟩

theorem leftover_initial : Initial leftover := by
  have hfound : ∀ {name db}, leftover.server.find name = some db →
      name = "pgh_shop_test_".toList ++ List.replicate 32 '0' ∧ db.oid = 0 := by
    intro name db h
    rw [Server.find, leftover] at h
    by_cases hname : name = "pgh_shop_test_".toList ++ List.replicate 32 '0'
    · rw [hname, AList.lookup_insert] at h
      cases h
      exact ⟨hname, rfl⟩
    · rw [AList.lookup_insert_ne hname] at h
      cases h
  refine ⟨rfl, rfl, rfl, ⟨fun h => ?_, fun h h' _ => ?_, by simp [leftover], List.nodup_nil⟩⟩
  · rw [(hfound h).2]
    exact Nat.zero_lt_one
  · rw [(hfound h).1, (hfound h').1]

/-- A sweep that drops the database, and says so. -/
theorem sweep_safe_leftover : ∃ s : State Unit, (machine Unit).Reachable s ∧
    s.clients = [⟨.sweep sampleSweep (.finished (some { droppedTestDatabases := 1 })), false, true⟩] ∧
    (dropsOf s 0).length = 1 ∧ s.server.locks.heldBy 0 = [] := by
  have hrun : ((machine Unit).run leftover (.startSweep sampleSweep :: List.replicate 7 (.advance 0 .ok))).any
      (fun s => s.clients == [⟨.sweep sampleSweep (.finished (some { droppedTestDatabases := 1 })), false, true⟩]) =
      true := by decide +kernel
  obtain ⟨s, hs, hclients⟩ := (Option.any_eq_true _ _).mp hrun
  rw [beq_iff_eq] at hclients
  have hreachable := Machine.reachable_of_run (m := machine Unit) _ leftover_initial hs
  have hsweep : s.sweeps 0 ⟨.sweep sampleSweep (.finished (some { droppedTestDatabases := 1 })), false, true⟩
      sampleSweep (.finished (some { droppedTestDatabases := 1 })) := ⟨by rw [hclients]; rfl, rfl⟩
  obtain ⟨_, hheld, _, hreport, _⟩ := sweep_safe hreachable
  exact ⟨s, hreachable, hclients, (hreport _ _ _ _ hsweep).1.symm, hheld _ _ _ _ _ hsweep rfl rfl⟩

end PostgresTestHarness.StaleCleanup
