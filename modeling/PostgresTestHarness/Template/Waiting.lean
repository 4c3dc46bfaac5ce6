import PostgresTestHarness.Template.Retained

/-! Who waits for whom.

An attempt waits for one lock at a time: for the coordination lock with nothing in hand, for
the template's lock with at most the coordination lock (`request_cases`). So waiting leads
down: from those that wait for a coordination lock to those that have one, and from these to
sessions that do not wait. An attempt that waits for the exclusive lock has seen, under the
coordination lock, that the template is not ready; it still is not, so nobody retains it. -/
namespace PostgresTestHarness.Template
open SessionLock Postgres

variable {χ : Type} {plan : Plan χ} {s : State χ} {i j : Nat} {n : Node}

/-- What an attempt waits for, where it does. -/
inductive Asks (plan : Plan χ) (n : Node) : Phase → Int64 → Mode → Prop where
  | coordination : Asks plan n .lockCoordination (plan.request n).coordinationKey .exclusive
  | inspection (check : Check) : Asks plan n (.lockShared check) (plan.request n).lockKey .shared
  | upgrade : Asks plan n .lockExclusive (plan.request n).lockKey .exclusive

/-- What is not the coordination lock is the template's. -/
theorem Asks.key_eq {phase : Phase} {key : Int64} {mode : Mode} (h : Asks plan n phase key mode)
    (hphase : phase ≠ .lockCoordination) : key = (plan.request n).lockKey := by
  cases h with
  | coordination => exact absurd rfl hphase
  | inspection => rfl
  | upgrade => rfl

/-- Who waits is about to lock. -/
theorem Asks.acquires {phase : Phase} {key : Int64} {mode : Mode} (h : Asks plan n phase key mode) :
    phase.acquires = true := by
  cases h <;> rfl

theorem code_acquire {r : Request} {now : UInt64} {phase : Phase} {mode : Mode} {key : Int64} {ok failed : Phase}
    (h : code r now phase = some (.acquire mode key ok failed)) :
    (phase = .lockCoordination ∧ key = r.coordinationKey ∧ mode = .exclusive) ∨
    (∃ check, phase = .lockShared check ∧ key = r.lockKey ∧ mode = .shared) ∨
    (phase = .lockExclusive ∧ key = r.lockKey ∧ mode = .exclusive) := by
  cases phase with
  | lockCoordination =>
    cases h
    exact Or.inl ⟨rfl, rfl, rfl⟩
  | lockShared check =>
    cases h
    exact Or.inr (Or.inl ⟨check, rfl, rfl, rfl⟩)
  | lockExclusive =>
    cases h
    exact Or.inr (Or.inr ⟨rfl, rfl, rfl⟩)
  | _ => cases h

/-- Only attempts wait, and for what their phases say. -/
theorem request_cases (hs : Tidy plan s) {r : Lock Nat Int64} (hr : r ∈ s.server.locks.queue) :
    ∃ c n handle now phase, s.Attempts r.session c n handle now phase ∧ c.connected = true ∧ c.waiting = true ∧
      Asks plan n phase r.key r.mode := by
  have hmem : r ∈ s.server.locks.requestedBy r.session := Table.mem_requestedBy.mpr ⟨hr, rfl⟩
  cases hc : s.clients[r.session]? with
  | none =>
    rw [(hs.unknown _ hc).2] at hmem
    cases hmem
  | some c =>
    rw [hs.requested _ c hc, Client.requests] at hmem
    split at hmem
    · rename_i mode key ok failed hwaiting hcode
      have hconnected : c.connected = true := by
        by_contra hlost
        rw [(hs.lost _ c hc (Bool.not_eq_true _ ▸ hlost)).1] at hwaiting
        cases hwaiting
      cases hprogram : c.program with
      | attempt node handle now phase =>
        rw [hprogram] at hcode
        obtain ⟨next, hnext, heq⟩ := Option.map_eq_some_iff.mp hcode
        refine ⟨c, node, handle, now, phase, ⟨hc, hprogram⟩, hconnected, hwaiting, ?_⟩
        rw [List.mem_singleton.mp hmem]
        cases next with
        | acquire mode' key' ok' failed' =>
          cases heq
          rcases code_acquire hnext with ⟨rfl, rfl, rfl⟩ | ⟨check, rfl, rfl, rfl⟩ | ⟨rfl, rfl, rfl⟩
          · exact .coordination
          · exact .inspection check
          · exact .upgrade
        | _ => cases heq
      | sweep sw phase =>
        rw [hprogram] at hcode
        obtain ⟨next, hnext, heq⟩ := Option.map_eq_some_iff.mp hcode
        exfalso
        cases next with
        | acquire =>
          cases phase with
          | scanning records => cases records <;> cases hnext
          | _ => cases hnext
        | _ => cases heq
    · cases hmem

/-- Two requests on one key are both for a coordination lock, or both not. -/
theorem Asks.level {m : Node} (hn : n ∈ plan.nodes) (hm : m ∈ plan.nodes) {phase phase' : Phase} {key key' : Int64}
    {mode mode' : Mode} (h : Asks plan n phase key mode) (h' : Asks plan m phase' key' mode') (hkey : key = key') :
    phase = .lockCoordination ↔ phase' = .lockCoordination := by
  cases h with
  | coordination =>
    cases h' with
    | coordination => exact Iff.rfl
    | inspection => exact absurd hkey.symm (plan.keysApart m hm n hn)
    | upgrade => exact absurd hkey.symm (plan.keysApart m hm n hn)
  | inspection =>
    cases h' with
    | coordination => exact absurd hkey (plan.keysApart n hn m hm)
    | inspection => exact ⟨nofun, nofun⟩
    | upgrade => exact ⟨nofun, nofun⟩
  | upgrade =>
    cases h' with
    | coordination => exact absurd hkey (plan.keysApart n hn m hm)
    | inspection => exact ⟨nofun, nofun⟩
    | upgrade => exact ⟨nofun, nofun⟩

/-- What a session holds is one of the locks its phase has. -/
theorem mem_locksOf (hs : Tidy plan s) {c : Client Program} {handle : Option Nat} {now : UInt64} {phase : Phase}
    (hc : s.Attempts i c n handle now phase) (hconnected : c.connected = true) {h : Lock Nat Int64}
    (hh : h ∈ s.server.locks.held) (hsession : h.session = i) (l : List (Int64 × Mode))
    (hl : holds (plan.request n) phase = some l) : h ∈ locksOf i l := by
  rw [← hs.held i c l hc.client hconnected (by rw [hc.program]; exact hl)]
  exact Table.mem_heldBy.mpr ⟨hh, hsession⟩

/-- An attempt that waits has at most its coordination lock. -/
theorem held_of_waiting (hs : Tidy plan s) {c : Client Program} {handle : Option Nat} {now : UInt64} {phase : Phase}
    {key : Int64} {mode : Mode} (hc : s.Attempts i c n handle now phase) (hconnected : c.connected = true)
    (hasks : Asks plan n phase key mode) {h : Lock Nat Int64} (hh : h ∈ s.server.locks.held) (hsession : h.session = i) :
    h.key = (plan.request n).coordinationKey ∧ phase ≠ .lockCoordination := by
  have hheld := mem_locksOf hs hc hconnected hh hsession
  cases hasks with
  | coordination => cases hheld [] rfl
  | inspection check =>
    cases check with
    | first => cases hheld [] rfl
    | _ =>
      rw [List.mem_singleton.mp (hheld _ rfl)]
      exact ⟨rfl, nofun⟩
  | upgrade =>
    rw [List.mem_singleton.mp (hheld _ rfl)]
    exact ⟨rfl, nofun⟩

/-- How far waiting can lead from a session: two steps from one that waits for a coordination lock,
one from one that waits for a template's. -/
def Program.level : Program → Nat
  | .attempt _ _ _ .lockCoordination => 2
  | _ => 1

def State.level (plan : Plan χ) (s : State χ) (i : Nat) : Nat :=
  match s.clients[i]? with
  | some c => if (c.requests (Program.code plan) i).isEmpty then 0 else c.program.level
  | none => 0

theorem level_of_request (hs : Tidy plan s) {r : Lock Nat Int64} (hr : r ∈ s.server.locks.queue) {c : Client Program}
    {handle : Option Nat} {now : UInt64} {phase : Phase} (hc : s.Attempts r.session c n handle now phase) :
    s.level plan r.session = if phase = .lockCoordination then 2 else 1 := by
  have hmem : r ∈ c.requests (Program.code plan) r.session := by
    rw [← hs.requested _ c hc.client]
    exact Table.mem_requestedBy.mpr ⟨hr, rfl⟩
  have hsome : (c.requests (Program.code plan) r.session).isEmpty = false := by
    rw [List.isEmpty_eq_false_iff]
    exact List.ne_nil_of_mem hmem
  rw [State.level, hc.client]
  show (if _ then _ else _) = _
  rw [hsome, if_neg Bool.false_ne_true, hc.program]
  cases phase <;> rfl

/-- Waiting leads down. -/
theorem level_of_holder (hs : (machine plan).Reachable s) {r h : Lock Nat Int64} (hqueue : r ∈ s.server.locks.queue)
    (hheld : h ∈ s.server.locks.held) (hkey : h.key = r.key) : s.level plan h.session < s.level plan r.session := by
  have ht := tidy hs
  obtain ⟨c, n, handle, now, phase, hc, _, _, hasks⟩ := request_cases ht hqueue
  have hr := (recorded hs).member
  rw [level_of_request ht hqueue hc]
  by_cases hwaits : ∃ r', r' ∈ s.server.locks.queue ∧ r'.session = h.session
  · -- the holder waits itself, so what it has is a coordination lock
    obtain ⟨r', hqueue', hsession⟩ := hwaits
    obtain ⟨d, m, handle', now', phase', hd, hconnected', _, hasks'⟩ := request_cases ht hqueue'
    obtain ⟨hcoordination, hphase'⟩ := held_of_waiting ht hd hconnected' hasks' hheld hsession.symm
    rw [← hsession, level_of_request ht hqueue' hd, if_neg hphase']
    by_cases hphase : phase = .lockCoordination
    · rw [if_pos hphase]
      exact Nat.lt_succ_self 1
    · have hlock := (hasks.key_eq hphase).symm.trans (hkey.symm.trans hcoordination)
      exact absurd hlock (plan.keysApart n (hr _ _ _ _ _ _ hc) m (hr _ _ _ _ _ _ hd))
  · have hzero : s.level plan h.session = 0 := by
      rw [State.level]
      split
      · rename_i d hd
        have hnone : s.server.locks.requestedBy h.session = [] := by
          refine List.eq_nil_iff_forall_not_mem.mpr fun r' hr' => hwaits ⟨r', ?_⟩
          exact Table.mem_requestedBy.mp hr'
        rw [← ht.requested _ d hd, hnone]
        rfl
      · rfl
    rw [hzero]
    split <;> omega

theorem waits_acyclic (hs : (machine plan).Reachable s) (i : Nat) : ¬ Relation.TransGen s.server.locks.WaitsFor i i := by
  have ht := tidy hs
  have hr := (recorded hs).member
  refine Table.acyclic (s.level plan) (fun k => ?_) (fun r hqueue h hheld hkey _ => level_of_holder hs hqueue hheld hkey)
    (fun r hqueue earlier hearlier hkey => ?_) i
  · cases hc : s.clients[k]? with
    | none =>
      rw [(ht.unknown k hc).2]
      exact Nat.zero_le _
    | some c =>
      rw [ht.requested k c hc, Client.requests]
      split
      · exact Nat.le_refl _
      · exact Nat.zero_le _
  · obtain ⟨c, n, handle, now, phase, hc, _, _, hasks⟩ := request_cases ht hqueue
    obtain ⟨c', m, handle', now', phase', hc', _, _, hasks'⟩ := request_cases ht hearlier
    rw [level_of_request ht hqueue hc, level_of_request ht hearlier hc']
    have hlevel := hasks'.level (hr _ _ _ _ _ _ hc') (hr _ _ _ _ _ _ hc) hasks hkey
    by_cases hphase : phase = .lockCoordination
    · rw [if_pos hphase, if_pos (hlevel.mpr hphase)]
    · rw [if_neg hphase, if_neg fun h => hphase (hlevel.mp h)]

/-! ### Handles -/

/-- A verified session has its template's lock shared, and maybe the coordination lock. -/
theorem key_of_verified (hs : Tidy plan s) {c : Client Program} {handle : Option Nat} {now : UInt64} {phase : Phase}
    (hc : s.Attempts i c n handle now phase) (hconnected : c.connected = true) (hphase : phase.verified = true)
    {h : Lock Nat Int64} (hh : h ∈ s.server.locks.held) (hsession : h.session = i) :
    h.key = (plan.request n).lockKey ∧ h.mode = .shared ∨
      h.key = (plan.request n).coordinationKey ∧ phase ≠ .retained := by
  have hheld := mem_locksOf hs hc hconnected hh hsession
  cases phase with
  | retained =>
    rw [List.mem_singleton.mp (hheld _ rfl)]
    exact Or.inl ⟨rfl, rfl⟩
  | unlockCoordination check ready =>
    cases ready with
    | false => cases hphase
    | true =>
      rcases List.mem_cons.mp (hheld _ rfl) with heq | hmem
      · rw [heq]
        exact Or.inl ⟨rfl, rfl⟩
      · rw [List.mem_singleton.mp hmem]
        exact Or.inr ⟨rfl, nofun⟩
  | _ => cases hphase

/-- Who is waited for is a live session. -/
theorem connected_of_waited (hs : Tidy plan s) (h : s.server.locks.WaitsFor i j) :
    ∃ d, s.clients[j]? = some d ∧ d.connected = true := by
  have hshare : s.server.locks.heldBy j ≠ [] ∨ s.server.locks.requestedBy j ≠ [] := by
    cases h with
    | holder _ hh => exact Or.inl (List.ne_nil_of_mem (Table.mem_heldBy.mpr ⟨hh, rfl⟩))
    | ahead hp => exact Or.inr (List.ne_nil_of_mem (Table.mem_requestedBy.mpr ⟨List.mem_of_getElem? hp, rfl⟩))
  cases hd : s.clients[j]? with
  | none =>
    obtain ⟨hheld, hrequested⟩ := hs.unknown j hd
    rcases hshare with h | h
    · exact absurd hheld h
    · exact absurd hrequested h
  | some d =>
    refine ⟨d, rfl, ?_⟩
    by_contra hlost
    obtain ⟨hwaiting, hheld⟩ := hs.lost j d hd (Bool.not_eq_true _ ▸ hlost)
    rcases hshare with h | h
    · exact h hheld
    · rw [hs.requested j d hd, Client.requests, hwaiting] at h
      exact h rfl

/-- Who waits for an attempt that does not wait itself waits for a lock that it holds. -/
theorem holder_of_waits (hs : Tidy plan s) (h : s.server.locks.WaitsFor i j) {d : Client Program} {m : Node}
    {handle : Option Nat} {now : UInt64} {phase : Phase} (hd : s.Attempts j d m handle now phase)
    (hphase : phase.acquires = false) :
    ∃ r ∈ s.server.locks.queue, r.session = i ∧ ∃ l ∈ s.server.locks.held, l.session = j ∧ l.key = r.key ∧
      l.mode.conflicts r.mode = true := by
  cases h with
  | holder hqueue hheld hkey _ hconflict => exact ⟨_, hqueue, rfl, _, hheld, rfl, hkey, hconflict⟩
  | ahead hp =>
    obtain ⟨_, _, _, _, phase', hd', _, _, hasks⟩ := request_cases hs (List.mem_of_getElem? hp)
    obtain ⟨_, _, rfl⟩ := attempts_unique hd hd'
    rw [hasks.acquires] at hphase
    cases hphase

theorem acquires_of_verified {phase : Phase} (h : phase.verified = true) : phase.acquires = false := by
  cases phase with
  | retained => rfl
  | unlockCoordination => rfl
  | _ => cases h

/-- Who waits for a template's exclusive lock does not wait for a session that has verified a
template: it would be the same template, and that is not ready. -/
theorem upgrade_not_blocked (hs : (machine plan).Reachable s) {c d : Client Program} {m : Node}
    {handle handle' : Option Nat} {now now' : UInt64} {phase : Phase} (hc : s.Attempts i c n handle now .lockExclusive)
    (hconnected : c.connected = true) (hd : s.Attempts j d m handle' now' phase) (hconnected' : d.connected = true)
    (hphase : phase.verified = true) : ¬ s.server.locks.WaitsFor i j := by
  intro hwaits
  have ht := tidy hs
  have hr := (recorded hs).member
  obtain ⟨r, hqueue, rfl, h, hheld, hsession, hkey, _⟩ := holder_of_waits ht hwaits hd (acquires_of_verified hphase)
  obtain ⟨_, _, _, _, _, hc', _, _, hasks⟩ := request_cases ht hqueue
  obtain ⟨rfl, rfl, rfl⟩ := attempts_unique hc hc'
  rw [hasks.key_eq nofun] at hkey
  rcases key_of_verified ht hd hconnected' hphase hheld hsession with ⟨hlock, _⟩ | ⟨hcoordination, _⟩
  · obtain rfl := plan.locksApart m (hr _ _ _ _ _ _ hd) _ (hr _ _ _ _ _ _ hc) (hlock.symm.trans hkey)
    obtain ⟨db, hdb, hready⟩ := facts_verified hphase ((sound hs).facts _ _ _ _ _ _ hd hconnected')
    exact (sound hs).facts _ _ _ _ _ _ hc hconnected db hdb hready
  · exact plan.keysApart _ (hr _ _ _ _ _ _ hc) m (hr _ _ _ _ _ _ hd) (hkey.symm.trans hcoordination)

/-- Nobody waits for a handle. -/
theorem handle_not_waited (hs : (machine plan).Reachable s) {d : Client Program} {m : Node} {handle : Option Nat}
    {now : UInt64} (hd : s.Attempts j d m handle now .retained) : ¬ s.server.locks.WaitsFor i j := by
  intro hwaits
  have ht := tidy hs
  have hr := (recorded hs).member
  obtain ⟨d', hd', hconnected⟩ := connected_of_waited ht hwaits
  rw [hd.client, Option.some.injEq] at hd'
  subst hd'
  obtain ⟨r, hqueue, rfl, h, hheld, hsession, hkey, hconflict⟩ := holder_of_waits ht hwaits hd rfl
  obtain ⟨c, n, _, _, phase, hc, hconnected', _, hasks⟩ := request_cases ht hqueue
  rcases key_of_verified ht hd hconnected rfl hheld hsession with ⟨hlock, hmode⟩ | ⟨_, hphase⟩
  · generalize r.key = key at hkey hasks
    generalize r.mode = mode at hconflict hasks
    cases hasks with
    | coordination => exact plan.keysApart m (hr _ _ _ _ _ _ hd) n (hr _ _ _ _ _ _ hc) (hlock.symm.trans hkey)
    | inspection =>
      rw [hmode] at hconflict
      cases hconflict
    | upgrade => exact upgrade_not_blocked hs hc hconnected' hd hconnected rfl hwaits
  · exact hphase rfl

/-- Nor for an attempt that has given all its locks back. -/
theorem unlocked_not_waited (hs : (machine plan).Reachable s) {d : Client Program} {m : Node} {handle : Option Nat}
    {now : UInt64} {phase : Phase} (hd : s.Attempts j d m handle now phase) (hphase : phase.acquires = false)
    (hnone : holds (plan.request m) phase = some []) : ¬ s.server.locks.WaitsFor i j := by
  intro hwaits
  have ht := tidy hs
  obtain ⟨d', hd', hconnected⟩ := connected_of_waited ht hwaits
  rw [hd.client, Option.some.injEq] at hd'
  subst hd'
  obtain ⟨_, _, _, h, hheld, hsession, _⟩ := holder_of_waits ht hwaits hd hphase
  have hmem : h ∈ s.server.locks.heldBy j := Table.mem_heldBy.mpr ⟨hheld, hsession⟩
  rw [ht.held j d [] hd.client hconnected (by rw [hd.program]; exact hnone)] at hmem
  cases hmem

/-- A live session that others may have to wait for: a sweep, an attempt that asks for a lock, inspects
or builds, or one that has returned an error and is about to end. -/
inductive State.Works (s : State χ) (j : Nat) : Prop where
  | sweep {c sw phase} : s.Sweeps j c sw phase → c.connected = true → State.Works s j
  | attempt {c node handle now phase} : s.Attempts j c node handle now phase → c.connected = true →
      phase ≠ .retained → phase ≠ .aborted → (∀ error, phase ≠ .discarded error) → State.Works s j

/-- A request that waits is granted next, or waits for somebody at work; nobody waits in a circle, and
who waits for the exclusive lock of a template does not wait for a session that has verified one. -/
theorem cold_start_not_stranded (hs : (machine plan).Reachable s) :
    (∀ i j c d n m handle handle' now now' phase, s.Attempts i c n handle now .lockExclusive → c.connected = true →
      s.Attempts j d m handle' now' phase → d.connected = true → phase.verified = true →
      ¬ s.server.locks.WaitsFor i j) ∧
    (∀ i, ¬ Relation.TransGen s.server.locks.WaitsFor i i) ∧
    (∀ i j, s.server.locks.WaitsFor i j → s.Works j) ∧
    ∀ r ∈ s.server.locks.queue, s.server.locks.grantable r = true ∨ ∃ j, s.server.locks.WaitsFor r.session j := by
  refine ⟨fun i j c d n m handle handle' now now' phase hc hconnected hd hconnected' hphase =>
    upgrade_not_blocked hs hc hconnected hd hconnected' hphase, waits_acyclic hs, fun i j hwaits => ?_,
    fun r hr => Table.grantable_or_waits hr⟩
  obtain ⟨d, hd, hconnected⟩ := connected_of_waited (tidy hs) hwaits
  cases hprogram : d.program with
  | sweep sw phase => exact .sweep ⟨hd, hprogram⟩ hconnected
  | attempt m handle now phase =>
    have hattempt : s.Attempts j d m handle now phase := ⟨hd, hprogram⟩
    refine .attempt hattempt hconnected (fun hphase => ?_) (fun hphase => ?_) fun error hphase => ?_
    · subst hphase
      exact handle_not_waited hs hattempt hwaits
    · subst hphase
      exact unlocked_not_waited hs hattempt rfl rfl hwaits
    · subst hphase
      exact unlocked_not_waited hs hattempt rfl rfl hwaits

/-- A cold start on session 0 that is about to upgrade, and a first inspection on session 1. -/
def inspectLate : List (Action Nat) :=
  .begin rootNode none 100 :: List.replicate 10 (.advance 0 .ok) ++
    [.begin rootNode none 101, .advance 1 .ok, .advance 1 .ok, .advance 0 .ok]

/-- It waits for the inspection, which is at work. -/
theorem cold_start_not_stranded_inspection : ∃ s : State Nat, (machine samplePlan).Reachable s ∧
    s.server.locks.WaitsFor 0 1 ∧ s.Works 1 ∧ ¬ Relation.TransGen s.server.locks.WaitsFor 0 0 := by
  let key := (samplePlan.request rootNode).lockKey
  have hrun : ((machine samplePlan).run start inspectLate).any (fun s =>
      s.server.locks.held.contains ⟨1, key, .shared⟩ && s.server.locks.queue.contains ⟨0, key, .exclusive⟩) = true := by
    decide +kernel
  obtain ⟨s, hs, hlocks⟩ := (Option.any_eq_true _ _).mp hrun
  obtain ⟨hheld, hqueue⟩ := Bool.and_eq_true_iff.mp hlocks
  have hreachable := Machine.reachable_of_run (m := machine samplePlan) _ start_initial hs
  have hwaits : s.server.locks.WaitsFor 0 1 :=
    .holder (List.contains_iff_mem.mp hqueue) (List.contains_iff_mem.mp hheld) rfl Nat.one_ne_zero rfl
  obtain ⟨_, hacyclic, hworks, _⟩ := cold_start_not_stranded hreachable
  exact ⟨s, hreachable, hwaits, hworks 0 1 hwaits, hacyclic 0⟩

end PostgresTestHarness.Template
