import PostgresTestHarness.Prewarm.Capacity

/-! The ready tokens of an open pool.

A publish pushes its database and then adds a token; a checkout takes a token, waits for
application capacity, pops a database and forgets the token. So the databases in the queue
are the free tokens, those of the checkouts that have popped nothing, and the databases of
publishes that are in between (`Tokened`). A database passes from its creation to the queue
and from there to one lease (`unhanded`). -/
namespace PostgresTestHarness.Prewarm

namespace Task

/-- A publish between `push_back` and `add_permits`. -/
def publishes : Task → Nat
  | .pushed _ => 1
  | _ => 0

/-- The database the task may still publish. -/
def prepares : Task → List Text
  | .attempting _ name | .made _ name => [name]
  | _ => []

end Task

/-- A poll of `acquire_database_permit_or_pool_close`. Application admission answers `none`
while it has no permit to give, and an error once it is closed. -/
def acquireDatabasePermitOrPoolClose (databaseAdmission : Option (Except Error Unit)) (poolClosed : Bool) :
    Option (Except Error Unit) :=
  match databaseAdmission with
  | some result => some result
  | none => if poolClosed then some (.error .prewarmPoolClosed) else none

namespace State

/-- A poll of a `database` call that holds its ready token, and its result if it is over. -/
def pollDatabase (capacity : Nat) (s : State) (databaseAdmission : Option (Except Error Unit)) :
    Option (Option (Except Error Text) × State) :=
  match acquireDatabasePermitOrPoolClose databaseAdmission s.readyAdmissionClosed with
  | none => some (none, s)
  | some (.error error) => (s.step capacity .cancelCheckout).map fun t => (some (.error error), t)
  | some (.ok ()) => (s.step capacity .checkout).map fun t =>
    match (s.pool.takeReady capacity).value.1 with
    | some name => (some (.ok name), t)
    | none => (some (.error .prewarmPoolClosed), t)

/-- The database a step hands to a lease. -/
def hands (capacity : Nat) (s : State) : Action → List Text
  | .checkout => (s.pool.takeReady capacity).value.1.toList
  | _ => []

/-- The databases a run hands to leases. -/
def handed (capacity : Nat) : State → List Action → List Text
  | _, [] => []
  | s, a :: rest =>
    match s.step capacity a with
    | none => []
    | some t => s.hands capacity a ++ handed capacity t rest

/-- The databases that are not with a lease and may come to one. -/
def unhanded (s : State) : List Text := s.pool.ready ++ s.tasks.flatMap Task.prepares

end State

/-- As long as the pool accepts, nobody has closed it and its tokens are exact. -/
structure Tokened (s : State) : Prop where
  phases : ∀ origin, Task.failing origin .complete ∉ s.tasks
  closers : s.pool.accepting = true → s.closers = []
  opened : s.pool.accepting = true → s.readyAdmissionClosed = false
  balance : s.pool.accepting = true →
    s.readyTokens + s.checkouts + s.total Task.publishes = s.pool.ready.length

section Moves
variable {x : Task} {next : List Task} {e e' u u' : List Text}

theorem Move.publishes (h : Move x next e e' u u') : (next.map Task.publishes).sum = x.publishes := by
  cases h with
  | shut origin | ambiguous origin name | noResidual origin name => cases origin <;> rfl
  | _ => rfl

theorem Move.phases (h : Move x next e e' u u') (origin : Origin) :
    Task.failing origin .complete ∉ next := by
  cases h with
  | shut o | ambiguous o name | noResidual o name => cases o <;> simp [Origin.fail]
  | _ => simp

/-- A move prepares no database that there already was. -/
theorem Move.prepares (h : Move x next e e' u u') {n : Text} (hn : n ∈ u) :
    (next.flatMap Task.prepares).count n ≤ x.prepares.count n := by
  cases h with
  | shut origin | ambiguous origin name | noResidual origin name =>
    cases origin <;> exact Nat.zero_le _
  | pass origin name _ _ fresh =>
    have hne : n ≠ name := fun heq => fresh (heq ▸ hn)
    simp [Task.prepares, hne.symm]
  | _ => simp [Task.prepares]

theorem Move.used (h : Move x next e e' u u') {n : Text} (hn : n ∈ u) : n ∈ u' := by
  cases h with
  | pass origin name _ _ fresh => exact List.mem_cons_of_mem name hn
  | _ => exact hn

end Moves

section Steps
variable {capacity : Nat} {s t : State} {a : Action}

/-- A pool that accepts now has always accepted. -/
theorem accepting_before (h : Transition capacity s a t) (ht : t.pool.accepting = true) :
    s.pool.accepting = true := by
  by_contra hclosed
  rw [closed_step h (Bool.not_eq_true _ ▸ hclosed)] at ht
  cases ht

theorem phases_replace (hs : ∀ origin, Task.failing origin .complete ∉ s.tasks) (i : Nat) {next : List Task}
    (hnext : ∀ origin, Task.failing origin .complete ∉ next) (origin : Origin) :
    Task.failing origin .complete ∉ s.tasks.eraseIdx i ++ next := by
  rw [List.mem_append, not_or]
  exact ⟨fun hmem => hs origin (List.mem_of_mem_eraseIdx hmem), hnext origin⟩

theorem phases_append (hs : ∀ origin, Task.failing origin .complete ∉ s.tasks) {next : List Task}
    (hnext : ∀ origin, Task.failing origin .complete ∉ next) (origin : Origin) :
    Task.failing origin .complete ∉ s.tasks ++ next := by
  rw [List.mem_append, not_or]
  exact ⟨hs origin, hnext origin⟩

theorem phases_step (h : Transition capacity s a t) (hs : ∀ origin, Task.failing origin .complete ∉ s.tasks)
    (origin : Origin) : Task.failing origin .complete ∉ t.tasks := by
  cases h with
  | move a own i x next existing used task rule => exact phases_replace hs i rule.phases origin
  | reserve | giveUp | giveUpAlone => exact phases_append hs (fun _ => by simp) origin
  | published i o | addToken i o | failPhase i o | refill i | noRefill i | finishDeletion i =>
    exact phases_replace hs i (fun _ => by simp) origin
  | late i o name =>
    refine phases_replace hs i (fun _ => ?_) origin
    cases o <;> simp
  | queueDeletion i name accepted =>
    refine phases_replace hs i (fun _ => ?_) origin
    cases accepted <;> simp
  | queueTaken i name rest accepted =>
    refine phases_append hs (fun _ => ?_) origin
    cases accepted <;> simp
  | _ => exact hs origin

/-- A failing creation or return closes the pool. -/
theorem failPhase_closes {i : Nat} {origin : Origin} {phase : PrewarmReturnPhase}
    (hs : ∀ origin, Task.failing origin .complete ∉ s.tasks)
    (task : s.tasks[i]? = some (.failing origin phase)) :
    (s.pool.failAndBeginCleanup phase capacity).value.2.accepting = false := by
  refine fail_closes capacity s.pool phase fun hphase => ?_
  subst hphase
  exact hs origin (List.mem_of_getElem? task)

theorem publishes_replace {i : Nat} {x : Task} (task : s.tasks[i]? = some x) {next : List Task}
    (hnext : (next.map Task.publishes).sum = x.publishes) :
    ((s.tasks.eraseIdx i ++ next).map Task.publishes).sum = s.total Task.publishes := by
  have htotal := total_replace task next Task.publishes
  omega

theorem tokened_step (h : Transition capacity s a t) (hclosing : Closing s) (hs : Tokened s) : Tokened t := by
  have hphases := phases_step h hs.phases
  by_cases hclosed : t.pool.accepting = false
  · have hnot : t.pool.accepting ≠ true := by rw [hclosed]; exact nofun
    exact ⟨hphases, fun hopened => absurd hopened hnot, fun hopened => absurd hopened hnot,
      fun hopened => absurd hopened hnot⟩
  · rw [Bool.not_eq_false] at hclosed
    have hbefore := accepting_before h hclosed
    have hclosers := hs.closers hbefore
    have hopened := hs.opened hbefore
    have hbalance := hs.balance hbefore
    have hnone : ∀ (k : Nat) (c : Closer), s.closers[k]? ≠ some c := by
      rw [hclosers]
      exact nofun
    cases h with
    | move a own i x next existing used task rule =>
      refine ⟨hphases, fun _ => hclosers, fun _ => hopened, fun _ => ?_⟩
      show s.readyTokens + s.checkouts + _ = _
      exact (congrArg _ (publishes_replace task rule.publishes)).trans hbalance
    | reserve | giveUpAlone =>
      refine ⟨hphases, fun _ => hclosers, fun _ => hopened, fun _ => ?_⟩
      show s.readyTokens + s.checkouts + _ = _
      exact (congrArg _ (total_append _ _)).trans hbalance
    | giveUp i name lease alive pool result =>
      subst result
      refine ⟨hphases, fun _ => hclosers, fun _ => hopened, fun _ => ?_⟩
      show s.readyTokens + s.checkouts + _ = _
      exact (congrArg _ (total_append _ _)).trans hbalance
    | published i origin name task opened fresh pool result =>
      subst result
      refine ⟨hphases, fun _ => hclosers, fun _ => hopened, fun _ => ?_⟩
      have htotal := total_replace task [Task.pushed origin] Task.publishes
      have hone : ([Task.pushed origin].map Task.publishes).sum = 1 := rfl
      have hzero : (Task.made origin name).publishes = 0 := rfl
      show s.readyTokens + s.checkouts + ((s.tasks.eraseIdx i ++ [Task.pushed origin]).map Task.publishes).sum =
        (s.pool.ready ++ [name]).length
      rw [List.length_append, List.length_singleton]
      omega
    | addToken i origin task =>
      refine ⟨hphases, fun _ => hclosers, fun _ => hopened, fun _ => ?_⟩
      have htotal := total_replace task [] Task.publishes
      have hone : (Task.pushed origin).publishes = 1 := rfl
      have hzero : (([] : List Task).map Task.publishes).sum = 0 := rfl
      show s.readyTokens + 1 + s.checkouts + ((s.tasks.eraseIdx i ++ []).map Task.publishes).sum = s.pool.ready.length
      omega
    | refill i task opened fresh pool result =>
      subst result
      refine ⟨hphases, fun _ => hclosers, fun _ => hopened, fun _ => ?_⟩
      show s.readyTokens + s.checkouts + _ = _
      exact (congrArg _ (publishes_replace task rfl)).trans hbalance
    | finishDeletion i task =>
      refine ⟨hphases, fun _ => hclosers, fun _ => hopened, fun _ => ?_⟩
      show s.readyTokens + s.checkouts + _ = _
      exact (congrArg _ (publishes_replace task rfl)).trans hbalance
    | queueDeletion i name accepted task =>
      refine ⟨hphases, fun _ => hclosers, fun _ => hopened, fun _ => ?_⟩
      show s.readyTokens + s.checkouts + _ = _
      refine (congrArg _ (publishes_replace task ?_)).trans hbalance
      cases accepted <;> rfl
    | late i origin name task closed =>
      have hfresh := hclosing.started
      rw [hbefore] at hfresh
      exact absurd ⟨hbefore, hfresh⟩ closed
    | noRefill i task closed =>
      have hfresh := hclosing.started
      rw [hbefore] at hfresh
      exact absurd ⟨hbefore, hfresh⟩ closed
    | failPhase i origin phase task =>
      rw [failPhase_closes hs.phases task] at hclosed
      cases hclosed
    | beginClose pending =>
      rw [(PrewarmPoolState.beginCleanup_cleaned s.pool capacity).accepting] at hclosed
      cases hclosed
    | closeSemaphores k ready closer => exact absurd closer (hnone k _)
    | queueTaken k name rest accepted closer => exact absurd closer (hnone k _)
    | finishClose k closer => exact absurd closer (hnone k _)
    | reserveToken filling handle token =>
      refine ⟨hphases, fun _ => hclosers, fun _ => hopened, fun _ => ?_⟩
      show s.readyTokens - 1 + (s.checkouts + 1) + s.total Task.publishes = s.pool.ready.length
      omega
    | lease name rest checkout opened ready pool result =>
      subst result
      refine ⟨hphases, fun _ => hclosers, fun _ => hopened, fun _ => ?_⟩
      rw [ready, List.length_cons] at hbalance
      show s.readyTokens + (s.checkouts - 1) + s.total Task.publishes = rest.length
      omega
    | noLease checkout | cancelCheckout checkout =>
      refine ⟨hphases, fun _ => hclosers, fun _ => hopened, fun _ => ?_⟩
      show s.readyTokens + 1 + (s.checkouts - 1) + s.total Task.publishes = s.pool.ready.length
      omega
    | _ => exact ⟨hphases, fun _ => hclosers, fun _ => hopened, fun _ => hbalance⟩

theorem tokened (h : (machine capacity).Reachable s) : Tokened s := by
  have hinv : (machine capacity).Invariant Tokened := by
    refine ⟨?_, fun s a t hreach hs hstep =>
      tokened_step (step_transition capacity s t a hstep) (closing hreach) hs⟩
    intro _ heq
    obtain rfl := heq
    exact ⟨fun _ => List.not_mem_nil, fun _ => rfl, fun _ => rfl, fun _ => rfl⟩
  exact hinv.holds h

/-! ### One lease for each database -/

theorem used_step (h : Transition capacity s a t) {n : Text} (hn : n ∈ s.used) : n ∈ t.used := by
  cases h with
  | move a own i x next existing used task rule => exact rule.used hn
  | _ => exact hn

theorem prepares_sublist (x : Task) : x.prepares.Sublist x.names := by
  cases x <;> first | exact List.nil_sublist _ | exact List.Sublist.refl _

theorem count_unhanded (s : State) (n : Text) :
    s.unhanded.count n = s.pool.ready.count n + (s.tasks.flatMap Task.prepares).count n :=
  List.count_append

/-- A database that is on its way to a lease is there once. -/
theorem unhanded_le_one (hs : Owned s) (n : Text) : s.unhanded.count n ≤ 1 := by
  have hprepares : (s.tasks.flatMap Task.prepares).count n ≤ (s.tasks.flatMap Task.names).count n :=
    (List.Sublist.flatMap_right _ fun x _ => prepares_sublist x).count_le n
  have hcount := hs.count n
  have hone := List.nodup_iff_count_le_one.mp hs.nodup n
  rw [count_owned] at hcount
  rw [count_unhanded]
  omega

theorem used_of_ready (hs : Owned s) {n : Text} (hn : n ∈ s.pool.ready) : n ∈ s.used := by
  have hpos := List.count_pos_iff.mpr hn
  have hcount := hs.count n
  rw [count_owned] at hcount
  exact hs.used n (List.count_pos_iff.mp (by omega))

/-- What a checkout hands out leaves the queue. -/
theorem checkout_hands (h : s.step capacity .checkout = some t) :
    s.hands capacity .checkout ++ t.pool.ready = s.pool.ready ∧ t.tasks = s.tasks := by
  have htaken : ∀ p : PrewarmPoolState,
      (p.takeReady capacity).value.1.toList ++ (p.takeReady capacity).value.2.ready = p.ready := by
    intro p
    unfold PrewarmPoolState.takeReady
    split
    · rfl
    · split <;> simp_all
  rw [← htaken s.pool]
  simp only [State.step, State.checkout] at h
  split at h
  · cases h
  · split at h <;> cases h <;> simp_all [State.hands, State.assert]

theorem prepares_replace {i : Nat} {x : Task} (task : s.tasks[i]? = some x) {next : List Task} {n : Text}
    (hnext : (next.flatMap Task.prepares).count n ≤ x.prepares.count n) :
    ((s.tasks.eraseIdx i ++ next).flatMap Task.prepares).count n ≤ (s.tasks.flatMap Task.prepares).count n := by
  have hcount := carried_replace Task.prepares task next n
  omega

theorem prepares_append {next : List Task} (hnext : next.flatMap Task.prepares = []) (n : Text) :
    ((s.tasks ++ next).flatMap Task.prepares).count n = (s.tasks.flatMap Task.prepares).count n := by
  rw [carried_append, hnext]
  rfl

theorem cleaned_ready {p : PrewarmPoolState} {c : Checked (Option (List Text) × PrewarmPoolState)}
    (h : p.Cleaned capacity c) (n : Text) : c.value.2.ready.count n ≤ p.ready.count n := by
  rw [← h.ready, List.count_append]
  exact Nat.le_add_left _ _

/-- Nothing but a checkout takes a known database to a lease, and none comes anew. -/
theorem unhanded_step (hstep : s.step capacity a = some t) {n : Text} (hn : n ∈ s.used) :
    (s.hands capacity a).count n + t.unhanded.count n ≤ s.unhanded.count n := by
  rw [count_unhanded, count_unhanded]
  by_cases ha : a = .checkout
  · subst ha
    obtain ⟨hready, htasks⟩ := checkout_hands hstep
    rw [htasks, ← hready, List.count_append]
    omega
  · have hnone : s.hands capacity a = [] := by
      cases a <;> first | rfl | exact absurd rfl ha
    have h := step_transition capacity s t a hstep
    rw [hnone, List.count_nil, Nat.zero_add]
    cases h with
    | move a own i x next existing used task rule =>
      exact Nat.add_le_add_left (prepares_replace task (rule.prepares hn)) _
    | reserve | giveUpAlone => exact Nat.add_le_add_left (Nat.le_of_eq (prepares_append rfl n)) _
    | giveUp i name lease alive pool result =>
      subst result
      exact Nat.add_le_add_left (Nat.le_of_eq (prepares_append rfl n)) _
    | published i origin name task opened fresh pool result =>
      subst result
      have hcount := carried_replace Task.prepares task [Task.pushed origin] n
      have hmade : (Task.made origin name).prepares = [name] := rfl
      have hnil : ([Task.pushed origin].flatMap Task.prepares).count n = 0 := rfl
      show (s.pool.ready ++ [name]).count n +
        ((s.tasks.eraseIdx i ++ [Task.pushed origin]).flatMap Task.prepares).count n ≤ _
      rw [List.count_append]
      rw [hmade] at hcount
      omega
    | late i origin name task closed pool result =>
      subst result
      refine Nat.add_le_add_left (prepares_replace task ?_) _
      cases origin <;> exact Nat.zero_le _
    | refill i task opened fresh pool result =>
      subst result
      exact Nat.add_le_add_left (prepares_replace task (Nat.zero_le _)) _
    | queueDeletion i name accepted task =>
      refine Nat.add_le_add_left (prepares_replace task ?_) _
      cases accepted <;> exact Nat.zero_le _
    | addToken i origin task | noRefill i task | finishDeletion i task =>
      exact Nat.add_le_add_left (prepares_replace task (Nat.zero_le _)) _
    | failPhase i origin phase task =>
      refine Nat.add_le_add ?_ (prepares_replace task (Nat.zero_le _))
      cases phase with
      | complete => exact Nat.le_refl _
      | deleting | creating => exact cleaned_ready (PrewarmPoolState.beginCleanup_cleaned _ capacity) n
    | beginClose pending =>
      exact Nat.add_le_add_right (cleaned_ready (PrewarmPoolState.beginCleanup_cleaned s.pool capacity) n) _
    | queueTaken i name rest accepted closer =>
      refine Nat.add_le_add_left (Nat.le_of_eq (prepares_append ?_ n)) _
      cases accepted <;> rfl
    | lease | noLease => exact absurd rfl ha
    | _ => exact Nat.le_refl _

/-- A run hands a database to one lease at most. -/
theorem handed_count {actions : List Action} (hs : (machine capacity).Reachable s)
    (hrun : (machine capacity).run s actions = some t) (n : Text) :
    (State.handed capacity s actions).count n + t.unhanded.count n ≤
      if n ∈ s.used then s.unhanded.count n else 1 := by
  induction actions generalizing s with
  | nil =>
    rw [Machine.run_nil, Option.some.injEq] at hrun
    subst hrun
    rw [State.handed, List.count_nil, Nat.zero_add]
    split
    · exact Nat.le_refl _
    · exact unhanded_le_one (owned hs) n
  | cons a rest ih =>
    rw [Machine.run_cons, Option.bind_eq_some_iff] at hrun
    obtain ⟨u, hu, hrest⟩ := hrun
    have hu : s.step capacity a = some u := hu
    have hafter := ih (hs.next a hu) hrest
    rw [State.handed, hu, List.count_append]
    by_cases hn : n ∈ s.used
    · have hfirst := unhanded_step hu hn
      rw [if_pos (used_step (step_transition capacity s u a hu) hn)] at hafter
      rw [if_pos hn]
      omega
    · have hnone : (s.hands capacity a).count n = 0 := by
        rw [List.count_eq_zero]
        intro hmem
        cases a with
        | checkout =>
          refine hn (used_of_ready (owned hs) ?_)
          rw [← (checkout_hands hu).1]
          exact List.mem_append_left _ hmem
        | _ => cases hmem
      have hone : (if n ∈ u.used then u.unhanded.count n else 1) ≤ 1 := by
        split
        · exact unhanded_le_one (owned (hs.next a hu)) n
        · exact Nat.le_refl 1
      rw [if_neg hn]
      omega

/-- What the tokens of a pool that accepts promise its checkouts. -/
structure TokensKept (capacity : Nat) (s : State) : Prop where
  /-- Nobody who waits for a token is told that the pool is closed. -/
  opened : s.readyAdmissionClosed = false
  balance : s.readyTokens + s.checkouts + s.total Task.publishes = s.pool.ready.length
  settled : (∀ origin, Task.pushed origin ∉ s.tasks) → s.readyTokens + s.checkouts = s.pool.ready.length
  bounded : s.readyTokens + s.checkouts ≤ s.pool.ready.length
  /-- With its token and its permit a checkout gets the oldest idle database. -/
  served : 0 < s.checkouts → ∃ name rest t, s.pool.ready = name :: rest ∧
    s.pollDatabase capacity (some (.ok ())) = some (some (.ok name), t) ∧
    s.step capacity .checkout = some t ∧ t.leases = s.leases ++ [name] ∧ t.pool.ready = rest
  /-- Without a permit it waits, and is not told that the pool is closed. -/
  waits : s.pollDatabase capacity none = some (none, s)
  /-- Rejected by application admission it gives its token back. -/
  rejected : 0 < s.checkouts → ∀ error, ∃ t,
    s.pollDatabase capacity (some (.error error)) = some (some (.error error), t) ∧
    t = { s with checkouts := s.checkouts - 1, readyTokens := s.readyTokens + 1 }
  /-- And so it does when its caller goes away. -/
  cancelled : ∀ t, s.step capacity .cancelCheckout = some t →
    t = { s with checkouts := s.checkouts - 1, readyTokens := s.readyTokens + 1 }

theorem cancelCheckout_some (h : 0 < s.checkouts) : s.step capacity .cancelCheckout =
    some { s with checkouts := s.checkouts - 1, readyTokens := s.readyTokens + 1 } :=
  if_neg (Nat.pos_iff_ne_zero.mp h)

theorem publishes_none (h : ∀ origin, Task.pushed origin ∉ s.tasks) : s.total Task.publishes = 0 := by
  refine List.sum_eq_zero fun n hn => ?_
  obtain ⟨x, hx, rfl⟩ := List.mem_map.mp hn
  cases x with
  | pushed origin => exact absurd hx (h origin)
  | _ => rfl

/-- A token in hand means that there is a database to pop. -/
theorem checkout_served (hs : Tokened s) (hopened : s.pool.accepting = true) (h : 0 < s.checkouts) :
    ∃ name rest t, s.pool.ready = name :: rest ∧ (s.pool.takeReady capacity).value.1 = some name ∧
      s.step capacity .checkout = some t ∧ t.leases = s.leases ++ [name] ∧ t.pool.ready = rest := by
  have hbalance := hs.balance hopened
  cases hready : s.pool.ready with
  | nil =>
    rw [hready, List.length_nil] at hbalance
    omega
  | cons name rest =>
    have htaken : (s.pool.takeReady capacity).value =
        (some name, { s.pool with ready := rest, leased := s.pool.leased + 1 }) := by
      simp only [PrewarmPoolState.takeReady, hopened, hready, Bool.true_eq_false, if_false]
    refine ⟨name, rest, ({ s with
      pool := { s.pool with ready := rest, leased := s.pool.leased + 1 }
      checkouts := s.checkouts - 1
      leases := s.leases ++ [name] } : State).assert (s.pool.takeReady capacity).asserts, rfl, ?_, ?_, rfl, rfl⟩
    · rw [htaken]
    · simp only [State.step, State.checkout, if_neg (Nat.pos_iff_ne_zero.mp h), htaken]

theorem tokensKept (hs : Tokened s) (hopened : s.pool.accepting = true) : TokensKept capacity s := by
  have hbalance := hs.balance hopened
  refine ⟨hs.opened hopened, hbalance, fun hnone => ?_, by omega, fun hcheckout => ?_, ?_, fun hcheckout error => ?_,
    fun t hstep => ?_⟩
  · rw [publishes_none hnone] at hbalance
    exact hbalance
  · obtain ⟨name, rest, t, hready, htaken, hstep, hleases, hrest⟩ := checkout_served hs hopened hcheckout
    refine ⟨name, rest, t, hready, ?_, hstep, hleases, hrest⟩
    simp only [State.pollDatabase, acquireDatabasePermitOrPoolClose, hstep, htaken, Option.map_some]
  · rw [State.pollDatabase, hs.opened hopened]
    rfl
  · refine ⟨_, ?_, rfl⟩
    simp only [State.pollDatabase, acquireDatabasePermitOrPoolClose, cancelCheckout_some hcheckout,
      Option.map_some]
  · simp only [State.step] at hstep
    split at hstep
    · cases hstep
    · cases hstep
      rfl

theorem ready_tokens_account (capacity : Nat) (actions : List Action) (s : State)
    (hrun : (machine capacity).run (State.initial capacity) actions = some s) :
    (s.pool.accepting = true → TokensKept capacity s) ∧
      (State.handed capacity (State.initial capacity) actions).Nodup := by
  have hs := Machine.reachable_of_run actions rfl hrun
  refine ⟨tokensKept (tokened hs), List.nodup_iff_count_le_one.mpr fun n => ?_⟩
  have hcount := handed_count (.start rfl) hrun n
  rw [if_neg (show n ∉ (State.initial capacity).used from List.not_mem_nil)] at hcount
  omega

/-- Three checkouts of two databases: one waits, one is given up and one is served. -/
def tokenRun : List Action :=
  [.beginCreation, .gate 0 true "a".toList, .creationReturns 0 (some true), .publish 0, .addToken 0,
    .beginCreation, .gate 0 true "b".toList, .creationReturns 0 (some true), .publish 0, .addToken 0,
    .beginCreation, .reserveToken, .reserveToken, .cancelCheckout, .checkout, .reserveToken]

theorem ready_tokens_account_two : ∃ s, (machine 2).run (State.initial 2) tokenRun = some s ∧
    s.pool.accepting = true ∧ s.pool.ready = ["b".toList] ∧ s.checkouts = 1 ∧
    (s.pool.accepting = true → TokensKept 2 s) ∧ (State.handed 2 (State.initial 2) tokenRun).Nodup := by
  refine ⟨_, rfl, rfl, rfl, rfl, ?_⟩
  exact ready_tokens_account 2 tokenRun _ rfl

end Steps

end PostgresTestHarness.Prewarm
