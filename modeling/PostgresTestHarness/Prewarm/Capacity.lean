import PostgresTestHarness.Prewarm.Slots

/-! A pool of capacity `N` never has more than `N` databases, and never reopens.

Each database that exists has at most one owner (`Owned`). While the pool accepts, the
databases and the creations still to come fit the slots (`Fitting`); once it is closed
(`Closing`) no creation is reserved any more, so the number can only fall. -/
namespace PostgresTestHarness.Prewarm

/-- A closed pool has no idle database, and somebody closes it before it is gone. -/
structure Closing (s : State) : Prop where
  started : s.pool.cleanupStarted = !s.pool.accepting
  empty : s.pool.accepting = false → s.pool.ready = []
  lastHandle : s.publicHandles = 0 → 0 < s.pendingCloses ∨ s.pool.accepting = false

/-- Owned databases exist, each with one owner. -/
structure Owned (s : State) : Prop where
  count : ∀ name, s.owned.count name ≤ s.existing.count name
  nodup : s.existing.Nodup
  used : ∀ name ∈ s.existing, name ∈ s.used

def Fitting (s : State) : Prop :=
  s.pool.accepting = true →
    s.existing.length + s.total Task.potential ≤
      s.pool.ready.length + s.leases.length + s.total Task.weight

section Steps
variable {capacity : Nat} {s t : State} {a : Action}

theorem closing_of_cleaned {p : PrewarmPoolState} {c : Checked (Option (List Text) × PrewarmPoolState)}
    (h : p.Cleaned capacity c) (pool : t.pool = c.value.2) (started : p.cleanupStarted = !p.accepting)
    (empty : p.accepting = false → p.ready = []) : Closing t := by
  refine ⟨?_, fun _ => ?_, fun _ => Or.inr ?_⟩
  · rw [pool, h.started, h.accepting]
    rfl
  · rw [pool]
    rcases h.empty with hnil | hstarted
    · exact hnil
    · have hclosed : p.accepting = false := by
        rw [started, Bool.not_eq_true'] at hstarted
        exact hstarted
      have hready := h.ready
      rw [empty hclosed, List.append_eq_nil_iff] at hready
      exact hready.2
  · rw [pool, h.accepting]

theorem closing_releaseHandle (hs : Closing s) : Closing s.releaseHandle := by
  refine ⟨hs.started, hs.empty, fun hzero => ?_⟩
  have hzero : s.publicHandles - 1 = 0 := hzero
  show 0 < (if s.publicHandles = 1 then s.pendingCloses + 1 else s.pendingCloses) ∨ _
  by_cases hlast : s.publicHandles = 1
  · rw [if_pos hlast]
    exact Or.inl (Nat.succ_pos _)
  · rw [if_neg hlast]
    exact hs.lastHandle (by omega)

theorem closing_step (h : Transition capacity s a t) (hs : Closing s) : Closing t := by
  have hcopy := hs
  obtain ⟨hstarted, hempty, hlast⟩ := hcopy
  cases h with
  | published i origin name task opened fresh pool result =>
    subst result
    refine ⟨hstarted, fun hclosed => ?_, hlast⟩
    rw [show _ = false from hclosed] at opened
    cases opened
  | lease name rest checkout opened ready pool result =>
    subst result
    refine ⟨hstarted, fun hclosed => ?_, hlast⟩
    rw [show _ = false from hclosed] at opened
    cases opened
  | late i origin name task closed pool result =>
    subst result
    exact ⟨hstarted, hempty, hlast⟩
  | giveUp i name lease alive pool result =>
    subst result
    exact ⟨hstarted, hempty, hlast⟩
  | refill i task opened fresh pool result =>
    subst result
    exact ⟨hstarted, hempty, hlast⟩
  | failPhase i origin phase task =>
    cases phase with
    | complete => exact ⟨hstarted, hempty, hlast⟩
    | deleting =>
      exact closing_of_cleaned (PrewarmPoolState.beginCleanup_cleaned _ capacity) rfl hstarted hempty
    | creating =>
      exact closing_of_cleaned (PrewarmPoolState.beginCleanup_cleaned _ capacity) rfl hstarted hempty
  | beginClose pending =>
    exact closing_of_cleaned (PrewarmPoolState.beginCleanup_cleaned _ capacity) rfl hstarted hempty
  | endFilling filling =>
    have := closing_releaseHandle hs
    exact ⟨this.started, this.empty, this.lastHandle⟩
  | dropHandle filling handle => exact closing_releaseHandle hs
  | cloneHandle filling handle => exact ⟨hstarted, hempty, fun hzero => nomatch hzero⟩
  | callClose alive => exact ⟨hstarted, hempty, fun _ => Or.inl (Nat.succ_pos _)⟩
  | _ => exact ⟨hstarted, hempty, hlast⟩

theorem fail_closes (capacity : Nat) (p : PrewarmPoolState) (phase : PrewarmReturnPhase)
    (h : phase ≠ .complete) :
    (p.failAndBeginCleanup phase capacity).value.2.accepting = false := by
  cases phase with
  | complete => exact absurd rfl h
  | deleting | creating => exact (PrewarmPoolState.beginCleanup_cleaned _ capacity).accepting

/-- A closed pool stays closed. -/
theorem closed_step (h : Transition capacity s a t) (hs : s.pool.accepting = false) :
    t.pool.accepting = false := by
  cases h with
  | reserve left filling opened | published i origin name task opened =>
    rw [hs] at opened
    cases opened
  | lease name rest checkout opened | refill i task opened =>
    rw [hs] at opened
    cases opened
  | late i origin name task closed pool result | giveUp i name lease alive pool result =>
    subst result
    exact hs
  | failPhase i origin phase task =>
    cases phase with
    | complete => exact hs
    | deleting | creating => exact fail_closes capacity s.pool _ nofun
  | beginClose pending => exact (PrewarmPoolState.beginCleanup_cleaned _ capacity).accepting
  | _ => exact hs

theorem closing (h : (machine capacity).Reachable s) : Closing s := by
  have hinv : (machine capacity).Invariant Closing := by
    refine ⟨?_, fun s a t _ hs hstep => closing_step (step_transition capacity s t a hstep) hs⟩
    intro _ heq
    obtain rfl := heq
    refine ⟨rfl, fun hclosed => ?_, fun hzero => ?_⟩
    · cases hclosed
    · cases hzero
  exact hinv.holds h

theorem closed_run {actions : List Action} (hs : (machine capacity).Reachable s)
    (hclosed : s.pool.accepting = false) (h : (machine capacity).run s actions = some t) :
    t.pool.accepting = false :=
  hs.run_related (R := fun _ u => u.pool.accepting = false) hclosed
    (fun u a v _ hu hstep => closed_step (step_transition capacity u v a hstep) hu) h

/-- Nobody holds a pool that nobody has closed. -/
theorem alive_of_accepting (hs : Closing s) (hopened : s.pool.accepting = true) : s.alive = true := by
  rw [alive_iff]
  by_cases hzero : s.publicHandles = 0
  · rcases hs.lastHandle hzero with hpending | hclosed
    · exact Or.inr (Or.inl hpending)
    · rw [hopened] at hclosed
      cases hclosed
  · exact Or.inl (Nat.pos_of_ne_zero hzero)

theorem count_owned (s : State) (n : Text) :
    s.owned.count n = s.pool.ready.count n + s.leases.count n +
      (s.tasks.flatMap Task.names).count n + s.taken.count n := by
  rw [State.owned, List.count_append, List.count_append, List.count_append]

/-- What the tasks carry once one of them is replaced. -/
theorem carried_replace (f : Task → List Text) {i : Nat} {x : Task} (task : s.tasks[i]? = some x)
    (next : List Task) (n : Text) :
    ((s.tasks.eraseIdx i ++ next).flatMap f).count n + (f x).count n =
      (s.tasks.flatMap f).count n + (next.flatMap f).count n := by
  have := Ledger.count_flatMap_eraseIdx f n s.tasks i x task
  rw [List.flatMap_append, List.count_append]
  omega

theorem carried_append (f : Task → List Text) (next : List Task) (n : Text) :
    ((s.tasks ++ next).flatMap f).count n = (s.tasks.flatMap f).count n + (next.flatMap f).count n := by
  rw [List.flatMap_append, List.count_append]

/-- A counted deletion keeps its database unless the queue refused it. -/
theorem submitted_names (accepted : Bool) (name n : Text) :
    (submitted accepted name).names.count n ≤ [name].count n := by
  cases accepted
  · exact Nat.zero_le _
  · exact Nat.le_refl _

theorem count_eraseIdx {xs : List Text} {i : Nat} {x : Text} (h : xs[i]? = some x) (n : Text) :
    (xs.eraseIdx i).count n + [x].count n = xs.count n := by
  obtain ⟨hi, rfl⟩ := List.getElem?_eq_some_iff.mp h
  have hperm := (List.getElem_cons_eraseIdx_perm hi).count_eq n
  rw [← List.singleton_append, List.count_append] at hperm
  omega

/-- What a closure takes it answers for. -/
theorem owned_of_cleaned {p : PrewarmPoolState} {c : Checked (Option (List Text) × PrewarmPoolState)}
    (h : p.Cleaned capacity c) (n : Text) :
    c.value.2.ready.count n +
      ((s.closers ++ [Closer.begun (c.value.1.getD [])]).flatMap (·.ready)).count n =
        p.ready.count n + s.taken.count n := by
  rw [← h.ready, List.flatMap_append, List.count_append, List.count_append, State.taken,
    List.flatMap_singleton]
  show _ + (_ + (c.value.1.getD []).count n) = _
  omega

/-- A step that leaves the databases alone only hands them on. -/
theorem owned_of_counts {n : Text} (existing : t.existing = s.existing)
    (h : t.pool.ready.count n + t.leases.count n + (t.tasks.flatMap Task.names).count n +
        t.taken.count n ≤
      s.pool.ready.count n + s.leases.count n + (s.tasks.flatMap Task.names).count n +
        s.taken.count n) :
    t.owned.count n + s.existing.count n ≤ s.owned.count n + t.existing.count n := by
  rw [count_owned, count_owned, existing]
  exact Nat.add_le_add_right h _

theorem owned_count_step (h : Transition capacity s a t) (n : Text) :
    t.owned.count n + s.existing.count n ≤ s.owned.count n + t.existing.count n := by
  cases h with
  | move a own i x next existing used task rule =>
    have htask := carried_replace Task.names task next n
    have hrule := rule.names n
    rw [count_owned, count_owned]
    show s.pool.ready.count n + s.leases.count n +
      ((s.tasks.eraseIdx i ++ next).flatMap Task.names).count n + s.taken.count n + _ ≤
        _ + existing.count n
    omega
  | reserve left filling opened room held asserts =>
    refine owned_of_counts rfl ?_
    have htask : ((s.tasks ++ [Task.reserved .filling]).flatMap Task.names).count n =
      (s.tasks.flatMap Task.names).count n := carried_append Task.names _ n
    show s.pool.ready.count n + s.leases.count n +
      ((s.tasks ++ [Task.reserved .filling]).flatMap Task.names).count n + s.taken.count n ≤ _
    omega
  | published i origin name task opened fresh pool result =>
    subst result
    refine owned_of_counts rfl ?_
    have htask : ((s.tasks.eraseIdx i ++ [Task.pushed origin]).flatMap Task.names).count n +
      [name].count n = (s.tasks.flatMap Task.names).count n := carried_replace Task.names task _ n
    show (s.pool.ready ++ [name]).count n + s.leases.count n +
      ((s.tasks.eraseIdx i ++ [Task.pushed origin]).flatMap Task.names).count n + s.taken.count n ≤ _
    rw [List.count_append]
    omega
  | late i origin name task closed pool result =>
    subst result
    refine owned_of_counts rfl ?_
    have hnames : (lateDeletion origin name).names = [name] := by cases origin <;> rfl
    have htask := carried_replace Task.names task [lateDeletion origin name] n
    rw [List.flatMap_singleton, hnames, show (Task.made origin name).names = [name] from rfl] at htask
    show s.pool.ready.count n + s.leases.count n +
      ((s.tasks.eraseIdx i ++ [lateDeletion origin name]).flatMap Task.names).count n +
        s.taken.count n ≤ _
    omega
  | addToken i origin task | noRefill i task | finishDeletion i task =>
    refine owned_of_counts rfl ?_
    have htask : ((s.tasks.eraseIdx i ++ []).flatMap Task.names).count n =
      (s.tasks.flatMap Task.names).count n := carried_replace Task.names task [] n
    show s.pool.ready.count n + s.leases.count n +
      ((s.tasks.eraseIdx i ++ []).flatMap Task.names).count n + s.taken.count n ≤ _
    omega
  | refill i task opened fresh pool result =>
    subst result
    refine owned_of_counts rfl ?_
    have htask : ((s.tasks.eraseIdx i ++ [Task.reserved .refill]).flatMap Task.names).count n =
      (s.tasks.flatMap Task.names).count n := carried_replace Task.names task _ n
    show s.pool.ready.count n + s.leases.count n +
      ((s.tasks.eraseIdx i ++ [Task.reserved .refill]).flatMap Task.names).count n +
        s.taken.count n ≤ _
    omega
  | queueDeletion i name accepted task =>
    refine owned_of_counts rfl ?_
    have hnames := submitted_names accepted name n
    have htask := carried_replace Task.names task [submitted accepted name] n
    rw [List.flatMap_singleton, show (Task.unqueued name).names = [name] from rfl] at htask
    show s.pool.ready.count n + s.leases.count n +
      ((s.tasks.eraseIdx i ++ [submitted accepted name]).flatMap Task.names).count n +
        s.taken.count n ≤ _
    omega
  | failPhase i origin phase task =>
    refine owned_of_counts rfl ?_
    have htask : ((s.tasks.eraseIdx i ++ []).flatMap Task.names).count n =
      (s.tasks.flatMap Task.names).count n := carried_replace Task.names task [] n
    have hclean : (s.pool.failAndBeginCleanup phase capacity).value.2.ready.count n +
        ((s.closers ++ [Closer.begun
          ((s.pool.failAndBeginCleanup phase capacity).value.1.getD [])]).flatMap (·.ready)).count n =
        s.pool.ready.count n + s.taken.count n := by
      cases phase with
      | complete =>
        show s.pool.ready.count n + ((s.closers ++ [Closer.begun []]).flatMap (·.ready)).count n = _
        rw [List.flatMap_append, List.count_append]
        rfl
      | deleting | creating => exact owned_of_cleaned (PrewarmPoolState.beginCleanup_cleaned _ capacity) n
    show (s.pool.failAndBeginCleanup phase capacity).value.2.ready.count n + s.leases.count n +
      ((s.tasks.eraseIdx i ++ []).flatMap Task.names).count n +
        ((s.closers ++ [Closer.begun
          ((s.pool.failAndBeginCleanup phase capacity).value.1.getD [])]).flatMap (·.ready)).count n ≤ _
    omega
  | beginClose pending =>
    refine owned_of_counts rfl ?_
    have hclean := owned_of_cleaned (s := s) (PrewarmPoolState.beginCleanup_cleaned s.pool capacity) n
    show (s.pool.beginCleanup capacity).value.2.ready.count n + s.leases.count n +
      (s.tasks.flatMap Task.names).count n + ((s.closers ++ [Closer.begun
        ((s.pool.beginCleanup capacity).value.1.getD [])]).flatMap (·.ready)).count n ≤ _
    omega
  | closeSemaphores i ready closer =>
    refine owned_of_counts rfl (Nat.add_le_add_left (Nat.le_of_eq ?_) _)
    have htaken : ((s.closers.set i (.queueing ready)).flatMap (·.ready)).count n + ready.count n =
      s.taken.count n + ready.count n := Ledger.count_flatMap_set _ n s.closers i _ _ closer
    exact Nat.add_right_cancel htaken
  | queueTaken i name rest accepted closer =>
    refine owned_of_counts rfl ?_
    have hnames := submitted_names accepted name n
    have htaken : ((s.closers.set i (.queueing rest)).flatMap (·.ready)).count n + (name :: rest).count n =
      s.taken.count n + rest.count n := Ledger.count_flatMap_set _ n s.closers i _ _ closer
    have htask := carried_append Task.names (s := s) [submitted accepted name] n
    rw [List.flatMap_singleton] at htask
    rw [← List.singleton_append, List.count_append] at htaken
    show s.pool.ready.count n + s.leases.count n +
      ((s.tasks ++ [submitted accepted name]).flatMap Task.names).count n +
        ((s.closers.set i (.queueing rest)).flatMap (·.ready)).count n ≤ _
    omega
  | finishClose i closer =>
    refine owned_of_counts rfl (Nat.add_le_add_left (Nat.le_of_eq ?_) _)
    exact Ledger.count_flatMap_set (fun c : Closer => c.ready) n s.closers i _ .finished closer
  | lease name rest checkout opened ready pool result =>
    subst result
    refine owned_of_counts rfl ?_
    have hready : s.pool.ready.count n = [name].count n + rest.count n := by
      rw [ready, ← List.singleton_append, List.count_append]
    show rest.count n + (s.leases ++ [name]).count n + (s.tasks.flatMap Task.names).count n +
      s.taken.count n ≤ _
    rw [List.count_append]
    omega
  | giveUp i name lease alive pool result =>
    subst result
    refine owned_of_counts rfl ?_
    have hlease := count_eraseIdx lease n
    have htask : ((s.tasks ++ [Task.submitting name]).flatMap Task.names).count n =
      (s.tasks.flatMap Task.names).count n + [name].count n := carried_append Task.names _ n
    show s.pool.ready.count n + (s.leases.eraseIdx i).count n +
      ((s.tasks ++ [Task.submitting name]).flatMap Task.names).count n + s.taken.count n ≤ _
    omega
  | giveUpAlone i name lease gone =>
    refine owned_of_counts rfl ?_
    have hlease := count_eraseIdx lease n
    have htask : ((s.tasks ++ [Task.uncounted name]).flatMap Task.names).count n =
      (s.tasks.flatMap Task.names).count n + [name].count n := carried_append Task.names _ n
    show s.pool.ready.count n + (s.leases.eraseIdx i).count n +
      ((s.tasks ++ [Task.uncounted name]).flatMap Task.names).count n + s.taken.count n ≤ _
    omega
  | _ => exact Nat.le_refl _

theorem owned_step (h : Transition capacity s a t) (hs : Owned s) : Owned t := by
  have hexisting : t.existing.Nodup ∧ ∀ n ∈ t.existing, n ∈ t.used := by
    cases h with
    | move a own i x next existing used task rule => exact rule.existing hs.nodup hs.used
    | _ => exact ⟨hs.nodup, hs.used⟩
  refine ⟨fun n => ?_, hexisting.1, hexisting.2⟩
  have := owned_count_step h n
  have := hs.count n
  omega

theorem owned (h : (machine capacity).Reachable s) : Owned s := by
  have hinv : (machine capacity).Invariant Owned := by
    refine ⟨?_, fun s a t _ hs hstep => owned_step (step_transition capacity s t a hstep) hs⟩
    intro _ heq
    obtain rfl := heq
    exact ⟨fun _ => Nat.le_refl 0, List.nodup_nil, fun _ hn => nomatch hn⟩
  exact hinv.holds h

theorem Owned.names_existing (hs : Owned s) {i : Nat} {x : Task} (task : s.tasks[i]? = some x)
    {n : Text} (hn : n ∈ x.names) : n ∈ s.existing := by
  have hpos := Ledger.count_flatMap_pos Task.names task hn
  have hle := hs.count n
  rw [count_owned] at hle
  exact List.count_pos_iff.mp (by omega)

theorem submitted_weight (accepted : Bool) (name : Text) :
    (submitted accepted name).potential = 0 ∧ (submitted accepted name).weight = 0 := by
  cases accepted <;> exact ⟨rfl, rfl⟩

/-- A task gives way to others, and what they may create and what they hold moves by the difference. -/
theorem fits_replace {i : Nat} {x : Task} (task : s.tasks[i]? = some x) (next : List Task)
    (hs : s.existing.length + s.total Task.potential ≤
      s.pool.ready.length + s.leases.length + s.total Task.weight)
    (tasks : t.tasks = s.tasks.eraseIdx i ++ next)
    (h : t.existing.length + (next.map Task.potential).sum + x.weight + (s.pool.ready.length + s.leases.length) ≤
      s.existing.length + x.potential + (next.map Task.weight).sum + (t.pool.ready.length + t.leases.length)) :
    t.existing.length + t.total Task.potential ≤
      t.pool.ready.length + t.leases.length + t.total Task.weight := by
  have hpotential := total_replace task next Task.potential
  have hweight := total_replace task next Task.weight
  rw [State.total, State.total, tasks]
  omega

/-- A step that frees a slot of an open pool removes the database that took it up. -/
theorem fitting_step (h : Transition capacity s a t) (hclosing : Closing s) (howned : Owned s)
    (hs : Fitting s) : Fitting t := by
  intro hopened
  have hbefore : s.pool.accepting = true := by
    by_contra hclosed
    rw [closed_step h (Bool.not_eq_true _ ▸ hclosed)] at hopened
    cases hopened
  have hs := hs hbefore
  cases h with
  | move a own i x next existing used task rule =>
    have hrule := rule.weight_le fun _ hn => howned.names_existing task hn
    refine fits_replace task next hs rfl ?_
    show existing.length + (next.map Task.potential).sum + x.weight + (s.pool.ready.length + s.leases.length) ≤
      s.existing.length + x.potential + (next.map Task.weight).sum + (s.pool.ready.length + s.leases.length)
    omega
  | reserve left filling opened room held asserts =>
    have hpotential : ((s.tasks ++ [Task.reserved .filling]).map Task.potential).sum =
      s.total Task.potential + 1 := total_append _ _
    have hweight : ((s.tasks ++ [Task.reserved .filling]).map Task.weight).sum =
      s.total Task.weight + 1 := total_append _ _
    show s.existing.length + ((s.tasks ++ [Task.reserved .filling]).map Task.potential).sum ≤
      s.pool.ready.length + s.leases.length +
        ((s.tasks ++ [Task.reserved .filling]).map Task.weight).sum
    omega
  | published i origin name task opened fresh pool result =>
    subst result
    refine fits_replace task [.pushed origin] hs rfl ?_
    show s.existing.length + 0 + 1 + (s.pool.ready.length + s.leases.length) ≤
      s.existing.length + 0 + 0 + ((s.pool.ready ++ [name]).length + s.leases.length)
    rw [List.length_append, List.length_singleton]
    omega
  | late i origin name task closed pool result =>
    refine absurd ⟨hbefore, ?_⟩ closed
    rw [hclosing.started, hbefore]
    rfl
  | addToken i origin task =>
    exact fits_replace task [] hs rfl (Nat.le_refl _)
  | noRefill i task closed =>
    refine absurd ⟨hbefore, ?_⟩ closed
    rw [hclosing.started, hbefore]
    rfl
  | finishDeletion i task =>
    exact fits_replace task [] hs rfl (Nat.le_refl _)
  | queueDeletion i name accepted task =>
    obtain ⟨hp, hw⟩ := submitted_weight accepted name
    refine fits_replace task [submitted accepted name] hs rfl ?_
    rw [List.map_singleton, List.sum_singleton, List.map_singleton, List.sum_singleton, hp, hw]
    exact Nat.le_refl _
  | failPhase i origin phase task =>
    cases phase with
    | complete =>
      exact fits_replace task [] hs rfl (Nat.le_refl _)
    | deleting =>
      have hclosed := fail_closes capacity s.pool .deleting nofun
      exact Bool.noConfusion (hclosed.symm.trans hopened)
    | creating =>
      have hclosed := fail_closes capacity s.pool .creating nofun
      exact Bool.noConfusion (hclosed.symm.trans hopened)
  | beginClose pending =>
    have hclosed := (PrewarmPoolState.beginCleanup_cleaned s.pool capacity).accepting
    rw [show (s.pool.beginCleanup capacity).value.2.accepting = true from hopened] at hclosed
    cases hclosed
  | queueTaken i name rest accepted closer =>
    obtain ⟨hp, hw⟩ := submitted_weight accepted name
    have hpotential := total_append (s := s) [submitted accepted name] Task.potential
    have hweight := total_append (s := s) [submitted accepted name] Task.weight
    simp only [List.map_cons, List.map_nil, List.sum_cons, List.sum_nil, hp, hw] at hpotential hweight
    show s.existing.length + ((s.tasks ++ [submitted accepted name]).map Task.potential).sum ≤
      s.pool.ready.length + s.leases.length +
        ((s.tasks ++ [submitted accepted name]).map Task.weight).sum
    omega
  | lease name rest checkout opened ready pool result =>
    subst result
    rw [ready, List.length_cons] at hs
    show s.existing.length + s.total Task.potential ≤
      rest.length + (s.leases ++ [name]).length + s.total Task.weight
    rw [List.length_append, List.length_singleton]
    omega
  | giveUp i name lease alive pool result =>
    subst result
    have hlease := Ledger.length_eraseIdx lease
    have hpotential : ((s.tasks ++ [Task.submitting name]).map Task.potential).sum =
      s.total Task.potential + 0 := total_append _ _
    have hweight : ((s.tasks ++ [Task.submitting name]).map Task.weight).sum =
      s.total Task.weight + 1 := total_append _ _
    show s.existing.length + ((s.tasks ++ [Task.submitting name]).map Task.potential).sum ≤
      s.pool.ready.length + (s.leases.eraseIdx i).length +
        ((s.tasks ++ [Task.submitting name]).map Task.weight).sum
    omega
  | giveUpAlone i name lease gone =>
    rw [alive_of_accepting hclosing hbefore] at gone
    cases gone
  | refill i task opened fresh pool result =>
    subst result
    exact fits_replace task [.reserved .refill] hs rfl (Nat.le_refl _)
  | _ => exact hs

theorem fitting (h : (machine capacity).Reachable s) : Fitting s := by
  have hinv : (machine capacity).Invariant Fitting := by
    refine ⟨?_, fun s a t hreach hs hstep => ?_⟩
    · intro _ heq _
      obtain rfl := heq
      exact Nat.le_refl 0
    · exact fitting_step (step_transition capacity s t a hstep) (closing hreach) (owned hreach) hs
  exact hinv.holds h

theorem weight_le (x : Task) : x.weight ≤ x.creates + x.deletes := by
  cases x <;> first | exact Nat.le_refl _ | exact Nat.zero_le _

theorem total_weight_le (s : State) :
    s.total Task.weight ≤ s.total Task.creates + s.total Task.deletes := by
  simp only [State.total]
  induction s.tasks with
  | nil => exact Nat.le_refl 0
  | cons x rest ih =>
    have := weight_le x
    simp only [List.map_cons, List.sum_cons]
    omega

/-- What an open pool has, and may still create, fits its capacity. -/
theorem Fitting.le_capacity (hs : Fitting s) (hacc : Accounted capacity s) (hclosing : Closing s)
    (hopened : s.pool.accepting = true) :
    s.existing.length + s.total Task.potential ≤ capacity := by
  have hcounted := hacc.counted (alive_of_accepting hclosing hopened)
  have hweight := total_weight_le s
  have hslots := hacc.slots
  rw [Slots, PrewarmPoolState.occupiedSlots, hcounted.leased, hcounted.creating,
    hcounted.deleting] at hslots
  have := hs hopened
  omega

/-- Nothing is added to the databases of a pool that is closed or about to close. -/
theorem length_step (h : Transition capacity s a t) (hclosed : t.pool.accepting = false) :
    t.existing.length + t.total Task.potential ≤ s.existing.length + s.total Task.potential := by
  have hremove : ∀ (i : Nat) (x : Task) (next : List Task), s.tasks[i]? = some x →
      (next.map Task.potential).sum ≤ x.potential →
        ((s.tasks.eraseIdx i ++ next).map Task.potential).sum ≤ s.total Task.potential := by
    intro i x next task hnext
    have := total_replace task next Task.potential
    omega
  cases h with
  | move a own i x next existing used task rule =>
    have hpotential := total_replace task next Task.potential
    have hrule := rule.length_le
    show existing.length + ((s.tasks.eraseIdx i ++ next).map Task.potential).sum ≤ _
    omega
  | reserve left filling opened room held asserts =>
    rw [show s.pool.accepting = false from hclosed] at opened
    cases opened
  | refill i task opened fresh pool result =>
    subst result
    rw [show s.pool.accepting = false from hclosed] at opened
    cases opened
  | published i origin name task =>
    exact Nat.add_le_add_left (hremove i _ [.pushed origin] task (Nat.le_refl 0)) _
  | addToken i origin task | failPhase i origin phase task =>
    exact Nat.add_le_add_left (hremove i _ [] task (Nat.le_refl 0)) _
  | noRefill i task | finishDeletion i task =>
    exact Nat.add_le_add_left (hremove i _ [] task (Nat.le_refl 0)) _
  | late i origin name task closed pool result =>
    refine Nat.add_le_add_left (hremove i _ _ task ?_) _
    cases origin <;> exact Nat.le_refl 0
  | queueDeletion i name accepted task =>
    refine Nat.add_le_add_left (hremove i _ _ task ?_) _
    cases accepted <;> exact Nat.le_refl 0
  | queueTaken i name rest accepted closer =>
    refine Nat.add_le_add_left (Nat.le_of_eq ?_) _
    have hpotential := total_append (s := s) [submitted accepted name] Task.potential
    rw [List.map_singleton, List.sum_singleton, (submitted_weight accepted name).1] at hpotential
    exact hpotential
  | giveUp i name lease alive pool result | giveUpAlone i name lease gone =>
    exact Nat.add_le_add_left (Nat.le_of_eq (total_append _ _)) _
  | _ => exact Nat.le_refl _

/-- What a pool of capacity `N` guarantees in every state of every run. -/
structure WithinCapacity (capacity : Nat) (s : State) : Prop where
  slots : s.pool.occupiedSlots ≤ capacity
  /-- As long as the pool has a state at all, its counters are exact. -/
  counted : s.alive = true → Counted s
  /-- No debug assertion has fired: none of the subtractions saturated. -/
  asserts : s.assertsHeld = true
  closed : ∀ actions t, (machine capacity).run s actions = some t → s.pool.accepting = false →
    t.pool.accepting = false ∧ t.pool.ready = []
  databases : s.existing.length ≤ capacity

theorem pool_within_capacity (capacity : Nat) (s : State) (hs : (machine capacity).Reachable s) :
    WithinCapacity capacity s := by
  have hacc := accounted hs
  have hlength : s.existing.length + s.total Task.potential ≤ capacity := by
    induction hs with
    | start h₀ =>
      rw [show _ = State.initial capacity from h₀]
      exact Nat.zero_le _
    | @next s t a hs hstep ih =>
      have h := step_transition capacity s t a hstep
      have ht := hs.next a hstep
      by_cases hopened : t.pool.accepting = true
      · exact (fitting ht).le_capacity hacc (closing ht) hopened
      · exact (length_step h (Bool.not_eq_true _ ▸ hopened)).trans (ih (accounted hs))
  refine ⟨(Nat.le_add_right _ _).trans hacc.slots, hacc.counted, hacc.asserts, ?_,
    (Nat.le_add_right _ _).trans hlength⟩
  intro actions t hrun hclosed
  have hstill := closed_run hs hclosed hrun
  exact ⟨hstill, (closing (hs.run hrun)).empty hstill⟩

/-- Of two databases one is leased and returned, and its refill passes the gate while a
shutdown takes the other. -/
def closedDuringRefill : List Action :=
  [.beginCreation, .gate 0 true "a".toList, .creationReturns 0 (some true), .publish 0, .addToken 0,
    .beginCreation, .gate 0 true "b".toList, .creationReturns 0 (some true), .publish 0, .addToken 0,
    .beginCreation, .reserveToken, .checkout, .giveUp 0, .answer 0 true, .dropReturns 0 true,
    .afterDrop 0, .gate 0 true "c".toList, .callClose, .beginClose]

theorem pool_within_capacity_closing : ∃ s, (machine 2).run (State.initial 2) closedDuringRefill = some s ∧
    s.taken = ["b".toList] ∧ s.existing.length = 2 ∧ WithinCapacity 2 s := by
  refine ⟨_, rfl, rfl, rfl, ?_⟩
  exact pool_within_capacity 2 _ (Machine.reachable_of_run closedDuringRefill rfl rfl)

end Steps

end PostgresTestHarness.Prewarm
