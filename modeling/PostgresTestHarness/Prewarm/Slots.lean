import PostgresTestHarness.Library.Ledger
import PostgresTestHarness.Prewarm.System

/-! The slot counters of a prewarm pool count what holds the slots.

While somebody holds the pool, each counter is the number of the values that stand for
it (`Counted`). Only the `prewarm` loop adds a slot, and it has a budget (`Slots`), so
no assertion fires and no subtraction saturates. -/
namespace PostgresTestHarness.Prewarm

namespace Task

/-- What the task counts for in `creating`. -/
def creates : Task → Nat
  | .reserved origin | .attempting origin _ => if origin = .detached then 0 else 1
  | .made _ _ | .failing _ .creating => 1
  | _ => 0

/-- What the task counts for in `deleting`. -/
def deletes : Task → Nat
  | .submitting _ | .dropping _ | .dropped | .unqueued _ | .surplus _ | .deleted => 1
  | .failing _ .deleting => 1
  | _ => 0

/-- The database the task answers for. -/
def names : Task → List Text
  | .submitting name | .dropping name | .attempting _ name | .made _ name | .unqueued name
  | .surplus name | .uncounted name => [name]
  | _ => []

/-- A creation that may still make a database. -/
def potential : Task → Nat
  | .reserved _ => 1
  | _ => 0

/-- The slot a database or a creation to come takes up in a pool that accepts: a task that
has dropped its database leaves its slot free for the replacement. -/
def weight : Task → Nat
  | .dropped | .unqueued _ | .surplus _ | .deleted => 0
  | x => x.creates + x.deletes

end Task

namespace State

/-- A sum over the tasks. -/
def total (s : State) (f : Task → Nat) : Nat := (s.tasks.map f).sum

/-- Idle databases taken by a closure and not queued. -/
def taken (s : State) : List Text := s.closers.flatMap (·.ready)

/-- Every database that somebody answers for. -/
def owned (s : State) : List Text :=
  s.pool.ready ++ s.leases ++ s.tasks.flatMap Task.names ++ s.taken

end State

/-- The counters are the numbers of their tokens. -/
structure Counted (s : State) : Prop where
  leased : s.pool.leased = s.leases.length
  creating : s.pool.creating = s.total Task.creates
  deleting : s.pool.deleting = s.total Task.deletes + s.taken.length

def Slots (capacity : Nat) (s : State) : Prop :=
  s.pool.occupiedSlots + s.filling.left ≤ capacity

section Moves
variable {x : Task} {next : List Task} {e e' u u' : List Text}

theorem fail_creates (origin : Origin) :
    (origin.fail.map Task.creates).sum = if origin = .detached then 0 else 1 := by
  cases origin <;> rfl

theorem Move.creates (h : Move x next e e' u u') : (next.map Task.creates).sum = x.creates := by
  cases h with
  | shut origin | ambiguous origin name | noResidual origin name => exact fail_creates origin
  | pass origin name _ _ fresh => exact Nat.add_zero _
  | created origin name _ _ counted => exact (if_neg counted).symm
  | _ => rfl

theorem Move.deletes (h : Move x next e e' u u') : (next.map Task.deletes).sum = x.deletes := by
  cases h with
  | shut origin | ambiguous origin name | noResidual origin name => cases origin <;> rfl
  | _ => rfl

theorem Move.holdsPool (h : Move x next e e' u u') {y : Task} (hy : y ∈ next)
    (hp : y.holdsPool = true) : x.holdsPool = true := by
  cases h with
  | shut origin | ambiguous origin name | noResidual origin name =>
    cases origin <;> first | rfl | cases hy
  | pass origin name _ _ fresh =>
    rw [List.mem_singleton.mp hy] at hp
    cases origin <;> first | rfl | cases hp
  | created origin name _ _ counted =>
    cases origin <;> first | rfl | exact absurd rfl counted
  | stray name | uncountedGone name | uncountedKept name => simp_all [Task.holdsPool]
  | _ => rfl

theorem Move.names (h : Move x next e e' u u') (name : Text) :
    (next.flatMap Task.names).count name + e.count name ≤ x.names.count name + e'.count name := by
  have herase : ∀ n : Text, e.count name ≤ [n].count name + (e.erase n).count name := by
    intro n
    rw [List.count_erase, List.count_singleton]
    split <;> omega
  have hfail : ∀ origin : Origin, (origin.fail.flatMap Task.names) = [] := fun origin => by
    cases origin <;> rfl
  cases h with
  | shut origin | ambiguous origin n =>
    rw [hfail]
    simp
  | noResidual origin n =>
    rw [hfail]
    simpa [Task.names] using herase n
  | pass origin n _ _ fresh => simp [Task.names, List.count_cons]; omega
  | gone n | surplusGone n | uncountedGone n => simpa [Task.names] using herase n
  | _ => simp [Task.names]

theorem Move.existing (h : Move x next e e' u u') (hnodup : e.Nodup) (hused : ∀ n ∈ e, n ∈ u) :
    e'.Nodup ∧ ∀ n ∈ e', n ∈ u' := by
  cases h with
  | pass origin name _ _ fresh =>
    refine ⟨List.nodup_cons.mpr ⟨fun hn => fresh (hused name hn), hnodup⟩, fun n hn => ?_⟩
    rcases List.mem_cons.mp hn with rfl | hn
    · exact List.mem_cons_self
    · exact List.mem_cons_of_mem _ (hused n hn)
  | noResidual | gone | surplusGone | uncountedGone =>
    exact ⟨hnodup.erase _, fun n hn => hused n (List.mem_of_mem_erase hn)⟩
  | _ => exact ⟨hnodup, hused⟩

/-- No move adds to what exists or may come to exist. -/
theorem Move.length_le (h : Move x next e e' u u') :
    e'.length + (next.map Task.potential).sum ≤ e.length + x.potential := by
  have herase : ∀ n : Text, (e.erase n).length ≤ e.length := fun n => List.length_erase_le
  cases h with
  | shut origin | ambiguous origin name => cases origin <;> simp [Origin.fail, Task.potential]
  | noResidual origin name =>
    have := herase name
    cases origin <;> simpa [Origin.fail, Task.potential] using this
  | pass origin name _ _ fresh => simp [Task.potential]
  | gone n | surplusGone n | uncountedGone n => simpa [Task.potential] using herase n
  | _ => simp [Task.potential]

/-- A move that frees a slot removes the database that took it up. -/
theorem Move.weight_le (h : Move x next e e' u u') (howned : ∀ n ∈ x.names, n ∈ e) :
    e'.length + (next.map Task.potential).sum + x.weight ≤
      e.length + x.potential + (next.map Task.weight).sum := by
  have herase : ∀ n : Text, (e.erase n).length ≤ e.length := fun n => List.length_erase_le
  cases h with
  | shut origin | ambiguous origin name =>
    cases origin <;> simp [Origin.fail, Task.potential, Task.weight, Task.creates, Task.deletes]
  | noResidual origin name =>
    have := herase name
    cases origin <;>
      simpa [Origin.fail, Task.potential, Task.weight, Task.creates, Task.deletes] using this
  | pass origin name _ _ fresh =>
    cases origin <;> simp [Task.potential, Task.weight, Task.creates, Task.deletes]
  | created origin name _ _ counted =>
    simp [Task.potential, Task.weight, Task.creates, Task.deletes, counted]
  | gone n =>
    have hmem : n ∈ e := howned n List.mem_cons_self
    have hlength := List.length_erase_of_mem hmem
    have hpos := List.length_pos_of_mem hmem
    simp only [List.map_cons, List.map_nil, List.sum_cons, List.sum_nil, Task.potential, Task.weight,
      Task.creates, Task.deletes]
    omega
  | surplusGone n | uncountedGone n =>
    have := herase n
    simp only [List.map_cons, List.map_nil, List.sum_cons, List.sum_nil, Task.potential, Task.weight,
      Task.creates, Task.deletes]
    omega
  | _ => simp [Task.potential, Task.weight, Task.creates, Task.deletes]

end Moves

section Steps
variable {capacity : Nat} {s t : State} {a : Action}

theorem total_replace {i : Nat} {x : Task} (task : s.tasks[i]? = some x) (next : List Task)
    (f : Task → Nat) :
    ((s.tasks.eraseIdx i ++ next).map f).sum + f x = s.total f + (next.map f).sum := by
  have := Ledger.sum_map_eraseIdx f task
  rw [List.map_append, List.sum_append, State.total]
  omega

theorem total_append (next : List Task) (f : Task → Nat) :
    ((s.tasks ++ next).map f).sum = s.total f + (next.map f).sum := by
  rw [List.map_append, List.sum_append, State.total]

theorem le_total {i : Nat} {x : Task} (task : s.tasks[i]? = some x) (f : Task → Nat) :
    f x ≤ s.total f := by
  have := Ledger.sum_map_eraseIdx f task
  rw [State.total]
  omega

theorem alive_iff (s : State) : s.alive = true ↔ 0 < s.publicHandles ∨ 0 < s.pendingCloses ∨
    (∃ c ∈ s.closers, c.running = true) ∨ 0 < s.checkouts ∨ s.filling ≠ .done ∨
      ∃ x ∈ s.tasks, x.holdsPool = true := by
  simp only [State.alive, Bool.or_eq_true, decide_eq_true_eq, List.any_eq_true, or_assoc]

theorem alive_of_task {i : Nat} {x : Task} (task : s.tasks[i]? = some x)
    (hp : x.holdsPool = true) : s.alive = true := by
  refine (alive_iff s).mpr (Or.inr (Or.inr (Or.inr (Or.inr (Or.inr ?_)))))
  exact ⟨x, List.mem_of_getElem? task, hp⟩

theorem alive_of_handle (h : 0 < s.publicHandles) : s.alive = true :=
  (alive_iff s).mpr (Or.inl h)

theorem alive_of_filling (h : s.filling ≠ .done) : s.alive = true :=
  (alive_iff s).mpr (by tauto)

theorem alive_of_checkout (h : 0 < s.checkouts) : s.alive = true :=
  (alive_iff s).mpr (by tauto)

theorem alive_of_closer {i : Nat} {c : Closer} (h : s.closers[i]? = some c)
    (hrunning : c.running = true) : s.alive = true :=
  (alive_iff s).mpr (Or.inr (Or.inr (Or.inl ⟨c, List.mem_of_getElem? h, hrunning⟩)))

/-- A pool that is gone stays gone. -/
theorem alive_before (h : Transition capacity s a t) (ht : t.alive = true) : s.alive = true := by
  cases h with
  | move a own i x next existing used task rule =>
    rcases (alive_iff _).mp ht with h | h | h | h | h | ⟨y, hy, hp⟩
    · exact (alive_iff s).mpr (Or.inl h)
    · exact (alive_iff s).mpr (Or.inr (Or.inl h))
    · exact (alive_iff s).mpr (Or.inr (Or.inr (Or.inl h)))
    · exact alive_of_checkout h
    · exact alive_of_filling h
    · rcases List.mem_append.mp hy with hy | hy
      · obtain ⟨k, hk⟩ := List.mem_iff_getElem?.mp (List.mem_of_mem_eraseIdx hy)
        exact alive_of_task hk hp
      · exact alive_of_task task (rule.holdsPool hy hp)
  | filled filling | refused left filling | reserve left filling | endFilling filling =>
    exact alive_of_filling (by rw [filling]; exact fun h => nomatch h)
  | published i origin name task | late i origin name task | addToken i origin task
  | queueDeletion i name accepted task | failPhase i origin phase task | refill i task
  | noRefill i task | finishDeletion i task => exact alive_of_task task rfl
  | cloneHandle filling handle | dropHandle filling handle | reserveToken filling handle =>
    exact alive_of_handle handle
  | callClose alive | giveUp i name lease alive => exact alive
  | beginClose pending => exact (alive_iff s).mpr (Or.inr (Or.inl pending))
  | closeSemaphores i ready closer | queueTaken i name rest accepted closer
  | finishClose i closer => exact alive_of_closer closer rfl
  | lease name rest checkout | noLease checkout | cancelCheckout checkout =>
    exact alive_of_checkout checkout
  | giveUpAlone i name lease gone =>
    rcases (alive_iff _).mp ht with h | h | h | h | h | ⟨y, hy, hp⟩
    · exact alive_of_handle h
    · exact (alive_iff s).mpr (Or.inr (Or.inl h))
    · exact (alive_iff s).mpr (Or.inr (Or.inr (Or.inl h)))
    · exact alive_of_checkout h
    · exact alive_of_filling h
    · rcases List.mem_append.mp hy with hy | hy
      · obtain ⟨k, hk⟩ := List.mem_iff_getElem?.mp hy
        exact alive_of_task hk hp
      · rw [List.mem_singleton.mp hy] at hp
        cases hp

/-- A creating or deleting task is counted. -/
theorem Counted.creating_pos (hs : Counted s) {i : Nat} {x : Task} (task : s.tasks[i]? = some x)
    (hx : x.creates = 1) : 0 < s.pool.creating := by
  have := le_total task Task.creates
  have := hs.creating
  omega

theorem Counted.deleting_pos (hs : Counted s) {i : Nat} {x : Task} (task : s.tasks[i]? = some x)
    (hx : x.deletes = 1) : 0 < s.pool.deleting := by
  have := le_total task Task.deletes
  have := hs.deleting
  omega

theorem Counted.leased_pos (hs : Counted s) {i : Nat} {name : Text} (lease : s.leases[i]? = some name) :
    0 < s.pool.leased := by
  rw [hs.leased]
  exact List.length_pos_of_mem (List.mem_of_getElem? lease)

/-- A task gives way to others, and the counters move by the difference. -/
theorem Counted.replace (hs : Counted s) {i : Nat} {x : Task} (task : s.tasks[i]? = some x) (next : List Task)
    (tasks : t.tasks = s.tasks.eraseIdx i ++ next) (taken : t.taken.length = s.taken.length)
    (leased : t.pool.leased = t.leases.length)
    (creating : t.pool.creating + x.creates = s.pool.creating + (next.map Task.creates).sum)
    (deleting : t.pool.deleting + x.deletes = s.pool.deleting + (next.map Task.deletes).sum) : Counted t := by
  have hcreates := total_replace task next Task.creates
  have hdeletes := total_replace task next Task.deletes
  have hcreating := hs.creating
  have hdeleting := hs.deleting
  refine ⟨leased, ?_, ?_⟩
  · rw [State.total, tasks]
    omega
  · rw [State.total, tasks, taken]
    omega

/-- The idle databases a closer holds are part of what is taken. -/
theorem taken_set {i : Nat} {c : Closer} (closer : s.closers[i]? = some c) (c' : Closer) :
    ((s.closers.set i c').flatMap (·.ready)).length + c.ready.length =
      s.taken.length + c'.ready.length := by
  have := Ledger.sum_map_set (fun c : Closer => c.ready.length) c' closer
  simpa only [State.taken, List.length_flatMap] using this

theorem taken_append (ready : List Text) :
    ((s.closers ++ [Closer.begun ready]).flatMap (·.ready)).length =
      s.taken.length + ready.length := by
  rw [List.flatMap_append, List.length_append, List.flatMap_singleton]
  rfl

/-- What a database that lost its slot to a closed pool becomes. -/
abbrev lateDeletion (origin : Origin) (name : Text) : Task :=
  if origin = .filling then .unqueued name else .surplus name

/-- A counted deletion after the queue's answer. -/
abbrev submitted (accepted : Bool) (name : Text) : Task :=
  if accepted then .surplus name else .deleted

theorem lateDeletion_counts (origin : Origin) (name : Text) :
    (lateDeletion origin name).creates = 0 ∧ (lateDeletion origin name).deletes = 1 := by
  cases origin <;> exact ⟨rfl, rfl⟩

theorem submitted_counts (accepted : Bool) (name : Text) :
    (submitted accepted name).creates = 0 ∧ (submitted accepted name).deletes = 1 := by
  cases accepted <;> exact ⟨rfl, rfl⟩

/-- What a closure takes moves from the idle databases to its own. -/
theorem counted_of_cleaned {p : PrewarmPoolState}
    {c : Checked (Option (List Text) × PrewarmPoolState)}
    (h : p.Cleaned capacity c) (pool : t.pool = c.value.2)
    (taken : t.taken.length = s.taken.length + (c.value.1.getD []).length)
    (leased : p.leased = t.leases.length) (creating : p.creating = t.total Task.creates)
    (deleting : p.deleting = t.total Task.deletes + s.taken.length) : Counted t := by
  refine ⟨?_, ?_, ?_⟩
  · rw [pool, h.leased, leased]
  · rw [pool, h.creating, creating]
  · rw [pool, h.deleting, deleting, taken]
    omega

theorem counted_step (h : Transition capacity s a t) (hs : s.alive = true → Counted s)
    (ht : t.alive = true) : Counted t := by
  have hc := hs (alive_before h ht)
  have hcopy := hc
  obtain ⟨hleased, hcreating, hdeleting⟩ := hcopy
  cases h with
  | move a own i x next existing used task rule =>
    exact hc.replace task next rfl rfl hleased (by rw [rule.creates]) (by rw [rule.deletes])
  | reserve left filling opened room held asserts =>
    have hcreates := total_append (s := s) [.reserved .filling] Task.creates
    have hdeletes := total_append (s := s) [.reserved .filling] Task.deletes
    refine ⟨hleased, ?_, ?_⟩
    · show s.pool.creating + 1 = ((s.tasks ++ _).map Task.creates).sum
      rw [hcreates, hcreating]
      rfl
    · show s.pool.deleting = ((s.tasks ++ _).map Task.deletes).sum + s.taken.length
      rw [hdeletes, hdeleting]
      rfl
  | published i origin name task opened fresh pool result =>
    subst result
    have hpos := hc.creating_pos task rfl
    exact hc.replace task [.pushed origin] rfl rfl hleased (Nat.sub_add_cancel hpos) rfl
  | late i origin name task closed pool result =>
    subst result
    have hpos := hc.creating_pos task rfl
    obtain ⟨hc0, hd1⟩ := lateDeletion_counts origin name
    refine hc.replace task [lateDeletion origin name] rfl rfl hleased ?_ ?_
    · rw [List.map_singleton, List.sum_singleton, hc0]
      exact Nat.sub_add_cancel hpos
    · rw [List.map_singleton, List.sum_singleton, hd1]
      rfl
  | addToken i origin task =>
    exact hc.replace task [] rfl rfl hleased rfl rfl
  | queueDeletion i name accepted task =>
    obtain ⟨hc0, hd1⟩ := submitted_counts accepted name
    refine hc.replace task [submitted accepted name] rfl rfl hleased ?_ ?_
    · rw [List.map_singleton, List.sum_singleton, hc0]
      rfl
    · rw [List.map_singleton, List.sum_singleton, hd1]
      rfl
  | failPhase i origin phase task =>
    have hcreates := total_replace task [] Task.creates
    have hdeletes := total_replace task [] Task.deletes
    simp only [List.map_nil, List.sum_nil] at hcreates hdeletes
    cases phase with
    | deleting =>
      have hpos := hc.deleting_pos task rfl
      have hx : (Task.failing origin .deleting).creates = 0 ∧
        (Task.failing origin .deleting).deletes = 1 := ⟨rfl, rfl⟩
      have hclean := PrewarmPoolState.beginCleanup_cleaned
        { s.pool with deleting := s.pool.deleting - 1 } capacity
      refine counted_of_cleaned (s := s) hclean rfl (taken_append _) hleased ?_ ?_
      · show s.pool.creating = ((s.tasks.eraseIdx i ++ []).map Task.creates).sum
        omega
      · show s.pool.deleting - 1 =
          ((s.tasks.eraseIdx i ++ []).map Task.deletes).sum + s.taken.length
        omega
    | creating =>
      have hpos := hc.creating_pos task rfl
      have hx : (Task.failing origin .creating).creates = 1 ∧
        (Task.failing origin .creating).deletes = 0 := ⟨rfl, rfl⟩
      have hclean := PrewarmPoolState.beginCleanup_cleaned
        { s.pool with creating := s.pool.creating - 1 } capacity
      refine counted_of_cleaned (s := s) hclean rfl (taken_append _) hleased ?_ ?_
      · show s.pool.creating - 1 = ((s.tasks.eraseIdx i ++ []).map Task.creates).sum
        omega
      · show s.pool.deleting = ((s.tasks.eraseIdx i ++ []).map Task.deletes).sum + s.taken.length
        omega
    | complete =>
      exact hc.replace task [] rfl (taken_append []) hleased rfl rfl
  | beginClose pending =>
    exact counted_of_cleaned (s := s) (PrewarmPoolState.beginCleanup_cleaned s.pool capacity) rfl
      (taken_append _) hleased hcreating hdeleting
  | closeSemaphores i ready closer =>
    have htaken : ((s.closers.set i (.queueing ready)).flatMap (·.ready)).length + ready.length =
      s.taken.length + ready.length := taken_set closer (.queueing ready)
    refine ⟨hleased, hcreating, ?_⟩
    show s.pool.deleting = s.total Task.deletes +
      ((s.closers.set i (.queueing ready)).flatMap (·.ready)).length
    omega
  | queueTaken i name rest accepted closer =>
    have htaken : ((s.closers.set i (.queueing rest)).flatMap (·.ready)).length + (rest.length + 1) =
      s.taken.length + rest.length := taken_set closer (.queueing rest)
    obtain ⟨hc0, hd1⟩ := submitted_counts accepted name
    have hcreates := total_append (s := s) [submitted accepted name] Task.creates
    have hdeletes := total_append (s := s) [submitted accepted name] Task.deletes
    simp only [hc0, hd1, List.map_cons, List.map_nil, List.sum_cons, List.sum_nil] at hcreates hdeletes
    refine ⟨hleased, ?_, ?_⟩
    · show s.pool.creating = ((s.tasks ++ [submitted accepted name]).map Task.creates).sum
      omega
    · show s.pool.deleting = ((s.tasks ++ [submitted accepted name]).map Task.deletes).sum +
        ((s.closers.set i (.queueing rest)).flatMap (·.ready)).length
      omega
  | finishClose i closer =>
    have htaken : ((s.closers.set i .finished).flatMap (·.ready)).length + 0 = s.taken.length + 0 :=
      taken_set closer .finished
    refine ⟨hleased, hcreating, ?_⟩
    show s.pool.deleting = s.total Task.deletes +
      ((s.closers.set i .finished).flatMap (·.ready)).length
    omega
  | lease name rest checkout opened ready pool result =>
    subst result
    refine ⟨?_, hcreating, hdeleting⟩
    show s.pool.leased + 1 = (s.leases ++ [name]).length
    rw [List.length_append, List.length_singleton, hleased]
  | giveUp i name lease alive pool result =>
    subst result
    have hpos := hc.leased_pos lease
    have herase := Ledger.length_eraseIdx lease
    have hcreates := total_append (s := s) [.submitting name] Task.creates
    have hdeletes := total_append (s := s) [.submitting name] Task.deletes
    simp only [Task.creates, Task.deletes, List.map_cons, List.map_nil, List.sum_cons,
      List.sum_nil] at hcreates hdeletes
    refine ⟨?_, ?_, ?_⟩
    · show s.pool.leased - 1 = (s.leases.eraseIdx i).length
      omega
    · show s.pool.creating = ((s.tasks ++ _).map Task.creates).sum
      omega
    · show s.pool.deleting + 1 = ((s.tasks ++ _).map Task.deletes).sum + s.taken.length
      omega
  | giveUpAlone i name lease gone =>
    have hstep : Transition capacity s (.giveUp i) _ := .giveUpAlone i name lease gone
    rw [alive_before hstep ht] at gone
    cases gone
  | refill i task opened fresh pool result =>
    subst result
    have hpos := hc.deleting_pos task rfl
    exact hc.replace task [.reserved .refill] rfl rfl hleased rfl (Nat.sub_add_cancel hpos)
  | noRefill i task | finishDeletion i task =>
    have hpos := hc.deleting_pos task rfl
    exact hc.replace task [] rfl rfl hleased rfl (Nat.sub_add_cancel hpos)
  | _ => exact ⟨hleased, hcreating, hdeleting⟩

theorem left_goOn (f : Filling) : f.goOn.left = f.left := by
  cases f <;> rfl

/-- The filling of a step that may be the filling's own. -/
theorem left_filling (origin : Origin) (f : Filling) :
    (if origin = .filling then f.goOn else f).left ≤ f.left := by
  split
  · exact Nat.le_of_eq (left_goOn f)
  · exact Nat.le_refl _

theorem failAndBeginCleanup_occupied (p : PrewarmPoolState) (phase : PrewarmReturnPhase) :
    (p.failAndBeginCleanup phase capacity).value.2.occupiedSlots ≤ p.occupiedSlots := by
  cases phase with
  | complete => exact Nat.le_refl _
  | deleting =>
    refine Nat.le_trans (Nat.le_of_eq (PrewarmPoolState.beginCleanup_cleaned _ capacity).occupied) ?_
    show p.ready.length + p.leased + p.creating + (p.deleting - 1) ≤ p.occupiedSlots
    rw [PrewarmPoolState.occupiedSlots]
    omega
  | creating =>
    refine Nat.le_trans (Nat.le_of_eq (PrewarmPoolState.beginCleanup_cleaned _ capacity).occupied) ?_
    show p.ready.length + p.leased + (p.creating - 1) + p.deleting ≤ p.occupiedSlots
    rw [PrewarmPoolState.occupiedSlots]
    omega

/-- Only `reserve` takes a new slot, and the loop's budget pays for it. -/
theorem slots_step (h : Transition capacity s a t) (hc : s.alive = true → Counted s)
    (hs : Slots capacity s) : Slots capacity t := by
  rw [Slots, PrewarmPoolState.occupiedSlots] at hs ⊢
  cases h with
  | filled filling | refused left filling held asserts =>
    rw [filling] at hs
    exact Nat.le_of_add_right_le hs
  | endFilling filling =>
    rw [filling] at hs
    exact hs
  | reserve left filling opened room held asserts =>
    rw [filling] at hs
    show s.pool.ready.length + s.pool.leased + (s.pool.creating + 1) + s.pool.deleting + left ≤ capacity
    have : (Filling.next (left + 1)).left = left + 1 := rfl
    omega
  | published i origin name task opened fresh pool result =>
    subst result
    have hpos := (hc (alive_of_task task rfl)).creating_pos task rfl
    show (s.pool.ready ++ [name]).length + s.pool.leased + (s.pool.creating - 1) + s.pool.deleting +
      s.filling.left ≤ capacity
    rw [List.length_append, List.length_singleton]
    omega
  | late i origin name task closed pool result =>
    subst result
    have hpos := (hc (alive_of_task task rfl)).creating_pos task rfl
    show s.pool.ready.length + s.pool.leased + (s.pool.creating - 1) + (s.pool.deleting + 1) +
      s.filling.left ≤ capacity
    omega
  | addToken i origin task => exact (Nat.add_le_add_left (left_filling origin s.filling) _).trans hs
  | queueDeletion i name accepted task =>
    exact (Nat.add_le_add_left (Nat.le_of_eq (left_goOn s.filling)) _).trans hs
  | failPhase i origin phase task =>
    refine (Nat.add_le_add (failAndBeginCleanup_occupied s.pool phase) ?_).trans hs
    show (if origin = .filling then Filling.ending else s.filling).left ≤ s.filling.left
    split
    · exact Nat.zero_le _
    · exact Nat.le_refl _
  | beginClose pending =>
    have hclean := (PrewarmPoolState.beginCleanup_cleaned s.pool capacity).occupied
    exact (Nat.add_le_add_right (Nat.le_of_eq hclean) _).trans hs
  | lease name rest checkout opened ready pool result =>
    subst result
    rw [ready, List.length_cons] at hs
    show rest.length + (s.pool.leased + 1) + s.pool.creating + s.pool.deleting + s.filling.left ≤
      capacity
    omega
  | giveUp i name lease alive pool result =>
    subst result
    have hpos := (hc alive).leased_pos lease
    show s.pool.ready.length + (s.pool.leased - 1) + s.pool.creating + (s.pool.deleting + 1) +
      s.filling.left ≤ capacity
    omega
  | refill i task opened fresh pool result =>
    subst result
    have hpos := (hc (alive_of_task task rfl)).deleting_pos task rfl
    show s.pool.ready.length + s.pool.leased + (s.pool.creating + 1) + (s.pool.deleting - 1) +
      s.filling.left ≤ capacity
    omega
  | noRefill i task | finishDeletion i task =>
    show s.pool.ready.length + s.pool.leased + s.pool.creating + (s.pool.deleting - 1) +
      s.filling.left ≤ capacity
    omega
  | _ => exact hs

theorem fits_of_slots (h : Slots capacity s) : s.pool.fits capacity = true :=
  decide_eq_true ((Nat.le_add_right _ _).trans h)

/-- Every counter that a step lowers is positive, and what it leaves fits. -/
theorem asserts_step (h : Transition capacity s a t) (hc : s.alive = true → Counted s)
    (hslots : Slots capacity s) (hs : s.assertsHeld = true) : t.assertsHeld = true := by
  have hafter := fits_of_slots (slots_step h hc hslots)
  have hroom : s.pool.occupiedSlots ≤ capacity := (Nat.le_add_right _ _).trans hslots
  cases h with
  | refused left filling held asserts | reserve left filling opened room held asserts =>
    rw [Slots, filling] at hslots
    have hlt : s.pool.occupiedSlots < capacity := by
      have : (Filling.next (left + 1)).left = left + 1 := rfl
      omega
    show (s.assertsHeld && held) = true
    rw [hs, asserts, PrewarmPoolState.beginCreation_asserts hlt]
    rfl
  | published i origin name task | late i origin name task =>
    have hpos := (hc (alive_of_task task rfl)).creating_pos task rfl
    exact Bool.and_eq_true_iff.mpr ⟨hs, Bool.and_eq_true_iff.mpr ⟨decide_eq_true hpos, hafter⟩⟩
  | failPhase i origin phase task =>
    refine Bool.and_eq_true_iff.mpr ⟨hs, ?_⟩
    cases phase with
    | complete => rfl
    | deleting =>
      have hpos := (hc (alive_of_task task rfl)).deleting_pos task rfl
      refine Bool.and_eq_true_iff.mpr ⟨decide_eq_true hpos, ?_⟩
      refine (PrewarmPoolState.beginCleanup_cleaned _ capacity).asserts (Nat.le_trans ?_ hroom)
      show s.pool.ready.length + s.pool.leased + s.pool.creating + (s.pool.deleting - 1) ≤ _
      rw [PrewarmPoolState.occupiedSlots]
      omega
    | creating =>
      have hpos := (hc (alive_of_task task rfl)).creating_pos task rfl
      refine Bool.and_eq_true_iff.mpr ⟨decide_eq_true hpos, ?_⟩
      refine (PrewarmPoolState.beginCleanup_cleaned _ capacity).asserts (Nat.le_trans ?_ hroom)
      show s.pool.ready.length + s.pool.leased + (s.pool.creating - 1) + s.pool.deleting ≤ _
      rw [PrewarmPoolState.occupiedSlots]
      omega
  | beginClose pending =>
    have hclean := (PrewarmPoolState.beginCleanup_cleaned s.pool capacity).asserts hroom
    exact Bool.and_eq_true_iff.mpr ⟨hs, hclean⟩
  | lease name rest checkout opened ready pool result =>
    exact Bool.and_eq_true_iff.mpr ⟨hs, hafter⟩
  | noLease checkout held asserts => exact Bool.and_eq_true_iff.mpr ⟨hs, asserts⟩
  | giveUp i name lease alive pool result =>
    have hpos := (hc alive).leased_pos lease
    exact Bool.and_eq_true_iff.mpr ⟨hs, Bool.and_eq_true_iff.mpr ⟨decide_eq_true hpos, hafter⟩⟩
  | refill i task opened fresh pool result =>
    have hpos := (hc (alive_of_task task rfl)).deleting_pos task rfl
    exact Bool.and_eq_true_iff.mpr ⟨hs, Bool.and_eq_true_iff.mpr ⟨decide_eq_true hpos, hafter⟩⟩
  | noRefill i task | finishDeletion i task =>
    have hpos := (hc (alive_of_task task rfl)).deleting_pos task rfl
    exact Bool.and_eq_true_iff.mpr ⟨hs, decide_eq_true hpos⟩
  | _ => exact hs

/-- What the slot counters of a reachable pool satisfy. -/
structure Accounted (capacity : Nat) (s : State) : Prop where
  counted : s.alive = true → Counted s
  slots : Slots capacity s
  asserts : s.assertsHeld = true

theorem accounted (h : (machine capacity).Reachable s) : Accounted capacity s := by
  have hinv : (machine capacity).Invariant (Accounted capacity) := by
    refine ⟨?_, ?_⟩
    · intro _ heq
      obtain rfl := heq
      exact ⟨fun _ => ⟨rfl, rfl, rfl⟩, Nat.le_of_eq (Nat.zero_add capacity), rfl⟩
    · intro s a t _ hs hstep
      have h := step_transition capacity s t a hstep
      exact ⟨counted_step h hs.counted, slots_step h hs.counted hs.slots,
        asserts_step h hs.counted hs.slots hs.asserts⟩
  exact hinv.holds h

end Steps

end PostgresTestHarness.Prewarm
