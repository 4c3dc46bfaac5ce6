import PostgresTestHarness.Cleanup.Execution

/-! Where the failure of a job is.

A failing job's failure is with the queue or its worker until it is handed over, and
then in exactly one of four places: an awaited outcome nobody has consumed, the
completion state's failure list, the outcome of the one drain delivery in flight, or
delivered. `CustodyLedger` counts a job's number over all of these; every step moves
it. -/
namespace PostgresTestHarness.Cleanup

inductive Place where
  | notProduced
  | awaited
  | stored
  | inFlight
  | delivered
  deriving DecidableEq, Repr

/-- The number of a job whose failure, if there is one, the worker has not handed over. -/
def Worker.unproduced : Worker → List Nat
  | .executing job => [job.sequence]
  | .executed job _ => [job.sequence]
  | .admitted job _ => [job.sequence]
  | .settling job _ => [job.sequence]
  | .completing job (some _) => [job.sequence]
  | _ => []

/-- The outcome that the drain call in progress is about to return. -/
def inHand : Option (DrainCall × DrainStage) → List CleanupDrainOutcome
  | some (_, .taken outcome) => [outcome]
  | _ => []

@[simp] theorem inHand_none : inHand none = [] := rfl

@[simp] theorem inHand_entered (call : DrainCall) : inHand (some (call, .entered)) = [] := rfl

@[simp] theorem inHand_waiting (call : DrainCall) (target : Nat) :
    inHand (some (call, .waiting target)) = [] := rfl

@[simp] theorem inHand_taken (call : DrainCall) (outcome : CleanupDrainOutcome) :
    inHand (some (call, .taken outcome)) = [outcome] := rfl

namespace State

/-- Every drain outcome that exists: the one about to be returned and the returned ones. -/
def drainOutcomes (s : State) : List CleanupDrainOutcome := inHand s.draining ++ s.outcomes

def failuresAt (s : State) : Place → List SequencedFailure
  | .notProduced => []
  | .awaited => s.awaited.flatMap (·.carried)
  | .stored => s.completion.failures
  | .inFlight => s.drainOutcomes.flatMap (·.carried)
  | .delivered => s.history.delivered

/-- The job numbers at a place, as often as they occur there. -/
def sequencesAt (s : State) : Place → List Nat
  | .notProduced => s.submission.jobs.map (·.sequence) ++ s.workers.flatMap Worker.unproduced
  | place => (s.failuresAt place).map (·.sequence)

def countAt (s : State) (q : Nat) (place : Place) : Nat := (s.sequencesAt place).count q

/-- The job numbered `q` has ended with this error under this database name. -/
def Gave (s : State) (f : SequencedFailure) : Prop :=
  ∃ job outcome, (job, outcome) ∈ s.history.executed ∧ job.sequence = f.sequence ∧
    job.databaseName = f.failure.databaseName ∧ outcome.error? = some f.failure.source

end State

/-- An accepted number is in one place, or its job succeeded; no other number is anywhere. -/
def CustodyLedger (s : State) : Prop :=
  ∀ q, s.countAt q .notProduced + s.countAt q .awaited + s.countAt q .stored +
    s.countAt q .inFlight + s.countAt q .delivered + s.history.succeeded.count q =
      if 1 ≤ q ∧ q ≤ s.submission.nextSequence then 1 else 0

/-- Awaited outcomes belong to different jobs, and a successful one to a job that succeeded. -/
structure AwaitedApart (s : State) : Prop where
  nodup : (s.awaited.map (·.sequence)).Nodup
  succeeded : ∀ o ∈ s.awaited, o.carried = [] → o.sequence ∈ s.history.succeeded

/-- The delivery flag counts the outcomes that carry failures. -/
def OneDelivery (s : State) : Prop :=
  s.drainOutcomes.countP (fun o => o.failures.isSome) =
    if s.completion.failureDeliveryInFlight then 1 else 0

section Steps
variable {cfg : Config} {a : Action} {s t : State}

theorem countAt_notProduced (s : State) (q : Nat) :
    s.countAt q .notProduced = (s.submission.jobs.map (·.sequence)).count q +
      (s.workers.flatMap Worker.unproduced).count q :=
  List.count_append

theorem countAt_awaited (s : State) (q : Nat) :
    s.countAt q .awaited =
      (s.awaited.flatMap fun o => o.carried.map (·.sequence)).count q := by
  unfold State.countAt
  simp only [State.sequencesAt, State.failuresAt, List.map_flatMap]

theorem countAt_stored (s : State) (q : Nat) :
    s.countAt q .stored = (s.completion.failures.map (·.sequence)).count q := rfl

theorem countAt_inFlight (s : State) (q : Nat) :
    s.countAt q .inFlight =
      ((inHand s.draining).flatMap fun o => o.carried.map (·.sequence)).count q +
        (s.outcomes.flatMap fun o => o.carried.map (·.sequence)).count q := by
  unfold State.countAt
  simp only [State.sequencesAt, State.failuresAt, State.drainOutcomes, List.flatMap_append,
    List.map_append, List.map_flatMap, List.count_append]

theorem countAt_delivered (s : State) (q : Nat) :
    s.countAt q .delivered = (s.history.delivered.map (·.sequence)).count q := rfl

/-- What an awaited outcome carries has its own number. -/
theorem AwaitedCleanupOutcome.sequence_of_carried {o : AwaitedCleanupOutcome} {f : SequencedFailure}
    (h : f ∈ o.carried) : f.sequence = o.sequence := by
  obtain ⟨_, _, rfl⟩ := List.mem_map.mp h
  rfl

/-- The number of the job is where its worker has just put it: with its failure or with
the successes. -/
theorem count_new_carried (outcome : CleanupOutcome) (q n : Nat) (name : Text) :
    (((AwaitedCleanupOutcome.new outcome.intoResult n name).carried).map (·.sequence)).count q +
      (if outcome.error?.isNone then [n] else []).count q = [n].count q := by
  rw [AwaitedCleanupOutcome.new_carried]
  cases outcome.error? <;> simp

/-- A failure the drain may take goes to the outcome, the others stay. -/
theorem count_take (c : CompletionStateInner) (target q : Nat) :
    ((c.take target).1.carried.map (·.sequence)).count q +
      ((c.take target).2.failures.map (·.sequence)).count q =
        (c.failures.map (·.sequence)).count q := by
  rw [c.take_carried, c.take_failures,
    ((CompletionStateInner.sortBySequence_perm (c.due target)).map _).count_eq]
  exact Ledger.count_map_filter_add_not _ _ _ _

theorem custodyLedger_step (h : Transition cfg s a t) (ho : InOrder s) (ha : AwaitedApart s)
    (hs : CustodyLedger s) : CustodyLedger t := by
  intro q
  have hq := hs q
  simp only [countAt_notProduced, countAt_awaited, countAt_stored, countAt_inFlight,
    countAt_delivered] at hq ⊢
  cases h with
  | accept name completion permit admission _ _ _ =>
    have hnext := ho.next
    simp only [List.map_append, List.count_append, List.map_cons, List.map_nil, List.count_cons,
      List.count_nil, beq_iff_eq] at hq ⊢
    split_ifs at hq ⊢ <;> omega
  | start i job rest worker jobs =>
    have := Ledger.count_flatMap_set Worker.unproduced q s.workers i _ (.executing job) worker
    simp only [jobs, Worker.unproduced, List.map_cons, List.count_cons, List.count_nil] at this hq ⊢
    omega
  | operation _ i job outcome _ worker | check i job outcome worker | permit i job outcome worker
  | exit i worker | release i job worker =>
    dsimp only
    rw [Ledger.flatMap_set_of_eq Worker.unproduced worker]
    · exact hq
    · rfl
  | send i job outcome worker kind receiver =>
    have := Ledger.count_flatMap_set Worker.unproduced q s.workers i _ (.completing job none) worker
    have hnew := count_new_carried outcome q job.sequence job.databaseName
    simp only [Worker.unproduced, List.flatMap_append, List.flatMap_cons, List.flatMap_nil,
      List.append_nil, List.count_append, List.count_nil] at this hq ⊢
    omega
  | sendBack i job outcome worker kind receiver =>
    have := Ledger.count_flatMap_set Worker.unproduced q s.workers i _ (.completing job none) worker
    have hnew := count_new_carried outcome q job.sequence job.databaseName
    simp only [Worker.unproduced, AwaitedCleanupOutcome.drop_failures, List.map_append,
      List.count_append, List.count_nil] at this hq ⊢
    omega
  | defer i job outcome worker kind =>
    have := Ledger.count_flatMap_set Worker.unproduced q s.workers i _
      (.completing job (outcome.error?.map fun e => ⟨job.databaseName, e⟩)) worker
    cases he : outcome.error? with
    | none =>
      simp only [he, Option.map_none, Option.isNone_none, if_true, Worker.unproduced,
        List.count_append, List.count_nil] at this hq ⊢
      omega
    | some e =>
      simp only [he, Option.map_some, Option.isNone_some, Bool.false_eq_true, if_false,
        Worker.unproduced, List.append_nil] at this hq ⊢
      omega
  | complete i job failure worker =>
    have := Ledger.count_flatMap_set Worker.unproduced q s.workers i _ (.releasing job) worker
    cases failure with
    | none =>
      simp only [Worker.unproduced, CompletionStateInner.complete_failures, Option.toList_none,
        List.map_nil, List.append_nil, List.count_nil] at this hq ⊢
      omega
    | some f =>
      simp only [Worker.unproduced, CompletionStateInner.complete_failures, Option.toList_some,
        List.map_append, List.map_cons, List.map_nil, List.count_append, List.count_nil] at this hq ⊢
      omega
  | read n o receiver sent =>
    have := Ledger.count_flatMap_filter_key (fun o => o.carried.map (·.sequence))
      AwaitedCleanupOutcome.sequence n q s.awaited o ha.nodup sent
    simp only [List.map_append, List.count_append] at this hq ⊢
    omega
  | dropSent n o receiver sent =>
    have := Ledger.count_flatMap_filter_key (fun o => o.carried.map (·.sequence))
      AwaitedCleanupOutcome.sequence n q s.awaited o ha.nodup sent
    simp only [AwaitedCleanupOutcome.drop_failures, List.map_append, List.count_append] at this hq ⊢
    omega
  | enter i call free caller =>
    simpa only [free, inHand_none, inHand_entered] using hq
  | target call entered kind =>
    simpa only [entered, inHand_waiting, inHand_entered] using hq
  | close call entered kind =>
    simpa only [entered, inHand_waiting, inHand_entered] using hq
  | take call target waiting ready =>
    have := count_take s.completion target q
    simp only [waiting, inHand_waiting, inHand_taken, List.flatMap_cons, List.flatMap_nil,
      List.append_nil, List.count_nil] at hq ⊢
    omega
  | hand call outcome taken kind joined =>
    simp only [taken, inHand_none, inHand_taken, List.flatMap_append, List.flatMap_cons,
      List.flatMap_nil, List.append_nil, List.count_append, List.count_nil] at hq ⊢
    omega
  | log call outcome taken kind =>
    simp only [taken, inHand_none, inHand_taken, CleanupDrainOutcome.acknowledge_failures,
      List.map_append, List.flatMap_cons, List.flatMap_nil, List.append_nil, List.count_append,
      List.count_nil] at hq ⊢
    omega
  | finish i outcome held =>
    have := Ledger.count_flatMap_eraseIdx (fun o => o.carried.map (·.sequence)) q s.outcomes i
      outcome held
    simp only [CleanupDrainOutcome.acknowledge_failures, List.map_append, List.count_append] at hq ⊢
    omega
  | restore i outcome held =>
    have := Ledger.count_flatMap_eraseIdx (fun o => o.carried.map (·.sequence)) q s.outcomes i
      outcome held
    simp only [CleanupDrainOutcome.drop_failures, List.map_append, List.count_append] at hq ⊢
    omega
  | destroy alone first =>
    have hnone : s.draining = none := by
      simp only [State.referenced, Bool.or_eq_false_iff] at alone
      simpa using alone.1.2
    simpa only [hnone, inHand_none, inHand_entered] using hq
  | _ => exact hq

/-- A number that its worker still holds is nowhere else. -/
theorem CustodyLedger.alone (hs : CustodyLedger s) {q : Nat} (hq : 0 < s.countAt q .notProduced) :
    s.countAt q .awaited = 0 ∧ q ∉ s.history.succeeded := by
  have hone := hs q
  have hzero : s.history.succeeded.count q = 0 := by split at hone <;> omega
  exact ⟨by split at hone <;> omega, List.count_eq_zero.mp hzero⟩

/-- Nor in an awaited outcome: a failed one is counted there, a successful one with the successes. -/
theorem CustodyLedger.unsent (hs : CustodyLedger s) (ha : AwaitedApart s) {q : Nat}
    (hq : 0 < s.countAt q .notProduced) : ∀ o ∈ s.awaited, o.sequence ≠ q := by
  intro o ho hseq
  obtain ⟨hawaited, hfresh⟩ := hs.alone hq
  by_cases hcarried : o.carried = []
  · exact hfresh (hseq ▸ ha.succeeded o ho hcarried)
  · obtain ⟨f, hf⟩ := List.exists_mem_of_ne_nil _ hcarried
    rw [countAt_awaited, List.count_eq_zero] at hawaited
    apply hawaited
    rw [List.mem_flatMap]
    refine ⟨o, ho, List.mem_map.mpr ⟨f, hf, ?_⟩⟩
    rw [AwaitedCleanupOutcome.sequence_of_carried hf, hseq]

theorem countAt_notProduced_pos {i : Nat} {w : Worker} {q : Nat} (hw : s.workers[i]? = some w)
    (hq : q ∈ w.unproduced) : 0 < s.countAt q .notProduced := by
  have := Ledger.count_flatMap_pos Worker.unproduced hw hq
  rw [countAt_notProduced]
  omega

theorem awaitedApart_step (h : Transition cfg s a t) (hl : CustodyLedger s) (ha : AwaitedApart s) :
    AwaitedApart t := by
  have hheld := ha
  obtain ⟨hnodup, hsucceeded⟩ := ha
  cases h with
  | send i job outcome worker kind receiver =>
    have hunsent := hl.unsent hheld (countAt_notProduced_pos worker List.mem_cons_self)
    refine ⟨?_, ?_⟩
    · rw [List.map_append, List.nodup_append]
      refine ⟨hnodup, List.nodup_singleton _, ?_⟩
      intro _ hmem _ hnew heq
      obtain rfl := heq
      obtain ⟨o, ho, heq⟩ := List.mem_map.mp hmem
      apply hunsent o ho
      rw [heq]
      simpa using hnew
    · intro o ho hcarried
      rw [List.mem_append, List.mem_singleton] at ho
      rcases ho with ho | rfl
      · exact List.mem_append_left _ (hsucceeded o ho hcarried)
      · apply List.mem_append_right
        rw [AwaitedCleanupOutcome.new_carried] at hcarried
        cases he : outcome.error? with
        | none => simp
        | some e => simp [he] at hcarried
  | sendBack i job outcome worker kind receiver =>
    exact ⟨hnodup, fun o ho hc => List.mem_append_left _ (hsucceeded o ho hc)⟩
  | defer i job outcome worker kind =>
    exact ⟨hnodup, fun o ho hc => List.mem_append_left _ (hsucceeded o ho hc)⟩
  | read n o receiver sent | dropSent n o receiver sent =>
    refine ⟨hnodup.sublist (List.filter_sublist.map _), fun o' ho' hc => ?_⟩
    exact hsucceeded o' (List.mem_of_mem_filter ho') hc
  | _ => exact ⟨hnodup, hsucceeded⟩

theorem drainOutcomes_hand {call : DrainCall} {outcome : CleanupDrainOutcome}
    (taken : s.draining = some (call, .taken outcome)) :
    s.drainOutcomes = outcome :: s.outcomes := by
  rw [State.drainOutcomes, taken, inHand_taken, List.singleton_append]

theorem drainOutcomes_none (free : s.draining = none) : s.drainOutcomes = s.outcomes := by
  rw [State.drainOutcomes, free, inHand_none, List.nil_append]

theorem drainOutcomes_entered {call : DrainCall} (entered : s.draining = some (call, .entered)) :
    s.drainOutcomes = s.outcomes := by
  rw [State.drainOutcomes, entered, inHand_entered, List.nil_append]

theorem drainOutcomes_waiting {call : DrainCall} {target : Nat}
    (waiting : s.draining = some (call, .waiting target)) : s.drainOutcomes = s.outcomes := by
  rw [State.drainOutcomes, waiting, inHand_waiting, List.nil_append]

/-- A returned outcome and all the others. -/
theorem outcome_perm {i : Nat} {outcome : CleanupDrainOutcome}
    (held : s.outcomes[i]? = some outcome) :
    (outcome :: (inHand s.draining ++ s.outcomes.eraseIdx i)).Perm s.drainOutcomes := by
  have herase : (outcome :: s.outcomes.eraseIdx i).Perm s.outcomes := by
    obtain ⟨hi, rfl⟩ := List.getElem?_eq_some_iff.mp held
    exact List.getElem_cons_eraseIdx_perm hi
  exact List.perm_middle.symm.trans (herase.append_left _)

theorem draining_none_of_unreferenced (h : s.referenced = false) : s.draining = none := by
  simp only [State.referenced, Bool.or_eq_false_iff] at h
  simpa using h.1.2

/-- What any step leaves of the drain outcomes: the same ones, or one more that `take`
makes, or one fewer that is finished or dropped. -/
inductive OutcomeChange (s t : State) : Prop where
  | same (perm : t.drainOutcomes.Perm s.drainOutcomes)
      (flag : t.completion.failureDeliveryInFlight = s.completion.failureDeliveryInFlight)
  | taken (target : Nat) (ready : s.completion.mustWait target = false)
      (perm : t.drainOutcomes.Perm ((s.completion.take target).1 :: s.drainOutcomes))
      (completion : t.completion = (s.completion.take target).2)
  | settled (outcome : CleanupDrainOutcome) (perm : (outcome :: t.drainOutcomes).Perm s.drainOutcomes)
      (flag : t.completion.failureDeliveryInFlight =
        (s.completion.failureDeliveryInFlight && outcome.failures.isNone))

theorem outcomeChange (h : Transition cfg s a t) : OutcomeChange s t := by
  cases h with
  | complete i job failure worker =>
    exact .same (List.Perm.refl _) (s.completion.complete_inFlight job.sequence failure)
  | sendBack | dropSent => exact .same (List.Perm.refl _) (AwaitedCleanupOutcome.drop_inFlight _ _)
  | enter i call free caller =>
    refine .same ?_ rfl
    rw [drainOutcomes_none free]
    exact List.Perm.refl _
  | target call entered kind | close call entered kind =>
    refine .same ?_ rfl
    rw [drainOutcomes_entered entered]
    exact List.Perm.refl _
  | take call target waiting ready =>
    refine .taken target ready ?_ rfl
    rw [drainOutcomes_waiting waiting]
    exact List.Perm.refl _
  | hand call outcome taken kind joined =>
    refine .same ?_ rfl
    rw [drainOutcomes_hand taken]
    show (s.outcomes ++ [outcome]).Perm (outcome :: s.outcomes)
    exact List.perm_append_singleton _ _
  | log call outcome taken kind =>
    refine .settled outcome ?_ (outcome.acknowledge_inFlight _)
    rw [drainOutcomes_hand taken]
    exact List.Perm.refl _
  | finish i outcome held =>
    refine .settled outcome ?_ (outcome.acknowledge_inFlight _)
    exact outcome_perm held
  | restore i outcome held =>
    refine .settled outcome ?_ (outcome.drop_inFlight _)
    exact outcome_perm held
  | destroy alone first =>
    refine .same ?_ rfl
    rw [drainOutcomes_none (draining_none_of_unreferenced alone)]
    exact List.Perm.refl _
  | _ => exact .same (List.Perm.refl _) rfl

theorem oneDelivery_step (h : Transition cfg s a t) (hs : OneDelivery s) : OneDelivery t := by
  unfold OneDelivery at hs ⊢
  cases outcomeChange h with
  | same perm flag => rw [perm.countP_eq, flag, hs]
  | taken target ready perm completion =>
    have hflag : s.completion.failureDeliveryInFlight = false := by
      simp only [CompletionStateInner.mustWait, Bool.or_eq_false_iff] at ready
      exact ready.2
    rw [hflag] at hs
    rw [perm.countP_eq, List.countP_cons, hs, completion, s.completion.take_inFlight target hflag]
    simp
  | settled outcome perm flag =>
    rw [← perm.countP_eq, List.countP_cons] at hs
    rw [flag]
    cases hf : outcome.failures with
    | none =>
      rw [hf] at hs
      simpa using hs
    | some failures =>
      rw [hf] at hs
      have : t.drainOutcomes.countP (fun o => o.failures.isSome) = 0 := by
        simp only [Option.isSome_some, if_true] at hs
        split at hs <;> omega
      simpa using this

/-- What a drain lists: something, nothing beyond its target, in strictly increasing order. -/
structure CleanupDrainOutcome.Sealed (o : CleanupDrainOutcome) : Prop where
  nonempty : o.failures ≠ some []
  bounded : ∀ f ∈ o.carried, f.sequence ≤ o.target
  increasing : o.carried.Pairwise fun a b => a.sequence < b.sequence

def AllSealed (s : State) : Prop := ∀ o ∈ s.drainOutcomes, o.Sealed

/-- Sorted numbers without repetition increase strictly. -/
theorem pairwise_lt_of_count {l : List SequencedFailure}
    (hsorted : l.Pairwise fun a b => a.sequence ≤ b.sequence)
    (hcount : ∀ q, (l.map (·.sequence)).count q ≤ 1) :
    l.Pairwise fun a b => a.sequence < b.sequence := by
  have hnodup : l.Pairwise fun a b => a.sequence ≠ b.sequence :=
    List.pairwise_map.mp (List.nodup_iff_count_le_one.mpr hcount)
  refine hsorted.imp₂ ?_ hnodup
  intro a b hle hne
  exact lt_of_le_of_ne hle hne

theorem take_sealed (c : CompletionStateInner) (target : Nat)
    (hcount : ∀ q, (c.failures.map (·.sequence)).count q ≤ 1) : (c.take target).1.Sealed where
  nonempty := by
    unfold CompletionStateInner.take
    dsimp only
    split
    · exact Option.some_ne_none _ |>.symm
    · rename_i hne
      intro he
      rw [Option.some.injEq] at he
      exact hne (by rw [he]; rfl)
  bounded f hf := by
    rw [c.take_carried, (CompletionStateInner.sortBySequence_perm _).mem_iff] at hf
    rw [c.take_target]
    exact of_decide_eq_true (List.mem_filter.mp hf).2
  increasing := by
    have hle : ∀ q, ((c.take target).1.carried.map (·.sequence)).count q ≤ 1 := by
      intro q
      have := count_take c target q
      have := hcount q
      omega
    rw [c.take_carried] at hle ⊢
    exact pairwise_lt_of_count (CompletionStateInner.sortBySequence_sorted _) hle

theorem CustodyLedger.count_le (hs : CustodyLedger s) (q : Nat) (place : Place) :
    s.countAt q place ≤ 1 := by
  have := hs q
  cases place <;> split at this <;> omega

theorem allSealed_step (h : Transition cfg s a t) (hl : CustodyLedger s) (hs : AllSealed s) :
    AllSealed t := by
  intro o ho
  cases outcomeChange h with
  | same perm _ => exact hs o (perm.mem_iff.mp ho)
  | taken target ready perm _ =>
    rcases List.mem_cons.mp (perm.mem_iff.mp ho) with rfl | hmem
    · exact take_sealed s.completion target fun q => hl.count_le q .stored
    · exact hs o hmem
  | settled outcome perm _ => exact hs o (perm.mem_iff.mp (List.mem_cons_of_mem _ ho))

/-! The failures at any place are those of executed jobs. -/

/-- What a worker knows of its job's result is what the operation left. -/
def Worker.Honest (s : State) : Worker → Prop
  | .executed job outcome | .admitted job outcome | .settling job outcome =>
    ∃ job', (job', outcome) ∈ s.history.executed ∧ job'.sequence = job.sequence ∧
      job'.databaseName = job.databaseName
  | .completing job (some failure) => s.Gave ⟨job.sequence, failure⟩
  | _ => True

/-- The failures at all places together. -/
def State.known (s : State) : List SequencedFailure :=
  s.awaited.flatMap (·.carried) ++ s.completion.failures ++ s.drainOutcomes.flatMap (·.carried) ++
    s.history.delivered

theorem mem_known {f : SequencedFailure} {place : Place} (h : f ∈ s.failuresAt place) :
    f ∈ s.known := by
  simp only [State.known, List.mem_append]
  cases place with
  | notProduced => cases h
  | awaited => exact Or.inl (Or.inl (Or.inl h))
  | stored => exact Or.inl (Or.inl (Or.inr h))
  | inFlight => exact Or.inl (Or.inr h)
  | delivered => exact Or.inr h

structure Honest (s : State) : Prop where
  workers : ∀ w ∈ s.workers, w.Honest s
  failures : ∀ f ∈ s.known, s.Gave f
  succeeded : ∀ q ∈ s.history.succeeded, ∃ job outcome,
    (job, outcome) ∈ s.history.executed ∧ job.sequence = q ∧ outcome.error? = none

/-- Operations that are over stay over. -/
theorem executed_grows (h : Transition cfg s a t) : s.history.executed <+: t.history.executed := by
  cases h with
  | operation _ i job outcome _ worker => exact List.prefix_append _ _
  | _ => exact List.prefix_refl _

theorem State.Gave.mono {f : SequencedFailure} (hg : s.Gave f)
    (h : s.history.executed ⊆ t.history.executed) : t.Gave f := by
  obtain ⟨job, outcome, hmem, hrest⟩ := hg
  exact ⟨job, outcome, h hmem, hrest⟩

theorem Worker.Honest.mono {w : Worker} (hw : w.Honest s)
    (h : s.history.executed ⊆ t.history.executed) : w.Honest t := by
  cases w with
  | executed job outcome | admitted job outcome | settling job outcome =>
    obtain ⟨job', hmem, hrest⟩ := hw
    exact ⟨job', h hmem, hrest⟩
  | completing job failure =>
    cases failure with
    | none => trivial
    | some f => exact State.Gave.mono hw h
  | _ => trivial

/-- What a worker that settles its job knows is a failure the job gave. -/
theorem Worker.Honest.gave {job : CleanupJob} {outcome : CleanupOutcome}
    (hw : (Worker.settling job outcome).Honest s) {e : Error} (he : outcome.error? = some e) :
    s.Gave ⟨job.sequence, ⟨job.databaseName, e⟩⟩ := by
  obtain ⟨job', hmem, hseq, hname⟩ := hw
  exact ⟨job', outcome, hmem, hseq, hname, he⟩

theorem Worker.Honest.gave_new {job : CleanupJob} {outcome : CleanupOutcome}
    (hw : (Worker.settling job outcome).Honest s) {f : SequencedFailure}
    (hf : f ∈ (AwaitedCleanupOutcome.new outcome.intoResult job.sequence job.databaseName).carried) :
    s.Gave f := by
  rw [AwaitedCleanupOutcome.new_carried] at hf
  obtain ⟨e, he, rfl⟩ := List.mem_map.mp hf
  exact hw.gave (Option.mem_toList.mp he)

/-- What an awaited outcome carries, and what the others carry, was there. -/
theorem awaited_sent {n : Nat} {o : AwaitedCleanupOutcome} (sent : s.awaited.find? (fun o => o.sequence == n) = some o)
    (f : SequencedFailure) : (f ∈ o.carried → f ∈ s.awaited.flatMap (·.carried)) ∧
      (f ∈ (s.awaited.filter fun o => !(o.sequence == n)).flatMap (·.carried) →
        f ∈ s.awaited.flatMap (·.carried)) :=
  ⟨fun hf => List.mem_flatMap.mpr ⟨o, List.mem_of_find?_eq_some sent, hf⟩,
    fun hf => (List.filter_sublist.flatMap _).subset hf⟩

/-- The same for a drain outcome. -/
theorem outcomes_held {i : Nat} {outcome : CleanupDrainOutcome} (held : s.outcomes[i]? = some outcome)
    (f : SequencedFailure) : (f ∈ outcome.carried → f ∈ s.outcomes.flatMap (·.carried)) ∧
      (f ∈ (s.outcomes.eraseIdx i).flatMap (·.carried) → f ∈ s.outcomes.flatMap (·.carried)) :=
  ⟨fun hf => List.mem_flatMap.mpr ⟨outcome, List.mem_of_getElem? held, hf⟩,
    fun hf => ((List.eraseIdx_sublist _ _).flatMap _).subset hf⟩

/-- A step moves failures around, and adds those that a worker hands over. -/
theorem known_step (h : Transition cfg s a t) (hw : ∀ w ∈ s.workers, w.Honest s)
    {f : SequencedFailure} (hf : f ∈ t.known) : f ∈ s.known ∨ s.Gave f := by
  simp only [State.known, State.drainOutcomes, List.mem_append, List.flatMap_append] at hf ⊢
  cases h with
  | send i job outcome worker kind receiver =>
    have hsettling := hw _ (List.mem_of_getElem? worker)
    simp only [List.flatMap_append, List.mem_append, List.flatMap_cons, List.flatMap_nil,
      List.append_nil] at hf
    by_cases hnew : f ∈ (AwaitedCleanupOutcome.new outcome.intoResult job.sequence
      job.databaseName).carried
    · exact Or.inr (hsettling.gave_new hnew)
    · tauto
  | sendBack i job outcome worker kind receiver =>
    have hsettling := hw _ (List.mem_of_getElem? worker)
    simp only [AwaitedCleanupOutcome.drop_failures, List.mem_append] at hf
    by_cases hnew : f ∈ (AwaitedCleanupOutcome.new outcome.intoResult job.sequence
      job.databaseName).carried
    · exact Or.inr (hsettling.gave_new hnew)
    · tauto
  | complete i job failure worker =>
    have hcompleting := hw _ (List.mem_of_getElem? worker)
    simp only [CompletionStateInner.complete_failures, List.mem_append] at hf
    cases failure with
    | none =>
      simp only [Option.toList_none, List.map_nil, List.not_mem_nil, or_false] at hf
      tauto
    | some g =>
      simp only [Option.toList_some, List.map_cons, List.map_nil, List.mem_singleton] at hf
      by_cases hnew : f = ⟨job.sequence, g⟩
      · exact Or.inr (hnew ▸ hcompleting)
      · tauto
  | read n o receiver sent =>
    obtain ⟨ho, hkept⟩ := awaited_sent sent f
    simp only [List.mem_append] at hf
    tauto
  | dropSent n o receiver sent =>
    obtain ⟨ho, hkept⟩ := awaited_sent sent f
    simp only [AwaitedCleanupOutcome.drop_failures, List.mem_append] at hf
    tauto
  | enter i call free caller =>
    simp only [free, inHand_none, inHand_entered] at hf ⊢
    exact Or.inl hf
  | target call entered kind | close call entered kind =>
    simp only [entered, inHand_waiting, inHand_entered] at hf ⊢
    exact Or.inl hf
  | take call target waiting ready =>
    have hdue : f ∈ (s.completion.take target).1.carried → f ∈ s.completion.failures := by
      rw [s.completion.take_carried, (CompletionStateInner.sortBySequence_perm _).mem_iff]
      exact List.mem_of_mem_filter
    have hkept : f ∈ (s.completion.take target).2.failures → f ∈ s.completion.failures := by
      rw [s.completion.take_failures]
      exact List.mem_of_mem_filter
    simp only [waiting, inHand_waiting, inHand_taken, List.flatMap_cons, List.flatMap_nil,
      List.append_nil, List.not_mem_nil] at hf ⊢
    tauto
  | hand call outcome taken kind joined =>
    simp only [taken, inHand_none, inHand_taken, List.flatMap_append, List.flatMap_cons,
      List.flatMap_nil, List.append_nil, List.mem_append, List.not_mem_nil] at hf ⊢
    tauto
  | log call outcome taken kind =>
    simp only [taken, inHand_none, inHand_taken, CleanupDrainOutcome.acknowledge_failures,
      List.flatMap_cons, List.flatMap_nil, List.append_nil, List.mem_append,
      List.not_mem_nil] at hf ⊢
    tauto
  | finish i outcome held =>
    obtain ⟨ho, hkept⟩ := outcomes_held held f
    simp only [CleanupDrainOutcome.acknowledge_failures, List.mem_append] at hf
    tauto
  | restore i outcome held =>
    obtain ⟨ho, hkept⟩ := outcomes_held held f
    simp only [CleanupDrainOutcome.drop_failures, List.mem_append] at hf
    tauto
  | destroy alone first =>
    simp only [draining_none_of_unreferenced alone, inHand_none, inHand_entered] at hf ⊢
    exact Or.inl hf
  | _ => exact Or.inl hf

/-- The worker that a step moves is honest after it. -/
theorem moved_honest (h : Transition cfg s a t) (hw : ∀ w ∈ s.workers, w.Honest s) :
    ∀ w ∈ t.workers, w.Honest t := by
  have hgrows := (executed_grows h).subset
  have hkept : ∀ w ∈ s.workers, w.Honest t := fun w hmem => (hw w hmem).mono hgrows
  intro w hmem
  cases h with
  | start i job rest worker jobs | exit i worker jobs closed | release i job worker
  | send i job outcome worker kind receiver | sendBack i job outcome worker kind receiver
  | complete i job failure worker =>
    rcases Ledger.mem_of_set hmem with rfl | hmem
    · trivial
    · exact hkept w hmem
  | operation _ i job outcome _ worker =>
    rcases Ledger.mem_of_set hmem with rfl | hmem
    · exact ⟨job, List.mem_append_right _ (List.mem_singleton.mpr rfl), rfl, rfl⟩
    · exact hkept w hmem
  | check i job outcome worker | permit i job outcome worker =>
    rcases Ledger.mem_of_set hmem with rfl | hmem
    · exact hw _ (List.mem_of_getElem? worker)
    · exact hkept w hmem
  | defer i job outcome worker kind =>
    rcases Ledger.mem_of_set hmem with rfl | hmem
    · cases he : outcome.error? with
      | none => trivial
      | some e => exact (hw _ (List.mem_of_getElem? worker)).gave he
    · exact hkept w hmem
  | _ => exact hkept w hmem

theorem honest_step (h : Transition cfg s a t) (hs : Honest s) : Honest t := by
  have hgrows := (executed_grows h).subset
  refine ⟨moved_honest h hs.workers, ?_, ?_⟩
  · intro f hf
    rcases known_step h hs.workers hf with hf | hg
    · exact (hs.failures f hf).mono hgrows
    · exact hg.mono hgrows
  · have hkept : ∀ q ∈ s.history.succeeded, ∃ job outcome, (job, outcome) ∈ t.history.executed ∧
        job.sequence = q ∧ outcome.error? = none := by
      intro q hq
      obtain ⟨job, outcome, hmem, hrest⟩ := hs.succeeded q hq
      exact ⟨job, outcome, hgrows hmem, hrest⟩
    have hnew : ∀ (i : Nat) (job : CleanupJob) (outcome : CleanupOutcome) (q : Nat),
        s.workers[i]? = some (.settling job outcome) →
        q ∈ s.history.succeeded ++ (if outcome.error?.isNone then [job.sequence] else []) →
        ∃ job outcome, (job, outcome) ∈ t.history.executed ∧ job.sequence = q ∧
          outcome.error? = none := by
      intro i job outcome q worker hq
      rcases List.mem_append.mp hq with hq | hq
      · exact hkept q hq
      · obtain ⟨job', hmem, hseq, _⟩ := hs.workers _ (List.mem_of_getElem? worker)
        cases he : outcome.error? with
        | none =>
          rw [he, Option.isNone_none, if_pos rfl, List.mem_singleton] at hq
          exact ⟨job', outcome, hgrows hmem, hseq.trans hq.symm, he⟩
        | some e =>
          rw [he, Option.isNone_some] at hq
          cases hq
    cases h with
    | send i job outcome worker kind receiver => exact fun q => hnew i job outcome q worker
    | sendBack i job outcome worker kind receiver => exact fun q => hnew i job outcome q worker
    | defer i job outcome worker kind => exact fun q => hnew i job outcome q worker
    | _ => exact hkept

/-! ### What is told of a failure -/

/-- An answer that tells of these failures, and of no others. -/
inductive Answer.Tells : Answer → List SequencedFailure → Prop where
  | succeeded (n : Nat) : Tells (.awaited n (.ok ())) []
  | failed (f : SequencedFailure) : Tells (.awaited f.sequence (.error f.failure.source)) [f]
  | drained : Tells (.drain (.ok ())) []
  | listed (failures : List SequencedFailure) (some : failures ≠ []) :
      Tells (.drain (.error (failures.map (·.failure)))) failures

/-- The awaiting caller of a failed job gets its error. -/
theorem AwaitedCleanupOutcome.new_tells (result : Except Error Unit) (n : Nat) (name : Text) :
    (Answer.awaited n (AwaitedCleanupOutcome.new result n name).finish).Tells
      (AwaitedCleanupOutcome.new result n name).carried := by
  cases result with
  | ok => exact .succeeded n
  | error e => exact .failed ⟨n, ⟨name, e⟩⟩

/-- A drain's caller gets an error that lists all that the outcome carries. -/
theorem CleanupDrainOutcome.Sealed.tells {o : CleanupDrainOutcome} (h : o.Sealed) :
    (Answer.drain o.finish).Tells o.carried := by
  obtain ⟨target, failures⟩ := o
  cases failures with
  | none => exact .drained
  | some listed => exact .listed listed fun hnil => h.nonempty (congrArg some hnil)

/-- The answers given so far tell of the delivered failures, one after the other; and so will
those still to be given to the awaiting callers. -/
structure Told (s : State) : Prop where
  answers : ∃ parts : List (List SequencedFailure), parts.flatten = s.history.delivered ∧
    List.Forall₂ Answer.Tells s.history.answers parts
  awaited : ∀ o ∈ s.awaited, (Answer.awaited o.sequence o.finish).Tells o.carried

/-- One more answer. -/
theorem Told.answered (hs : Told s) {answer : Answer} {failures : List SequencedFailure} (h : answer.Tells failures) :
    ∃ parts : List (List SequencedFailure), parts.flatten = s.history.delivered ++ failures ∧
      List.Forall₂ Answer.Tells (s.history.answers ++ [answer]) parts := by
  obtain ⟨parts, hparts, htells⟩ := hs.answers
  refine ⟨parts ++ [failures], ?_, List.rel_append htells (.cons h .nil)⟩
  rw [List.flatten_append, List.flatten_singleton, hparts]

theorem told_step (h : Transition cfg s a t) (hsealing : AllSealed s) (hs : Told s) : Told t := by
  cases h with
  | send i job outcome worker kind receiver =>
    refine ⟨hs.answers, fun o ho => ?_⟩
    rcases List.mem_append.mp ho with ho | ho
    · exact hs.awaited o ho
    · obtain rfl := List.mem_singleton.mp ho
      rw [AwaitedCleanupOutcome.new_sequence]
      exact AwaitedCleanupOutcome.new_tells ..
  | read n o receiver sent =>
    obtain rfl : o.sequence = n := by simpa using List.find?_some sent
    exact ⟨hs.answered (hs.awaited o (List.mem_of_find?_eq_some sent)),
      fun o' ho' => hs.awaited o' (List.mem_of_mem_filter ho')⟩
  | dropSent n o receiver sent => exact ⟨hs.answers, fun o' ho' => hs.awaited o' (List.mem_of_mem_filter ho')⟩
  | log call outcome taken kind =>
    have hmem : outcome ∈ s.drainOutcomes := by
      rw [drainOutcomes_hand taken]
      exact List.mem_cons_self
    exact ⟨hs.answered (hsealing outcome hmem).tells, hs.awaited⟩
  | finish i outcome held =>
    have hmem : outcome ∈ s.drainOutcomes := List.mem_append_right _ (List.mem_of_getElem? held)
    exact ⟨hs.answered (hsealing outcome hmem).tells, hs.awaited⟩
  | _ => exact ⟨hs.answers, hs.awaited⟩

end Steps

section Runs
variable {cfg : Config} {a : Action} {s t : State}

theorem custodyLedger_initial (cfg : Config) : CustodyLedger (State.initial cfg) := by
  intro q
  have hworkers := initial_workers cfg Worker.unproduced rfl
  simp only [countAt_notProduced, countAt_awaited, countAt_stored, countAt_inFlight,
    countAt_delivered, hworkers]
  show 0 = _
  rw [if_neg]
  show ¬ (1 ≤ q ∧ q ≤ 0)
  omega

theorem honest_initial (cfg : Config) : Honest (State.initial cfg) where
  workers w hw := by
    rw [List.eq_of_mem_replicate hw]
    trivial
  failures f hf := absurd hf List.not_mem_nil
  succeeded q hq := absurd hq List.not_mem_nil

/-- Everything about custody that a step needs of the state before it. -/
structure Custody (s : State) : Prop where
  ledger : CustodyLedger s
  apart : AwaitedApart s
  delivery : OneDelivery s
  sealing : AllSealed s
  honest : Honest s
  told : Told s

theorem custody_invariant (cfg : Config) : (machine cfg).Invariant Custody where
  initial := by
    intro s heq
    obtain rfl := heq
    exact ⟨custodyLedger_initial cfg, ⟨List.nodup_nil, fun o ho => absurd ho List.not_mem_nil⟩, rfl,
      fun o ho => absurd ho List.not_mem_nil, honest_initial cfg,
      ⟨[], rfl, .nil⟩, fun o ho => absurd ho List.not_mem_nil⟩
  preserved := by
    intro s a t hs hparts hstep
    obtain ⟨hledger, hapart, hdelivery, hsealing, hhonest, htold⟩ := hparts
    have h := step_transition cfg s t a hstep
    exact ⟨custodyLedger_step h (inOrder hs) hapart hledger, awaitedApart_step h hledger hapart,
      oneDelivery_step h hdelivery, allSealed_step h hledger hsealing, honest_step h hhonest,
      told_step h hsealing htold⟩

/-- A job ends once: with an error, or among the successes. -/
theorem not_succeeded (hs : (machine cfg).Reachable s) (hc : Custody s) {job : CleanupJob}
    {outcome : CleanupOutcome} (hmem : (job, outcome) ∈ s.history.executed) {e : Error}
    (he : outcome.error? = some e) : job.sequence ∉ s.history.succeeded := by
  intro hq
  obtain ⟨job', outcome', hmem', hseq, hnone⟩ := hc.honest.succeeded _ hq
  have heq := executed_inj hs hmem hmem' hseq.symm
  rw [Prod.mk.injEq] at heq
  rw [heq.2, hnone] at he
  cases he

/-- Where a number is counted, a failure with that number is found. -/
theorem failure_of_count {q : Nat} {place : Place} (hplace : place ≠ .notProduced)
    (h : 0 < s.countAt q place) : ∃ f ∈ s.failuresAt place, f.sequence = q := by
  have hmem : q ∈ s.sequencesAt place := List.count_pos_iff.mp h
  cases place with
  | notProduced => exact absurd rfl hplace
  | awaited | stored | inFlight | delivered => exact List.mem_map.mp hmem

/-- An executed job has one outcome, so its failure is the only one under its number. -/
theorem Custody.failure_eq (hs : (machine cfg).Reachable s) (hc : Custody s) {job : CleanupJob}
    {outcome : CleanupOutcome} (hmem : (job, outcome) ∈ s.history.executed) {e : Error}
    (he : outcome.error? = some e) {place : Place} {f : SequencedFailure}
    (hf : f ∈ s.failuresAt place) (hseq : f.sequence = job.sequence) :
    f = ⟨job.sequence, ⟨job.databaseName, e⟩⟩ := by
  obtain ⟨job', outcome', hmem', hseq', hname, he'⟩ := hc.honest.failures f (mem_known hf)
  have heq := executed_inj hs hmem hmem' (hseq.symm.trans hseq'.symm)
  rw [Prod.mk.injEq] at heq
  obtain ⟨rfl, rfl⟩ := heq
  rw [he, Option.some.injEq] at he'
  obtain ⟨sequence, databaseName, source⟩ := f
  dsimp only at hseq hname he'
  rw [hseq, hname, he']

/-- Delivered failures stay delivered. -/
theorem delivered_grows (h : Transition cfg s a t) : s.history.delivered <+: t.history.delivered := by
  cases h with
  | read | log | finish => exact List.prefix_append _ _
  | _ => exact List.prefix_refl _

/-- What every reachable state says about the failures of the accepted jobs. -/
structure ExactlyOnce (cfg : Config) (s : State) : Prop where
  /-- An accepted job that has not succeeded is counted at one place, once. -/
  onePlace : ∀ q, 1 ≤ q → q ≤ s.submission.nextSequence → q ∉ s.history.succeeded →
    ∃! place, s.countAt q place = 1
  once : ∀ q place, s.countAt q place ≤ 1
  /-- A failed job's own failure is at its place, with its name and error, unless its
  worker still has it. -/
  kept : ∀ job outcome e, (job, outcome) ∈ s.history.executed → outcome.error? = some e →
    job.sequence ∉ s.history.succeeded ∧ ∃ place, s.countAt job.sequence place = 1 ∧
      (place ≠ .notProduced → ⟨job.sequence, ⟨job.databaseName, e⟩⟩ ∈ s.failuresAt place)
  /-- No place holds anything else. -/
  genuine : ∀ place, ∀ f ∈ s.failuresAt place, s.Gave f
  /-- What has been delivered stays so, in every continuation. -/
  final : ∀ actions t, (machine cfg).run s actions = some t →
    s.history.delivered <+: t.history.delivered
  /-- Whoever finishes an outcome is told of exactly what it carries. -/
  tells : (∀ o ∈ s.awaited, (Answer.awaited o.sequence o.finish).Tells o.carried) ∧
    ∀ o ∈ s.drainOutcomes, (Answer.drain o.finish).Tells o.carried
  /-- What has been told so far, one answer after the other, is what has been delivered. -/
  told : ∃ parts : List (List SequencedFailure), parts.flatten = s.history.delivered ∧
    List.Forall₂ Answer.Tells s.history.answers parts
  oneDelivery : s.drainOutcomes.countP (fun o => o.failures.isSome) ≤ 1
  inFlight : s.completion.failureDeliveryInFlight =
    s.drainOutcomes.any fun o => o.failures.isSome
  /-- A drain that finishes with an error lists failures up to its target, in order. -/
  listed : ∀ o ∈ s.drainOutcomes, ∀ failures, o.finish = .error failures →
    ∃ listed, o.failures = some listed ∧ failures = listed.map (·.failure) ∧ listed ≠ [] ∧
      (∀ f ∈ listed, f.sequence ≤ o.target) ∧ listed.Pairwise fun a b => a.sequence < b.sequence

theorem CustodyLedger.onePlace (hl : CustodyLedger s) {q : Nat} (hlow : 1 ≤ q)
    (hhigh : q ≤ s.submission.nextSequence) (hq : q ∉ s.history.succeeded) :
    ∃! place, s.countAt q place = 1 := by
  have hone := hl q
  rw [if_pos ⟨hlow, hhigh⟩, List.count_eq_zero.mpr hq] at hone
  have hplace : ∃ place, s.countAt q place = 1 := by
    by_contra hnone
    push Not at hnone
    have hzero : ∀ place, s.countAt q place = 0 := fun place => by
      have := hl.count_le q place
      have := hnone place
      omega
    simp only [hzero] at hone
    omega
  obtain ⟨place, hplace⟩ := hplace
  refine ⟨place, hplace, fun other hother => ?_⟩
  cases place <;> cases other <;> first | rfl | omega

/-- In every reachable state the failure of a job is in one place, with its name and error; what is
delivered stays delivered, and was told to somebody by what `finish` returned; one drain delivery at
most is in flight, and what a drain lists is in order and up to its target. -/
theorem failure_exactly_once (cfg : Config) (s : State) (hs : (machine cfg).Reachable s) :
    ExactlyOnce cfg s := by
  have hc := (custody_invariant cfg).holds hs
  refine ⟨fun q hlow hhigh hq => hc.ledger.onePlace hlow hhigh hq, hc.ledger.count_le, ?_,
    fun place f hf => hc.honest.failures f (mem_known hf), ?_,
    ⟨hc.told.awaited, fun o ho => (hc.sealing o ho).tells⟩, hc.told.answers, ?_, ?_, ?_⟩
  · intro job outcome e hmem he
    have hnot := not_succeeded hs hc hmem he
    obtain ⟨hlow, hhigh⟩ := executed_range hs hmem
    obtain ⟨place, hplace, _⟩ := hc.ledger.onePlace hlow hhigh hnot
    refine ⟨hnot, place, hplace, fun hne => ?_⟩
    have hpos : 0 < s.countAt job.sequence place := by omega
    obtain ⟨f, hf, hseq⟩ := failure_of_count hne hpos
    rw [hc.failure_eq hs hmem he hf hseq] at hf
    exact hf
  · intro actions t hrun
    refine hs.run_related (R := fun s t => s.history.delivered <+: t.history.delivered)
      (List.prefix_refl _) ?_ hrun
    intro u a v _ hu hstep
    exact hu.trans (delivered_grows (step_transition cfg u v a hstep))
  · have := hc.delivery
    unfold OneDelivery at this
    split at this <;> omega
  · have hcount := hc.delivery
    unfold OneDelivery at hcount
    rw [Bool.eq_iff_iff, List.any_eq_true, ← List.countP_pos_iff, hcount]
    split <;> simp_all
  · intro o ho failures hfinish
    have hsealed := hc.sealing o ho
    unfold CleanupDrainOutcome.finish at hfinish
    cases hl : o.failures with
    | none => rw [hl] at hfinish; cases hfinish
    | some listed =>
      rw [hl] at hfinish
      have hcarried : o.carried = listed := by rw [CleanupDrainOutcome.carried, hl]; rfl
      refine ⟨listed, rfl, (Except.error.inj hfinish).symm, ?_, ?_, ?_⟩
      · intro heq
        obtain rfl := heq
        exact hsealed.nonempty hl
      · exact hcarried ▸ hsealed.bounded
      · exact hcarried ▸ hsealed.increasing

/-- An awaited job fails, its result is sent, and its receiver is dropped unread. A second one's is
read; and a drain takes the first failure and is finished. -/
def droppedReceiver : List Action :=
  [.submit "pth".toList .awaited true .backpressured, .nextJob 0,
    .operationReturns 0 (.residualPossible .cleanupWorkerPanicked), .checkResidual 0,
    .dropPermit 0, .settle 0, .dropReceiver 1, .complete 0, .releaseGuard 0,
    .submit "pti".toList .awaited true .backpressured, .nextJob 0,
    .operationReturns 0 (.noResidual .adminSessionPoolClosed), .checkResidual 0,
    .dropPermit 0, .settle 0, .readReceiver 2, .complete 0, .releaseGuard 0,
    .callDrain .drain, .enterDrain 0, .fixTarget, .take, .returnDrain, .finishOutcome 0]

/-- Each caller is told of its failure. -/
theorem failure_exactly_once_dropped : ∃ s,
    (machine ⟨1, 1⟩).run (State.initial ⟨1, 1⟩) droppedReceiver = some s ∧
      s.countAt 1 .delivered = 1 ∧ s.countAt 2 .delivered = 1 ∧
      s.history.answers = [.awaited 2 (.error .adminSessionPoolClosed),
        .drain (.error [⟨"pth".toList, .cleanupWorkerPanicked⟩])] ∧ ExactlyOnce ⟨1, 1⟩ s := by
  refine ⟨_, rfl, by decide +kernel, by decide +kernel, by decide +kernel, ?_⟩
  exact failure_exactly_once _ _ (Machine.reachable_of_run droppedReceiver rfl rfl)

end Runs

end PostgresTestHarness.Cleanup
