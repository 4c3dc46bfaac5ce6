import PostgresTestHarness.Container.ExitError

/-! `wait_for_owned_server`, against the clock.

The loop tries to connect until a try succeeds, the container has exited, or the startup timeout
is over. Time is in nanoseconds since the start began. A step of the loop, and what a timer is
late, take no longer than `slack`; a sleep is never too short. The thread that watches the
container may record its exit at any time. Whatever the server answers and however long it takes,
the loop returns in time, and says why (`server_awaited`). -/
namespace PostgresTestHarness.Container.Readiness

structure Config where
  profile : OwnedContainerProfile
  startupTimeout : Nat
  /-- When the loop begins. -/
  begins : Nat
  slack : Nat

def startupConnectAttemptTimeout : Nat := 250 * 10 ^ 6

/-- `Duration::as_millis`. -/
def asMillis (nanos : Nat) : Nat := nanos / 10 ^ 6

/-- Where the loop is, with the durations and instants at hand. -/
inductive Stage where
  /-- The head of the loop. -/
  | looking
  | measuring
  /-- Nothing remains; the container is looked at once more. -/
  | lookingAgain
  /-- `connect_admin_with_setup_timeout`, before it takes its deadline. -/
  | beginning (connectTimeout setupTimeout : Nat)
  | budgeting (connectTimeout setupTimeout started : Nat)
  /-- `AdminClient::connect`, at most until then. -/
  | connecting (setupTimeout started ends : Nat)
  | connected (setupTimeout started : Nat)
  /-- `configure_session_timeouts_with_timeout`, at most until then. -/
  | configuring (ends : Nat)
  /-- A try has failed. -/
  | failed
  | sleeping (wakes : Nat)
  | returned (result : Except Error Unit)
  deriving DecidableEq

/-- `tries` are the results of the tries, newest first. -/
structure State where
  now : Nat
  /-- When the loop came to this stage. -/
  since : Nat
  stage : Stage
  startupExit : Option ContainerExit
  lastError : Option Error
  begun : Nat
  tries : List (Except Error Unit)
  /-- The steps of the loop. -/
  steps : Nat

inductive Action where
  | wait (nanos : Nat)
  | exits (exit : ContainerExit)
  /-- A step that the loop takes by itself. -/
  | step
  /-- A request to the server ends. -/
  | answer (result : Except Error Unit)

/-- How long the loop may be at a stage that it came to at some time. -/
def Stage.ends (since : Nat) : Stage → Nat
  | .connecting _ _ ends | .configuring ends | .sleeping ends => ends
  | _ => since

def Stage.isReturned : Stage → Bool
  | .returned _ => true
  | _ => false

namespace State

def initial (cfg : Config) : State := ⟨cfg.begins, cfg.begins, .looking, none, none, 0, [], 0⟩

def goto (s : State) (stage : Stage) : State := { s with stage, since := s.now, steps := s.steps + 1 }

def fail (s : State) (error : Error) : State :=
  { s.goto .failed with lastError := some error, tries := .error error :: s.tries }

/-- What the loop returns when nothing remains. -/
def timeoutError (cfg : Config) (s : State) : Error :=
  match s.lastError with
  | none => .containerStartupTimeout cfg.startupTimeout
  | some source => .containerReadinessTimeout cfg.startupTimeout source

def advance (cfg : Config) (s : State) : Option State :=
  let remaining := cfg.startupTimeout - s.now
  match s.stage with
  | .looking =>
    match s.startupExit with
    | some exit => some (s.goto (.returned (.error (containerExitError cfg.profile exit))))
    | none => some (s.goto .measuring)
  | .measuring =>
    if asMillis remaining = 0 then some (s.goto .lookingAgain)
    else some { s.goto (.beginning (min startupConnectAttemptTimeout remaining) remaining) with begun := s.begun + 1 }
  | .lookingAgain =>
    match s.startupExit with
    | some exit => some (s.goto (.returned (.error (containerExitError cfg.profile exit))))
    | none => some (s.goto (.returned (.error (s.timeoutError cfg))))
  | .beginning connectTimeout setupTimeout => some (s.goto (.budgeting connectTimeout setupTimeout s.now))
  | .budgeting connectTimeout setupTimeout started =>
    let left := setupTimeout - (s.now - started)
    if left = 0 then
      some (s.fail (.postgresConnectTimeout "wait for final owned PostgreSQL TCP server".toList setupTimeout))
    else some (s.goto (.connecting setupTimeout started (s.now + min connectTimeout left)))
  | .connected setupTimeout started =>
    let left := setupTimeout - (s.now - started)
    if left = 0 then
      some (s.fail (.postgresOperationTimeout "configure admin session timeouts".toList setupTimeout))
    else some (s.goto (.configuring (s.now + left)))
  | .failed =>
    if asMillis remaining > 0 then some (s.goto (.sleeping (s.now + min startupRetryInterval remaining)))
    else some (s.goto .looking)
  | .sleeping wakes => if wakes ≤ s.now then some (s.goto .looking) else none
  | .connecting .. | .configuring _ | .returned _ => none

def answer (s : State) (result : Except Error Unit) : Option State :=
  match s.stage, result with
  | .connecting setupTimeout started _, .ok _ => some (s.goto (.connected setupTimeout started))
  | .configuring _, .ok _ => some { s.goto (.returned (.ok ())) with tries := .ok () :: s.tries }
  | .connecting .., .error error | .configuring _, .error error => some (s.fail error)
  | _, _ => none

def step (cfg : Config) (s : State) : Action → Option State
  | .wait nanos =>
    if s.stage.isReturned = true ∨ s.now + nanos ≤ s.stage.ends s.since + cfg.slack then
      some { s with now := s.now + nanos }
    else none
  | .exits exit => if s.startupExit = none then some { s with startupExit := some exit } else none
  | .step => s.advance cfg
  | .answer result => s.answer result

end State

def machine (cfg : Config) : Machine State Action where
  initial s := s = .initial cfg
  step := State.step cfg

/-! ### The steps -/

/-- A stage that a try is at. -/
def Stage.tries : Stage → Bool
  | .beginning .. | .budgeting .. | .connecting .. | .connected .. | .configuring _ => true
  | _ => false

/-- What a step of the loop, or the answer to a request, can be. -/
inductive Moved (cfg : Config) (s : State) : State → Prop where
  | exited (exit : ContainerExit) (stage : s.stage = .looking ∨ s.stage = .lookingAgain)
      (seen : s.startupExit = some exit) :
      Moved cfg s (s.goto (.returned (.error (containerExitError cfg.profile exit))))
  | unseen (stage : s.stage = .looking) : Moved cfg s (s.goto .measuring)
  | expired (stage : s.stage = .measuring) (late : asMillis (cfg.startupTimeout - s.now) = 0) :
      Moved cfg s (s.goto .lookingAgain)
  | begins (stage : s.stage = .measuring) (early : asMillis (cfg.startupTimeout - s.now) ≠ 0) :
      Moved cfg s { s.goto (.beginning (min startupConnectAttemptTimeout (cfg.startupTimeout - s.now))
        (cfg.startupTimeout - s.now)) with begun := s.begun + 1 }
  | timedOut (stage : s.stage = .lookingAgain) : Moved cfg s (s.goto (.returned (.error (s.timeoutError cfg))))
  | takesDeadline (connectTimeout setupTimeout : Nat) (stage : s.stage = .beginning connectTimeout setupTimeout) :
      Moved cfg s (s.goto (.budgeting connectTimeout setupTimeout s.now))
  | connects (connectTimeout setupTimeout started : Nat)
      (stage : s.stage = .budgeting connectTimeout setupTimeout started) (left : s.now - started < setupTimeout) :
      Moved cfg s (s.goto (.connecting setupTimeout started
        (s.now + min connectTimeout (setupTimeout - (s.now - started)))))
  | answered (setupTimeout started ends : Nat) (stage : s.stage = .connecting setupTimeout started ends) :
      Moved cfg s (s.goto (.connected setupTimeout started))
  | configures (setupTimeout started : Nat) (stage : s.stage = .connected setupTimeout started)
      (left : s.now - started < setupTimeout) :
      Moved cfg s (s.goto (.configuring (s.now + (setupTimeout - (s.now - started)))))
  | ready (ends : Nat) (stage : s.stage = .configuring ends) :
      Moved cfg s { s.goto (.returned (.ok ())) with tries := .ok () :: s.tries }
  | fails (error : Error) (tries : s.stage.tries = true) : Moved cfg s (s.fail error)
  | rests (stage : s.stage = .failed) (early : asMillis (cfg.startupTimeout - s.now) ≠ 0) :
      Moved cfg s (s.goto (.sleeping (s.now + min startupRetryInterval (cfg.startupTimeout - s.now))))
  | again (stage : s.stage = .failed) (late : asMillis (cfg.startupTimeout - s.now) = 0) : Moved cfg s (s.goto .looking)
  | wakes (wakes : Nat) (stage : s.stage = .sleeping wakes) (slept : wakes ≤ s.now) : Moved cfg s (s.goto .looking)

section Steps
variable {cfg : Config} {s t : State}

theorem advance_moved (h : s.advance cfg = some t) : Moved cfg s t := by
  unfold State.advance at h
  simp only at h
  split at h
  · rename_i stage
    split at h
    · rename_i exit seen
      cases h
      exact .exited exit (Or.inl stage) seen
    · cases h
      exact .unseen stage
  · rename_i stage
    split at h
    · rename_i late
      cases h
      exact .expired stage late
    · rename_i early
      cases h
      exact .begins stage early
  · rename_i stage
    split at h
    · rename_i exit seen
      cases h
      exact .exited exit (Or.inr stage) seen
    · cases h
      exact .timedOut stage
  · rename_i connectTimeout setupTimeout stage
    cases h
    exact .takesDeadline connectTimeout setupTimeout stage
  · rename_i connectTimeout setupTimeout started stage
    split at h
    · cases h
      exact .fails _ (by rw [stage]; rfl)
    · rename_i left
      cases h
      exact .connects connectTimeout setupTimeout started stage (by omega)
  · rename_i setupTimeout started stage
    split at h
    · cases h
      exact .fails _ (by rw [stage]; rfl)
    · rename_i left
      cases h
      exact .configures setupTimeout started stage (by omega)
  · rename_i stage
    split at h
    · rename_i early
      cases h
      exact .rests stage (Nat.ne_of_gt early)
    · rename_i late
      cases h
      exact .again stage (by omega)
  · rename_i wakes stage
    obtain ⟨slept, heq⟩ := Option.ite_none_right_eq_some.mp h
    cases heq
    exact .wakes wakes stage slept
  all_goals cases h

theorem answer_moved {result : Except Error Unit} (h : s.answer result = some t) : Moved cfg s t := by
  unfold State.answer at h
  split at h
  · rename_i setupTimeout started ends _ stage
    cases h
    exact .answered setupTimeout started ends stage
  · rename_i ends _ stage
    cases h
    exact .ready ends stage
  · rename_i setupTimeout started ends error stage
    cases h
    exact .fails error (by rw [stage]; rfl)
  · rename_i ends error stage
    cases h
    exact .fails error (by rw [stage]; rfl)
  · cases h

/-- A step is the loop's, or time passes, or the exit is recorded. -/
theorem step_cases {a : Action} (h : s.step cfg a = some t) : Moved cfg s t ∨
    (∃ nanos, (s.stage.isReturned = true ∨ s.now + nanos ≤ s.stage.ends s.since + cfg.slack) ∧
      t = { s with now := s.now + nanos }) ∨
    ∃ exit, s.startupExit = none ∧ t = { s with startupExit := some exit } := by
  cases a with
  | wait nanos =>
    obtain ⟨hguard, heq⟩ := Option.ite_none_right_eq_some.mp h
    cases heq
    exact Or.inr (Or.inl ⟨nanos, hguard, rfl⟩)
  | exits exit =>
    obtain ⟨hnone, heq⟩ := Option.ite_none_right_eq_some.mp h
    cases heq
    exact Or.inr (Or.inr ⟨exit, hnone, rfl⟩)
  | step => exact Or.inl (advance_moved h)
  | answer result => exact Or.inl (answer_moved h)

end Steps

/-! ### In time -/

/-- When a stage can have been come to. -/
def Stage.Within (cfg : Config) (since : Nat) : Stage → Prop
  | .looking => since ≤ max cfg.begins cfg.startupTimeout + 4 * cfg.slack
  | .measuring => since ≤ max cfg.begins cfg.startupTimeout + 5 * cfg.slack
  | .lookingAgain => since ≤ max cfg.begins cfg.startupTimeout + 6 * cfg.slack
  | .beginning _ setupTimeout => since + setupTimeout = cfg.startupTimeout
  | .budgeting _ setupTimeout started => started = since ∧ started + setupTimeout ≤ cfg.startupTimeout + cfg.slack
  | .connecting setupTimeout started ends =>
    started ≤ since ∧ started + setupTimeout ≤ cfg.startupTimeout + cfg.slack ∧ since ≤ ends ∧
      ends ≤ started + setupTimeout
  | .connected setupTimeout started =>
    started ≤ since ∧ started + setupTimeout ≤ cfg.startupTimeout + cfg.slack ∧
      since ≤ cfg.startupTimeout + 2 * cfg.slack
  | .configuring ends => since ≤ ends ∧ ends ≤ cfg.startupTimeout + cfg.slack
  | .failed => since ≤ cfg.startupTimeout + 3 * cfg.slack
  | .sleeping wakes => since ≤ wakes ∧ wakes ≤ cfg.startupTimeout
  | .returned (.ok _) => since ≤ cfg.startupTimeout + 2 * cfg.slack
  | .returned (.error _) => since ≤ max cfg.begins cfg.startupTimeout + 7 * cfg.slack

structure Timely (cfg : Config) (s : State) : Prop where
  begins : cfg.begins ≤ s.since
  entered : s.since ≤ s.now
  leaves : s.stage.isReturned = false → s.now ≤ s.stage.ends s.since + cfg.slack
  within : s.stage.Within cfg s.since

theorem Stage.Within.le_ends {cfg : Config} {since : Nat} {stage : Stage} (h : stage.Within cfg since)
    (hr : stage.isReturned = false) : since ≤ stage.ends since := by
  cases stage with
  | connecting => exact h.2.2.1
  | configuring => exact h.1
  | sleeping => exact h.1
  | returned => cases hr
  | _ => exact Nat.le_refl since

section Timely
variable {cfg : Config} {s t : State}

theorem Moved.now (h : Moved cfg s t) : t.now = s.now ∧ t.since = s.now := by
  cases h <;> exact ⟨rfl, rfl⟩

theorem lt_of_early (h : asMillis (cfg.startupTimeout - s.now) ≠ 0) : s.now + 10 ^ 6 ≤ cfg.startupTimeout := by
  unfold asMillis at h
  omega

theorem lt_of_late (h : asMillis (cfg.startupTimeout - s.now) = 0) : cfg.startupTimeout < s.now + 10 ^ 6 := by
  unfold asMillis at h
  omega

/-- How late a stage of the loop can be left. -/
theorem Timely.left (hs : Timely cfg s) {stage : Stage} (h : s.stage = stage) (hr : stage.isReturned = false) :
    stage.Within cfg s.since ∧ s.now ≤ stage.ends s.since + cfg.slack := by
  subst h
  exact ⟨hs.within, hs.leaves hr⟩

/-- When a stage is left at the latest. -/
def Stage.latest (cfg : Config) : Stage → Nat
  | .looking => max cfg.begins cfg.startupTimeout + 5 * cfg.slack
  | .measuring => max cfg.begins cfg.startupTimeout + 6 * cfg.slack
  | .lookingAgain => max cfg.begins cfg.startupTimeout + 7 * cfg.slack
  | .beginning .. | .sleeping _ => cfg.startupTimeout + cfg.slack
  | .budgeting .. | .connecting .. | .configuring _ => cfg.startupTimeout + 2 * cfg.slack
  | .connected .. => cfg.startupTimeout + 3 * cfg.slack
  | .failed | .returned _ => cfg.startupTimeout + 4 * cfg.slack

theorem Timely.now_le (hs : Timely cfg s) {stage : Stage} (h : s.stage = stage) (hr : stage.isReturned = false) :
    s.now ≤ stage.latest cfg := by
  obtain ⟨hwithin, hleft⟩ := hs.left h hr
  cases stage with
  | returned => cases hr
  | _ =>
    simp only [Stage.Within, Stage.ends, Stage.latest] at hwithin hleft ⊢
    omega

theorem Stage.latest_tries {stage : Stage} (h : stage.tries = true) :
    stage.latest cfg ≤ cfg.startupTimeout + 3 * cfg.slack := by
  cases stage with
  | looking | measuring | lookingAgain | failed | sleeping | returned => cases h
  | _ => exact Nat.add_le_add_left (by omega) _

theorem Stage.not_returned {stage : Stage} (h : stage.tries = true) : stage.isReturned = false := by
  cases stage with
  | returned => cases h
  | _ => rfl

theorem within_moved (hs : Timely cfg s) (h : Moved cfg s t) : t.stage.Within cfg s.now := by
  have hentered := hs.entered
  have hbegins : cfg.startupTimeout ≤ max cfg.begins cfg.startupTimeout := Nat.le_max_right _ _
  cases h with
  | exited exit stage =>
    show s.now ≤ _
    obtain stage | stage := stage
    · have hnow := hs.now_le stage rfl
      simp only [Stage.latest] at hnow
      omega
    · exact hs.now_le stage rfl
  | unseen stage => exact hs.now_le stage rfl
  | expired stage => exact hs.now_le stage rfl
  | begins stage early =>
    have hearly := lt_of_early early
    show s.now + (cfg.startupTimeout - s.now) = _
    omega
  | timedOut stage => exact hs.now_le stage rfl
  | takesDeadline connectTimeout setupTimeout stage =>
    obtain ⟨hwithin, hleft⟩ := hs.left stage rfl
    simp only [Stage.Within, Stage.ends] at hwithin hleft
    refine ⟨rfl, ?_⟩
    omega
  | connects connectTimeout setupTimeout started stage left =>
    obtain ⟨hstarted, hbudget⟩ := (hs.left stage rfl).1
    refine ⟨?_, hbudget, Nat.le_add_right _ _, ?_⟩
    · omega
    · omega
  | answered setupTimeout started ends stage =>
    obtain ⟨hstarted, hbudget, _⟩ := (hs.left stage rfl).1
    exact ⟨Nat.le_trans hstarted hentered, hbudget, hs.now_le stage rfl⟩
  | configures setupTimeout started stage left =>
    obtain ⟨hstarted, hbudget, _⟩ := (hs.left stage rfl).1
    refine ⟨Nat.le_add_right _ _, ?_⟩
    omega
  | ready ends stage => exact hs.now_le stage rfl
  | fails error tries => exact Nat.le_trans (hs.now_le rfl (Stage.not_returned tries)) (Stage.latest_tries tries)
  | rests stage early =>
    have hearly := lt_of_early early
    refine ⟨Nat.le_add_right _ _, ?_⟩
    omega
  | again stage =>
    have hnow := hs.now_le stage rfl
    simp only [Stage.latest] at hnow
    show s.now ≤ _
    omega
  | wakes wakes stage =>
    have hnow := hs.now_le stage rfl
    simp only [Stage.latest] at hnow
    show s.now ≤ _
    omega

theorem timely_step (hs : Timely cfg s) {a : Action} (h : s.step cfg a = some t) : Timely cfg t := by
  obtain hmoved | ⟨nanos, hguard, rfl⟩ | ⟨exit, _, rfl⟩ := step_cases h
  · obtain ⟨hnow, hsince⟩ := hmoved.now
    have hwithin := within_moved hs hmoved
    rw [← hsince] at hwithin
    refine ⟨?_, ?_, fun hr => ?_, hwithin⟩
    · rw [hsince]
      exact Nat.le_trans hs.begins hs.entered
    · rw [hsince, hnow]
    · have hends := hwithin.le_ends hr
      omega
  · refine ⟨hs.begins, Nat.le_trans hs.entered (Nat.le_add_right _ _), fun hr => ?_, hs.within⟩
    obtain hreturned | hlate := hguard
    · cases hreturned.symm.trans hr
    · exact hlate
  · exact ⟨hs.begins, hs.entered, hs.leaves, hs.within⟩

theorem timely (hs : (machine cfg).Reachable s) : Timely cfg s := by
  induction hs with
  | start h =>
    cases h
    refine ⟨Nat.le_refl _, Nat.le_refl _, fun _ => Nat.le_add_right _ _, ?_⟩
    exact Nat.le_trans (Nat.le_max_left _ _) (Nat.le_add_right _ _)
  | next a _ hstep ih => exact timely_step ih hstep

end Timely

/-! ### Not too often -/

/-- Two tries begin a retry interval apart. -/
def Stage.Spaced (cfg : Config) (begun since : Nat) : Stage → Prop
  | .looking | .measuring =>
    begun = 0 ∨ begun * startupRetryInterval + cfg.begins ≤ since ∨ cfg.startupTimeout < since + 10 ^ 6
  | .lookingAgain => cfg.startupTimeout < since + 10 ^ 6
  | .sleeping wakes => begun * startupRetryInterval + cfg.begins ≤ wakes ∨ cfg.startupTimeout ≤ wakes
  | .returned _ => True
  | _ => begun * startupRetryInterval + cfg.begins ≤ since + startupRetryInterval

/-- The steps taken are those of the tries begun, and of the round at hand. -/
def Stage.Counted (begun steps : Nat) : Stage → Prop
  | .looking => steps ≤ 9 * begun
  | .measuring => steps ≤ 9 * begun + 1
  | .lookingAgain => steps ≤ 9 * begun + 2
  | .returned _ => steps ≤ 9 * begun + 3
  | .beginning .. => steps + 7 ≤ 9 * begun
  | .budgeting .. => steps + 6 ≤ 9 * begun
  | .connecting .. => steps + 5 ≤ 9 * begun
  | .connected .. => steps + 4 ≤ 9 * begun
  | .configuring _ => steps + 3 ≤ 9 * begun
  | .failed => steps + 2 ≤ 9 * begun
  | .sleeping _ => steps + 1 ≤ 9 * begun

structure Paced (cfg : Config) (s : State) : Prop where
  spaced : s.stage.Spaced cfg s.begun s.since
  counted : s.stage.Counted s.begun s.steps
  /-- A try begins with a millisecond left. -/
  limit : 0 < s.begun → s.begun * startupRetryInterval + cfg.begins ≤ cfg.startupTimeout + 24 * 10 ^ 6

section Paced
variable {cfg : Config} {s t : State}

theorem Paced.at (hs : Paced cfg s) {stage : Stage} (h : s.stage = stage) :
    stage.Spaced cfg s.begun s.since ∧ stage.Counted s.begun s.steps := by
  subst h
  exact ⟨hs.spaced, hs.counted⟩

theorem Paced.tries (hs : Paced cfg s) (h : s.stage.tries = true) :
    s.begun * startupRetryInterval + cfg.begins ≤ s.since + startupRetryInterval ∧ s.steps + 3 ≤ 9 * s.begun := by
  obtain ⟨hspaced, hcounted⟩ := hs.at rfl
  cases hstage : s.stage with
  | looking | measuring | lookingAgain | failed | sleeping | returned =>
    rw [hstage] at h
    cases h
  | _ =>
    rw [hstage] at hspaced hcounted
    exact ⟨hspaced, Nat.le_trans (by omega) hcounted⟩

/-- A later stage of the same try. -/
theorem Paced.trying (hs : Paced cfg s) (htimely : Timely cfg s) {stage next : Stage} (h : s.stage = stage)
    (htries : stage.tries = true) (hspaced : next.Spaced cfg s.begun s.now =
      (s.begun * startupRetryInterval + cfg.begins ≤ s.now + startupRetryInterval))
    (hcounted : stage.Counted s.begun s.steps → next.Counted s.begun (s.steps + 1)) : Paced cfg (s.goto next) := by
  subst h
  refine ⟨?_, hcounted hs.counted, hs.limit⟩
  show next.Spaced cfg s.begun s.now
  rw [hspaced]
  exact Nat.le_trans (hs.tries htries).1 (Nat.add_le_add_right htimely.entered _)

theorem paced_moved (hs : Paced cfg s) (htimely : Timely cfg s) (h : Moved cfg s t) : Paced cfg t := by
  have hentered := htimely.entered
  cases h with
  | exited exit stage =>
    refine ⟨trivial, ?_, hs.limit⟩
    show s.steps + 1 ≤ 9 * s.begun + 3
    obtain stage | stage := stage
    · have hcounted := (hs.at stage).2
      simp only [Stage.Counted] at hcounted
      omega
    · have hcounted := (hs.at stage).2
      simp only [Stage.Counted] at hcounted
      omega
  | unseen stage =>
    obtain ⟨hspaced, hcounted⟩ := hs.at stage
    refine ⟨?_, Nat.succ_le_succ hcounted, hs.limit⟩
    show s.begun = 0 ∨ s.begun * startupRetryInterval + cfg.begins ≤ s.now ∨ cfg.startupTimeout < s.now + 10 ^ 6
    simp only [Stage.Spaced] at hspaced
    omega
  | expired stage late => exact ⟨lt_of_late late, Nat.succ_le_succ (hs.at stage).2, hs.limit⟩
  | begins stage early =>
    obtain ⟨hspaced, hcounted⟩ := hs.at stage
    have hearly := lt_of_early early
    have hbegins := htimely.begins
    have hsum : (s.begun + 1) * startupRetryInterval + cfg.begins ≤ s.now + startupRetryInterval := by
      rw [Nat.add_mul, Nat.one_mul]
      obtain hnone | hspaced | hlate := hspaced
      · rw [hnone]
        omega
      · omega
      · omega
    refine ⟨hsum, ?_, fun _ => ?_⟩
    · show s.steps + 1 + 7 ≤ 9 * (s.begun + 1)
      simp only [Stage.Counted] at hcounted
      omega
    · show (s.begun + 1) * startupRetryInterval + cfg.begins ≤ _
      have hinterval : startupRetryInterval = 25 * 10 ^ 6 := rfl
      omega
  | timedOut stage => exact ⟨trivial, Nat.succ_le_succ (hs.at stage).2, hs.limit⟩
  | takesDeadline connectTimeout setupTimeout stage =>
    exact hs.trying htimely stage rfl rfl fun h => (by simp only [Stage.Counted] at h ⊢; omega)
  | connects connectTimeout setupTimeout started stage =>
    exact hs.trying htimely stage rfl rfl fun h => (by simp only [Stage.Counted] at h ⊢; omega)
  | answered setupTimeout started ends stage =>
    exact hs.trying htimely stage rfl rfl fun h => (by simp only [Stage.Counted] at h ⊢; omega)
  | configures setupTimeout started stage =>
    exact hs.trying htimely stage rfl rfl fun h => (by simp only [Stage.Counted] at h ⊢; omega)
  | ready ends stage =>
    refine ⟨trivial, ?_, hs.limit⟩
    have hcounted := (hs.at stage).2
    show s.steps + 1 ≤ 9 * s.begun + 3
    simp only [Stage.Counted] at hcounted
    omega
  | fails error tries =>
    obtain ⟨hspaced, hcounted⟩ := hs.tries tries
    refine ⟨Nat.le_trans hspaced (Nat.add_le_add_right hentered _), ?_, hs.limit⟩
    show s.steps + 1 + 2 ≤ 9 * s.begun
    omega
  | rests stage early =>
    obtain ⟨hspaced, hcounted⟩ := hs.at stage
    have hearly := lt_of_early early
    refine ⟨?_, ?_, hs.limit⟩
    · show Stage.Spaced cfg s.begun s.now (.sleeping (s.now + min startupRetryInterval (cfg.startupTimeout - s.now)))
      simp only [Stage.Spaced] at hspaced ⊢
      omega
    · show s.steps + 1 + 1 ≤ 9 * s.begun
      simp only [Stage.Counted] at hcounted
      omega
  | again stage late =>
    have hcounted := (hs.at stage).2
    refine ⟨Or.inr (Or.inr (lt_of_late late)), ?_, hs.limit⟩
    show s.steps + 1 ≤ 9 * s.begun
    simp only [Stage.Counted] at hcounted
    omega
  | wakes wakes stage slept =>
    obtain ⟨hspaced, hcounted⟩ := hs.at stage
    refine ⟨Or.inr ?_, hcounted, hs.limit⟩
    show s.begun * startupRetryInterval + cfg.begins ≤ s.now ∨ cfg.startupTimeout < s.now + 10 ^ 6
    simp only [Stage.Spaced] at hspaced
    omega

theorem paced (hs : (machine cfg).Reachable s) : Paced cfg s := by
  induction hs with
  | start h =>
    cases h
    exact ⟨Or.inl rfl, Nat.le_refl _, fun h => absurd h (Nat.lt_irrefl 0)⟩
  | next a hs hstep ih =>
    obtain hmoved | ⟨nanos, _, rfl⟩ | ⟨exit, _, rfl⟩ := step_cases hstep
    · exact paced_moved ih (timely hs) hmoved
    · exact ⟨ih.spaced, ih.counted, ih.limit⟩
    · exact ⟨ih.spaced, ih.counted, ih.limit⟩

end Paced

/-! ### What it returns -/

/-- Why the loop returned that. -/
inductive Explained (cfg : Config) (s : State) : Except Error Unit → Prop where
  | ready (errors : List Error) (tries : s.tries = .ok () :: errors.map .error) : Explained cfg s (.ok ())
  | exited (exit : ContainerExit) (errors : List Error) (recorded : s.startupExit = some exit)
      (tries : s.tries = errors.map .error) : Explained cfg s (.error (containerExitError cfg.profile exit))
  | silent (late : cfg.startupTimeout < s.since + 10 ^ 6) (tries : s.tries = []) :
      Explained cfg s (.error (.containerStartupTimeout cfg.startupTimeout))
  | unready (error : Error) (errors : List Error) (late : cfg.startupTimeout < s.since + 10 ^ 6)
      (tries : s.tries = .error error :: errors.map .error) :
      Explained cfg s (.error (.containerReadinessTimeout cfg.startupTimeout error))

/-- Until the loop returns, every try has failed, and the last failure is at hand. -/
structure Failing (s : State) : Prop where
  lastError : ∃ errors : List Error, s.tries = errors.map .error ∧ s.lastError = errors.head?
  begun : s.begun = s.tries.length + if s.stage.tries = true then 1 else 0

/-- What is known of a returned loop. -/
structure Settled (cfg : Config) (s : State) (result : Except Error Unit) : Prop where
  explained : Explained cfg s result
  begun : s.begun = s.tries.length

structure Recorded (cfg : Config) (s : State) : Prop where
  failing : s.stage.isReturned = false → Failing s
  returned : ∀ result, s.stage = .returned result → Settled cfg s result

section Recorded
variable {cfg : Config} {s t : State}

theorem Recorded.running (hs : Recorded cfg s) {stage : Stage} (h : s.stage = stage) (hr : stage.isReturned = false) :
    Failing s := by
  subst h
  exact hs.failing hr

/-- The loop goes on. -/
theorem Failing.goto (hs : Failing s) {stage : Stage} (hr : stage.isReturned = false)
    (h : stage.tries = s.stage.tries) : Recorded cfg (s.goto stage) := by
  refine ⟨fun _ => ⟨hs.lastError, ?_⟩, fun result hresult => ?_⟩
  · show s.begun = s.tries.length + if stage.tries = true then 1 else 0
    rw [h]
    exact hs.begun
  · obtain rfl : stage = .returned result := hresult
    cases hr

/-- It returns outside a try. -/
theorem Failing.settle (hs : Failing s) (h : s.stage.tries = false) {result : Except Error Unit}
    (hexplained : Explained cfg (s.goto (.returned result)) result) : Recorded cfg (s.goto (.returned result)) := by
  refine ⟨fun hr => (by cases hr), fun other hother => ?_⟩
  cases hother
  refine ⟨hexplained, ?_⟩
  have hbegun := hs.begun
  rw [h] at hbegun
  exact hbegun

theorem recorded_moved (hs : Recorded cfg s) (hpaced : Paced cfg s) (htimely : Timely cfg s) (h : Moved cfg s t) :
    Recorded cfg t := by
  cases h with
  | exited exit stage seen =>
    have hstage : s.stage.isReturned = false ∧ s.stage.tries = false := by
      obtain stage | stage := stage
      · rw [stage]
        exact ⟨rfl, rfl⟩
      · rw [stage]
        exact ⟨rfl, rfl⟩
    have hfailing := hs.failing hstage.1
    obtain ⟨errors, htries, _⟩ := hfailing.lastError
    exact hfailing.settle hstage.2 (.exited exit errors seen htries)
  | unseen stage => exact (hs.running stage rfl).goto rfl (by rw [stage]; rfl)
  | expired stage => exact (hs.running stage rfl).goto rfl (by rw [stage]; rfl)
  | begins stage =>
    have hfailing := hs.running stage rfl
    refine ⟨fun _ => ⟨hfailing.lastError, ?_⟩, fun result hresult => (by cases hresult)⟩
    have hbegun := hfailing.begun
    rw [stage] at hbegun
    exact congrArg (· + 1) hbegun
  | timedOut stage =>
    have hfailing := hs.running stage rfl
    obtain ⟨errors, htries, hlast⟩ := hfailing.lastError
    have hlate : cfg.startupTimeout < s.now + 10 ^ 6 :=
      Nat.lt_of_lt_of_le (hpaced.at stage).1 (Nat.add_le_add_right htimely.entered _)
    have hno : s.stage.tries = false := by rw [stage]; rfl
    refine hfailing.settle hno ?_
    cases errors with
    | nil =>
      rw [show s.timeoutError cfg = .containerStartupTimeout cfg.startupTimeout by rw [State.timeoutError, hlast]; rfl]
      exact .silent hlate htries
    | cons error errors =>
      rw [show s.timeoutError cfg = .containerReadinessTimeout cfg.startupTimeout error by
        rw [State.timeoutError, hlast]; rfl]
      exact .unready error errors hlate htries
  | takesDeadline connectTimeout setupTimeout stage => exact (hs.running stage rfl).goto rfl (by rw [stage]; rfl)
  | connects connectTimeout setupTimeout started stage => exact (hs.running stage rfl).goto rfl (by rw [stage]; rfl)
  | answered setupTimeout started ends stage => exact (hs.running stage rfl).goto rfl (by rw [stage]; rfl)
  | configures setupTimeout started stage => exact (hs.running stage rfl).goto rfl (by rw [stage]; rfl)
  | ready ends stage =>
    have hfailing := hs.running stage rfl
    obtain ⟨errors, htries, _⟩ := hfailing.lastError
    refine ⟨fun hr => (by cases hr), fun result hresult => ?_⟩
    cases hresult
    have hbegun := hfailing.begun
    rw [stage] at hbegun
    exact ⟨.ready errors (congrArg (List.cons (.ok ())) htries), hbegun⟩
  | fails error tries =>
    have hfailing := hs.failing (Stage.not_returned tries)
    obtain ⟨errors, htries, _⟩ := hfailing.lastError
    refine ⟨fun _ => ⟨⟨error :: errors, ?_, rfl⟩, ?_⟩,
      fun result hresult => (by cases hresult)⟩
    · show Except.error error :: s.tries = _
      rw [htries]
      rfl
    · have hbegun := hfailing.begun
      rw [if_pos tries] at hbegun
      exact hbegun
  | rests stage => exact (hs.running stage rfl).goto rfl (by rw [stage]; rfl)
  | again stage => exact (hs.running stage rfl).goto rfl (by rw [stage]; rfl)
  | wakes wakes stage => exact (hs.running stage rfl).goto rfl (by rw [stage]; rfl)

theorem Explained.exits {result : Except Error Unit} (h : Explained cfg s result) (hnone : s.startupExit = none)
    (exit : ContainerExit) : Explained cfg { s with startupExit := some exit } result := by
  cases h with
  | ready errors tries => exact .ready errors tries
  | exited other errors recorded => cases hnone.symm.trans recorded
  | silent late tries => exact .silent late tries
  | unready error errors late tries => exact .unready error errors late tries

theorem Explained.waits {result : Except Error Unit} (h : Explained cfg s result) (now : Nat) :
    Explained cfg { s with now } result := by
  cases h with
  | ready errors tries => exact .ready errors tries
  | exited exit errors recorded tries => exact .exited exit errors recorded tries
  | silent late tries => exact .silent late tries
  | unready error errors late tries => exact .unready error errors late tries

theorem recorded (hs : (machine cfg).Reachable s) : Recorded cfg s := by
  induction hs with
  | start h =>
    cases h
    exact ⟨fun _ => ⟨⟨[], rfl, rfl⟩, rfl⟩, fun result h => by cases h⟩
  | next a hs hstep ih =>
    obtain hmoved | ⟨nanos, _, rfl⟩ | ⟨exit, hnone, rfl⟩ := step_cases hstep
    · exact recorded_moved ih (paced hs) (timely hs) hmoved
    · refine ⟨fun hr => ⟨(ih.failing hr).lastError, (ih.failing hr).begun⟩, fun result h => ?_⟩
      obtain ⟨hexplained, hbegun⟩ := ih.returned result h
      exact ⟨hexplained.waits _, hbegun⟩
    · refine ⟨fun hr => ⟨(ih.failing hr).lastError, (ih.failing hr).begun⟩, fun result h => ?_⟩
      obtain ⟨hexplained, hbegun⟩ := ih.returned result h
      exact ⟨hexplained.exits hnone exit, hbegun⟩

end Recorded

/-! ### It gets through -/

section Progress
variable {cfg : Config} {s : State}

/-- What happens at the latest when the time at a stage is over: the client gives up a request. -/
def Stage.due (since : Nat) : Stage → Action
  | .connecting _ _ ends =>
    .answer (.error (.postgresConnectTimeout "wait for final owned PostgreSQL TCP server".toList (ends - since)))
  | .configuring ends =>
    .answer (.error (.postgresOperationTimeout "configure admin session timeouts".toList (ends - since)))
  | _ => .step

theorem step_due (h : s.stage.isReturned = false) (hdue : s.stage.ends s.since ≤ s.now) :
    ∃ t, s.step cfg (s.stage.due s.since) = some t ∧ t.steps = s.steps + 1 := by
  cases hstage : s.stage with
  | connecting | configuring =>
    simp only [Stage.due, State.step, State.answer, hstage]
    exact ⟨_, rfl, rfl⟩
  | looking | lookingAgain =>
    simp only [Stage.due, State.step, State.advance, hstage]
    cases s.startupExit <;> exact ⟨_, rfl, rfl⟩
  | beginning =>
    simp only [Stage.due, State.step, State.advance, hstage]
    exact ⟨_, rfl, rfl⟩
  | measuring | budgeting | connected | failed =>
    simp only [Stage.due, State.step, State.advance, hstage]
    split <;> exact ⟨_, rfl, rfl⟩
  | sleeping wakes =>
    have hslept : wakes ≤ s.now := by rwa [hstage] at hdue
    simp only [Stage.due, State.step, State.advance, hstage, if_pos hslept]
    exact ⟨_, rfl, rfl⟩
  | returned result =>
    rw [hstage] at h
    cases h

theorem Timely.goes_on (hs : Timely cfg s) (h : s.stage.isReturned = false) : ∃ t,
    (machine cfg).run s [.wait (s.stage.ends s.since - s.now), s.stage.due s.since] = some t ∧
      t.steps = s.steps + 1 := by
  have hleaves := hs.leaves h
  have hdue : s.stage.ends s.since ≤ s.now + (s.stage.ends s.since - s.now) := by omega
  obtain ⟨t, ht, hsteps⟩ :=
    @step_due cfg { s with now := s.now + (s.stage.ends s.since - s.now) } h hdue
  have hwait : s.step cfg (.wait (s.stage.ends s.since - s.now)) =
      some { s with now := s.now + (s.stage.ends s.since - s.now) } := by
    refine if_pos (Or.inr ?_)
    omega
  refine ⟨t, ?_, hsteps⟩
  rw [Machine.run_cons, show (machine cfg).step = State.step cfg from rfl, hwait, Option.bind_some, Machine.run_cons,
    show (machine cfg).step = State.step cfg from rfl, ht, Option.bind_some, Machine.run_nil]

theorem Timely.overdue (hs : Timely cfg s) (h : s.stage.isReturned = false) :
    s.now ≤ max cfg.begins cfg.startupTimeout + 7 * cfg.slack := by
  have hnow := hs.now_le rfl h
  cases hstage : s.stage with
  | returned =>
    rw [hstage] at h
    cases h
  | _ =>
    rw [hstage] at hnow
    simp only [Stage.latest] at hnow
    omega

end Progress

/-- The wait for the server ends soon after the startup timeout, with a session that is ready, with
the container's exit or with the newest failure, and until then it gets on. It begins no more tries
than the retry interval leaves room for. -/
theorem server_awaited {cfg : Config} {s : State} (hs : (machine cfg).Reachable s) :
    (max cfg.begins cfg.startupTimeout + 7 * cfg.slack < s.now → s.stage.isReturned = true) ∧
    (s.stage.isReturned = false → ∃ t,
      (machine cfg).run s [.wait (s.stage.ends s.since - s.now), s.stage.due s.since] = some t ∧
        t.steps = s.steps + 1) ∧
    (∀ result, s.stage = .returned result → Explained cfg s result ∧ s.begun = s.tries.length ∧
      (result = .ok () → s.since ≤ cfg.startupTimeout + 2 * cfg.slack)) ∧
    s.steps ≤ 9 * s.begun + 3 ∧
    (0 < s.begun → s.begun * startupRetryInterval + cfg.begins ≤ cfg.startupTimeout + 24 * 10 ^ 6) := by
  have htimely := timely hs
  have hpaced := paced hs
  refine ⟨fun hlate => ?_, htimely.goes_on, fun result hresult => ?_, ?_, hpaced.limit⟩
  · by_contra hr
    have hoverdue := htimely.overdue (Bool.eq_false_iff.mpr hr)
    omega
  · obtain ⟨hexplained, hbegun⟩ := (recorded hs).returned result hresult
    refine ⟨hexplained, hbegun, fun hok => ?_⟩
    have hwithin := htimely.within
    rw [hresult, hok] at hwithin
    exact hwithin
  · have hcounted := hpaced.counted
    cases hstage : s.stage with
    | returned => exact (hpaced.at hstage).2
    | _ =>
      have hcounted := (hpaced.at hstage).2
      simp only [Stage.Counted] at hcounted
      omega

/-- A second to start, and a loop that begins when the container is there. -/
def sampleConfig : Config := ⟨.performance, 10 ^ 9, 3 * 10 ^ 8, 10 ^ 6⟩

/-- The server refuses the first connection and is ready at the second. -/
def secondTry : List Action :=
  [.step, .step, .step, .step, .wait (2 * 10 ^ 6), .answer (.error .containerWorkerStopped), .step, .wait (25 * 10 ^ 6),
    .step, .step, .step, .step, .step, .wait (4 * 10 ^ 6), .answer (.ok ()), .step, .answer (.ok ())]

theorem server_awaited_second : ∃ s, (machine sampleConfig).Reachable s ∧ s.stage = .returned (.ok ()) ∧
    s.begun = 2 ∧ s.steps = 14 ∧ Explained sampleConfig s (.ok ()) := by
  have hrun : ((machine sampleConfig).run (.initial sampleConfig) secondTry).any (fun s =>
      decide (s.stage = .returned (.ok ())) && s.begun == 2 && s.steps == 14) = true := by
    decide +kernel
  obtain ⟨s, hs, hfacts⟩ := (Option.any_eq_true _ _).mp hrun
  obtain ⟨hfacts, hsteps⟩ := Bool.and_eq_true_iff.mp hfacts
  obtain ⟨hstage, hbegun⟩ := Bool.and_eq_true_iff.mp hfacts
  have hreachable := Machine.reachable_of_run (m := machine sampleConfig) _ rfl hs
  have hstage := of_decide_eq_true hstage
  exact ⟨s, hreachable, hstage, beq_iff_eq.mp hbegun, beq_iff_eq.mp hsteps,
    ((server_awaited hreachable).2.2.1 _ hstage).1⟩

end PostgresTestHarness.Container.Readiness
