import PostgresTestHarness.Library.Machine
import PostgresTestHarness.Postgres.Client
import PostgresTestHarness.Postgres.Settings

/-! Programs on the sessions of `connect_admin`, with what bounds their requests.

A session is configured before its program runs. A lock that others may hold for long is
asked for under the coordination timeouts: they are set, the lock is requested, and the
session's own timeouts are set again, each a request that can fail. A server answers
statements in any state, since other sessions run between two requests. -/
namespace PostgresTestHarness.AdminClient
open Postgres
open StaleCleanup (Duration)

variable {χ ρ : Type}

/-- A program, and how its caller uses it. A session that could not get a lock, or its own
timeouts back, is not used for another request: it is dropped. -/
structure Routine (ρ : Type) where
  code : ρ → Option (Code ρ)
  /-- How the caller may go on with it. -/
  resumes : ρ → ρ → Bool
  ended : ρ → Bool
  silent : ∀ p next, ended p = true → code p = some next → ∃ after, next = .close after
  stays : ∀ p q, ended p = true → resumes p q = true → ended q = true
  refused : ∀ p mode key ok failed, code p = some (.acquire mode key ok failed) → ended failed = true

inductive Purpose where
  | statement
  | lock
  deriving DecidableEq, Repr

/-- A request, with the client's deadline for it and the session's settings. -/
structure Request where
  purpose : Purpose
  deadline : Duration
  settings : Settings
  deriving DecidableEq, Repr

inductive Stage where
  /-- In `connect_admin`, before `configure_session_timeouts`. -/
  | connected
  | ready
  /-- Behind `configure_coordination_timeouts`. -/
  | coordinating
  /-- With the lock, before `configure_session_timeouts`. -/
  | locked
  | closed
  deriving DecidableEq, Repr

structure Session (ρ : Type) where
  program : ρ
  stage : Stage
  settings : Settings
  /-- The requests for statements and locks, newest first. -/
  requests : List Request

inductive Action (χ ρ : Type) where
  /-- `configure_session_timeouts`. -/
  | configure (o : Outcome)
  | coordinate (o : Outcome)
  | lock (o : Outcome)
  /-- A request of the program, or a move without one. -/
  | turn (server : Server χ) (o : Outcome)
  | resume (next : ρ)
  | close

/-- A request that sets timeouts: the session, and whether the client saw it succeed. -/
def Session.set (defaults : Settings) (s : Session ρ) (text : Except TimeoutOutOfRange Text) (o : Outcome) :
    Option (Session ρ × Bool) :=
  match text, o with
  | .ok text, .ok => (Settings.execute defaults s.settings text).map fun settings => ({ s with settings }, true)
  | .ok text, .failed true =>
    (Settings.execute defaults s.settings text).map fun settings => ({ s with settings }, false)
  | _, .failed false => some (s, false)
  | .ok _, .refused => some (s, false)
  | .error _, _ => none

def Session.goto (s : Session ρ) (stage : Stage) (program : ρ) : Session ρ := { s with stage, program }

def Session.send (s : Session ρ) (purpose : Purpose) (deadline : Duration) : Session ρ :=
  { s with requests := ⟨purpose, deadline, s.settings⟩ :: s.requests }

def step (config : HarnessTimeouts) (defaults : Settings) (routine : Routine ρ) (s : Session ρ) :
    Action χ ρ → Option (Session ρ)
  | .configure o =>
    (s.set defaults (configureSessionText config.operationTimeout) o).bind fun (t, succeeded) =>
      match s.stage, routine.code s.program with
      | .connected, _ => some (t.goto (if succeeded then .ready else .closed) s.program)
      | .locked, some (.acquire _ _ ok failed) => some (t.goto .ready (if succeeded then ok else failed))
      | _, _ => none
  | .coordinate o =>
    (s.set defaults (configureCoordinationText config.templateWaitTimeout) o).bind fun (t, succeeded) =>
      match s.stage, routine.code s.program with
      | .ready, some (.acquire _ _ _ failed) =>
        some (if succeeded then t.goto .coordinating s.program else t.goto .ready failed)
      | _, _ => none
  | .lock o =>
    match s.stage, routine.code s.program with
    | .coordinating, some (.acquire _ _ _ failed) =>
      let sent := s.send .lock (clientOperationTimeout config.templateWaitTimeout)
      some (if o = .ok then sent.goto .locked s.program else sent.goto .ready failed)
    | _, _ => none
  | .turn server o =>
    match s.stage, routine.code s.program with
    | .ready, some (.run stmt ok failed) =>
      let sent := s.send .statement (clientOperationTimeout config.operationTimeout)
      if o = .ok then (server.execute 0 stmt).map fun (_, answer) => sent.goto .ready (ok answer)
      else some (sent.goto .ready failed)
    | .ready, some (.classify stmt ok refused failed) =>
      let sent := s.send .statement (clientOperationTimeout config.operationTimeout)
      match o with
      | .ok => (server.execute 0 stmt).map fun (_, answer) => sent.goto .ready (ok answer)
      | .refused => some (sent.goto .ready refused)
      | .failed _ => some (sent.goto .ready failed)
    | .ready, some (.ask yes no) => some (s.goto .ready (if o = .ok then yes else no))
    | .ready, some (.close next) => some (s.goto .closed next)
    | .ready, some (.pass next) => some (s.goto .ready next)
    | _, _ => none
  | .resume next =>
    if s.stage = .ready ∧ routine.resumes s.program next = true then some (s.goto .ready next) else none
  | .close => some (s.goto .closed s.program)

/-- A connection as the server opens it. -/
structure Initial (defaults : Settings) (s : Session ρ) : Prop where
  stage : s.stage = .connected
  settings : s.settings = defaults
  requests : s.requests = []

def machine (χ : Type) (config : HarnessTimeouts) (defaults : Settings) (routine : Routine ρ) :
    Machine (Session ρ) (Action χ ρ) where
  initial := Initial defaults
  step := step config defaults routine

/-! ### What bounds a request -/

/-- The timeout that a request is made under. -/
def Purpose.timeout (config : HarnessTimeouts) : Purpose → Duration
  | .statement => config.operationTimeout
  | .lock => config.templateWaitTimeout

/-- How long it may wait for a lock, in milliseconds. -/
def Purpose.lockTimeout (config : HarnessTimeouts) : Purpose → Nat
  | .statement => min 10000 config.operationTimeout.asMillis
  | .lock => config.templateWaitTimeout.asMillis

/-- The server's settings are those for the purpose. -/
def Settings.For (config : HarnessTimeouts) (purpose : Purpose) (settings : Postgres.Settings) : Prop :=
  settings.statementTimeout = (purpose.timeout config).asMillis ∧ settings.lockTimeout = purpose.lockTimeout config

/-- A request ends: the server limits it and any wait of it for a lock, and the client gives up
a second later, so that the server's own error comes first. -/
structure Bounded (config : HarnessTimeouts) (r : Request) : Prop where
  statement : r.settings.statementTimeout = (r.purpose.timeout config).asMillis
  lock : r.settings.lockTimeout = r.purpose.lockTimeout config
  limited : 0 < r.settings.statementTimeout ∧ r.settings.statementTimeout ≤ i32Max
  lockLimited : 0 < r.settings.lockTimeout ∧ r.settings.lockTimeout ≤ r.settings.statementTimeout
  backstop : r.settings.statementTimeout * 10 ^ 6 + 10 ^ 9 ≤ r.deadline.asNanos
  deadline : r.deadline.asNanos = (r.purpose.timeout config).asNanos + 10 ^ 9

theorem asNanos_clientOperationTimeout {timeout : Duration} (h : PostgresTimeout timeout) :
    (clientOperationTimeout timeout).asNanos = timeout.asNanos + 10 ^ 9 := by
  have hfits := h.fits
  rw [Duration.asMillis_eq, i32Max] at hfits
  rw [clientOperationTimeout, Duration.asNanos_saturatingAdd,
    show clientOperationTimeoutGrace.asNanos = 10 ^ 9 by decide,
    Duration.limit]
  omega

theorem bounded_of_settings {config : HarnessTimeouts} (h : config.Valid) {r : Request}
    (hsettings : Settings.For config r.purpose r.settings)
    (hdeadline : r.deadline = clientOperationTimeout (r.purpose.timeout config)) : Bounded config r := by
  obtain ⟨hstatement, hlock⟩ := hsettings
  have htimeout : PostgresTimeout (r.purpose.timeout config) := by
    cases r.purpose with
    | statement => exact h.operation
    | lock => exact h.templateWait
  have hnanos := asNanos_clientOperationTimeout htimeout
  have hpositive := htimeout.positive
  have hlimit : 0 < r.purpose.lockTimeout config ∧
      r.purpose.lockTimeout config ≤ (r.purpose.timeout config).asMillis := by
    cases hpurpose : r.purpose with
    | statement =>
      rw [hpurpose] at hpositive
      simp only [Purpose.lockTimeout, Purpose.timeout] at hpositive ⊢
      omega
    | lock =>
      rw [hpurpose] at hpositive
      exact ⟨hpositive, Nat.le_refl _⟩
  refine ⟨hstatement, hlock, ?_, ?_, ?_, ?_⟩
  · rw [hstatement]
    exact ⟨hpositive, htimeout.fits⟩
  · rw [hstatement, hlock]
    exact hlimit
  · rw [hstatement, hdeadline, hnanos, Duration.asMillis_eq]
    omega
  · rw [hdeadline, hnanos]

/-! ### Every request is bounded -/

section Sound
variable {config : HarnessTimeouts} {defaults : Settings} {routine : Routine ρ} {s t : Session ρ}

theorem set_eq_some {text : Except TimeoutOutOfRange Text} {o : Outcome} {succeeded : Bool}
    (h : s.set defaults text o = some (t, succeeded)) : t = { s with settings := t.settings } ∧
      (succeeded = true → ∃ script, text = .ok script ∧
        Settings.execute defaults s.settings script = some t.settings) := by
  unfold Session.set at h
  split at h
  · rename_i script
    obtain ⟨settings, hrun, heq⟩ := Option.map_eq_some_iff.mp h
    cases heq
    exact ⟨rfl, fun _ => ⟨script, rfl, hrun⟩⟩
  · obtain ⟨settings, hrun, heq⟩ := Option.map_eq_some_iff.mp h
    cases heq
    exact ⟨rfl, fun h => by cases h⟩
  · cases h
    exact ⟨rfl, fun h => by cases h⟩
  · cases h
    exact ⟨rfl, fun h => by cases h⟩
  · cases h

theorem set_failed {text : Except TimeoutOutOfRange Text} {o : Outcome} {succeeded : Bool}
    (h : s.set defaults text o = some (t, succeeded)) (ho : o ≠ .ok) : succeeded = false := by
  unfold Session.set at h
  split at h
  · exact absurd rfl ho
  · obtain ⟨settings, _, heq⟩ := Option.map_eq_some_iff.mp h
    cases heq
    rfl
  · cases h
    rfl
  · cases h
    rfl
  · cases h

theorem millis_fit {timeout : Duration} (h : PostgresTimeout timeout) : timeout.asMillis < 2 ^ 64 :=
  Nat.lt_of_le_of_lt h.fits (by decide)

/-- The session's own timeouts are set. -/
theorem configured (h : config.Valid) {o : Outcome}
    (hset : s.set defaults (configureSessionText config.operationTimeout) o = some (t, true)) :
    Settings.For config .statement t.settings := by
  obtain ⟨script, htext, hrun⟩ := (set_eq_some hset).2 rfl
  rw [configureSessionText_eq (millis_fit h.operation)] at htext
  cases htext
  rw [execute_limits (Nat.min_le_right _ _), if_pos h.operation.fits, Option.some.injEq] at hrun
  rw [← hrun]
  exact ⟨rfl, rfl⟩

/-- The coordination timeouts are. -/
theorem coordinated (h : config.Valid) {o : Outcome}
    (hset : s.set defaults (configureCoordinationText config.templateWaitTimeout) o = some (t, true)) :
    Settings.For config .lock t.settings := by
  obtain ⟨script, htext, hrun⟩ := (set_eq_some hset).2 rfl
  rw [configureCoordinationText_eq (millis_fit h.templateWait)] at htext
  cases htext
  rw [execute_limits (Nat.le_refl _), if_pos h.templateWait.fits, Option.some.injEq] at hrun
  rw [← hrun]
  exact ⟨rfl, rfl⟩

/-- What holds between two requests. -/
structure Sound (config : HarnessTimeouts) (routine : Routine ρ) (s : Session ρ) : Prop where
  ready : s.stage = .ready → routine.ended s.program = true ∨ Settings.For config .statement s.settings
  coordinating : s.stage = .coordinating → Settings.For config .lock s.settings
  requests : ∀ r ∈ s.requests, Bounded config r

theorem Sound.closed (hs : Sound config routine s) (settings : Settings) {stage : Stage} (h : stage ≠ .ready)
    (hc : stage ≠ .coordinating) (program : ρ) :
    Sound config routine ⟨program, stage, settings, s.requests⟩ :=
  ⟨fun hready => absurd hready h, fun hcoordinating => absurd hcoordinating hc, hs.requests⟩

/-- A session that is only to be dropped. -/
theorem Sound.give_up (hs : Sound config routine s) (settings : Settings) {failed : ρ}
    (h : routine.ended failed = true) : Sound config routine ⟨failed, .ready, settings, s.requests⟩ :=
  ⟨fun _ => Or.inl h, fun h => (by cases h), hs.requests⟩

theorem Sound.go_on (hs : Sound config routine s) {settings : Settings} (h : Settings.For config .statement settings)
    (program : ρ) : Sound config routine ⟨program, .ready, settings, s.requests⟩ :=
  ⟨fun _ => Or.inr h, fun h => (by cases h), hs.requests⟩

/-- A program that does more than drop its client has its own timeouts. -/
theorem Sound.settings (hs : Sound config routine s) (hstage : s.stage = .ready) {next : Code ρ}
    (hcode : routine.code s.program = some next) (hnext : ∀ after, next ≠ .close after) :
    Settings.For config .statement s.settings := by
  obtain hended | hsettings := hs.ready hstage
  · obtain ⟨after, hclose⟩ := routine.silent _ _ hended hcode
    exact absurd hclose (hnext after)
  · exact hsettings

/-- A request under the settings for its purpose. -/
theorem Sound.send (hs : Sound config routine s) (h : config.Valid) {purpose : Purpose}
    (hsettings : Settings.For config purpose s.settings) :
    Sound config routine (s.send purpose (clientOperationTimeout (purpose.timeout config))) := by
  refine ⟨hs.ready, hs.coordinating, fun r hr => ?_⟩
  obtain rfl | hr := List.mem_cons.mp hr
  · exact bounded_of_settings h hsettings rfl
  · exact hs.requests r hr

theorem sound_step (h : config.Valid) {a : Action χ ρ} (hs : Sound config routine s)
    (hstep : step config defaults routine s a = some t) : Sound config routine t := by
  cases a with
  | configure o =>
    obtain ⟨⟨u, succeeded⟩, hset, hstep⟩ := Option.bind_eq_some_iff.mp hstep
    obtain ⟨hu, -⟩ := set_eq_some hset
    simp only at hstep
    split at hstep
    · cases hstep
      rw [hu]
      cases succeeded with
      | true => exact hs.go_on (configured h hset) s.program
      | false => exact hs.closed u.settings (by decide) (by decide) s.program
    · rename_i ok failed hstage hcode
      cases hstep
      rw [hu]
      cases succeeded with
      | true => exact hs.go_on (configured h hset) ok
      | false => exact hs.give_up u.settings (routine.refused _ _ _ _ _ hcode)
    · cases hstep
  | coordinate o =>
    obtain ⟨⟨u, succeeded⟩, hset, hstep⟩ := Option.bind_eq_some_iff.mp hstep
    obtain ⟨hu, -⟩ := set_eq_some hset
    simp only at hstep
    split at hstep
    · rename_i failed hstage hcode
      cases hstep
      rw [hu]
      cases succeeded with
      | true =>
        have hsettings : Settings.For config .lock u.settings := coordinated h hset
        exact ⟨fun h => (by cases h), fun _ => hsettings, hs.requests⟩
      | false => exact hs.give_up u.settings (routine.refused _ _ _ _ _ hcode)
    · cases hstep
  | lock o =>
    simp only [step] at hstep
    split at hstep
    · rename_i failed hstage hcode
      have hsent := hs.send h (hs.coordinating hstage)
      cases hstep
      split
      · exact hsent.closed s.settings (by decide) (by decide) s.program
      · exact hsent.give_up s.settings (routine.refused _ _ _ _ _ hcode)
    · cases hstep
  | turn server o =>
    simp only [step] at hstep
    split at hstep
    · rename_i hstage hcode
      have hsettings := hs.settings hstage hcode nofun
      have hsent := hs.send h hsettings
      split at hstep
      · obtain ⟨⟨server', answer⟩, _, heq⟩ := Option.map_eq_some_iff.mp hstep
        cases heq
        exact hsent.go_on hsettings _
      · cases hstep
        exact hsent.go_on hsettings _
    · rename_i hstage hcode
      have hsettings := hs.settings hstage hcode nofun
      have hsent := hs.send h hsettings
      split at hstep
      · obtain ⟨⟨server', answer⟩, _, heq⟩ := Option.map_eq_some_iff.mp hstep
        cases heq
        exact hsent.go_on hsettings _
      · cases hstep
        exact hsent.go_on hsettings _
      · cases hstep
        exact hsent.go_on hsettings _
    · rename_i hstage hcode
      cases hstep
      exact hs.go_on (hs.settings hstage hcode nofun) _
    · rename_i next hstage hcode
      cases hstep
      exact hs.closed s.settings (by decide) (by decide) next
    · rename_i next hstage hcode
      cases hstep
      exact hs.go_on (hs.settings hstage hcode nofun) next
    · cases hstep
  | resume next =>
    obtain ⟨⟨hstage, hresumes⟩, heq⟩ := Option.ite_none_right_eq_some.mp hstep
    cases heq
    obtain hended | hsettings := hs.ready hstage
    · exact hs.give_up s.settings (routine.stays _ _ hended hresumes)
    · exact hs.go_on hsettings next
  | close =>
    cases hstep
    exact hs.closed s.settings (by decide) (by decide) s.program

theorem sound (h : config.Valid) (hs : (machine χ config defaults routine).Reachable s) : Sound config routine s := by
  induction hs with
  | start hinitial =>
    refine ⟨fun hready => ?_, fun hready => ?_, fun r hr => ?_⟩
    · cases hinitial.stage.symm.trans hready
    · cases hinitial.stage.symm.trans hready
    · rw [hinitial.requests] at hr
      cases hr
  | next a _ hstep ih => exact sound_step h ih hstep

/-! ### Sessions that are only dropped -/

/-- The session is closed, or its program has ended. -/
def Session.Idle (routine : Routine ρ) (s : Session ρ) : Prop :=
  s.stage = .closed ∨ s.stage = .ready ∧ routine.ended s.program = true

/-- It makes no request, and has no more use. -/
theorem idle_step {a : Action χ ρ} (hs : s.Idle routine) (hstep : step config defaults routine s a = some t) :
    t.Idle routine ∧ t.requests = s.requests := by
  -- a program that has ended can only be closed
  have hclose : ∀ {next : Code ρ}, s.stage = .ready → routine.code s.program = some next →
      ∃ after, next = .close after := by
    intro next hstage hcode
    rcases hs with hclosed | ⟨_, hended⟩
    · cases hclosed.symm.trans hstage
    · exact routine.silent _ _ hended hcode
  have hquiet : ∀ {stage : Stage}, s.stage = stage → stage ≠ .closed → stage ≠ .ready → False := by
    intro stage hstage hclosed hready
    rcases hs with hs | ⟨hs, _⟩
    · exact hclosed (hstage.symm.trans hs)
    · exact hready (hstage.symm.trans hs)
  cases a with
  | configure o =>
    obtain ⟨⟨u, succeeded⟩, hset, hstep⟩ := Option.bind_eq_some_iff.mp hstep
    simp only at hstep
    split at hstep
    · rename_i hstage
      exact (hquiet hstage nofun nofun).elim
    · rename_i hstage _
      exact (hquiet hstage nofun nofun).elim
    · cases hstep
  | coordinate o =>
    obtain ⟨⟨u, succeeded⟩, hset, hstep⟩ := Option.bind_eq_some_iff.mp hstep
    simp only at hstep
    split at hstep
    · rename_i hstage hcode
      obtain ⟨after, hnext⟩ := hclose hstage hcode
      cases hnext
    · cases hstep
  | lock o =>
    simp only [step] at hstep
    split at hstep
    · rename_i hstage _
      exact (hquiet hstage nofun nofun).elim
    · cases hstep
  | turn server o =>
    simp only [step] at hstep
    split at hstep
    · rename_i hstage hcode
      obtain ⟨after, hnext⟩ := hclose hstage hcode
      cases hnext
    · rename_i hstage hcode
      obtain ⟨after, hnext⟩ := hclose hstage hcode
      cases hnext
    · rename_i hstage hcode
      obtain ⟨after, hnext⟩ := hclose hstage hcode
      cases hnext
    · cases hstep
      exact ⟨Or.inl rfl, rfl⟩
    · rename_i hstage hcode
      obtain ⟨after, hnext⟩ := hclose hstage hcode
      cases hnext
    · cases hstep
  | resume next =>
    obtain ⟨⟨hstage, hresumes⟩, heq⟩ := Option.ite_none_right_eq_some.mp hstep
    cases heq
    rcases hs with hs | ⟨_, hended⟩
    · cases hs.symm.trans hstage
    · exact ⟨Or.inr ⟨rfl, routine.stays _ _ hended hresumes⟩, rfl⟩
  | close =>
    cases hstep
    exact ⟨Or.inl rfl, rfl⟩

/-- Nor later. -/
theorem idle_run {actions : List (Action χ ρ)} (hs : s.Idle routine)
    (h : (machine χ config defaults routine).run s actions = some t) : t.requests = s.requests := by
  induction actions generalizing s with
  | nil =>
    cases h
    rfl
  | cons a rest ih =>
    rw [Machine.run_cons] at h
    obtain ⟨u, hstep, hrest⟩ := Option.bind_eq_some_iff.mp h
    obtain ⟨hu, hsame⟩ := idle_step hs hstep
    exact (ih hu hrest).trans hsame

/-- A session whose own timeouts could not be set makes no further request. -/
theorem unconfigured_silent {o : Outcome} (ho : o ≠ .ok)
    (hstep : step config defaults routine s (.configure o : Action χ ρ) = some t)
    {u : Session ρ} {actions : List (Action χ ρ)} (h : (machine χ config defaults routine).run t actions = some u) :
    u.requests = s.requests := by
  obtain ⟨⟨v, succeeded⟩, hset, hstep⟩ := Option.bind_eq_some_iff.mp hstep
  have hfailed : succeeded = false := set_failed hset ho
  subst hfailed
  obtain ⟨hv, -⟩ := set_eq_some hset
  have hidle : t.Idle routine ∧ t.requests = s.requests := by
    simp only at hstep
    split at hstep
    · cases hstep
      rw [hv]
      exact ⟨Or.inl rfl, rfl⟩
    · rename_i hcode
      cases hstep
      rw [hv]
      exact ⟨Or.inr ⟨rfl, routine.refused _ _ _ _ _ hcode⟩, rfl⟩
    · cases hstep
  exact (idle_run hidle.1 h).trans hidle.2

/-- A lock that is not got ends the program. -/
theorem refused_idle {a : Action χ ρ} {o : Outcome} (ho : o ≠ .ok) (ha : a = .coordinate o ∨ a = .lock o)
    (hstep : step config defaults routine s a = some t) : t.Idle routine := by
  rcases ha with rfl | rfl
  · obtain ⟨⟨u, succeeded⟩, hset, hstep⟩ := Option.bind_eq_some_iff.mp hstep
    have hfailed : succeeded = false := set_failed hset ho
    subst hfailed
    simp only at hstep
    split at hstep
    · rename_i hcode
      cases hstep
      exact Or.inr ⟨rfl, routine.refused _ _ _ _ _ hcode⟩
    · cases hstep
  · simp only [step, if_neg ho] at hstep
    split at hstep
    · rename_i hcode
      cases hstep
      exact Or.inr ⟨rfl, routine.refused _ _ _ _ _ hcode⟩
    · cases hstep

end Sound

end PostgresTestHarness.AdminClient
