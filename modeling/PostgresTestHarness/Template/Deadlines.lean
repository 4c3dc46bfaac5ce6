import PostgresTestHarness.Postgres.AdminClient
import PostgresTestHarness.Template.LockBalance

/-! The deadlines of template attempts and of sweeps.

Both run on sessions of `connect_admin`. An attempt waits for its locks as long as the template
wait timeout says and does everything else under the operation timeout; a sweep waits for
nothing. Whatever setters have made the configuration, no request is without a limit. -/
namespace PostgresTestHarness.AdminClient
open Postgres Template

variable {χ : Type}

/-- An attempt's initializer ends, or its clock moves. -/
def attemptResumes (a b : Attempt) : Bool :=
  match a.phase with
  | .initializing _ => decide (b = a.goto .disableConnections) || decide (b = a.goto .abortDrop) ||
      decide (b = { a with now := b.now })
  | _ => decide (b = { a with now := b.now })

/-- Its function has returned without its session, or the session is closed. -/
def attemptEnded (a : Attempt) : Bool :=
  match a.phase with
  | .stopped _ _ | .aborted | .discarded _ => true
  | _ => false

/-- A lock that an attempt does not get ends it. -/
theorem stopped_of_refused {r : Template.Request} {now : UInt64} {phase ok failed : Phase} {mode : SessionLock.Mode}
    {key : Int64} (h : Template.code r now phase = some (.acquire mode key ok failed)) :
    ∃ part failure, failed = .stopped part failure := by
  cases phase with
  | lockShared check | lockCoordination | lockExclusive =>
    cases h
    exact ⟨_, _, rfl⟩
  | _ => cases h

/-- Where it only drops its client, or does nothing any more. -/
theorem code_of_ended {r : Template.Request} {now : UInt64} {phase : Phase} {next : Code Phase}
    (hended : attemptEnded ⟨r, now, phase⟩ = true) (h : Template.code r now phase = some next) :
    ∃ after, next = .close after := by
  cases phase with
  | stopped part failure =>
    cases h
    exact ⟨_, rfl⟩
  | aborted =>
    cases h
    exact ⟨_, rfl⟩
  | discarded error => cases h
  | _ => cases hended

def attemptRoutine : Routine Attempt where
  code := Attempt.code
  resumes := attemptResumes
  ended := attemptEnded
  silent := by
    intro a next h hcode
    obtain ⟨next, hnext, rfl⟩ := Option.map_eq_some_iff.mp hcode
    obtain ⟨after, rfl⟩ := code_of_ended h hnext
    exact ⟨_, rfl⟩
  stays := by
    intro a b h hresumes
    obtain ⟨r, now, phase⟩ := a
    have hsame : b = ⟨r, b.now, phase⟩ := by
      cases phase with
      | initializing done => cases h
      | _ => exact of_decide_eq_true hresumes
    rw [hsame]
    exact h
  refused := by
    intro a mode key ok failed h
    obtain ⟨next, hnext, hmap⟩ := Option.map_eq_some_iff.mp h
    cases next with
    | acquire mode' key' ok' failed' =>
      obtain ⟨part, failure, rfl⟩ := stopped_of_refused hnext
      cases hmap
      rfl
    | _ => cases hmap

/-- A sweep asks for no lock that it would wait for. -/
def sweepRoutine (sw : StaleCleanup.Sweep) : Routine StaleCleanup.Phase where
  code := StaleCleanup.code sw
  resumes _ _ := false
  ended _ := false
  silent := by
    intro phase next h
    cases h
  stays := by
    intro a b h
    cases h
  refused := by
    intro phase mode key ok failed h
    unfold StaleCleanup.code at h
    split at h <;> cases h

/-- What bounds the requests of a routine's sessions, from a state of its runs. -/
structure Limited (χ : Type) {ρ : Type} (config : HarnessTimeouts) (defaults : Settings) (routine : Routine ρ)
    (s : Session ρ) : Prop where
  bounded : ∀ r ∈ s.requests, Bounded config r
  /-- A session that does not get its own timeouts, at its start or behind a lock, makes no further request. -/
  unconfigured : ∀ (o : Outcome) (t u : Session ρ) (actions : List (Action χ ρ)), o ≠ .ok →
    step config defaults routine s (.configure o : Action χ ρ) = some t →
    (machine χ config defaults routine).run t actions = some u → u.requests = s.requests
  /-- Nor does one that could not ask for a lock under the coordination timeouts, or did not get it. -/
  refused : ∀ (a : Action χ ρ) (o : Outcome) (t u : Session ρ) (actions : List (Action χ ρ)), o ≠ .ok →
    a = .coordinate o ∨ a = .lock o → step config defaults routine s a = some t →
    (machine χ config defaults routine).run t actions = some u → u.requests = t.requests

theorem limited {ρ : Type} {config : HarnessTimeouts} {defaults : Settings} {routine : Routine ρ} {s : Session ρ}
    (h : config.Valid) (hs : (machine χ config defaults routine).Reachable s) : Limited χ config defaults routine s where
  bounded := (sound h hs).requests
  unconfigured _ _ _ _ ho hstep hrun := unconfigured_silent ho hstep hrun
  refused _ _ _ _ _ ho ha hstep hrun := idle_run (refused_idle ho ha hstep) hrun

/-- Every statement and every wait for a lock, of an attempt and of a sweep, is under the limits for
its purpose, in any run; and a session that could not get its own timeouts back is used no more. -/
theorem requests_bounded {setters : List TimeoutSetter} {config : HarnessTimeouts}
    (hconfig : HarnessTimeouts.new.set setters = .ok config) (defaults : Settings) :
    (∀ s, (machine χ config defaults attemptRoutine).Reachable s → Limited χ config defaults attemptRoutine s) ∧
    ∀ sw s, (machine χ config defaults (sweepRoutine sw)).Reachable s →
      Limited χ config defaults (sweepRoutine sw) s := by
  have hvalid := HarnessTimeouts.valid_new.set hconfig
  exact ⟨fun s hs => limited hvalid hs, fun sw s hs => limited hvalid hs⟩

def sampleSetters : List TimeoutSetter := [.operation (.fromMillis 2500), .templateWait (.fromSecs 7)]

/-- An attempt that gets its shared lock and looks for its template. -/
def lockAndInspect : List (Action Unit Attempt) :=
  [.configure .ok, .coordinate .ok, .lock .ok, .configure .ok, .turn LockBalance.fresh.server .ok]

def Request.figures (r : Request) : Purpose × Nat × Nat × Nat :=
  (r.purpose, r.settings.statementTimeout, r.settings.lockTimeout, r.deadline.asMillis)

theorem requests_bounded_inspect : ∃ config s, HarnessTimeouts.new.set sampleSetters = .ok config ∧
    (machine Unit config ⟨0, 0, [], []⟩ attemptRoutine).Reachable s ∧
    s.requests.map Request.figures = [(.statement, 2500, 2500, 3500), (.lock, 7000, 7000, 8000)] ∧
    ∀ r ∈ s.requests, Bounded config r := by
  let started : Session Attempt := ⟨⟨LockBalance.sampleRequest, 0, .lockShared .first⟩, .connected, ⟨0, 0, [], []⟩, []⟩
  have hrun : (HarnessTimeouts.new.set sampleSetters).toOption.any (fun config =>
      ((machine Unit config ⟨0, 0, [], []⟩ attemptRoutine).run started lockAndInspect).any fun s =>
        s.requests.map Request.figures == [(.statement, 2500, 2500, 3500), (.lock, 7000, 7000, 8000)]) = true := by
    decide +kernel
  obtain ⟨config, hset, hsession⟩ := (Option.any_eq_true _ _).mp hrun
  obtain ⟨s, hs, hfigures⟩ := (Option.any_eq_true _ _).mp hsession
  have hconfig : HarnessTimeouts.new.set sampleSetters = .ok config := by
    cases h : HarnessTimeouts.new.set sampleSetters with
    | error error =>
      rw [h] at hset
      cases hset
    | ok config' =>
      rw [h] at hset
      cases hset
      rfl
  have hreachable := Machine.reachable_of_run (m := machine Unit config ⟨0, 0, [], []⟩ attemptRoutine) _
    ⟨rfl, rfl, rfl⟩ hs
  exact ⟨config, s, hconfig, hreachable, beq_iff_eq.mp hfigures, ((requests_bounded hconfig _).1 s hreachable).bounded⟩

end PostgresTestHarness.AdminClient
