import PostgresTestHarness.Config.Timeouts
import PostgresTestHarness.Library.SqlScript
import PostgresTestHarness.Postgres.AdminSql

/-! The settings of an admin session: the texts that set them, and the server that reads these.

A timeout goes from a `Duration` to milliseconds, into a text, and from there into the
server's setting. What `validate_postgres_timeout` accepts is what arrives there as a limit
(`limited_iff`). -/
namespace PostgresTestHarness.Postgres
open StaleCleanup (Duration)
open Sql.Script (Command Value)

/-- What a session has set. The timeouts are in milliseconds, 0 is none. -/
structure Settings where
  statementTimeout : Nat
  lockTimeout : Nat
  applicationName : Text
  /-- All that the harness does not set, by name. -/
  others : List (Text × Text)
  deriving DecidableEq, Repr

def printable (c : Char) : Bool := decide (32 ≤ c.toNat) && decide (c.toNat ≤ 126)

namespace Settings

/-- `SET`: an integer for a timeout, within the server's range, and a name for the application
that is stored as it is. Other settings and other values are not read here. -/
def assign (s : Settings) (name : Text) : Value → Option Settings
  | .number n =>
    if name = "statement_timeout".toList ∧ n ≤ i32Max then some { s with statementTimeout := n }
    else if name = "lock_timeout".toList ∧ n ≤ i32Max then some { s with lockTimeout := n }
    else none
  | .literal value =>
    if name = "application_name".toList ∧ value.length < 64 ∧ value.all printable = true then
      some { s with applicationName := value }
    else none

def run (defaults s : Settings) : Command → Option Settings
  | .set name value => s.assign name value
  | .discardAll => some defaults

/-- A text with several commands is one transaction. -/
def execute (defaults s : Settings) (text : Text) : Option Settings :=
  (Sql.Script.commands text).bind fun commands => commands.foldlM (run defaults) s

end Settings

/-! ### The texts -/

def clientOperationTimeoutGrace : Duration := .fromSecs 1

def lockTimeout : Duration := .fromSecs 10

def lifecycleApplicationNamePrefix : Text := "postgres-test-harness lifecycle:".toList

def clientOperationTimeout (operationTimeout : Duration) : Duration :=
  operationTimeout.saturatingAdd clientOperationTimeoutGrace

def durationMillis (duration : Duration) : Except TimeoutOutOfRange UInt64 :=
  if duration.asMillis < 2 ^ 64 then .ok (UInt64.ofNat duration.asMillis) else .error ⟨duration⟩

/-- The text of `configure_session_timeouts_with_timeout`. -/
def configureSessionText (operationTimeout : Duration) : Except TimeoutOutOfRange Text := do
  let statementTimeout ← durationMillis operationTimeout
  let lockTimeout ← durationMillis (lockTimeout.min operationTimeout)
  .ok ("SET statement_timeout = ".toList ++ displayU64 statementTimeout ++ "; SET lock_timeout = ".toList ++
    displayU64 lockTimeout ++ ";".toList)

/-- The text of `configure_lifecycle_session_with_timeout`. -/
def configureLifecycleText (operationTimeout : Duration) (applicationName : Text) :
    Except TimeoutOutOfRange Text := do
  let statementTimeout ← durationMillis operationTimeout
  let lockTimeout ← durationMillis (lockTimeout.min operationTimeout)
  .ok ("SET statement_timeout = ".toList ++ displayU64 statementTimeout ++ "; SET lock_timeout = ".toList ++
    displayU64 lockTimeout ++ "; SET application_name = ".toList ++ quoteLiteral applicationName)

/-- The text of `configure_coordination_timeouts`. -/
def configureCoordinationText (waitTimeout : Duration) : Except TimeoutOutOfRange Text := do
  let timeout ← durationMillis waitTimeout
  .ok ("SET statement_timeout = ".toList ++ displayU64 timeout ++ "; SET lock_timeout = ".toList ++
    displayU64 timeout ++ ";".toList)

/-- The text that `prepare_reused_lifecycle_session` begins with. -/
def discardAllText : Text := "DISCARD ALL".toList

/-! ### What arrives -/

section Arrive
open Settings (run assign execute)
variable {defaults s : Settings} {timeout : Duration}

def setNumber (name : String) (n : Nat) : Command := .set name.toList (.number n)

theorem setNumber_text (name : String) (n : Nat) :
    (setNumber name n).text = "SET ".toList ++ name.toList ++ " = ".toList ++ Nat.toDigits 10 n := rfl

theorem durationMillis_eq_ok (h : timeout.asMillis < 2 ^ 64) :
    durationMillis timeout = .ok (UInt64.ofNat timeout.asMillis) := if_pos h

theorem asMillis_lockTimeout : (lockTimeout.min timeout).asMillis = min 10000 timeout.asMillis := by
  rw [Duration.asMillis_eq, Duration.asMillis_eq, Duration.asNanos_min, show lockTimeout.asNanos = 10 ^ 10 by decide]
  omega

theorem displayU64_ofNat {n : Nat} (h : n < 2 ^ 64) : displayU64 (UInt64.ofNat n) = Nat.toDigits 10 n := by
  rw [displayU64, UInt64.toNat_ofNat_of_lt' h]

theorem sound_setNumber {name : String} (h : Sql.isWord name.toList = true)
    (hlower : name.toList.map Char.toLower = name.toList) (n : Nat) : (setNumber name n).sound = true := by
  rw [setNumber, Command.sound, h, hlower, beq_self_eq_true]
  rfl

theorem assign_statementTimeout {n : Nat} (h : n ≤ i32Max) :
    run defaults s (setNumber "statement_timeout" n) = some { s with statementTimeout := n } := if_pos ⟨rfl, h⟩

theorem assign_lockTimeout {n : Nat} (h : n ≤ i32Max) :
    run defaults s (setNumber "lock_timeout" n) = some { s with lockTimeout := n } := by
  rw [setNumber, run, assign, if_neg (fun h => absurd h.1 (by decide)), if_pos ⟨rfl, h⟩]

theorem assign_tooLong {n : Nat} (h : ¬ n ≤ i32Max) (name : String) : run defaults s (setNumber name n) = none := by
  rw [setNumber, run, assign, if_neg (fun hfits => h hfits.2), if_neg (fun hfits => h hfits.2)]

theorem execute_render {commands : List Command} (h : ∀ c ∈ commands, c.sound = true) (hne : commands ≠ []) :
    execute defaults s (Sql.Script.render commands) = commands.foldlM (run defaults) s ∧
      execute defaults s (Sql.Script.render commands ++ [';']) = commands.foldlM (run defaults) s := by
  obtain ⟨hread, hended⟩ := Sql.Script.commands_render h hne
  exact ⟨by rw [execute, hread, Option.bind_some], by rw [execute, hended, Option.bind_some]⟩

/-- The two timeouts of a session, as commands. -/
def limits (statement lock : Nat) : List Command :=
  [setNumber "statement_timeout" statement, setNumber "lock_timeout" lock]

theorem sound_limits (statement lock : Nat) : ∀ c ∈ limits statement lock, c.sound = true := by
  intro c hc
  simp only [limits, List.mem_cons, List.not_mem_nil, or_false] at hc
  obtain rfl | rfl := hc <;> exact sound_setNumber (by decide) (by decide) _

theorem limits_text (statement lock : Nat) : Sql.Script.render (limits statement lock) =
    "SET statement_timeout = ".toList ++ Nat.toDigits 10 statement ++ "; SET lock_timeout = ".toList ++
      Nat.toDigits 10 lock := by
  have hfirst : "SET ".toList ++ "statement_timeout".toList ++ " = ".toList = "SET statement_timeout = ".toList := by
    decide
  have hsecond : "; ".toList ++ ("SET ".toList ++ "lock_timeout".toList ++ " = ".toList) =
      "; SET lock_timeout = ".toList := by
    decide
  rw [limits, Sql.Script.render, Sql.Script.render, setNumber_text, setNumber_text, hfirst, ← hsecond]
  simp only [List.append_assoc]

theorem foldlM_limits {statement lock : Nat} (hlock : lock ≤ statement) :
    (limits statement lock).foldlM (run defaults) s =
      if statement ≤ i32Max then some { s with statementTimeout := statement, lockTimeout := lock } else none := by
  rw [limits, List.foldlM_cons]
  by_cases h : statement ≤ i32Max
  · rw [assign_statementTimeout h, if_pos h]
    simp only [Option.bind_eq_bind, Option.bind_some, List.foldlM_cons, List.foldlM_nil,
      assign_lockTimeout (Nat.le_trans hlock h)]
    rfl
  · rw [assign_tooLong h, if_neg h]
    rfl

/-- A session's own timeouts, where the duration has its milliseconds in 64 bits. -/
theorem configureSessionText_eq (h : timeout.asMillis < 2 ^ 64) : configureSessionText timeout =
    .ok (Sql.Script.render (limits timeout.asMillis (min 10000 timeout.asMillis)) ++ [';']) := by
  have hlock : (lockTimeout.min timeout).asMillis < 2 ^ 64 := by
    rw [asMillis_lockTimeout]
    omega
  rw [limits_text, configureSessionText, durationMillis_eq_ok h, durationMillis_eq_ok hlock,
    ← displayU64_ofNat h, ← asMillis_lockTimeout, ← displayU64_ofNat hlock]
  rfl

theorem configureCoordinationText_eq (h : timeout.asMillis < 2 ^ 64) : configureCoordinationText timeout =
    .ok (Sql.Script.render (limits timeout.asMillis timeout.asMillis) ++ [';']) := by
  rw [limits_text, configureCoordinationText, durationMillis_eq_ok h, ← displayU64_ofNat h]
  rfl

/-- And with the name of the application behind them. -/
def lifecycle (statement lock : Nat) (applicationName : Text) : List Command :=
  limits statement lock ++ [.set "application_name".toList (.literal applicationName)]

theorem sound_lifecycle (statement lock : Nat) (name : Text) : ∀ c ∈ lifecycle statement lock name, c.sound = true := by
  intro c hc
  obtain hc | hc := List.mem_append.mp hc
  · exact sound_limits statement lock c hc
  · rw [List.mem_singleton.mp hc]
    exact @sound_setNumber "application_name" (by decide) (by decide) 0

theorem configureLifecycleText_eq (h : timeout.asMillis < 2 ^ 64) (name : Text) :
    configureLifecycleText timeout name =
      .ok (Sql.Script.render (lifecycle timeout.asMillis (min 10000 timeout.asMillis) name)) := by
  have hlock : (lockTimeout.min timeout).asMillis < 2 ^ 64 := by
    rw [asMillis_lockTimeout]
    omega
  have htext : ∀ statement lock : Nat, Sql.Script.render (lifecycle statement lock name) =
      Sql.Script.render (limits statement lock) ++ "; SET application_name = ".toList ++ quoteLiteral name := by
    intro statement lock
    have hlast : "; ".toList ++ ("SET ".toList ++ "application_name".toList ++ " = ".toList) =
        "; SET application_name = ".toList := by
      decide
    rw [← hlast]
    simp only [lifecycle, limits, Sql.Script.render, List.cons_append, List.nil_append, List.append_assoc]
    rfl
  rw [htext, limits_text, configureLifecycleText, durationMillis_eq_ok h, durationMillis_eq_ok hlock,
    ← displayU64_ofNat h, ← asMillis_lockTimeout, ← displayU64_ofNat hlock]
  rfl

/-- What a session's text comes to at the server. -/
theorem execute_limits {statement lock : Nat} (hlock : lock ≤ statement) :
    execute defaults s (Sql.Script.render (limits statement lock) ++ [';']) =
      if statement ≤ i32Max then some { s with statementTimeout := statement, lockTimeout := lock } else none := by
  rw [(execute_render (sound_limits statement lock) (List.cons_ne_nil _ _)).2, foldlM_limits hlock]

/-- An application's name that the server stores as it is. -/
def plainName (name : Text) : Bool := decide (name.length < 64) && name.all printable

theorem execute_lifecycle {statement lock : Nat} (hlock : lock ≤ statement) {name : Text}
    (hname : plainName name = true) :
    execute defaults s (Sql.Script.render (lifecycle statement lock name)) =
      if statement ≤ i32Max then
        some ⟨statement, lock, name, s.others⟩
      else none := by
  have happlication : ∀ s : Settings, run defaults s (.set "application_name".toList (.literal name)) =
      some { s with applicationName := name } := by
    intro s
    simp only [plainName, Bool.and_eq_true, decide_eq_true_eq] at hname
    exact if_pos ⟨rfl, hname⟩
  rw [(execute_render (sound_lifecycle statement lock name) (List.cons_ne_nil _ _)).1, lifecycle, List.foldlM_append,
    foldlM_limits hlock]
  split
  · simp only [Option.bind_eq_bind, Option.bind_some, List.foldlM_cons, List.foldlM_nil, happlication]
    rfl
  · rfl

theorem execute_discardAll : execute defaults s discardAllText = some defaults := by
  have htext : discardAllText = Sql.Script.render [.discardAll] := rfl
  rw [htext, (execute_render (fun c hc => by rw [List.mem_singleton.mp hc]; rfl) (List.cons_ne_nil _ _)).1]
  rfl

/-- `validate_postgres_timeout` accepts the timeouts that arrive at the server as limits. -/
theorem limited_iff (defaults s : Settings) (timeout : Duration) : validatePostgresTimeout timeout = .ok () ↔
    ∃ text after, configureSessionText timeout = .ok text ∧ execute defaults s text = some after ∧
      0 < after.statementTimeout ∧ 0 < after.lockTimeout := by
  rw [validatePostgresTimeout_eq_ok]
  constructor
  · intro h
    have hfits : timeout.asMillis < 2 ^ 64 := Nat.lt_of_le_of_lt h.fits (by decide)
    refine ⟨_, _, configureSessionText_eq hfits, (execute_limits (Nat.min_le_right _ _)).trans (if_pos h.fits),
      h.positive, ?_⟩
    have hpositive := h.positive
    simp only
    omega
  · intro h
    obtain ⟨text, after, htext, hafter, hpositive, _⟩ := h
    have hfits : timeout.asMillis < 2 ^ 64 := by
      by_contra hlong
      rw [configureSessionText, durationMillis, if_neg hlong] at htext
      cases htext
    rw [configureSessionText_eq hfits] at htext
    cases htext
    rw [execute_limits (Nat.min_le_right _ _)] at hafter
    obtain ⟨hrange, heq⟩ := Option.ite_none_right_eq_some.mp hafter
    cases heq
    exact ⟨hpositive, hrange⟩

end Arrive

end PostgresTestHarness.Postgres
