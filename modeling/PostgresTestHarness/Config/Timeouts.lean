import PostgresTestHarness.StaleCleanup.Threshold

/-! Durations and the timeouts of a harness.

A `Duration` is seconds and nanoseconds, as in `std`; its arithmetic is stated in nanoseconds.
The setters check a timeout to the millisecond, as PostgreSQL reads it. -/
namespace PostgresTestHarness

namespace StaleCleanup.Duration

/-- What a `Duration` cannot reach. -/
def limit : Nat := 2 ^ 64 * 10 ^ 9

def asNanos (d : Duration) : Nat := d.secs.toNat * 10 ^ 9 + d.nanos

/-- `Duration::as_millis`. -/
def asMillis (d : Duration) : Nat := d.secs.toNat * 1000 + d.nanos / 10 ^ 6

def ofNanos (n : Nat) : Duration := ⟨UInt64.ofNat (n / 10 ^ 9), n % 10 ^ 9, Nat.mod_lt n (Nat.pow_pos (by decide))⟩

/-- `Duration::from_millis`. -/
def fromMillis (n : Nat) : Duration := ofNanos (n * 10 ^ 6)

/-- `Duration::saturating_add`; the greatest duration where the sum has too many seconds. -/
def saturatingAdd (a b : Duration) : Duration := ofNanos (Min.min (a.asNanos + b.asNanos) (limit - 1))

instance (a b : Duration) : Decidable (a < b) := inferInstanceAs (Decidable (_ ∨ _))

/-- `Ord::min`. -/
def min (a b : Duration) : Duration := if b < a then b else a

theorem lt_iff {a b : Duration} : a < b ↔ a.asNanos < b.asNanos := by
  have ha := a.valid
  have hb := b.valid
  rw [lt_def, UInt64.lt_iff_toNat_lt, ← UInt64.toNat_inj, asNanos, asNanos]
  omega

theorem asNanos_ofNanos {n : Nat} (h : n < limit) : (ofNanos n).asNanos = n := by
  have hsecs : n / 10 ^ 9 < 2 ^ 64 := Nat.div_lt_of_lt_mul (by unfold limit at h; omega)
  simp only [asNanos, ofNanos, UInt64.toNat_ofNat_of_lt' hsecs]
  omega

theorem asMillis_eq (d : Duration) : d.asMillis = d.asNanos / 10 ^ 6 := by
  unfold asMillis asNanos
  omega

theorem asNanos_saturatingAdd (a b : Duration) :
    (a.saturatingAdd b).asNanos = Min.min (a.asNanos + b.asNanos) (limit - 1) := by
  have hpos : 0 < limit := by decide
  exact asNanos_ofNanos (by omega)

theorem asNanos_min (a b : Duration) : (a.min b).asNanos = Min.min a.asNanos b.asNanos := by
  unfold min
  split
  · rename_i h
    rw [lt_iff] at h
    omega
  · rename_i h
    rw [lt_iff] at h
    omega

end StaleCleanup.Duration

open StaleCleanup (Duration)

/-! ### The setters -/

/-- `Error::TimeoutOutOfRange`. -/
structure TimeoutOutOfRange where
  duration : Duration
  deriving DecidableEq, Repr

def i32Max : Nat := 2 ^ 31 - 1

def validateMillisecondTimeout (timeout : Duration) : Except TimeoutOutOfRange Unit :=
  if timeout.asMillis = 0 then .error ⟨timeout⟩ else .ok ()

def validatePostgresTimeout (timeout : Duration) : Except TimeoutOutOfRange Unit := do
  validateMillisecondTimeout timeout
  if timeout.asMillis > i32Max then .error ⟨timeout⟩ else .ok ()

/-- `HarnessConfig`, the durations. -/
structure HarnessTimeouts where
  startupTimeout : Duration
  operationTimeout : Duration
  templateWaitTimeout : Duration
  staleAfter : Duration
  deriving DecidableEq, Repr

namespace HarnessTimeouts

def new : HarnessTimeouts where
  startupTimeout := .fromSecs 60
  operationTimeout := .fromSecs 90
  templateWaitTimeout := .fromSecs (15 * 60)
  staleAfter := .fromSecs (60 * 60)

def withStartupTimeout (config : HarnessTimeouts) (timeout : Duration) : Except TimeoutOutOfRange HarnessTimeouts := do
  validateMillisecondTimeout timeout
  .ok { config with startupTimeout := timeout }

def withOperationTimeout (config : HarnessTimeouts) (timeout : Duration) :
    Except TimeoutOutOfRange HarnessTimeouts := do
  validatePostgresTimeout timeout
  .ok { config with operationTimeout := timeout }

def withTemplateWaitTimeout (config : HarnessTimeouts) (timeout : Duration) :
    Except TimeoutOutOfRange HarnessTimeouts := do
  validatePostgresTimeout timeout
  .ok { config with templateWaitTimeout := timeout }

def withStaleAfter (config : HarnessTimeouts) (staleAfter : Duration) : HarnessTimeouts := { config with staleAfter }

end HarnessTimeouts

inductive TimeoutSetter where
  | startup (timeout : Duration)
  | operation (timeout : Duration)
  | templateWait (timeout : Duration)
  | staleAfter (duration : Duration)
  deriving DecidableEq, Repr

def TimeoutSetter.apply (config : HarnessTimeouts) : TimeoutSetter → Except TimeoutOutOfRange HarnessTimeouts
  | .startup timeout => config.withStartupTimeout timeout
  | .operation timeout => config.withOperationTimeout timeout
  | .templateWait timeout => config.withTemplateWaitTimeout timeout
  | .staleAfter duration => .ok (config.withStaleAfter duration)

/-- Calls in a row, as long as they succeed. -/
def HarnessTimeouts.set (config : HarnessTimeouts) : List TimeoutSetter → Except TimeoutOutOfRange HarnessTimeouts
  | [] => .ok config
  | setter :: rest =>
    match setter.apply config with
    | .error error => .error error
    | .ok config => config.set rest

/-- A timeout that PostgreSQL takes and does not read as none. -/
structure PostgresTimeout (timeout : Duration) : Prop where
  positive : 0 < timeout.asMillis
  fits : timeout.asMillis ≤ i32Max

theorem validateMillisecondTimeout_eq_ok {timeout : Duration} :
    validateMillisecondTimeout timeout = .ok () ↔ 0 < timeout.asMillis := by
  unfold validateMillisecondTimeout
  split
  · rename_i h
    simp [h]
  · rename_i h
    simp [Nat.pos_of_ne_zero h]

theorem validatePostgresTimeout_eq_ok {timeout : Duration} :
    validatePostgresTimeout timeout = .ok () ↔ PostgresTimeout timeout := by
  unfold validatePostgresTimeout
  cases hmillis : validateMillisecondTimeout timeout with
  | error error =>
    have hzero : ¬ 0 < timeout.asMillis := by
      rw [← validateMillisecondTimeout_eq_ok, hmillis]
      exact fun h => by cases h
    exact ⟨fun h => (by cases h), fun h => absurd h.positive hzero⟩
  | ok _ =>
    have hpositive := validateMillisecondTimeout_eq_ok.mp hmillis
    show (if timeout.asMillis > i32Max then Except.error (TimeoutOutOfRange.mk timeout) else .ok ()) = .ok () ↔ _
    split
    · rename_i hlong
      exact ⟨fun h => (by cases h), fun h => absurd h.fits (Nat.not_le_of_lt hlong)⟩
    · rename_i hfits
      exact ⟨fun _ => ⟨hpositive, Nat.le_of_not_lt hfits⟩, fun _ => rfl⟩

/-- What the setters keep. -/
structure HarnessTimeouts.Valid (config : HarnessTimeouts) : Prop where
  startup : 0 < config.startupTimeout.asMillis
  operation : PostgresTimeout config.operationTimeout
  templateWait : PostgresTimeout config.templateWaitTimeout

theorem HarnessTimeouts.valid_new : new.Valid := by
  refine ⟨by decide, ⟨by decide, by decide⟩, ⟨by decide, by decide⟩⟩

/-- A check before a result. -/
theorem checked_eq_ok {α : Type} {check : Except TimeoutOutOfRange Unit} {result : Except TimeoutOutOfRange α} {a : α}
    (h : (check >>= fun _ => result) = .ok a) : check = .ok () ∧ result = .ok a := by
  cases check with
  | error error => cases h
  | ok _ => exact ⟨rfl, h⟩

theorem HarnessTimeouts.Valid.apply {config after : HarnessTimeouts} (h : config.Valid) {setter : TimeoutSetter}
    (hset : setter.apply config = .ok after) : after.Valid := by
  cases setter with
  | startup timeout =>
    obtain ⟨hcheck, hset⟩ := checked_eq_ok hset
    cases hset
    exact { h with startup := validateMillisecondTimeout_eq_ok.mp hcheck }
  | operation timeout =>
    obtain ⟨hcheck, hset⟩ := checked_eq_ok hset
    cases hset
    exact { h with operation := validatePostgresTimeout_eq_ok.mp hcheck }
  | templateWait timeout =>
    obtain ⟨hcheck, hset⟩ := checked_eq_ok hset
    cases hset
    exact { h with templateWait := validatePostgresTimeout_eq_ok.mp hcheck }
  | staleAfter duration =>
    cases hset
    exact { h with }

/-- Whatever setters are called, the timeouts are ones that PostgreSQL takes. -/
theorem HarnessTimeouts.Valid.set {config after : HarnessTimeouts} (h : config.Valid) {setters : List TimeoutSetter}
    (hset : config.set setters = .ok after) : after.Valid := by
  induction setters generalizing config with
  | nil =>
    cases hset
    exact h
  | cons setter rest ih =>
    rw [HarnessTimeouts.set] at hset
    split at hset
    · cases hset
    · rename_i next hnext
      exact ih (h.apply hnext) hset

end PostgresTestHarness
