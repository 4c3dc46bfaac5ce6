import PostgresTestHarness.Lease.System

/-! The connection limits of a harness, from its setters to its pools.

Two setters may be called in any order and any number of times. `connection_limits` resolves
what they left; the lifecycle pool and the cleanup workers are sized from the resolved limits and
from what the server allows. A `usize` is a natural number here, a `u32` and an `i32` are
themselves. -/
namespace PostgresTestHarness

/-- `NonZeroU32`. -/
structure NonZeroU32 where
  get : UInt32
  nonzero : get ≠ 0

def NonZeroU32.new (n : UInt32) : Option NonZeroU32 := if h : n ≠ 0 then some ⟨n, h⟩ else none

/-- `u32::try_from` of a `usize`. -/
def u32TryFrom (n : Nat) : Option UInt32 := if n < UInt32.size then some (UInt32.ofNat n) else none

/-- `ConnectionLimits`. -/
structure ConnectionLimits where
  connectionBudget : Nat
  connectionsPerDatabase : UInt32
  deriving DecidableEq, Repr

def ConnectionLimits.maxSimultaneousLeases (limits : ConnectionLimits) : Nat :=
  limits.connectionBudget / limits.connectionsPerDatabase.toNat

def defaultConnectionBudget : UInt32 := 120

def defaultConnectionsPerDatabase : UInt32 := 11

/-- `HarnessConfig`, the two overrides. -/
structure HarnessConfig where
  connectionBudgetOverride : Option NonZeroU32
  connectionsPerDatabaseOverride : Option NonZeroU32

namespace HarnessConfig

def new : HarnessConfig := ⟨none, none⟩

def withConnectionBudget (config : HarnessConfig) (permits : Nat) : Except Error HarnessConfig :=
  match (u32TryFrom permits).bind NonZeroU32.new with
  | none => .error (.invalidConfiguration "the connection budget must fit in a positive u32".toList)
  | some permits => .ok { config with connectionBudgetOverride := some permits }

def withConnectionsPerDatabase (config : HarnessConfig) (permits : UInt32) : Except Error HarnessConfig :=
  match NonZeroU32.new permits with
  | none => .error (.invalidConfiguration "per-database permits must be positive".toList)
  | some permits => .ok { config with connectionsPerDatabaseOverride := some permits }

def connectionLimits (config : HarnessConfig) : Except Error ConnectionLimits :=
  let connectionBudget := (config.connectionBudgetOverride.map NonZeroU32.get).getD defaultConnectionBudget
  let connectionsPerDatabase := (config.connectionsPerDatabaseOverride.map NonZeroU32.get).getD
    (min defaultConnectionsPerDatabase connectionBudget)
  if connectionsPerDatabase > connectionBudget then
    .error (.invalidConfiguration
      "per-database permits must be no greater than the connection budget".toList)
  else .ok ⟨connectionBudget.toNat, connectionsPerDatabase⟩

end HarnessConfig

/-! ### What is sized from the limits -/

/-- `i32::max(0) as usize`. -/
def nonNegative (n : Int32) : Nat := n.toInt.toNat

def regularConnectionSlotsFromSettings (maxConnections reservedConnections superuserReservedConnections : Int32) : Nat :=
  nonNegative maxConnections - nonNegative reservedConnections - nonNegative superuserReservedConnections

def lifecycleAdminConnectionShareDivisor : Nat := 4

def cleanupAdminSessionShareDivisor : Nat := 2

def maxCleanupWorkers : Nat := 4

def perHarnessAdminSessionPoolSize (limits : ConnectionLimits) (regularConnectionSlots : Nat) : Nat :=
  let postgresHeadroomLimit := max (regularConnectionSlots / lifecycleAdminConnectionShareDivisor) 1
  max (min limits.maxSimultaneousLeases postgresHeadroomLimit) 1

/-- `Ord::clamp`. -/
def clamp (low high n : Nat) : Nat := if n < low then low else if high < n then high else n

structure CleanupQueueLimits where
  workerCount : Nat
  queueCapacity : Nat
  deriving DecidableEq, Repr

def cleanupQueueLimits (adminPoolSize : Nat) : CleanupQueueLimits :=
  let workerCount := clamp 1 maxCleanupWorkers (adminPoolSize / cleanupAdminSessionShareDivisor)
  ⟨workerCount, workerCount⟩

/-! ### Setters in a row -/

inductive Setter where
  | connectionBudget (permits : Nat)
  | connectionsPerDatabase (permits : UInt32)
  deriving DecidableEq, Repr

def Setter.apply (config : HarnessConfig) : Setter → Except Error HarnessConfig
  | .connectionBudget permits => config.withConnectionBudget permits
  | .connectionsPerDatabase permits => config.withConnectionsPerDatabase permits

/-- Calls in a row, as long as they succeed. -/
def HarnessConfig.set (config : HarnessConfig) : List Setter → Except Error HarnessConfig
  | [] => .ok config
  | setter :: rest =>
    match setter.apply config with
    | .error error => .error error
    | .ok config => config.set rest

def Setter.budget? : Setter → Option Nat
  | .connectionBudget permits => some permits
  | _ => none

def Setter.perDatabase? : Setter → Option UInt32
  | .connectionsPerDatabase permits => some permits
  | _ => none

def lastBudget (setters : List Setter) : Option Nat := (setters.filterMap Setter.budget?).getLast?

def lastPerDatabase (setters : List Setter) : Option UInt32 := (setters.filterMap Setter.perDatabase?).getLast?

/-- The budget that a row of calls comes to. -/
def resolvedBudget (setters : List Setter) : Nat := (lastBudget setters).getD 120

/-- The permits of a database that it comes to. -/
def resolvedPerDatabase (setters : List Setter) : Nat :=
  ((lastPerDatabase setters).map UInt32.toNat).getD (min 11 (resolvedBudget setters))

section Setters
variable {config after : HarnessConfig}

theorem NonZeroU32.new_eq_some {n : UInt32} {m : NonZeroU32} : NonZeroU32.new n = some m ↔ m.get = n := by
  obtain ⟨value, nonzero⟩ := m
  rw [NonZeroU32.new]
  constructor
  · intro h
    split at h
    · cases h
      rfl
    · cases h
  · intro heq
    obtain rfl := heq
    rw [dif_pos nonzero]

theorem NonZeroU32.pos (n : NonZeroU32) : 0 < n.get.toNat := by
  rw [Nat.pos_iff_ne_zero]
  intro hzero
  exact n.nonzero (UInt32.toNat_inj.mp hzero)

theorem withConnectionBudget_ok {permits : Nat} (h : config.withConnectionBudget permits = .ok after) :
    after.connectionBudgetOverride.map (·.get.toNat) = some permits ∧
      after.connectionsPerDatabaseOverride = config.connectionsPerDatabaseOverride := by
  unfold HarnessConfig.withConnectionBudget at h
  split at h
  · cases h
  · rename_i n hn
    cases h
    obtain ⟨m, hm, hnew⟩ := Option.bind_eq_some_iff.mp hn
    rw [u32TryFrom, Option.ite_none_right_eq_some, Option.some.injEq] at hm
    obtain ⟨hlt, rfl⟩ := hm
    refine ⟨congrArg some ?_, rfl⟩
    show n.get.toNat = permits
    rw [NonZeroU32.new_eq_some.mp hnew]
    exact UInt32.toNat_ofNat_of_lt hlt

theorem withConnectionsPerDatabase_ok {permits : UInt32} (h : config.withConnectionsPerDatabase permits = .ok after) :
    after.connectionsPerDatabaseOverride.map NonZeroU32.get = some permits ∧
      after.connectionBudgetOverride = config.connectionBudgetOverride := by
  unfold HarnessConfig.withConnectionsPerDatabase at h
  split at h
  · cases h
  · rename_i n hn
    cases h
    exact ⟨congrArg some (NonZeroU32.new_eq_some.mp hn), rfl⟩

/-- An element that counts is the last one unless another one follows. -/
theorem getLast?_filterMap_cons {α β : Type*} (f : α → Option β) {a : α} {b : β} (l : List α) (h : f a = some b) :
    ((a :: l).filterMap f).getLast? = (l.filterMap f).getLast?.or (some b) := by
  rw [List.filterMap_cons_some h, List.getLast?_cons]
  cases (l.filterMap f).getLast? <;> rfl

/-- The overrides are the last values given, or what was there before. -/
theorem set_overrides {setters : List Setter} (h : config.set setters = .ok after) :
    after.connectionBudgetOverride.map (·.get.toNat) =
        (lastBudget setters).or (config.connectionBudgetOverride.map (·.get.toNat)) ∧
      after.connectionsPerDatabaseOverride.map NonZeroU32.get =
        (lastPerDatabase setters).or (config.connectionsPerDatabaseOverride.map NonZeroU32.get) := by
  induction setters generalizing config with
  | nil =>
    cases h
    exact ⟨rfl, rfl⟩
  | cons setter rest ih =>
    rw [HarnessConfig.set] at h
    split at h
    · cases h
    · rename_i next hnext
      obtain ⟨hbudget, hper⟩ := ih h
      rw [hbudget, hper]
      cases setter with
      | connectionBudget permits =>
        obtain ⟨hset, hkept⟩ := withConnectionBudget_ok hnext
        rw [hset, hkept]
        refine ⟨?_, rfl⟩
        rw [lastBudget, lastBudget, getLast?_filterMap_cons Setter.budget? rest rfl, Option.or_assoc]
        rfl
      | connectionsPerDatabase permits =>
        obtain ⟨hset, hkept⟩ := withConnectionsPerDatabase_ok hnext
        rw [hset, hkept]
        refine ⟨rfl, ?_⟩
        rw [lastPerDatabase, lastPerDatabase, getLast?_filterMap_cons Setter.perDatabase? rest rfl, Option.or_assoc]
        rfl

theorem toNat_min (a b : UInt32) : (min a b).toNat = min a.toNat b.toNat := by
  rw [show min a b = if a ≤ b then a else b from rfl]
  by_cases h : a ≤ b
  · rw [if_pos h, Nat.min_eq_left (UInt32.le_iff_toNat_le.mp h)]
  · rw [if_neg h, Nat.min_eq_right]
    rw [UInt32.le_iff_toNat_le] at h
    omega

/-- The budget that `connection_limits` works with. -/
def HarnessConfig.budget (config : HarnessConfig) : UInt32 :=
  (config.connectionBudgetOverride.map NonZeroU32.get).getD defaultConnectionBudget

/-- The permits of a database that it works with. -/
def HarnessConfig.perDatabase (config : HarnessConfig) : UInt32 :=
  (config.connectionsPerDatabaseOverride.map NonZeroU32.get).getD (min defaultConnectionsPerDatabase config.budget)

theorem budget_pos (config : HarnessConfig) : 0 < config.budget.toNat := by
  unfold HarnessConfig.budget
  cases config.connectionBudgetOverride with
  | none => decide
  | some n => exact n.pos

theorem perDatabase_pos (config : HarnessConfig) : 0 < config.perDatabase.toNat := by
  unfold HarnessConfig.perDatabase
  cases config.connectionsPerDatabaseOverride with
  | none =>
    rw [Option.map_none, Option.getD_none, toNat_min, Nat.lt_min]
    exact ⟨by decide, budget_pos config⟩
  | some n => exact n.pos

/-- They are what the calls come to. -/
theorem budget_set {setters : List Setter} (h : HarnessConfig.new.set setters = .ok after) :
    after.budget.toNat = resolvedBudget setters := by
  obtain ⟨hbudget, _⟩ := set_overrides h
  rw [show HarnessConfig.new.connectionBudgetOverride = none from rfl, Option.map_none, Option.or_none] at hbudget
  rw [resolvedBudget, ← hbudget, HarnessConfig.budget]
  cases after.connectionBudgetOverride <;> rfl

theorem perDatabase_set {setters : List Setter} (h : HarnessConfig.new.set setters = .ok after) :
    after.perDatabase.toNat = resolvedPerDatabase setters := by
  obtain ⟨_, hper⟩ := set_overrides h
  rw [show HarnessConfig.new.connectionsPerDatabaseOverride = none from rfl, Option.map_none, Option.or_none] at hper
  rw [resolvedPerDatabase, ← hper, HarnessConfig.perDatabase, ← budget_set h]
  cases after.connectionsPerDatabaseOverride with
  | none => exact toNat_min _ _
  | some n => rfl

theorem connectionLimits_eq (config : HarnessConfig) : config.connectionLimits =
    if config.perDatabase > config.budget then
      .error (.invalidConfiguration "per-database permits must be no greater than the connection budget".toList)
    else .ok ⟨config.budget.toNat, config.perDatabase⟩ := rfl

end Setters

/-! ### What the numbers satisfy -/

/-- A pool never has more sessions than there can be leases, nor more than a quarter of the regular slots. -/
theorem adminPool_bounds (limits : ConnectionLimits) (regularConnectionSlots : Nat)
    (hleases : 1 ≤ limits.maxSimultaneousLeases) :
    1 ≤ perHarnessAdminSessionPoolSize limits regularConnectionSlots ∧
      perHarnessAdminSessionPoolSize limits regularConnectionSlots ≤ limits.maxSimultaneousLeases ∧
      (perHarnessAdminSessionPoolSize limits regularConnectionSlots = 1 ∨
        4 * perHarnessAdminSessionPoolSize limits regularConnectionSlots ≤ regularConnectionSlots) := by
  simp only [perHarnessAdminSessionPoolSize, lifecycleAdminConnectionShareDivisor]
  omega

theorem clamp_bounds {low high : Nat} (n : Nat) (h : low ≤ high) :
    low ≤ clamp low high n ∧ clamp low high n ≤ high ∧ (low ≤ n → clamp low high n ≤ n) := by
  unfold clamp
  split_ifs <;> omega

/-- Cleanup leaves at least half of a pool of several sessions to others. -/
theorem cleanupQueue_bounds (adminPoolSize : Nat) :
    1 ≤ (cleanupQueueLimits adminPoolSize).workerCount ∧
      (cleanupQueueLimits adminPoolSize).workerCount = (cleanupQueueLimits adminPoolSize).queueCapacity ∧
      (cleanupQueueLimits adminPoolSize).queueCapacity ≤ 4 ∧
      (2 ≤ adminPoolSize → (cleanupQueueLimits adminPoolSize).workerCount ≤
        adminPoolSize - (cleanupQueueLimits adminPoolSize).workerCount) := by
  obtain ⟨hlow, hhigh, hle⟩ := clamp_bounds (adminPoolSize / cleanupAdminSessionShareDivisor)
    (show 1 ≤ maxCleanupWorkers by decide)
  refine ⟨hlow, rfl, hhigh, fun htwo => ?_⟩
  have hshare : 1 ≤ adminPoolSize / cleanupAdminSessionShareDivisor := Nat.div_pos htwo (by decide)
  have hhalf : (cleanupQueueLimits adminPoolSize).workerCount ≤ adminPoolSize / 2 := hle hshare
  omega

/-- What holds of the limits that a harness starts with. -/
structure ConnectionLimits.Sound (limits : ConnectionLimits) : Prop where
  perDatabase_pos : 1 ≤ limits.connectionsPerDatabase.toNat
  perDatabase_le : limits.connectionsPerDatabase.toNat ≤ limits.connectionBudget
  leases_pos : 1 ≤ limits.maxSimultaneousLeases
  leases_le : limits.maxSimultaneousLeases * limits.connectionsPerDatabase.toNat ≤ limits.connectionBudget
  lt_leases : limits.connectionBudget < (limits.maxSimultaneousLeases + 1) * limits.connectionsPerDatabase.toNat
  /-- A lease's permits are there when nobody holds any. -/
  idle : ∀ l : Lease.Limits, l.connectionBudget = limits.connectionBudget →
    l.connectionsPerDatabase = limits.connectionsPerDatabase.toNat → (Lease.State.initial l).canAcquire l = true

/-- And of the pool and the workers that are sized from them, whatever the server says. -/
structure ConnectionLimits.Sized (limits : ConnectionLimits) (regularConnectionSlots : Nat) : Prop where
  pool_pos : 1 ≤ perHarnessAdminSessionPoolSize limits regularConnectionSlots
  pool_le : perHarnessAdminSessionPoolSize limits regularConnectionSlots ≤ limits.maxSimultaneousLeases
  pool_share : perHarnessAdminSessionPoolSize limits regularConnectionSlots = 1 ∨
    4 * perHarnessAdminSessionPoolSize limits regularConnectionSlots ≤ regularConnectionSlots
  workers : ∀ queue, queue = cleanupQueueLimits (perHarnessAdminSessionPoolSize limits regularConnectionSlots) →
    1 ≤ queue.workerCount ∧ queue.workerCount = queue.queueCapacity ∧ queue.queueCapacity ≤ 4 ∧
      (2 ≤ perHarnessAdminSessionPoolSize limits regularConnectionSlots →
        queue.workerCount ≤ perHarnessAdminSessionPoolSize limits regularConnectionSlots - queue.workerCount)

theorem sound_of_le {limits : ConnectionLimits} (hpos : 1 ≤ limits.connectionsPerDatabase.toNat)
    (hle : limits.connectionsPerDatabase.toNat ≤ limits.connectionBudget) : limits.Sound where
  perDatabase_pos := hpos
  perDatabase_le := hle
  leases_pos := Nat.div_pos hle hpos
  leases_le := Nat.div_mul_le_self _ _
  lt_leases := Nat.lt_mul_of_div_lt (Nat.lt_succ_self _) hpos
  idle l hbudget hper := by
    have hroom : ((Lease.State.initial l).holders + 1) * l.connectionsPerDatabase ≤ l.connectionBudget := by
      rw [Lease.initial_holders, hbudget, hper, Nat.zero_add, Nat.one_mul]
      exact hle
    rw [Lease.State.canAcquire, decide_eq_true hroom]
    rfl

/-- What a row of successful calls leaves. -/
structure Resolved (setters : List Setter) (config : HarnessConfig) : Prop where
  /-- Only the last value for each setter counts. -/
  limits : config.connectionLimits =
    if resolvedPerDatabase setters ≤ resolvedBudget setters then
      .ok ⟨resolvedBudget setters, UInt32.ofNat (resolvedPerDatabase setters)⟩
    else .error (.invalidConfiguration
      "per-database permits must be no greater than the connection budget".toList)
  exact : ∀ limits, config.connectionLimits = .ok limits → limits.connectionBudget = resolvedBudget setters ∧
    limits.connectionsPerDatabase.toNat = resolvedPerDatabase setters
  sound : ∀ limits, config.connectionLimits = .ok limits → limits.Sound
  sized : ∀ limits, config.connectionLimits = .ok limits →
    ∀ maxConnections reservedConnections superuserReservedConnections : Int32,
      limits.Sized (regularConnectionSlotsFromSettings maxConnections reservedConnections superuserReservedConnections)

/-- Whatever setters succeed, in whatever order, the limits are those of the last values, and they are sound
and as large as the server's settings allow. -/
theorem connection_limits_resolved (setters : List Setter) (config : HarnessConfig)
    (h : HarnessConfig.new.set setters = .ok config) : Resolved setters config := by
  have hbudget := budget_set h
  have hper := perDatabase_set h
  have hok : ∀ limits, config.connectionLimits = .ok limits → limits = ⟨config.budget.toNat, config.perDatabase⟩ ∧
      config.perDatabase.toNat ≤ config.budget.toNat := by
    intro limits hlimits
    rw [connectionLimits_eq] at hlimits
    split at hlimits
    · cases hlimits
    · rename_i hle
      cases hlimits
      refine ⟨rfl, ?_⟩
      rw [← UInt32.le_iff_toNat_le]
      exact UInt32.not_lt.mp hle
  have hsound : ∀ limits, config.connectionLimits = .ok limits → limits.Sound := by
    intro limits hlimits
    obtain ⟨rfl, hle⟩ := hok limits hlimits
    exact sound_of_le (perDatabase_pos config) hle
  refine ⟨?_, fun limits hlimits => ?_, hsound, fun limits hlimits _ _ _ => ?_⟩
  · rw [connectionLimits_eq, ← hper, ← hbudget, UInt32.ofNat_toNat]
    by_cases hle : config.perDatabase.toNat ≤ config.budget.toNat
    · rw [if_pos hle, if_neg]
      rw [gt_iff_lt, UInt32.lt_iff_toNat_lt, Nat.not_lt]
      exact hle
    · rw [if_neg hle, if_pos]
      rw [gt_iff_lt, UInt32.lt_iff_toNat_lt]
      exact Nat.lt_of_not_le hle
  · obtain ⟨rfl, _⟩ := hok limits hlimits
    exact ⟨hbudget, hper⟩
  · obtain ⟨hpos, hle, hshare⟩ := adminPool_bounds limits _ (hsound limits hlimits).leases_pos
    refine ⟨hpos, hle, hshare, ?_⟩
    intro _ heq
    obtain rfl := heq
    exact cleanupQueue_bounds _

/-- A budget is lowered and raised again; the permits of a database keep their default. -/
theorem connection_limits_resolved_raised : ∃ config,
    HarnessConfig.new.set [.connectionBudget 5, .connectionBudget 300] = .ok config ∧
    config.connectionLimits = .ok ⟨300, 11⟩ ∧ Resolved [.connectionBudget 5, .connectionBudget 300] config := by
  refine ⟨_, rfl, rfl, ?_⟩
  exact connection_limits_resolved _ _ rfl

end PostgresTestHarness
