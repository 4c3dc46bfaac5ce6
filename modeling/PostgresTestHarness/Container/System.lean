import PostgresTestHarness.Error
import PostgresTestHarness.Library.Machine

/-! An owned container: the thread that keeps it, the start that waits for it, and everybody who
shuts it down.

The worker thread starts the container, resolves its address, watches it until it is told that
the server is ready, waits to be told to stop, and removes it. `ContainerOwner::start` hands it
two channels; what is left of the start runs on the owner that `start` returns. A step is one
thing that one thread does, and the answers of the engine come with it. The clock is read in
nanoseconds. `starts` and `removals` record what the engine was asked to do. -/
namespace PostgresTestHarness.Container

/-- `testcontainers::TestcontainersError`, of which nothing but its text is read. -/
structure TestcontainersError where
  message : Text
  deriving DecidableEq, Repr

structure ContainerExit where
  exitCode : Option Int64
  output : List UInt8
  deriving DecidableEq, Repr

structure StartedContainer where
  id : Text
  host : Text
  port : UInt16
  deriving DecidableEq, Repr

/-- The variants of `Error` that an owned container raises. Timeouts are in nanoseconds. -/
inductive Error where
  | containerStart (source : TestcontainersError)
  | containerStorageStart (tmpfsSizeBytes : UInt64) (source : TestcontainersError)
  | containerReadinessTimeout (timeout : Nat) (source : Error)
  | containerExitedBeforeReady (exitCode : Option Int64)
  | containerStorageExhausted (tmpfsSizeBytes : UInt64) (evidence : Text)
  | containerMemoryExhausted (tmpfsSizeBytes : UInt64) (evidence : Text)
  | containerStartupTimeout (timeout : Nat)
  | containerRemove (source : TestcontainersError)
  | containerWorkerStart
  | containerWorkerStopped
  | containerWorkerPanicked
  | exitCleanupRegistration
  | containerStartupAndCleanup (startup cleanup : Error)
  | postgresConnectTimeout (operation : Text) (timeout : Nat)
  | postgresOperationTimeout (operation : Text) (timeout : Nat)
  | harness (error : PostgresTestHarness.Error)
  deriving DecidableEq, Repr

/-- What the thread of the worker leaves to whoever joins it. -/
inductive Ended where
  | returned (removal : Except TestcontainersError Unit)
  | panicked
  deriving DecidableEq, Repr

/-- What a join of the worker makes of it, in `join_failed_startup_worker` and in `shutdown`. -/
def Ended.joined : Ended → Except Error Unit
  | .returned (.ok _) => .ok ()
  | .returned (.error source) => .error (.containerRemove source)
  | .panicked => .error .containerWorkerPanicked

def combineStartupAndCleanup (startup : Error) : Except Error Unit → Error
  | .ok _ => startup
  | .error cleanup => .containerStartupAndCleanup startup cleanup

inductive ContainerCommand where
  | ready
  | shutdown
  deriving DecidableEq, Repr

/-- Where the worker thread is. -/
inductive Worker where
  /-- There is no thread. -/
  | absent
  /-- `request.start()`. -/
  | starting
  /-- `resolve_started_container_with_retry`, whose clock stands at least here. -/
  | resolving (elapsed : Nat)
  /-- It sends the failure of `request.start()`. -/
  | refusing (source : TestcontainersError)
  | sending (started : Except TestcontainersError StartedContainer)
  /-- `monitor_container_startup`, before a `recv_timeout`. -/
  | monitoring
  /-- The same, after a timeout. -/
  | checking
  | recording (exit : ContainerExit)
  /-- `commands.recv()`. -/
  | parked
  | removing
  | ended (result : Ended)
  deriving DecidableEq, Repr

/-- Where `start_blocking` is, which goes on as the server it returned. -/
inductive Starter where
  | spawning
  | receiving
  | joining (startup : Error)
  | parsing (started : StartedContainer)
  | registering
  /-- `wait_for_owned_server`. -/
  | waiting
  | marking
  /-- `finish_start_with_client`. -/
  | finishing
  /-- It has returned the server. -/
  | serving
  /-- It is about to return an error, after the destructor that its owner was the last for. -/
  | dropping (error : Error)
  | failed (error : Error)
  deriving DecidableEq, Repr

/-- Who calls `ContainerOwner::shutdown`. -/
inductive CallerKind where
  /-- `shutdown_container`. -/
  | owned
  /-- `cleanup_owned_containers_at_exit`. -/
  | exitHook
  /-- `ContainerOwner::drop`. -/
  | destructor
  deriving DecidableEq, Repr

inductive CallStage where
  | locking
  /-- It has taken the worker, keeps the mutex and joins. -/
  | joining
  | returned (result : Except Error Unit)
  /-- The runtime has dropped its task. -/
  | abandoned
  deriving DecidableEq, Repr

structure Caller where
  kind : CallerKind
  stage : CallStage
  /-- It has an `Arc` of the owner. -/
  holds : Bool
  /-- It is the one that took the worker. -/
  took : Bool
  deriving DecidableEq, Repr

structure Config where
  /-- `startup_timeout`. -/
  startupTimeout : Nat
  /-- `profile.tmpfs_size_bytes()`. -/
  tmpfsSizeBytes : Option UInt64
  /-- `tmpfs_start_error_evidence`. -/
  tmpfsStartErrorEvidence : TestcontainersError → Bool

def startupRetryInterval : Nat := 25 * 10 ^ 6

def mapContainerStartError (cfg : Config) (source : TestcontainersError) : Error :=
  match cfg.tmpfsSizeBytes, cfg.tmpfsStartErrorEvidence source with
  | some tmpfsSizeBytes, true => .containerStorageStart tmpfsSizeBytes source
  | _, _ => .containerStart source

structure State where
  starter : Starter
  worker : Worker
  /-- The buffer of the `started` channel, and whether its receiver is alive. -/
  started : Option (Except TestcontainersError StartedContainer)
  startedReceiver : Bool
  /-- The queue of the `shutdown` channel, and whether its sender is alive. -/
  commands : List ContainerCommand
  sender : Bool
  /-- The owner exists. -/
  created : Bool
  /-- `ContainerOwner::worker` is `Some`. -/
  slot : Bool
  /-- The caller that has the mutex of `slot` while it joins. -/
  lock : Option Nat
  startupExit : Option ContainerExit
  /-- The `Arc` of the start, or of the server. -/
  owned : Bool
  /-- The registry for the process exit has a `Weak` of the owner. -/
  registered : Bool
  callers : List Caller
  starts : Nat
  removals : Nat
  deriving Repr

inductive Action where
  | spawn (succeeds : Bool)
  | engineStart (result : Except TestcontainersError Unit)
  | resolve (result : Except TestcontainersError StartedContainer) (stopped : Bool) (elapsed : Nat)
  | send
  | poll
  | check (exit : Option ContainerExit)
  | record
  | unpark
  | remove (result : Except TestcontainersError Unit)
  | unwind
  | receiveStarted
  | startupTimeout
  | joinFailed
  | parse (refused : Option Text)
  | register (result : Except Error Unit)
  | waited (result : Except Error Unit)
  | markReady
  | finished (result : Except Error Unit)
  | destroyed
  | dropServer
  | shutdown
  | atExit
  | lock (i : Nat)
  | join (i : Nat)
  | release (i : Nat)
  | abandon (i : Nat)
  deriving DecidableEq, Repr

namespace State

def initial : State where
  starter := .spawning
  worker := .absent
  started := none
  startedReceiver := true
  commands := []
  sender := true
  created := false
  slot := false
  lock := none
  startupExit := none
  owned := false
  registered := false
  callers := []
  starts := 0
  removals := 0

/-- `Arc::strong_count`. -/
def strongCount (s : State) : Nat := s.owned.toNat + s.callers.countP (·.holds)

/-! ### The worker -/

def engineStart (s : State) (result : Except TestcontainersError Unit) : Option State :=
  match s.worker with
  | .starting =>
    match result with
    | .ok _ => some { s with worker := .resolving 0, starts := s.starts + 1 }
    | .error source => some { s with worker := .refusing source }
  | _ => none

/-- One round of `resolve_started_container_with_retry`, which reads the clock after the engine's
answer; it sleeps before the next. -/
def resolve (cfg : Config) (s : State) (result : Except TestcontainersError StartedContainer) (stopped : Bool)
    (elapsed : Nat) : Option State :=
  match s.worker with
  | .resolving before =>
    if elapsed < before then none
    else
      match result with
      | .ok container => some { s with worker := .sending (.ok container) }
      | .error error =>
        if elapsed ≥ cfg.startupTimeout then some { s with worker := .sending (.error error) }
        else if stopped then some { s with worker := .sending (.error error) }
        else some { s with
          worker := .resolving (elapsed + min startupRetryInterval (cfg.startupTimeout - elapsed)) }
  | _ => none

/-- `started_sender.send`, into a buffer of one. -/
def send (s : State) : Option State :=
  match s.worker with
  | .refusing source => some { s with
      started := if s.startedReceiver then some (.error source) else s.started
      worker := .ended (.returned (.ok ())) }
  | .sending started =>
    if s.startedReceiver then some { s with started := some started, worker := .monitoring }
    else some { s with worker := .removing }
  | _ => none

/-- `commands.recv_timeout`: a command, the end of the channel, or a timeout. -/
def poll (s : State) : Option State :=
  match s.worker with
  | .monitoring =>
    match s.commands with
    | .ready :: rest => some { s with commands := rest, worker := .parked }
    | .shutdown :: rest => some { s with commands := rest, worker := .removing }
    | [] => if s.sender then some { s with worker := .checking } else some { s with worker := .removing }
  | _ => none

/-- `container.is_running()`, with what `record` stores where the container has stopped. -/
def check (s : State) (exit : Option ContainerExit) : Option State :=
  match s.worker with
  | .checking =>
    match exit with
    | some exit => some { s with worker := .recording exit }
    | none => some { s with worker := .monitoring }
  | _ => none

def record (s : State) : Option State :=
  match s.worker with
  | .recording exit => some { s with startupExit := some exit, worker := .parked }
  | _ => none

/-- `commands.recv()` blocks while there is neither a command nor an end. -/
def unpark (s : State) : Option State :=
  match s.worker, s.commands with
  | .parked, _ :: rest => some { s with commands := rest, worker := .removing }
  | .parked, [] => if s.sender then none else some { s with worker := .removing }
  | _, _ => none

/-- `container.rm()`. -/
def remove (s : State) (result : Except TestcontainersError Unit) : Option State :=
  match s.worker with
  | .removing => some { s with worker := .ended (.returned result), removals := s.removals + 1 }
  | _ => none

/-- A call of the engine may panic. -/
def unwind (s : State) : Option State :=
  match s.worker with
  | .starting | .resolving _ | .checking | .recording _ | .removing => some { s with worker := .ended .panicked }
  | _ => none

/-! ### The start -/

def spawn (s : State) (succeeds : Bool) : Option State :=
  match s.starter with
  | .spawning =>
    if succeeds then some { s with starter := .receiving, worker := .starting }
    else some { s with starter := .failed .containerWorkerStart, startedReceiver := false, sender := false }
  | _ => none

/-- `ContainerOwner::start` gives up: it drops both ends of its channels and joins the worker. -/
def giveUp (s : State) (startup : Error) : State :=
  { s with starter := .joining startup, started := none, startedReceiver := false, sender := false }

/-- `started_receiver.recv_timeout`, with a result or at the end of the channel. -/
def receiveStarted (cfg : Config) (s : State) : Option State :=
  match s.starter with
  | .receiving =>
    match s.started with
    | some (.ok started) => some { s with starter := .parsing started, started := none }
    | some (.error source) => some (s.giveUp (mapContainerStartError cfg source))
    | none =>
      match s.worker with
      | .ended _ => some (s.giveUp .containerWorkerStopped)
      | _ => none
  | _ => none

/-- It times out. What the worker does before the channel is dropped, which may be to send its message or to
end, comes too late. -/
def receiveTimeout (cfg : Config) (s : State) : Option State :=
  match s.starter with
  | .receiving => some (s.giveUp (.containerStartupTimeout cfg.startupTimeout))
  | _ => none

/-- `join_failed_startup_worker`. -/
def joinFailed (s : State) : Option State :=
  match s.starter, s.worker with
  | .joining startup, .ended result =>
    some { s with starter := .failed (combineStartupAndCleanup startup result.joined) }
  | _, _ => none

/-- The URL of the server is parsed and the owner is made. Where it does not parse, the channel and the
handle of the worker are dropped, and nobody joins it. -/
def parse (s : State) (refused : Option Text) : Option State :=
  match s.starter with
  | .parsing _ =>
    match refused with
    | none => some { s with starter := .registering, created := true, slot := true, owned := true }
    | some reason => some { s with starter := .failed (.harness (.invalidAdminDatabaseUrl reason)), sender := false }
  | _ => none

/-- An `Arc` has been dropped, and the owner is dropped with the last one. -/
def dropOwner (s : State) : State :=
  { s with callers :=
      if s.strongCount = 0 then s.callers ++ [⟨.destructor, .locking, false, false⟩] else s.callers }

/-- The start returns an error and drops its owner. -/
def failWith (s : State) (error : Error) : State :=
  let dropped := { s with owned := false }
  { dropped.dropOwner with starter := if dropped.strongCount = 0 then .dropping error else .failed error }

/-- A place of the start that goes on or fails. -/
def proceed (s : State) (next : Starter) : Except Error Unit → State
  | .ok _ => { s with starter := next }
  | .error error => s.failWith error

/-- `register_container`. -/
def register (s : State) (result : Except Error Unit) : Option State :=
  match s.starter with
  | .registering =>
    match result with
    | .ok _ => some { s with starter := .waiting, registered := true }
    | .error error => some (s.failWith error)
  | _ => none

def waited (s : State) (result : Except Error Unit) : Option State :=
  match s.starter with
  | .waiting => some (s.proceed .marking result)
  | _ => none

def markReady (s : State) : Option State :=
  match s.starter, s.lock with
  | .marking, none =>
    if s.slot then
      match s.worker with
      | .ended _ => some (s.failWith .containerWorkerStopped)
      | _ => some { s with commands := s.commands ++ [.ready], starter := .finishing }
    else some (s.failWith .containerWorkerStopped)
  | _, _ => none

def finished (s : State) (result : Except Error Unit) : Option State :=
  match s.starter with
  | .finishing => some (s.proceed .serving result)
  | _ => none

/-- The destructor that the start runs has returned. -/
def destroyed (s : State) : Option State :=
  match s.starter with
  | .dropping error =>
    if s.callers.any fun c => c.kind = .destructor && c.stage matches .returned _ then
      some { s with starter := .failed error }
    else none
  | _ => none

/-! ### Shutdowns -/

/-- The last `Arc<ServerInner>` is dropped. -/
def dropServer (s : State) : Option State :=
  match s.starter, s.owned with
  | .serving, true => some { s with owned := false }.dropOwner
  | _, _ => none

/-- `shutdown_container` clones the `Arc`. -/
def shutdown (s : State) : Option State :=
  match s.starter, s.owned with
  | .serving, true => some { s with callers := s.callers ++ [⟨.owned, .locking, true, false⟩] }
  | _, _ => none

/-- The exit hook drains the registry and upgrades its `Weak`. -/
def atExit (s : State) : Option State :=
  if s.registered && s.strongCount != 0 then
    some { s with registered := false, callers := s.callers ++ [⟨.exitHook, .locking, true, false⟩] }
  else none

/-- The caller locks `worker` and takes what is in it. -/
def lockWorker (s : State) (i : Nat) : Option State :=
  match s.callers[i]?, s.lock with
  | some ⟨kind, .locking, holds, took⟩, none =>
    if s.slot then
      some { s with
        slot := false, sender := false, commands := s.commands ++ [.shutdown], lock := some i
        callers := s.callers.set i ⟨kind, .joining, holds, true⟩ }
    else some { s with callers := s.callers.set i ⟨kind, .returned (.ok ()), holds, took⟩ }
  | _, _ => none

/-- `handle.join()` returns. -/
def join (s : State) (i : Nat) : Option State :=
  match s.callers[i]?, s.worker with
  | some ⟨kind, .joining, holds, took⟩, .ended result =>
    some { s with lock := none, callers := s.callers.set i ⟨kind, .returned result.joined, holds, took⟩ }
  | _, _ => none

/-- A caller that has its result drops its `Arc`. -/
def release (s : State) (i : Nat) : Option State :=
  match s.callers[i]? with
  | some ⟨kind, .returned result, true, took⟩ =>
    some { s with callers := s.callers.set i ⟨kind, .returned result, false, took⟩ }.dropOwner
  | _ => none

/-- A runtime that shuts down drops the task of `shutdown_container` before it has run. -/
def abandon (s : State) (i : Nat) : Option State :=
  match s.callers[i]? with
  | some ⟨.owned, .locking, true, took⟩ =>
    some { s with callers := s.callers.set i ⟨.owned, .abandoned, false, took⟩ }.dropOwner
  | _ => none

def step (cfg : Config) (s : State) : Action → Option State
  | .spawn succeeds => s.spawn succeeds
  | .engineStart result => s.engineStart result
  | .resolve result stopped elapsed => s.resolve cfg result stopped elapsed
  | .send => s.send
  | .poll => s.poll
  | .check exit => s.check exit
  | .record => s.record
  | .unpark => s.unpark
  | .remove result => s.remove result
  | .unwind => s.unwind
  | .receiveStarted => s.receiveStarted cfg
  | .startupTimeout => s.receiveTimeout cfg
  | .joinFailed => s.joinFailed
  | .parse refused => s.parse refused
  | .register result => s.register result
  | .waited result => s.waited result
  | .markReady => s.markReady
  | .finished result => s.finished result
  | .destroyed => s.destroyed
  | .dropServer => s.dropServer
  | .shutdown => s.shutdown
  | .atExit => s.atExit
  | .lock i => s.lockWorker i
  | .join i => s.join i
  | .release i => s.release i
  | .abandon i => s.abandon i

end State

def machine (cfg : Config) : Machine State Action where
  initial := fun s => s = State.initial
  step := State.step cfg

/-! ### What a step can be -/

/-- The steps of the worker thread, which leave the start and the callers alone. -/
inductive Works (cfg : Config) (s : State) : State → Prop where
  | started (worker : s.worker = .starting) : Works cfg s { s with worker := .resolving 0, starts := s.starts + 1 }
  | notStarted (source : TestcontainersError) (worker : s.worker = .starting) :
      Works cfg s { s with worker := .refusing source }
  | resolved (before : Nat) (result : Except TestcontainersError StartedContainer)
      (worker : s.worker = .resolving before) : Works cfg s { s with worker := .sending result }
  | retried (before elapsed : Nat) (worker : s.worker = .resolving before) (later : before ≤ elapsed)
      (early : elapsed < cfg.startupTimeout) :
      Works cfg s { s with
        worker := .resolving (elapsed + min startupRetryInterval (cfg.startupTimeout - elapsed)) }
  | refused (source : TestcontainersError) (worker : s.worker = .refusing source) :
      Works cfg s { s with
        started := if s.startedReceiver then some (.error source) else s.started
        worker := .ended (.returned (.ok ())) }
  | sent (started : Except TestcontainersError StartedContainer) (worker : s.worker = .sending started)
      (receiver : s.startedReceiver = true) : Works cfg s { s with started := some started, worker := .monitoring }
  | unsent (started : Except TestcontainersError StartedContainer) (worker : s.worker = .sending started)
      (receiver : s.startedReceiver = false) : Works cfg s { s with worker := .removing }
  | readied (rest : List ContainerCommand) (worker : s.worker = .monitoring) (queue : s.commands = .ready :: rest) :
      Works cfg s { s with commands := rest, worker := .parked }
  | stopped (rest : List ContainerCommand) (worker : s.worker = .monitoring)
      (queue : s.commands = .shutdown :: rest) : Works cfg s { s with commands := rest, worker := .removing }
  | hungUp (worker : s.worker = .monitoring ∨ s.worker = .parked) (queue : s.commands = [])
      (sender : s.sender = false) : Works cfg s { s with worker := .removing }
  | timedOut (worker : s.worker = .monitoring) (queue : s.commands = []) (sender : s.sender = true) :
      Works cfg s { s with worker := .checking }
  | running (worker : s.worker = .checking) : Works cfg s { s with worker := .monitoring }
  | exited (exit : ContainerExit) (worker : s.worker = .checking) : Works cfg s { s with worker := .recording exit }
  | recorded (exit : ContainerExit) (worker : s.worker = .recording exit) :
      Works cfg s { s with startupExit := some exit, worker := .parked }
  | unparked (command : ContainerCommand) (rest : List ContainerCommand) (worker : s.worker = .parked)
      (queue : s.commands = command :: rest) : Works cfg s { s with commands := rest, worker := .removing }
  | removed (result : Except TestcontainersError Unit) (worker : s.worker = .removing) :
      Works cfg s { s with worker := .ended (.returned result), removals := s.removals + 1 }
  | unwound (worker : s.worker = .starting ∨ (∃ before, s.worker = .resolving before) ∨ s.worker = .checking ∨
      (∃ exit, s.worker = .recording exit) ∨ s.worker = .removing) :
      Works cfg s { s with worker := .ended .panicked }

/-- Why `ContainerOwner::start` gives up. -/
inductive GivesUp (cfg : Config) (s : State) : Error → Prop where
  | refused (source : TestcontainersError) (message : s.started = some (.error source)) :
      GivesUp cfg s (mapContainerStartError cfg source)
  | timedOut : GivesUp cfg s (.containerStartupTimeout cfg.startupTimeout)
  | stopped (result : Ended) (message : s.started = none) (worker : s.worker = .ended result) :
      GivesUp cfg s .containerWorkerStopped

/-- The start has made the owner and has it. -/
def Starter.Owning (starter : Starter) : Prop :=
  starter = .registering ∨ starter = .waiting ∨ starter = .marking ∨ starter = .finishing

/-- The steps of the start, and of the server that it becomes. -/
inductive Begins (cfg : Config) (s : State) : State → Prop where
  | spawned (starter : s.starter = .spawning) : Begins cfg s { s with starter := .receiving, worker := .starting }
  | unspawned (starter : s.starter = .spawning) :
      Begins cfg s { s with starter := .failed .containerWorkerStart, startedReceiver := false, sender := false }
  | received (started : StartedContainer) (starter : s.starter = .receiving) (message : s.started = some (.ok started)) :
      Begins cfg s { s with starter := .parsing started, started := none }
  | gaveUp (startup : Error) (starter : s.starter = .receiving) (reason : GivesUp cfg s startup) : Begins cfg s (s.giveUp startup)
  | joined (startup : Error) (result : Ended) (starter : s.starter = .joining startup)
      (worker : s.worker = .ended result) :
      Begins cfg s { s with starter := .failed (combineStartupAndCleanup startup result.joined) }
  | parsed (started : StartedContainer) (starter : s.starter = .parsing started) :
      Begins cfg s { s with starter := .registering, created := true, slot := true, owned := true }
  | unparsed (started : StartedContainer) (reason : Text) (starter : s.starter = .parsing started) :
      Begins cfg s { s with starter := .failed (.harness (.invalidAdminDatabaseUrl reason)), sender := false }
  | registered (starter : s.starter = .registering) : Begins cfg s { s with starter := .waiting, registered := true }
  | ready (starter : s.starter = .waiting) : Begins cfg s { s with starter := .marking }
  | marked (starter : s.starter = .marking) (lock : s.lock = none) (slot : s.slot = true) :
      Begins cfg s { s with commands := s.commands ++ [.ready], starter := .finishing }
  | served (starter : s.starter = .finishing) : Begins cfg s { s with starter := .serving }
  | failed (error : Error) (starter : s.starter.Owning) : Begins cfg s (s.failWith error)
  | destroyed (error : Error) (c : Caller) (result : Except Error Unit) (starter : s.starter = .dropping error)
      (caller : c ∈ s.callers) (kind : c.kind = .destructor) (stage : c.stage = .returned result) :
      Begins cfg s { s with starter := .failed error }
  | dropped (starter : s.starter = .serving) (owned : s.owned = true) : Begins cfg s { s with owned := false }.dropOwner

/-- The steps of those who shut the container down. -/
inductive Calls (s : State) : State → Prop where
  | called (starter : s.starter = .serving) (owned : s.owned = true) :
      Calls s { s with callers := s.callers ++ [⟨.owned, .locking, true, false⟩] }
  | exits (registered : s.registered = true) (alive : s.strongCount ≠ 0) :
      Calls s { s with registered := false, callers := s.callers ++ [⟨.exitHook, .locking, true, false⟩] }
  | takes (i : Nat) (c : Caller) (caller : s.callers[i]? = some c) (stage : c.stage = .locking) (lock : s.lock = none)
      (slot : s.slot = true) :
      Calls s { s with
        slot := false, sender := false, commands := s.commands ++ [.shutdown], lock := some i
        callers := s.callers.set i { c with stage := .joining, took := true } }
  | finds (i : Nat) (c : Caller) (caller : s.callers[i]? = some c) (stage : c.stage = .locking) (lock : s.lock = none)
      (slot : s.slot = false) : Calls s { s with callers := s.callers.set i { c with stage := .returned (.ok ()) } }
  | joins (i : Nat) (c : Caller) (result : Ended) (caller : s.callers[i]? = some c) (stage : c.stage = .joining)
      (worker : s.worker = .ended result) :
      Calls s { s with lock := none, callers := s.callers.set i { c with stage := .returned result.joined } }
  | releases (i : Nat) (c : Caller) (result : Except Error Unit) (caller : s.callers[i]? = some c)
      (stage : c.stage = .returned result) :
      Calls s { s with callers := s.callers.set i { c with holds := false } }.dropOwner
  | abandons (i : Nat) (c : Caller) (caller : s.callers[i]? = some c) (stage : c.stage = .locking)
      (kind : c.kind = .owned) :
      Calls s { s with callers := s.callers.set i { c with stage := .abandoned, holds := false } }.dropOwner

/-- Whether an action is the worker's. -/
def Action.works : Action → Bool
  | .engineStart _ | .resolve .. | .send | .poll | .check _ | .record | .unpark | .remove _ | .unwind => true
  | _ => false

def Action.calls : Action → Bool
  | .shutdown | .atExit | .lock _ | .join _ | .release _ | .abandon _ => true
  | _ => false

section Cases
variable {cfg : Config} {s t : State} {i : Nat}

theorem engineStart_works {result : Except TestcontainersError Unit} (h : s.engineStart result = some t) :
    Works cfg s t := by
  simp only [State.engineStart] at h
  split at h
  · rename_i worker
    cases result with
    | ok _ =>
      cases h
      exact .started worker
    | error source =>
      cases h
      exact .notStarted source worker
  · cases h

theorem resolve_works {result : Except TestcontainersError StartedContainer} {stopped : Bool} {elapsed : Nat}
    (h : s.resolve cfg result stopped elapsed = some t) : Works cfg s t := by
  simp only [State.resolve] at h
  split at h
  · rename_i before worker
    split at h
    · cases h
    · rename_i later
      cases result with
      | ok container =>
        cases h
        exact .resolved before _ worker
      | error error =>
        simp only at h
        split at h
        · cases h
          exact .resolved before _ worker
        · rename_i early
          split at h
          · cases h
            exact .resolved before _ worker
          · cases h
            exact .retried before elapsed worker (by omega) (by omega)
  · cases h

theorem send_works (h : s.send = some t) : Works cfg s t := by
  rw [State.send] at h
  split at h
  · rename_i source worker
    cases h
    exact .refused source worker
  · rename_i started worker
    split at h
    · rename_i receiver
      cases h
      exact .sent started worker receiver
    · rename_i receiver
      cases h
      exact .unsent started worker (Bool.eq_false_iff.mpr receiver)
  · cases h

theorem poll_works (h : s.poll = some t) : Works cfg s t := by
  rw [State.poll] at h
  split at h
  · rename_i worker
    split at h
    · rename_i rest queue
      cases h
      exact .readied rest worker queue
    · rename_i rest queue
      cases h
      exact .stopped rest worker queue
    · rename_i queue
      split at h
      · rename_i sender
        cases h
        exact .timedOut worker queue sender
      · rename_i sender
        cases h
        exact .hungUp (Or.inl worker) queue (Bool.eq_false_iff.mpr sender)
  · cases h

theorem check_works {exit : Option ContainerExit} (h : s.check exit = some t) : Works cfg s t := by
  simp only [State.check] at h
  split at h
  · rename_i worker
    cases exit with
    | some exit =>
      cases h
      exact .exited exit worker
    | none =>
      cases h
      exact .running worker
  · cases h

theorem record_works (h : s.record = some t) : Works cfg s t := by
  rw [State.record] at h
  split at h
  · rename_i exit worker
    cases h
    exact .recorded exit worker
  · cases h

theorem unpark_works (h : s.unpark = some t) : Works cfg s t := by
  rw [State.unpark] at h
  split at h
  · rename_i command rest worker queue
    cases h
    exact .unparked command rest worker queue
  · rename_i worker queue
    split at h
    · cases h
    · rename_i sender
      cases h
      exact .hungUp (Or.inr worker) queue (Bool.eq_false_iff.mpr sender)
  · cases h

theorem remove_works {result : Except TestcontainersError Unit} (h : s.remove result = some t) : Works cfg s t := by
  rw [State.remove] at h
  split at h
  · rename_i worker
    cases h
    exact .removed result worker
  · cases h

theorem unwind_works (h : s.unwind = some t) : Works cfg s t := by
  rw [State.unwind] at h
  split at h <;> cases h
  · exact .unwound (Or.inl ‹_›)
  · exact .unwound (Or.inr (Or.inl ⟨_, ‹_›⟩))
  · exact .unwound (Or.inr (Or.inr (Or.inl ‹_›)))
  · exact .unwound (Or.inr (Or.inr (Or.inr (Or.inl ⟨_, ‹_›⟩))))
  · exact .unwound (Or.inr (Or.inr (Or.inr (Or.inr ‹_›))))

theorem works_of_step {a : Action} (h : s.step cfg a = some t) (ha : a.works = true) : Works cfg s t := by
  cases a with
  | engineStart result => exact engineStart_works h
  | resolve result stopped elapsed => exact resolve_works h
  | send => exact send_works h
  | poll => exact poll_works h
  | check exit => exact check_works h
  | record => exact record_works h
  | unpark => exact unpark_works h
  | remove result => exact remove_works h
  | unwind => exact unwind_works h
  | _ => cases ha

theorem spawn_begins {succeeds : Bool} (h : s.spawn succeeds = some t) : Begins cfg s t := by
  simp only [State.spawn] at h
  split at h
  · rename_i starter
    cases succeeds with
    | true =>
      cases h
      exact .spawned starter
    | false =>
      cases h
      exact .unspawned starter
  · cases h

theorem receiveStarted_begins (h : s.receiveStarted cfg = some t) : Begins cfg s t := by
  rw [State.receiveStarted] at h
  split at h
  · rename_i starter
    split at h
    · rename_i started message
      cases h
      exact .received started starter message
    · rename_i source message
      cases h
      exact .gaveUp _ starter (.refused source message)
    · rename_i message
      split at h
      · rename_i result worker
        cases h
        exact .gaveUp _ starter (.stopped result message worker)
      · cases h
  · cases h

theorem receiveTimeout_begins (h : s.receiveTimeout cfg = some t) : Begins cfg s t := by
  rw [State.receiveTimeout] at h
  split at h
  · rename_i starter
    cases h
    exact .gaveUp _ starter .timedOut
  · cases h

theorem joinFailed_begins (h : s.joinFailed = some t) : Begins cfg s t := by
  rw [State.joinFailed] at h
  split at h
  · rename_i startup result starter worker
    cases h
    exact .joined startup result starter worker
  · cases h

theorem parse_begins {refused : Option Text} (h : s.parse refused = some t) : Begins cfg s t := by
  simp only [State.parse] at h
  split at h
  · rename_i started starter
    cases refused with
    | none =>
      cases h
      exact .parsed started starter
    | some reason =>
      cases h
      exact .unparsed started reason starter
  · cases h

theorem register_begins {result : Except Error Unit} (h : s.register result = some t) : Begins cfg s t := by
  simp only [State.register] at h
  split at h
  · rename_i starter
    cases result with
    | ok _ =>
      cases h
      exact .registered starter
    | error error =>
      cases h
      exact .failed error (Or.inl starter)
  · cases h

theorem waited_begins {result : Except Error Unit} (h : s.waited result = some t) : Begins cfg s t := by
  simp only [State.waited] at h
  split at h
  · rename_i starter
    cases result with
    | ok _ =>
      cases h
      exact .ready starter
    | error error =>
      cases h
      exact .failed error (Or.inr (Or.inl starter))
  · cases h

theorem markReady_begins (h : s.markReady = some t) : Begins cfg s t := by
  rw [State.markReady] at h
  split at h
  · rename_i starter lock
    split at h
    · rename_i slot
      split at h
      · cases h
        exact .failed _ (Or.inr (Or.inr (Or.inl starter)))
      · cases h
        exact .marked starter lock slot
    · cases h
      exact .failed _ (Or.inr (Or.inr (Or.inl starter)))
  · cases h

theorem finished_begins {result : Except Error Unit} (h : s.finished result = some t) : Begins cfg s t := by
  simp only [State.finished] at h
  split at h
  · rename_i starter
    cases result with
    | ok _ =>
      cases h
      exact .served starter
    | error error =>
      cases h
      exact .failed error (Or.inr (Or.inr (Or.inr starter)))
  · cases h

theorem destroyed_begins (h : s.destroyed = some t) : Begins cfg s t := by
  rw [State.destroyed] at h
  split at h
  · rename_i error starter
    split at h
    · rename_i found
      cases h
      obtain ⟨c, caller, both⟩ := List.any_eq_true.mp found
      obtain ⟨kind, stage⟩ := Bool.and_eq_true_iff.mp both
      cases hc : c.stage with
      | returned result => exact .destroyed error c result starter caller (of_decide_eq_true kind) hc
      | _ =>
        rw [hc] at stage
        cases stage
    · cases h
  · cases h

theorem dropServer_begins (h : s.dropServer = some t) : Begins cfg s t := by
  rw [State.dropServer] at h
  split at h
  · rename_i starter owned
    cases h
    exact .dropped starter owned
  · cases h

theorem begins_of_step {a : Action} (h : s.step cfg a = some t) (hworks : a.works = false) (hcalls : a.calls = false) :
    Begins cfg s t := by
  cases a with
  | spawn succeeds => exact spawn_begins h
  | receiveStarted => exact receiveStarted_begins h
  | startupTimeout => exact receiveTimeout_begins h
  | joinFailed => exact joinFailed_begins h
  | parse refused => exact parse_begins h
  | register result => exact register_begins h
  | waited result => exact waited_begins h
  | markReady => exact markReady_begins h
  | finished result => exact finished_begins h
  | destroyed => exact destroyed_begins h
  | dropServer => exact dropServer_begins h
  | shutdown | atExit | lock _ | join _ | release _ | abandon _ => cases hcalls
  | _ => cases hworks

theorem shutdown_calls (h : s.shutdown = some t) : Calls s t := by
  rw [State.shutdown] at h
  split at h
  · rename_i starter owned
    cases h
    exact .called starter owned
  · cases h

theorem atExit_calls (h : s.atExit = some t) : Calls s t := by
  obtain ⟨both, heq⟩ := Option.ite_none_right_eq_some.mp h
  cases heq
  obtain ⟨registered, alive⟩ := Bool.and_eq_true_iff.mp both
  exact .exits registered (bne_iff_ne.mp alive)

theorem lockWorker_calls (h : s.lockWorker i = some t) : Calls s t := by
  rw [State.lockWorker] at h
  split at h
  · rename_i kind holds took caller lock
    split at h
    · rename_i slot
      cases h
      exact .takes i _ caller rfl lock slot
    · rename_i slot
      cases h
      exact .finds i _ caller rfl lock (Bool.eq_false_iff.mpr slot)
  · cases h

theorem join_calls (h : s.join i = some t) : Calls s t := by
  rw [State.join] at h
  split at h
  · rename_i kind holds took result caller worker
    cases h
    exact .joins i _ result caller rfl worker
  · cases h

theorem release_calls (h : s.release i = some t) : Calls s t := by
  rw [State.release] at h
  split at h
  · rename_i kind result took caller
    cases h
    exact .releases i _ result caller rfl
  · cases h

theorem abandon_calls (h : s.abandon i = some t) : Calls s t := by
  rw [State.abandon] at h
  split at h
  · rename_i took caller
    cases h
    exact .abandons i _ caller rfl rfl
  · cases h

theorem calls_of_step {a : Action} (h : s.step cfg a = some t) (ha : a.calls = true) : Calls s t := by
  cases a with
  | shutdown => exact shutdown_calls h
  | atExit => exact atExit_calls h
  | lock i => exact lockWorker_calls h
  | join i => exact join_calls h
  | release i => exact release_calls h
  | abandon i => exact abandon_calls h
  | _ => cases ha

/-- A step is one of the worker, of the start, or of a caller. -/
theorem step_cases {a : Action} (h : s.step cfg a = some t) : Works cfg s t ∨ Begins cfg s t ∨ Calls s t := by
  cases hworks : a.works with
  | true => exact Or.inl (works_of_step h hworks)
  | false =>
    cases hcalls : a.calls with
    | true => exact Or.inr (Or.inr (calls_of_step h hcalls))
    | false => exact Or.inr (Or.inl (begins_of_step h hworks hcalls))

end Cases

end PostgresTestHarness.Container
