import Mathlib.Data.List.Flatten
import PostgresTestHarness.Library.Machine
import PostgresTestHarness.Prewarm.Pool

/-! One prewarm pool with everything that holds one of its slots.

A task is a value that counts in the pool's state (`PrewarmCreation`, `PrewarmReturn`,
`ClosedPrewarmDeletion`) together with the code that drives it: the `prewarm` call, a
cleanup job on its worker, or a creation that outlived its cancelled caller. A closure
takes the idle databases once and submits them one by one. The answers of the cleanup
queue, the server and the admission gate come with the action. Names are fresh. -/
namespace PostgresTestHarness.Prewarm

/-- Who creates a database for the pool. -/
inductive Origin where
  /-- The `prewarm` call, with a `PrewarmCreation`. -/
  | filling
  /-- A cleanup job, with a `PrewarmReturn` in its creating phase. -/
  | refill
  /-- A creation whose `prewarm` call was cancelled; nothing counts it. -/
  | detached
  deriving DecidableEq, Repr

inductive Task where
  /-- A returned lease, before the cleanup queue has answered. -/
  | submitting (name : Text)
  /-- Its job, until the `DROP` is over. -/
  | dropping (name : Text)
  /-- Dropped, before `after_drop`. -/
  | dropped
  /-- A creation that has not passed the admission gate. -/
  | reserved (origin : Origin)
  | attempting (origin : Origin) (name : Text)
  /-- Created, before `finish_creation`. -/
  | made (origin : Origin) (name : Text)
  /-- Published; the ready token is still to be added. -/
  | pushed (origin : Origin)
  /-- `finish_creation` found the pool closed; the deletion is still to be queued. -/
  | unqueued (name : Text)
  /-- A counted deletion on a worker, until its `DROP` is over. -/
  | surplus (name : Text)
  /-- Before the deletion is finished or dropped. -/
  | deleted
  /-- The creation or return is about to be dropped unfinished. -/
  | failing (origin : Origin) (phase : PrewarmReturnPhase)
  /-- The cleanup of a database that has no slot. -/
  | uncounted (name : Text)
  deriving DecidableEq, Repr

/-- The `prewarm` call: `left` is how many more databases the loop will create. -/
inductive Filling where
  | next (left : Nat)
  | busy (left : Nat)
  /-- Leaving with an error: the pool handle is about to be dropped. -/
  | ending
  | done
  deriving DecidableEq, Repr

def Filling.left : Filling → Nat
  | .next left => left
  | .busy left => left
  | _ => 0

def Filling.goOn : Filling → Filling
  | .busy left => .next left
  | f => f

/-- A `finish_close` call, with the idle databases it has still to queue. -/
inductive Closer where
  /-- Before it closes the semaphores. -/
  | begun (ready : List Text)
  | queueing (ready : List Text)
  | finished
  deriving DecidableEq, Repr

def Closer.ready : Closer → List Text
  | .begun ready => ready
  | .queueing ready => ready
  | .finished => []

def Closer.running : Closer → Bool
  | .finished => false
  | _ => true

structure State where
  pool : PrewarmPoolState
  publicHandles : Nat
  /-- Tokens in `ready_admission`. -/
  readyTokens : Nat
  readyAdmissionClosed : Bool
  /-- Calls of `close_and_queue_ready` that have not locked the state. -/
  pendingCloses : Nat
  closers : List Closer
  /-- `database` calls that hold a ready token and have popped nothing. -/
  checkouts : Nat
  leases : List Text
  tasks : List Task
  filling : Filling
  /-- Databases created for the pool that exist or may exist. -/
  existing : List Text
  used : List Text
  /-- Whether every debug assertion so far held. -/
  assertsHeld : Bool

inductive Action where
  | beginCreation
  /-- The admission gate, open or closed. -/
  | gate (task : Nat) (admitted : Bool) (name : Text)
  /-- `CREATE` ends: `none` when it proves to have left nothing. -/
  | creationReturns (task : Nat) (result : Option Bool)
  | cancelFilling (task : Nat)
  | publish (task : Nat)
  | addToken (task : Nat)
  | queueDeletion (task : Nat) (accepted : Bool)
  | failPhase (task : Nat)
  | endFilling
  | cloneHandle
  | dropHandle
  /-- A pool or server shutdown calls `close_and_queue_ready`. -/
  | callClose
  | beginClose
  | closeSemaphores (closer : Nat)
  | queueTaken (closer : Nat) (accepted : Bool)
  | finishClose (closer : Nat)
  | reserveToken
  | checkout
  | cancelCheckout
  | giveUp (lease : Nat)
  | answer (task : Nat) (accepted : Bool)
  /-- A `DROP` ends; `false` when the database may still be there. -/
  | dropReturns (task : Nat) (gone : Bool)
  | afterDrop (task : Nat)
  | finishDeletion (task : Nat)
  /-- The worker's operation unwinds. -/
  | unwind (task : Nat)
  deriving Repr

/-- A creation guard dropped without a database to show for it. -/
def Origin.fail : Origin → List Task
  | .detached => []
  | origin => [.failing origin .creating]

/-- Whether the task holds the pool, and so keeps its state alive. -/
def Task.holdsPool : Task → Bool
  | .reserved .detached | .attempting .detached _ | .uncounted _ => false
  | _ => true

namespace State

def initial (capacity : Nat) : State where
  pool := .new
  publicHandles := 1
  readyTokens := 0
  readyAdmissionClosed := false
  pendingCloses := 0
  closers := []
  checkouts := 0
  leases := []
  tasks := []
  filling := .next capacity
  existing := []
  used := []
  assertsHeld := true

/-- Whether a strong reference to the pool is left. -/
def alive (s : State) : Bool :=
  decide (0 < s.publicHandles) || decide (0 < s.pendingCloses) || s.closers.any Closer.running ||
    decide (0 < s.checkouts) || decide (s.filling ≠ .done) || s.tasks.any Task.holdsPool

/-- Replace a task by what becomes of it. -/
def replace (s : State) (i : Nat) (next : List Task) : State :=
  { s with tasks := s.tasks.eraseIdx i ++ next }

def assert (s : State) (held : Bool) : State := { s with assertsHeld := s.assertsHeld && held }

def beginCreation (capacity : Nat) (s : State) : Option State :=
  match s.filling with
  | .next 0 => some { s with filling := .done }
  | .next (left + 1) =>
    let creation := s.pool.beginCreation capacity
    match creation.value with
    | .error _ => some ({ s with filling := .ending }.assert creation.asserts)
    | .ok pool => some ({ s with
        pool
        filling := .busy left
        tasks := s.tasks ++ [Task.reserved .filling] }.assert creation.asserts)
  | _ => none

def gate (s : State) (i : Nat) (admitted : Bool) (name : Text) : Option State :=
  match s.tasks[i]? with
  | some (.reserved origin) =>
    if admitted = false then some (s.replace i origin.fail)
    else if name ∈ s.used then none
    else some ({ s with
      existing := name :: s.existing
      used := name :: s.used }.replace i [.attempting origin name])
  | _ => none

def creationReturns (s : State) (i : Nat) (result : Option Bool) : Option State :=
  match s.tasks[i]? with
  | some (.attempting origin name) =>
    match result with
    | some true =>
      if origin = .detached then some (s.replace i [.uncounted name])
      else some (s.replace i [.made origin name])
    | some false => some (s.replace i origin.fail)
    | none => some ({ s with existing := s.existing.erase name }.replace i origin.fail)
  | _ => none

/-- The caller of `prewarm` goes away: the blocking closure goes on by itself, and what
it returns is an `UnpublishedDatabase` that nobody takes. -/
def cancelFilling (s : State) (i : Nat) : Option State :=
  match s.tasks[i]? with
  | some (.reserved .filling) =>
    some (s.replace i [.reserved .detached, .failing .filling .creating])
  | some (.attempting .filling name) =>
    some (s.replace i [.attempting .detached name, .failing .filling .creating])
  | some (.made .filling name) => some (s.replace i [.uncounted name, .failing .filling .creating])
  | _ => none

def publish (capacity : Nat) (s : State) (i : Nat) : Option State :=
  match s.tasks[i]? with
  | some (.made origin name) =>
    let finished := s.pool.finishCreation name capacity
    let next : List Task :=
      if finished.value.1 then [.pushed origin]
      else if origin = .filling then [.unqueued name] else [.surplus name]
    some (({ s with pool := finished.value.2 }.replace i next).assert finished.asserts)
  | _ => none

def addToken (s : State) (i : Nat) : Option State :=
  match s.tasks[i]? with
  | some (.pushed origin) => some ({ s with
      readyTokens := s.readyTokens + 1
      filling := if origin = Origin.filling then s.filling.goOn else s.filling }.replace i [])
  | _ => none

/-- `queue_counted_prepared_database` by the `prewarm` call; a refused closure drops
its deletion. -/
def queueDeletion (s : State) (i : Nat) (accepted : Bool) : Option State :=
  match s.tasks[i]? with
  | some (.unqueued name) => some ({ s with filling := s.filling.goOn }.replace i
      [if accepted then .surplus name else .deleted])
  | _ => none

def failPhase (capacity : Nat) (s : State) (i : Nat) : Option State :=
  match s.tasks[i]? with
  | some (.failing origin phase) =>
    let cleanup := s.pool.failAndBeginCleanup phase capacity
    some (({ s with
      pool := cleanup.value.2
      closers := s.closers ++ [Closer.begun (cleanup.value.1.getD [])]
      filling := if origin = Origin.filling then .ending else s.filling }.replace i []).assert
        cleanup.asserts)
  | _ => none

/-- `Drop for PrewarmedDatabasePool`. -/
def releaseHandle (s : State) : State := { s with
  publicHandles := s.publicHandles - 1
  pendingCloses := if s.publicHandles = 1 then s.pendingCloses + 1 else s.pendingCloses }

def beginClose (capacity : Nat) (s : State) : Option State :=
  if s.pendingCloses = 0 then none
  else
    let cleanup := s.pool.beginCleanup capacity
    some ({ s with
      pool := cleanup.value.2
      pendingCloses := s.pendingCloses - 1
      closers := s.closers ++ [Closer.begun (cleanup.value.1.getD [])] }.assert cleanup.asserts)

def closeSemaphores (s : State) (i : Nat) : Option State :=
  match s.closers[i]? with
  | some (.begun ready) => some { s with
      readyAdmissionClosed := true
      closers := s.closers.set i (.queueing ready) }
  | _ => none

/-- `queue_closed_prepared_database`; a refused closure drops its deletion. -/
def queueTaken (s : State) (i : Nat) (accepted : Bool) : Option State :=
  match s.closers[i]? with
  | some (.queueing (name :: rest)) => some { s with
      closers := s.closers.set i (.queueing rest)
      tasks := s.tasks ++ [if accepted then .surplus name else .deleted] }
  | _ => none

def finishClose (s : State) (i : Nat) : Option State :=
  match s.closers[i]? with
  | some (.queueing []) => some { s with closers := s.closers.set i .finished }
  | _ => none

def reserveToken (s : State) : Option State :=
  if s.publicHandles = 0 ∨ s.readyTokens = 0 ∨ s.readyAdmissionClosed then none
  else some { s with readyTokens := s.readyTokens - 1, checkouts := s.checkouts + 1 }

/-- The application permit is there: `take_ready`, and the token is forgotten or
given back. -/
def checkout (capacity : Nat) (s : State) : Option State :=
  if s.checkouts = 0 then none
  else
    let taken := s.pool.takeReady capacity
    match taken.value with
    | (some name, pool) => some ({ s with
        pool
        checkouts := s.checkouts - 1
        leases := s.leases ++ [name] }.assert taken.asserts)
    | (none, pool) => some ({ s with
        pool
        checkouts := s.checkouts - 1
        readyTokens := s.readyTokens + 1 }.assert taken.asserts)

/-- A lease is returned in any of its three ways; the pool may be gone by then. -/
def giveUp (capacity : Nat) (s : State) (i : Nat) : Option State :=
  match s.leases[i]? with
  | some name =>
    if s.alive then
      let returned := s.pool.beginReturn capacity
      some ({ s with
        pool := returned.value
        leases := s.leases.eraseIdx i
        tasks := s.tasks ++ [Task.submitting name] }.assert returned.asserts)
    else some { s with
      leases := s.leases.eraseIdx i
      tasks := s.tasks ++ [.uncounted name] }
  | none => none

def answer (s : State) (i : Nat) (accepted : Bool) : Option State :=
  match s.tasks[i]? with
  | some (.submitting name) =>
    some (s.replace i [if accepted then .dropping name else .failing .refill .deleting])
  | _ => none

def dropReturns (s : State) (i : Nat) (gone : Bool) : Option State :=
  let left (name : Text) : State :=
    if gone then { s with existing := s.existing.erase name } else s
  match s.tasks[i]? with
  | some (.dropping name) =>
    some ((left name).replace i [if gone then .dropped else .failing .refill .deleting])
  | some (.surplus name) => some ((left name).replace i [.deleted])
  | some (.uncounted name) => some ((left name).replace i [])
  | _ => none

def afterDrop (capacity : Nat) (s : State) (i : Nat) : Option State :=
  match s.tasks[i]? with
  | some .dropped =>
    let after := s.pool.afterDrop capacity
    some (({ s with pool := after.value.2 }.replace i
      (if after.value.1 then [.reserved .refill] else [])).assert after.asserts)
  | _ => none

def finishDeletion (s : State) (i : Nat) : Option State :=
  match s.tasks[i]? with
  | some .deleted =>
    let finished := s.pool.finishDeletion
    some (({ s with pool := finished.value }.replace i []).assert finished.asserts)
  | _ => none

/-- A panic drops whatever the operation holds. -/
def unwind (s : State) (i : Nat) : Option State :=
  match s.tasks[i]? with
  | some (.dropping _) | some .dropped => some (s.replace i [.failing .refill .deleting])
  | some (.reserved .refill) | some (.attempting .refill _) | some (.made .refill _) =>
    some (s.replace i [.failing .refill .creating])
  | some (.surplus _) => some (s.replace i [.deleted])
  | _ => none

def step (capacity : Nat) (s : State) : Action → Option State
  | .beginCreation => s.beginCreation capacity
  | .gate i admitted name => s.gate i admitted name
  | .creationReturns i result => s.creationReturns i result
  | .cancelFilling i => s.cancelFilling i
  | .publish i => s.publish capacity i
  | .addToken i => s.addToken i
  | .queueDeletion i accepted => s.queueDeletion i accepted
  | .failPhase i => s.failPhase capacity i
  | .endFilling => if s.filling = .ending then some { s.releaseHandle with filling := .done } else none
  | .cloneHandle =>
    if s.filling ≠ .done ∨ s.publicHandles = 0 then none
    else some { s with publicHandles := s.publicHandles + 1 }
  | .dropHandle => if s.filling ≠ .done ∨ s.publicHandles = 0 then none else some s.releaseHandle
  | .callClose => if s.alive then some { s with pendingCloses := s.pendingCloses + 1 } else none
  | .beginClose => s.beginClose capacity
  | .closeSemaphores i => s.closeSemaphores i
  | .queueTaken i accepted => s.queueTaken i accepted
  | .finishClose i => s.finishClose i
  | .reserveToken => if s.filling = .done then s.reserveToken else none
  | .checkout => s.checkout capacity
  | .cancelCheckout =>
    if s.checkouts = 0 then none
    else some { s with checkouts := s.checkouts - 1, readyTokens := s.readyTokens + 1 }
  | .giveUp i => s.giveUp capacity i
  | .answer i accepted => s.answer i accepted
  | .dropReturns i gone => s.dropReturns i gone
  | .afterDrop i => s.afterDrop capacity i
  | .finishDeletion i => s.finishDeletion i
  | .unwind i => s.unwind i

end State

/-- What becomes of a task without the pool's mutex, and of the databases with it. -/
inductive Move : Task → List Task → List Text → List Text → List Text → List Text → Prop where
  | shut (origin : Origin) (e u : List Text) : Move (.reserved origin) origin.fail e e u u
  | pass (origin : Origin) (name : Text) (e u : List Text) (fresh : name ∉ u) :
      Move (.reserved origin) [.attempting origin name] e (name :: e) u (name :: u)
  | created (origin : Origin) (name : Text) (e u : List Text) (counted : origin ≠ .detached) :
      Move (.attempting origin name) [.made origin name] e e u u
  | stray (name : Text) (e u : List Text) :
      Move (.attempting .detached name) [.uncounted name] e e u u
  | ambiguous (origin : Origin) (name : Text) (e u : List Text) :
      Move (.attempting origin name) origin.fail e e u u
  | noResidual (origin : Origin) (name : Text) (e u : List Text) :
      Move (.attempting origin name) origin.fail e (e.erase name) u u
  | cancelReserved (e u : List Text) :
      Move (.reserved .filling) [.reserved .detached, .failing .filling .creating] e e u u
  | cancelAttempting (name : Text) (e u : List Text) :
      Move (.attempting .filling name) [.attempting .detached name, .failing .filling .creating] e e u u
  | cancelMade (name : Text) (e u : List Text) :
      Move (.made .filling name) [.uncounted name, .failing .filling .creating] e e u u
  | accepted (name : Text) (e u : List Text) : Move (.submitting name) [.dropping name] e e u u
  | rejected (name : Text) (e u : List Text) :
      Move (.submitting name) [.failing .refill .deleting] e e u u
  | gone (name : Text) (e u : List Text) : Move (.dropping name) [.dropped] e (e.erase name) u u
  | kept (name : Text) (e u : List Text) : Move (.dropping name) [.failing .refill .deleting] e e u u
  | surplusGone (name : Text) (e u : List Text) : Move (.surplus name) [.deleted] e (e.erase name) u u
  | surplusKept (name : Text) (e u : List Text) : Move (.surplus name) [.deleted] e e u u
  | uncountedGone (name : Text) (e u : List Text) : Move (.uncounted name) [] e (e.erase name) u u
  | uncountedKept (name : Text) (e u : List Text) : Move (.uncounted name) [] e e u u
  | unwindDropped (e u : List Text) : Move .dropped [.failing .refill .deleting] e e u u
  | unwindMade (name : Text) (e u : List Text) :
      Move (.made .refill name) [.failing .refill .creating] e e u u

/-- Every step of the pool, with its guard and its result. -/
inductive Transition (capacity : Nat) (s : State) : Action → State → Prop where
  | move (a : Action) (own : ∀ j accepted, a ≠ .queueTaken j accepted) (i : Nat) (x : Task)
      (next : List Task) (existing used : List Text)
      (task : s.tasks[i]? = some x) (rule : Move x next s.existing existing s.used used) :
      Transition capacity s a { s with existing, used, tasks := s.tasks.eraseIdx i ++ next }
  | filled (filling : s.filling = .next 0) : Transition capacity s .beginCreation { s with filling := .done }
  | refused (left : Nat) (filling : s.filling = .next (left + 1)) (held : Bool)
      (asserts : held = (s.pool.beginCreation capacity).asserts) :
      Transition capacity s .beginCreation { s with filling := .ending, assertsHeld := s.assertsHeld && held }
  | reserve (left : Nat) (filling : s.filling = .next (left + 1)) (opened : s.pool.accepting = true)
      (room : s.pool.occupiedSlots < capacity) (held : Bool)
      (asserts : held = (s.pool.beginCreation capacity).asserts) :
      Transition capacity s .beginCreation { s with
        pool := { s.pool with creating := s.pool.creating + 1 }
        filling := .busy left
        tasks := s.tasks ++ [.reserved .filling]
        assertsHeld := s.assertsHeld && held }
  | published (i : Nat) (origin : Origin) (name : Text) (task : s.tasks[i]? = some (.made origin name))
      (opened : s.pool.accepting = true) (fresh : s.pool.cleanupStarted = false)
      (pool : PrewarmPoolState)
      (result : pool = { s.pool with
        creating := s.pool.creating - 1, ready := s.pool.ready ++ [name] }) :
      Transition capacity s (.publish i) { s with
        pool
        tasks := s.tasks.eraseIdx i ++ [.pushed origin]
        assertsHeld := s.assertsHeld && (decide (0 < s.pool.creating) && pool.fits capacity) }
  | late (i : Nat) (origin : Origin) (name : Text) (task : s.tasks[i]? = some (.made origin name))
      (closed : ¬ (s.pool.accepting = true ∧ s.pool.cleanupStarted = false))
      (pool : PrewarmPoolState)
      (result : pool = { s.pool with
        creating := s.pool.creating - 1, deleting := s.pool.deleting + 1 }) :
      Transition capacity s (.publish i) { s with
        pool
        tasks := s.tasks.eraseIdx i ++ [if origin = .filling then .unqueued name else .surplus name]
        assertsHeld := s.assertsHeld && (decide (0 < s.pool.creating) && pool.fits capacity) }
  | addToken (i : Nat) (origin : Origin) (task : s.tasks[i]? = some (.pushed origin)) :
      Transition capacity s (.addToken i) { s with
        readyTokens := s.readyTokens + 1
        filling := if origin = .filling then s.filling.goOn else s.filling
        tasks := s.tasks.eraseIdx i ++ [] }
  | queueDeletion (i : Nat) (name : Text) (accepted : Bool)
      (task : s.tasks[i]? = some (.unqueued name)) :
      Transition capacity s (.queueDeletion i accepted) { s with
        filling := s.filling.goOn
        tasks := s.tasks.eraseIdx i ++ [if accepted then .surplus name else .deleted] }
  | failPhase (i : Nat) (origin : Origin) (phase : PrewarmReturnPhase)
      (task : s.tasks[i]? = some (.failing origin phase)) :
      Transition capacity s (.failPhase i) { s with
        pool := (s.pool.failAndBeginCleanup phase capacity).value.2
        closers := s.closers ++
          [.begun ((s.pool.failAndBeginCleanup phase capacity).value.1.getD [])]
        filling := if origin = .filling then .ending else s.filling
        tasks := s.tasks.eraseIdx i ++ []
        assertsHeld := s.assertsHeld && (s.pool.failAndBeginCleanup phase capacity).asserts }
  | endFilling (filling : s.filling = .ending) :
      Transition capacity s .endFilling { s.releaseHandle with filling := .done }
  | cloneHandle (filling : s.filling = .done) (handle : 0 < s.publicHandles) :
      Transition capacity s .cloneHandle { s with publicHandles := s.publicHandles + 1 }
  | dropHandle (filling : s.filling = .done) (handle : 0 < s.publicHandles) :
      Transition capacity s .dropHandle s.releaseHandle
  | callClose (alive : s.alive = true) :
      Transition capacity s .callClose { s with pendingCloses := s.pendingCloses + 1 }
  | beginClose (pending : 0 < s.pendingCloses) :
      Transition capacity s .beginClose { s with
        pool := (s.pool.beginCleanup capacity).value.2
        pendingCloses := s.pendingCloses - 1
        closers := s.closers ++ [.begun ((s.pool.beginCleanup capacity).value.1.getD [])]
        assertsHeld := s.assertsHeld && (s.pool.beginCleanup capacity).asserts }
  | closeSemaphores (i : Nat) (ready : List Text) (closer : s.closers[i]? = some (.begun ready)) :
      Transition capacity s (.closeSemaphores i) { s with
        readyAdmissionClosed := true
        closers := s.closers.set i (.queueing ready) }
  | queueTaken (i : Nat) (name : Text) (rest : List Text) (accepted : Bool)
      (closer : s.closers[i]? = some (.queueing (name :: rest))) :
      Transition capacity s (.queueTaken i accepted) { s with
        closers := s.closers.set i (.queueing rest)
        tasks := s.tasks ++ [if accepted then .surplus name else .deleted] }
  | finishClose (i : Nat) (closer : s.closers[i]? = some (.queueing [])) :
      Transition capacity s (.finishClose i) { s with closers := s.closers.set i .finished }
  | reserveToken (filling : s.filling = .done) (handle : 0 < s.publicHandles)
      (token : 0 < s.readyTokens) (opened : s.readyAdmissionClosed = false) :
      Transition capacity s .reserveToken { s with
        readyTokens := s.readyTokens - 1, checkouts := s.checkouts + 1 }
  | lease (name : Text) (rest : List Text) (checkout : 0 < s.checkouts)
      (opened : s.pool.accepting = true) (ready : s.pool.ready = name :: rest)
      (pool : PrewarmPoolState)
      (result : pool = { s.pool with ready := rest, leased := s.pool.leased + 1 }) :
      Transition capacity s .checkout { s with
        pool
        checkouts := s.checkouts - 1
        leases := s.leases ++ [name]
        assertsHeld := s.assertsHeld && pool.fits capacity }
  | noLease (checkout : 0 < s.checkouts) (held : Bool) (asserts : held = true) :
      Transition capacity s .checkout { s with
        checkouts := s.checkouts - 1
        readyTokens := s.readyTokens + 1
        assertsHeld := s.assertsHeld && held }
  | cancelCheckout (checkout : 0 < s.checkouts) :
      Transition capacity s .cancelCheckout { s with
        checkouts := s.checkouts - 1, readyTokens := s.readyTokens + 1 }
  | giveUp (i : Nat) (name : Text) (lease : s.leases[i]? = some name) (alive : s.alive = true)
      (pool : PrewarmPoolState)
      (result : pool = { s.pool with
        leased := s.pool.leased - 1, deleting := s.pool.deleting + 1 }) :
      Transition capacity s (.giveUp i) { s with
        pool
        leases := s.leases.eraseIdx i
        tasks := s.tasks ++ [.submitting name]
        assertsHeld := s.assertsHeld && (decide (0 < s.pool.leased) && pool.fits capacity) }
  | giveUpAlone (i : Nat) (name : Text) (lease : s.leases[i]? = some name)
      (gone : s.alive = false) :
      Transition capacity s (.giveUp i) { s with
        leases := s.leases.eraseIdx i
        tasks := s.tasks ++ [.uncounted name] }
  | refill (i : Nat) (task : s.tasks[i]? = some .dropped) (opened : s.pool.accepting = true)
      (fresh : s.pool.cleanupStarted = false) (pool : PrewarmPoolState)
      (result : pool = { s.pool with
        deleting := s.pool.deleting - 1, creating := s.pool.creating + 1 }) :
      Transition capacity s (.afterDrop i) { s with
        pool
        tasks := s.tasks.eraseIdx i ++ [.reserved .refill]
        assertsHeld := s.assertsHeld && (decide (0 < s.pool.deleting) && pool.fits capacity) }
  | noRefill (i : Nat) (task : s.tasks[i]? = some .dropped)
      (closed : ¬ (s.pool.accepting = true ∧ s.pool.cleanupStarted = false)) :
      Transition capacity s (.afterDrop i) { s with
        pool := { s.pool with deleting := s.pool.deleting - 1 }
        tasks := s.tasks.eraseIdx i ++ []
        assertsHeld := s.assertsHeld && decide (0 < s.pool.deleting) }
  | finishDeletion (i : Nat) (task : s.tasks[i]? = some .deleted) :
      Transition capacity s (.finishDeletion i) { s with
        pool := { s.pool with deleting := s.pool.deleting - 1 }
        tasks := s.tasks.eraseIdx i ++ []
        assertsHeld := s.assertsHeld && decide (0 < s.pool.deleting) }

section Transition
variable {capacity : Nat} {s t : State} {i : Nat} {accepted : Bool}

/-- One task moves, and nothing else does. -/
theorem Move.transition {a : Action} {x : Task} {next : List Task} {existing used : List Text}
    (own : ∀ j accepted, a ≠ .queueTaken j accepted) (task : s.tasks[i]? = some x)
    (rule : Move x next s.existing existing s.used used)
    (result : t = { s with existing, used, tasks := s.tasks.eraseIdx i ++ next }) : Transition capacity s a t := by
  obtain rfl := result
  exact .move a own i x next existing used task rule

theorem beginCreation_transition (h : s.beginCreation capacity = some t) :
    Transition capacity s .beginCreation t := by
  simp only [State.beginCreation] at h
  split at h
  · rename_i filling
    cases h
    exact .filled filling
  · rename_i left filling
    split at h
    · cases h
      exact .refused left filling _ rfl
    · rename_i pool ok
      cases h
      obtain ⟨hopened, hroom, rfl⟩ := PrewarmPoolState.beginCreation_ok ok
      exact .reserve left filling hopened hroom _ rfl
  · cases h

theorem gate_transition {admitted : Bool} {name : Text} (h : s.gate i admitted name = some t) :
    Transition capacity s (.gate i admitted name) t := by
  rw [State.gate] at h
  split at h
  · rename_i origin task
    split at h
    · cases h
      exact Move.transition nofun task (.shut origin _ _) rfl
    · split at h
      · cases h
      · rename_i fresh
        cases h
        exact Move.transition nofun task (.pass origin name _ _ fresh) rfl
  · cases h

theorem creationReturns_transition {result : Option Bool} (h : s.creationReturns i result = some t) :
    Transition capacity s (.creationReturns i result) t := by
  rw [State.creationReturns] at h
  split at h
  · rename_i origin name task
    split at h
    · split at h
      · rename_i detached
        subst detached
        cases h
        exact Move.transition nofun task (.stray name _ _) rfl
      · rename_i counted
        cases h
        exact Move.transition nofun task (.created origin name _ _ counted) rfl
    · cases h
      exact Move.transition nofun task (.ambiguous origin name _ _) rfl
    · cases h
      exact Move.transition nofun task (.noResidual origin name _ _) rfl
  · cases h

theorem cancelFilling_transition (h : s.cancelFilling i = some t) :
    Transition capacity s (.cancelFilling i) t := by
  rw [State.cancelFilling] at h
  split at h
  · rename_i task
    cases h
    exact Move.transition nofun task (.cancelReserved _ _) rfl
  · rename_i name task
    cases h
    exact Move.transition nofun task (.cancelAttempting name _ _) rfl
  · rename_i name task
    cases h
    exact Move.transition nofun task (.cancelMade name _ _) rfl
  · cases h

theorem publish_transition (h : s.publish capacity i = some t) : Transition capacity s (.publish i) t := by
  rw [State.publish] at h
  split at h
  · rename_i origin name task
    by_cases hopened : s.pool.accepting = true ∧ s.pool.cleanupStarted = false
    · simp only [PrewarmPoolState.finishCreation, if_pos hopened, if_true, Option.some.injEq] at h
      subst h
      exact .published i origin name task hopened.1 hopened.2 _ rfl
    · simp only [PrewarmPoolState.finishCreation, if_neg hopened, Bool.false_eq_true, if_false,
        Option.some.injEq] at h
      subst h
      have : Transition capacity s (.publish i) _ := .late i origin name task hopened _ rfl
      split <;> simp_all [State.replace, State.assert]
  · cases h

theorem addToken_transition (h : s.addToken i = some t) : Transition capacity s (.addToken i) t := by
  rw [State.addToken] at h
  split at h
  · rename_i origin task
    cases h
    exact .addToken i origin task
  · cases h

theorem queueDeletion_transition (h : s.queueDeletion i accepted = some t) :
    Transition capacity s (.queueDeletion i accepted) t := by
  rw [State.queueDeletion] at h
  split at h
  · rename_i name task
    cases h
    exact .queueDeletion i name accepted task
  · cases h

theorem failPhase_transition (h : s.failPhase capacity i = some t) :
    Transition capacity s (.failPhase i) t := by
  rw [State.failPhase] at h
  split at h
  · rename_i origin phase task
    cases h
    exact .failPhase i origin phase task
  · cases h

theorem beginClose_transition (h : s.beginClose capacity = some t) : Transition capacity s .beginClose t := by
  rw [State.beginClose] at h
  split at h
  · cases h
  · rename_i pending
    cases h
    exact .beginClose (Nat.pos_of_ne_zero pending)

theorem closeSemaphores_transition (h : s.closeSemaphores i = some t) :
    Transition capacity s (.closeSemaphores i) t := by
  rw [State.closeSemaphores] at h
  split at h
  · rename_i ready closer
    cases h
    exact .closeSemaphores i ready closer
  · cases h

theorem queueTaken_transition (h : s.queueTaken i accepted = some t) :
    Transition capacity s (.queueTaken i accepted) t := by
  rw [State.queueTaken] at h
  split at h
  · rename_i name rest closer
    cases h
    exact .queueTaken i name rest accepted closer
  · cases h

theorem finishClose_transition (h : s.finishClose i = some t) : Transition capacity s (.finishClose i) t := by
  rw [State.finishClose] at h
  split at h
  · rename_i closer
    cases h
    exact .finishClose i closer
  · cases h

theorem reserveToken_transition (filling : s.filling = .done) (h : s.reserveToken = some t) :
    Transition capacity s .reserveToken t := by
  rw [State.reserveToken] at h
  split at h
  · cases h
  · rename_i hguard
    simp only [not_or, Bool.not_eq_true] at hguard
    cases h
    exact .reserveToken filling (Nat.pos_of_ne_zero hguard.1) (Nat.pos_of_ne_zero hguard.2.1)
      hguard.2.2

theorem checkout_transition (h : s.checkout capacity = some t) : Transition capacity s .checkout t := by
  rw [State.checkout] at h
  split at h
  · cases h
  · rename_i hguard
    have checkout := Nat.pos_of_ne_zero hguard
    by_cases hclosed : s.pool.accepting = false
    · simp only [PrewarmPoolState.takeReady, if_pos hclosed, Option.some.injEq] at h
      subst h
      exact .noLease checkout true rfl
    · simp only [PrewarmPoolState.takeReady, if_neg hclosed] at h
      cases hready : s.pool.ready with
      | nil =>
        simp only [hready, Option.some.injEq] at h
        subst h
        exact .noLease checkout true rfl
      | cons name rest =>
        simp only [hready, Option.some.injEq] at h
        subst h
        exact .lease name rest checkout (Bool.not_eq_false _ ▸ hclosed) hready _ rfl

theorem giveUp_transition (h : s.giveUp capacity i = some t) : Transition capacity s (.giveUp i) t := by
  rw [State.giveUp] at h
  split at h
  · rename_i name lease
    split at h
    · rename_i alive
      cases h
      exact .giveUp i name lease alive _ rfl
    · rename_i gone
      cases h
      exact .giveUpAlone i name lease (Bool.not_eq_true _ ▸ gone)
  · cases h

theorem answer_transition (h : s.answer i accepted = some t) :
    Transition capacity s (.answer i accepted) t := by
  rw [State.answer] at h
  split at h
  · rename_i name task
    cases accepted <;> cases h
    · exact Move.transition nofun task (.rejected name _ _) rfl
    · exact Move.transition nofun task (.accepted name _ _) rfl
  · cases h

theorem dropReturns_transition {gone : Bool} (h : s.dropReturns i gone = some t) :
    Transition capacity s (.dropReturns i gone) t := by
  rw [State.dropReturns] at h
  split at h
  · rename_i name task
    cases gone <;> cases h
    · exact Move.transition nofun task (.kept name _ _) rfl
    · exact Move.transition nofun task (.gone name _ _) rfl
  · rename_i name task
    cases gone <;> cases h
    · exact Move.transition nofun task (.surplusKept name _ _) rfl
    · exact Move.transition nofun task (.surplusGone name _ _) rfl
  · rename_i name task
    cases gone <;> cases h
    · exact Move.transition nofun task (.uncountedKept name _ _) rfl
    · exact Move.transition nofun task (.uncountedGone name _ _) rfl
  · cases h

theorem afterDrop_transition (h : s.afterDrop capacity i = some t) :
    Transition capacity s (.afterDrop i) t := by
  rw [State.afterDrop] at h
  split at h
  · rename_i task
    by_cases hopened : s.pool.accepting = true ∧ s.pool.cleanupStarted = false
    · simp only [PrewarmPoolState.afterDrop, if_pos hopened, if_true, Option.some.injEq] at h
      subst h
      exact .refill i task hopened.1 hopened.2 _ rfl
    · simp only [PrewarmPoolState.afterDrop, if_neg hopened, Bool.false_eq_true, if_false,
        Option.some.injEq] at h
      subst h
      exact .noRefill i task hopened
  · cases h

theorem finishDeletion_transition (h : s.finishDeletion i = some t) :
    Transition capacity s (.finishDeletion i) t := by
  rw [State.finishDeletion] at h
  split at h
  · rename_i task
    cases h
    exact .finishDeletion i task
  · cases h

theorem unwind_transition (h : s.unwind i = some t) : Transition capacity s (.unwind i) t := by
  rw [State.unwind] at h
  split at h
  · rename_i name task
    cases h
    exact Move.transition nofun task (.kept name _ _) rfl
  · rename_i task
    cases h
    exact Move.transition nofun task (.unwindDropped _ _) rfl
  · rename_i task
    cases h
    exact Move.transition nofun task (.shut .refill _ _) rfl
  · rename_i name task
    cases h
    exact Move.transition nofun task (.ambiguous .refill name _ _) rfl
  · rename_i name task
    cases h
    exact Move.transition nofun task (.unwindMade name _ _) rfl
  · rename_i name task
    cases h
    exact Move.transition nofun task (.surplusKept name _ _) rfl
  · cases h

end Transition

/-- A step is one of the transitions. -/
theorem step_transition (capacity : Nat) (s t : State) (a : Action)
    (h : s.step capacity a = some t) : Transition capacity s a t := by
  cases a with
  | beginCreation => exact beginCreation_transition h
  | gate i admitted name => exact gate_transition h
  | creationReturns i result => exact creationReturns_transition h
  | cancelFilling i => exact cancelFilling_transition h
  | publish i => exact publish_transition h
  | addToken i => exact addToken_transition h
  | queueDeletion i accepted => exact queueDeletion_transition h
  | failPhase i => exact failPhase_transition h
  | endFilling =>
    simp only [State.step] at h
    split at h
    · rename_i filling
      cases h
      exact .endFilling filling
    · cases h
  | cloneHandle =>
    simp only [State.step] at h
    split at h
    · cases h
    · rename_i hguard
      rw [not_or, not_not] at hguard
      cases h
      exact .cloneHandle hguard.1 (Nat.pos_of_ne_zero hguard.2)
  | dropHandle =>
    simp only [State.step] at h
    split at h
    · cases h
    · rename_i hguard
      rw [not_or, not_not] at hguard
      cases h
      exact .dropHandle hguard.1 (Nat.pos_of_ne_zero hguard.2)
  | callClose =>
    simp only [State.step] at h
    split at h
    · rename_i alive
      cases h
      exact .callClose alive
    · cases h
  | beginClose => exact beginClose_transition h
  | closeSemaphores i => exact closeSemaphores_transition h
  | queueTaken i accepted => exact queueTaken_transition h
  | finishClose i => exact finishClose_transition h
  | reserveToken =>
    simp only [State.step] at h
    split at h
    · rename_i filling
      exact reserveToken_transition filling h
    · cases h
  | checkout => exact checkout_transition h
  | cancelCheckout =>
    simp only [State.step] at h
    split at h
    · cases h
    · rename_i checkout
      cases h
      exact .cancelCheckout (Nat.pos_of_ne_zero checkout)
  | giveUp i => exact giveUp_transition h
  | answer i accepted => exact answer_transition h
  | dropReturns i gone => exact dropReturns_transition h
  | afterDrop i => exact afterDrop_transition h
  | finishDeletion i => exact finishDeletion_transition h
  | unwind i => exact unwind_transition h

def machine (capacity : Nat) : Machine State Action where
  initial := fun s => s = State.initial capacity
  step := State.step capacity

end PostgresTestHarness.Prewarm
