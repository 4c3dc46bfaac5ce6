import PostgresTestHarness.Error
import PostgresTestHarness.Library.Machine

/-! `AdminSessionPool`: at most `max_size` sessions for lifecycle work.

A step is one critical section, or what one call does between two of them: it resets a
reused session, connects, runs its operation. A wait at the condition variable ends with a
notification, with the deadline or for no reason; either way the waiter locks the state
again and looks. A session is a number. -/
namespace PostgresTestHarness.AdminPool

structure Config where
  maxSize : Nat
  /-- In milliseconds. -/
  operationTimeout : Nat

/-- What the pool makes of `max_size`. -/
def Config.size (cfg : Config) : Nat := max cfg.maxSize 1

/-- How an operation ends: `AdminSessionDisposition`, or a panic. -/
inductive Disposition where
  | reuse
  | evict
  | panics
  deriving DecidableEq, Repr

/-- Where a call of `execute_with_disposition` is. -/
inductive Stage where
  /-- Before it locks the state in `acquire_checkout`. -/
  | locking
  /-- In `wait_timeout`, the state unlocked. -/
  | parked
  /-- Notified, before it has the state again. -/
  | woken
  /-- Its wait ended without a notification. -/
  | expired
  /-- `prepare_reused_lifecycle_session`. -/
  | resetting (client : Nat)
  /-- The reset failed and the client is dropped; before `release_slot`. -/
  | resetFailed
  /-- After it, before the deadline is looked at. -/
  | released
  /-- `AdminClient::connect` and `prepare_new_lifecycle_session`. -/
  | connecting
  | connectFailed (error : Error)
  | operating (client : Nat)
  /-- The operation is over; before `Drop for AdminSession` locks the state. -/
  | returning (client : Nat) (disposition : Disposition)
  | finished
  | failed (error : Error)
  /-- A `checked_sub` failed. -/
  | panicked
  deriving DecidableEq, Repr

/-- `elapsed` is what `Deadline` says. -/
structure Checkout where
  stage : Stage
  elapsed : Bool
  deriving DecidableEq, Repr

structure State where
  /-- Newest first. -/
  idle : List Nat
  total : Nat
  closed : Bool
  /-- A panic hit a thread that had the state locked. -/
  poisoned : Bool
  checkouts : List Checkout
  nextClient : Nat
  deriving Repr

inductive Action where
  | execute
  /-- The deadline of a call passes. -/
  | elapse (call : Nat)
  | acquire (call : Nat)
  | endWait (call : Nat)
  | reset (call : Nat) (succeeds : Bool)
  /-- `release_slot` after a reset or a connection that failed; it wakes `waiter`. -/
  | release (call : Nat) (waiter : Option Nat)
  | checkDeadline (call : Nat)
  | connect (call : Nat) (result : Except Error Unit)
  | operation (call : Nat) (disposition : Disposition)
  | giveBack (call : Nat) (waiter : Option Nat)
  | close
  deriving Repr

def checkedSub (a b : Nat) : Option Nat := if b ≤ a then some (a - b) else none

def Checkout.notified (c : Checkout) : Checkout :=
  if c.stage = .parked then { c with stage := .woken } else c

namespace State

def initial : State := ⟨[], 0, false, false, [], 0⟩

def move (s : State) (i : Nat) (c : Checkout) : State := { s with checkouts := s.checkouts.set i c }

/-- `notify_one`: it wakes one of the parked waiters, whichever. -/
def notifyOne (s : State) (waiter : Option Nat) : Option State :=
  match waiter with
  | none => if s.checkouts.any fun c => c.stage == .parked then none else some s
  | some j =>
    match s.checkouts[j]? with
    | some ⟨.parked, elapsed⟩ => some (s.move j ⟨.woken, elapsed⟩)
    | _ => none

/-- The loop of `acquire_checkout`, up to a result or to `wait_timeout`. -/
def acquire (cfg : Config) (s : State) (i : Nat) : Option State :=
  match s.checkouts[i]? with
  | some ⟨stage, elapsed⟩ =>
    if stage = .locking ∨ stage = .woken ∨ stage = .expired then
      some (
        if s.poisoned then
          s.move i ⟨.failed (.statePoisoned (if stage = .locking
            then "lock disposable admin-session pool".toList
            else "wait for disposable admin session".toList)), elapsed⟩
        else if s.closed then s.move i ⟨.failed .adminSessionPoolClosed, elapsed⟩
        else
          match s.idle with
          | client :: rest => { s.move i ⟨.resetting client, elapsed⟩ with idle := rest }
          | [] =>
            if s.total < cfg.size then { s.move i ⟨.connecting, elapsed⟩ with total := s.total + 1 }
            else if elapsed then
              s.move i ⟨.failed (.adminSessionCheckoutTimeout cfg.operationTimeout), elapsed⟩
            else s.move i ⟨.parked, elapsed⟩)
    else none
  | none => none

/-- `release_slot`, and what comes after it. -/
def releaseSlot (s : State) (i : Nat) (next : Checkout) (waiter : Option Nat) : Option State :=
  match checkedSub s.total 1 with
  | none => some { s.move i { next with stage := .panicked } with poisoned := true }
  | some total => ({ s.move i next with total } : State).notifyOne waiter

/-- `Drop for AdminSession`. -/
def giveBack (s : State) (i : Nat) (waiter : Option Nat) : Option State :=
  match s.checkouts[i]? with
  | some ⟨.returning client disposition, elapsed⟩ =>
    if disposition = .reuse ∧ s.closed = false then
      ({ s.move i ⟨.finished, elapsed⟩ with idle := client :: s.idle } : State).notifyOne waiter
    else s.releaseSlot i ⟨.finished, elapsed⟩ waiter
  | _ => none

def close (s : State) : State :=
  match checkedSub s.total s.idle.length with
  | none => { s with closed := true, poisoned := true }
  | some total => { s with
      closed := true
      total
      idle := []
      checkouts := s.checkouts.map Checkout.notified }

def step (cfg : Config) (s : State) : Action → Option State
  | .execute => some { s with checkouts := s.checkouts ++ [⟨.locking, false⟩] }
  | .elapse i =>
    match s.checkouts[i]? with
    | some c => some (s.move i { c with elapsed := true })
    | none => none
  | .acquire i => s.acquire cfg i
  | .endWait i =>
    match s.checkouts[i]? with
    | some ⟨.parked, elapsed⟩ => some (s.move i ⟨.expired, elapsed⟩)
    | _ => none
  | .reset i succeeds =>
    match s.checkouts[i]? with
    | some ⟨.resetting client, elapsed⟩ =>
      some (s.move i ⟨if succeeds then .operating client else .resetFailed, elapsed⟩)
    | _ => none
  | .release i waiter =>
    match s.checkouts[i]? with
    | some ⟨.resetFailed, elapsed⟩ => s.releaseSlot i ⟨.released, elapsed⟩ waiter
    | some ⟨.connectFailed error, elapsed⟩ => s.releaseSlot i ⟨.failed error, elapsed⟩ waiter
    | _ => none
  | .checkDeadline i =>
    match s.checkouts[i]? with
    | some ⟨.released, elapsed⟩ => some (s.move i
        ⟨if elapsed then .failed (.adminSessionCheckoutTimeout cfg.operationTimeout) else .locking, elapsed⟩)
    | _ => none
  | .connect i result =>
    match s.checkouts[i]?, result with
    | some ⟨.connecting, elapsed⟩, .ok () =>
      some { s.move i ⟨.operating s.nextClient, elapsed⟩ with nextClient := s.nextClient + 1 }
    | some ⟨.connecting, elapsed⟩, .error error => some (s.move i ⟨.connectFailed error, elapsed⟩)
    | _, _ => none
  | .operation i disposition =>
    match s.checkouts[i]? with
    | some ⟨.operating client, elapsed⟩ => some (s.move i ⟨.returning client disposition, elapsed⟩)
    | _ => none
  | .giveBack i waiter => s.giveBack i waiter
  | .close => some s.close

end State

def machine (cfg : Config) : Machine State Action where
  initial s := s = State.initial
  step := State.step cfg

end PostgresTestHarness.AdminPool
