import PostgresTestHarness.Prewarm.System

/-! The shutdown of an owned server with any number of prewarm pools.

`shutdown_container` closes admission, takes the list of registered pools, closes them
one after the other and then closes the cleanup queue. Any number of calls overlap, with
the pools' own steps in between. The registry holds weak references; the pools are
numbered in the order of their registration. `idled` and `accepted` record what the pools
held when they were closed and which of it the queue took. -/
namespace PostgresTestHarness.Shutdown

structure Pool where
  capacity : Nat
  state : Prewarm.State

/-- Where a `shutdown_container` call is. -/
inductive Call where
  | called
  /-- Admission is closed; the registry is still to be taken. -/
  | admissionClosed
  /-- The pools it has still to upgrade. -/
  | closing (rest : List Nat)
  /-- It holds this pool, whose state it has not locked. -/
  | upgraded (pool : Nat) (rest : List Nat)
  /-- Its closer of this pool is at work. -/
  | queueing (pool closer : Nat) (rest : List Nat)
  | finished
  deriving DecidableEq, Repr

structure State where
  admissionClosed : Bool
  registry : List Nat
  pools : List Pool
  calls : List Call
  queueClosed : Bool
  /-- Databases that were idle when their pool was closed. -/
  idled : List (Nat × Text)
  /-- Those whose deletion the queue has accepted. -/
  accepted : List (Nat × Text)

inductive Action where
  /-- Something else closes the admission gate. -/
  | failClosed
  | registerPrewarmPool (capacity : Nat)
  | pool (pool : Nat) (action : Prewarm.Action)
  | shutdown
  | closeAdmission (call : Nat)
  | takePools (call : Nat)
  | upgrade (call : Nat)
  | beginPoolClose (call : Nat)
  | poolClosed (call : Nat)
  | closeQueue (call : Nat)
  deriving Repr

/-- The idle databases a step takes for deletion. -/
def idles (s t : Prewarm.State) : List Text :=
  if s.pool.cleanupStarted = false ∧ t.pool.cleanupStarted = true then s.pool.ready else []

/-- The idle database whose deletion a step gets accepted. -/
def accepts (s : Prewarm.State) : Prewarm.Action → List Text
  | .queueTaken i true =>
    match s.closers[i]? with
    | some (.queueing (name :: _)) => [name]
    | _ => []
  | _ => []

def Call.holds (p : Nat) : Call → Bool
  | .upgraded pool _ => decide (pool = p)
  | _ => false

namespace State

def initial : State := ⟨false, [], [], [], false, [], []⟩

def alive (s : State) (p : Nat) : Bool := s.pools[p]?.any fun pool => pool.state.alive

/-- `register_prewarm_pool`; a pool that is refused is never used. -/
def registerPrewarmPool (s : State) (capacity : Nat) : State :=
  if s.admissionClosed then s
  else { s with
    registry := s.registry.filter s.alive ++ [s.pools.length]
    pools := s.pools ++ [⟨capacity, .initial capacity⟩] }

/-- A step of a pool. -/
def advance (s : State) (p : Nat) (a : Prewarm.Action) : Option State :=
  match s.pools[p]? with
  | none => none
  | some pool =>
    match pool.state.step pool.capacity a with
    | none => none
    | some next => some { s with
        pools := s.pools.set p { pool with state := next }
        idled := s.idled ++ (idles pool.state next).map fun name => (p, name)
        accepted := s.accepted ++ (accepts pool.state a).map fun name => (p, name) }

/-- The gate and the queue answer as they stand, and the calls close their pools
themselves. -/
def allows (s : State) (p : Nat) : Prewarm.Action → Bool
  | .gate _ admitted _ => !(admitted && s.admissionClosed)
  | .queueTaken _ accepted | .queueDeletion _ accepted | .answer _ accepted =>
    accepted == !s.queueClosed
  | .beginClose =>
    s.pools[p]?.any fun pool => decide (s.calls.countP (Call.holds p) < pool.state.pendingCloses)
  | _ => true

def moveCall (s : State) (c : Nat) (call : Call) : State := { s with calls := s.calls.set c call }

def closeAdmission (s : State) (c : Nat) : Option State :=
  match s.calls[c]? with
  | some .called => some ({ s with admissionClosed := true }.moveCall c .admissionClosed)
  | _ => none

/-- `mem::take` of the registry. -/
def takePools (s : State) (c : Nat) : Option State :=
  match s.calls[c]? with
  | some .admissionClosed => some ({ s with registry := [] }.moveCall c (.closing s.registry))
  | _ => none

def upgrade (s : State) (c : Nat) : Option State :=
  match s.calls[c]? with
  | some (.closing (p :: rest)) =>
    if s.alive p then (s.advance p .callClose).map fun t => t.moveCall c (.upgraded p rest)
    else some (s.moveCall c (.closing rest))
  | _ => none

def beginPoolClose (s : State) (c : Nat) : Option State :=
  match s.calls[c]? with
  | some (.upgraded p rest) =>
    match s.pools[p]? with
    | some pool => (s.advance p .beginClose).map fun t =>
        t.moveCall c (.queueing p pool.state.closers.length rest)
    | none => none
  | _ => none

def poolClosed (s : State) (c : Nat) : Option State :=
  match s.calls[c]? with
  | some (.queueing p k rest) =>
    match s.pools[p]? with
    | some pool =>
      if pool.state.closers[k]? = some .finished then some (s.moveCall c (.closing rest)) else none
    | none => none
  | _ => none

/-- `close_and_begin_drain`, once every pool of the list is done. -/
def closeQueue (s : State) (c : Nat) : Option State :=
  match s.calls[c]? with
  | some (.closing []) => some ({ s with queueClosed := true }.moveCall c .finished)
  | _ => none

def step (s : State) : Action → Option State
  | .failClosed => some { s with admissionClosed := true }
  | .registerPrewarmPool capacity => some (s.registerPrewarmPool capacity)
  | .pool p a => if s.allows p a then s.advance p a else none
  | .shutdown => some { s with calls := s.calls ++ [.called] }
  | .closeAdmission c => s.closeAdmission c
  | .takePools c => s.takePools c
  | .upgrade c => s.upgrade c
  | .beginPoolClose c => s.beginPoolClose c
  | .poolClosed c => s.poolClosed c
  | .closeQueue c => s.closeQueue c

end State

/-- What a step of the server does to its pools. -/
structure Advanced (s t : State) (p : Nat) (a : Prewarm.Action) (pool : Pool)
    (next : Prewarm.State) : Prop where
  found : s.pools[p]? = some pool
  stepped : pool.state.step pool.capacity a = some next
  result : t = { s with
    pools := s.pools.set p { pool with state := next }
    idled := s.idled ++ (idles pool.state next).map fun name => (p, name)
    accepted := s.accepted ++ (accepts pool.state a).map fun name => (p, name) }

theorem advance_some {s t : State} {p : Nat} {a : Prewarm.Action} (h : s.advance p a = some t) :
    ∃ pool next, Advanced s t p a pool next := by
  unfold State.advance at h
  split at h
  · cases h
  · rename_i pool found
    split at h
    · cases h
    · rename_i next stepped
      cases h
      exact ⟨pool, next, found, stepped, rfl⟩

/-- Every step of the server, with its guard and its result. -/
inductive Transition (s : State) : Action → State → Prop where
  | failClosed : Transition s .failClosed { s with admissionClosed := true }
  | refused (capacity : Nat) (closed : s.admissionClosed = true) :
      Transition s (.registerPrewarmPool capacity) s
  | registered (capacity : Nat) (opened : s.admissionClosed = false) :
      Transition s (.registerPrewarmPool capacity) { s with
        registry := s.registry.filter s.alive ++ [s.pools.length]
        pools := s.pools ++ [⟨capacity, .initial capacity⟩] }
  | pool (p : Nat) (a : Prewarm.Action) (t : State) (pool : Pool) (next : Prewarm.State)
      (allowed : s.allows p a = true) (advanced : Advanced s t p a pool next) :
      Transition s (.pool p a) t
  | shutdown : Transition s .shutdown { s with calls := s.calls ++ [.called] }
  | closeAdmission (c : Nat) (call : s.calls[c]? = some .called) :
      Transition s (.closeAdmission c) { s with
        admissionClosed := true
        calls := s.calls.set c .admissionClosed }
  | takePools (c : Nat) (call : s.calls[c]? = some .admissionClosed) :
      Transition s (.takePools c) { s with
        registry := []
        calls := s.calls.set c (.closing s.registry) }
  | upgrade (c p : Nat) (rest : List Nat) (t : State) (pool : Pool) (next : Prewarm.State)
      (call : s.calls[c]? = some (.closing (p :: rest))) (advanced : Advanced s t p .callClose pool next) :
      Transition s (.upgrade c) (t.moveCall c (.upgraded p rest))
  | expired (c p : Nat) (rest : List Nat) (call : s.calls[c]? = some (.closing (p :: rest)))
      (gone : s.alive p = false) : Transition s (.upgrade c) (s.moveCall c (.closing rest))
  | beginPoolClose (c p : Nat) (rest : List Nat) (t : State) (pool : Pool) (next : Prewarm.State)
      (call : s.calls[c]? = some (.upgraded p rest)) (advanced : Advanced s t p .beginClose pool next) :
      Transition s (.beginPoolClose c) (t.moveCall c (.queueing p pool.state.closers.length rest))
  | poolClosed (c p k : Nat) (rest : List Nat) (pool : Pool)
      (call : s.calls[c]? = some (.queueing p k rest)) (found : s.pools[p]? = some pool)
      (done : pool.state.closers[k]? = some .finished) :
      Transition s (.poolClosed c) (s.moveCall c (.closing rest))
  | closeQueue (c : Nat) (call : s.calls[c]? = some (.closing [])) :
      Transition s (.closeQueue c) { s with
        queueClosed := true
        calls := s.calls.set c .finished }

/-- A step is one of the transitions. -/
theorem step_transition (s t : State) (a : Action) (h : s.step a = some t) : Transition s a t := by
  cases a with
  | failClosed =>
    cases h
    exact .failClosed
  | registerPrewarmPool capacity =>
    simp only [State.step, State.registerPrewarmPool, Option.some.injEq] at h
    split at h
    · rename_i closed
      subst h
      exact .refused capacity closed
    · rename_i opened
      subst h
      exact .registered capacity (Bool.not_eq_true _ ▸ opened)
  | pool p a =>
    simp only [State.step] at h
    split at h
    · rename_i allowed
      obtain ⟨pool, next, advanced⟩ := advance_some h
      exact .pool p a t pool next allowed advanced
    · cases h
  | shutdown =>
    cases h
    exact .shutdown
  | closeAdmission c =>
    simp only [State.step, State.closeAdmission] at h
    split at h
    · rename_i call
      cases h
      exact .closeAdmission c call
    · cases h
  | takePools c =>
    simp only [State.step, State.takePools] at h
    split at h
    · rename_i call
      cases h
      exact .takePools c call
    · cases h
  | upgrade c =>
    simp only [State.step, State.upgrade] at h
    split at h
    · rename_i p rest call
      split at h
      · rw [Option.map_eq_some_iff] at h
        obtain ⟨u, hu, rfl⟩ := h
        obtain ⟨pool, next, advanced⟩ := advance_some hu
        exact .upgrade c p rest u pool next call advanced
      · rename_i gone
        cases h
        exact .expired c p rest call (Bool.not_eq_true _ ▸ gone)
    · cases h
  | beginPoolClose c =>
    simp only [State.step, State.beginPoolClose] at h
    split at h
    · rename_i p rest call
      split at h
      · rename_i pool found
        rw [Option.map_eq_some_iff] at h
        obtain ⟨u, hu, rfl⟩ := h
        obtain ⟨pool', next, advanced⟩ := advance_some hu
        obtain rfl : pool = pool' := Option.some.inj (found.symm.trans advanced.found)
        exact .beginPoolClose c p rest u pool next call advanced
      · cases h
    · cases h
  | poolClosed c =>
    simp only [State.step, State.poolClosed] at h
    split at h
    · rename_i p k rest call
      split at h
      · rename_i pool found
        split at h
        · rename_i done
          cases h
          exact .poolClosed c p k rest pool call found done
        · cases h
      · cases h
    · cases h
  | closeQueue c =>
    simp only [State.step, State.closeQueue] at h
    split at h
    · rename_i call
      cases h
      exact .closeQueue c call
    · cases h

def machine : Machine State Action where
  initial := fun s => s = State.initial
  step := State.step

end PostgresTestHarness.Shutdown
