import Mathlib.Logic.Function.Basic
import PostgresTestHarness.Library.Machine

/-! The template cache of one server, and the calls that go through it.

A call of `get_or_initialize_template` looks its fingerprint up, joins a flight or owns
one. A flight owner may fail, panic or be cancelled wherever it awaits; its guard then
removes the entry. Entries hold templates weakly: what keeps a template is counted by
`live`. A critical section is one step, and completion is signalled in a later one.
What `begin_template`, the initializer and `finish` answer comes with the action. -/
namespace PostgresTestHarness.TemplateCache

/-- `TemplateCacheEntry`, with a number for each flight and each `TemplateInner`. -/
inductive Entry where
  | initializing (flight : Nat)
  | ready (template : Nat)
  deriving DecidableEq, Repr

/-- `TemplateFlight`: the `watch` channel is its value and its version. -/
structure Flight (κ : Type) where
  fingerprint : κ
  template : Option Nat
  completed : Bool
  version : Nat

/-- One `TemplateInner`, with the number of handles outside the calls. -/
structure Template (κ : Type) where
  fingerprint : κ
  handles : Nat

inductive Stage where
  /-- At the top of the loop. -/
  | deciding
  /-- In `wait`, before it looks at the channel. -/
  | waiting (flight seen : Nat)
  /-- In `changed().await`. -/
  | changing (flight seen : Nat)
  | woken (flight : Nat)
  /-- In `begin_template`. -/
  | preparing (flight : Nat)
  /-- In the caller's initializer. -/
  | initializing (flight : Nat)
  | finishing (flight : Nat)
  | aborting (flight : Nat)
  /-- It has the new template and calls `publish`. -/
  | publishing (flight template : Nat)
  /-- Published; the channel is still to be signalled. -/
  | completing (flight template : Nat)
  /-- The guard is being dropped. -/
  | dropping (flight : Nat)
  | dropped (flight : Nat)
  | returned (template : Nat)
  | failed
  deriving DecidableEq, Repr

namespace Stage

/-- The flight an active `TemplateCacheInitializer` is for. -/
def active : Stage → Option Nat
  | .preparing f | .initializing f | .finishing f | .aborting f | .publishing f _ | .dropping f => some f
  | _ => none

/-- The flight whose owner has not returned from `publish` or `drop`. -/
def owner : Stage → Option Nat
  | .completing f _ | .dropped f => some f
  | stage => stage.active

/-- The flight the call refers to. -/
def flight : Stage → Option Nat
  | .waiting f _ | .changing f _ | .woken f => some f
  | stage => stage.owner

/-- The flight the call waits for. -/
def awaits : Stage → Option Nat
  | .waiting f _ | .changing f _ => some f
  | _ => none

/-- The template the call itself keeps. -/
def held : Stage → Option Nat
  | .publishing _ a | .completing _ a => some a
  | _ => none

end Stage

/-- A call; `initializer` is whether its `Option` is still filled, and `consumed` how
often the closure was called. -/
structure Caller (κ : Type) where
  fingerprint : κ
  initializer : Bool
  consumed : Nat
  stage : Stage

structure State (κ : Type) where
  entries : κ → Option Entry
  flights : List (Flight κ)
  templates : List (Template κ)
  callers : List (Caller κ)
  /-- Whether `expect("a template caller initializes at most once")` has failed. -/
  expectFailed : Bool
  /-- Whether every debug assertion so far held. -/
  assertsHeld : Bool

inductive Action (κ : Type) where
  | call (fingerprint : κ)
  | decide (call : Nat)
  /-- `wait` looks at the channel. -/
  | borrow (call : Nat)
  | changed (call : Nat)
  | read (call : Nat)
  /-- `begin_template` answers: a template that is ready, or one to initialize. -/
  | prepared (call : Nat) (ready : Bool)
  | initialized (call : Nat) (ok : Bool)
  | finished (call : Nat)
  /-- The owner leaves with an error or a panic, or is cancelled. -/
  | abandon (call : Nat)
  | cancelWait (call : Nat)
  | publish (call : Nat)
  | releaseEntry (call : Nat)
  /-- The channel is signalled. -/
  | complete (call : Nat)
  | cloneHandle (template : Nat)
  | dropHandle (template : Nat)
  deriving Repr

namespace State
variable {κ : Type} [DecidableEq κ]

def initial : State κ := ⟨fun _ => none, [], [], [], false, true⟩

/-- Whether anything keeps the flight. -/
def referenced (s : State κ) (f : Nat) (flight : Flight κ) : Bool :=
  s.callers.any (fun x => decide (x.stage.flight = some f)) ||
    decide (s.entries flight.fingerprint = some (.initializing f))

/-- `strong_count() > 0`: a handle, the call that made it, or a flight somebody keeps. -/
def live (s : State κ) (a : Nat) : Bool :=
  (s.templates[a]?.any fun t => decide (0 < t.handles)) ||
    s.callers.any (fun x => decide (x.stage.held = some a)) ||
    s.flights.zipIdx.any fun (flight, f) => decide (flight.template = some a) && s.referenced f flight

def setCaller (s : State κ) (c : Nat) (x : Caller κ) : State κ := { s with callers := s.callers.set c x }

def setStage (s : State κ) (c : Nat) (x : Caller κ) (stage : Stage) : State κ :=
  s.setCaller c { x with stage }

def addHandle (s : State κ) (a : Nat) : State κ :=
  { s with templates := s.templates.modify a fun t => { t with handles := t.handles + 1 } }

def assert (s : State κ) (held : Bool) : State κ := { s with assertsHeld := s.assertsHeld && held }

/-- `prune_expired_ready_entries`. -/
def pruneExpiredReadyEntries (s : State κ) : κ → Option Entry := fun k =>
  match s.entries k with
  | some (.ready a) => if s.live a then some (.ready a) else none
  | entry => entry

/-- A cold acquisition: `Initialize`. -/
def startFlight (s : State κ) (c : Nat) (x : Caller κ) : State κ :=
  { s with
    entries := Function.update s.pruneExpiredReadyEntries x.fingerprint
      (some (.initializing s.flights.length))
    flights := s.flights ++ [Flight.mk x.fingerprint none false 0] }.setStage c x
      (Stage.preparing s.flights.length)

/-- `template_cache_action`. -/
def templateCacheAction (s : State κ) (c : Nat) : Option (State κ) :=
  match s.callers[c]? with
  | some x =>
    if x.stage ≠ .deciding then none
    else
      match s.entries x.fingerprint with
      | some (.ready a) =>
        if s.live a then some ((s.addHandle a).setStage c x (.returned a)) else some (s.startFlight c x)
      | some (.initializing f) =>
        match s.flights[f]? with
        | some flight => some (s.setStage c x (.waiting f flight.version))
        | none => none
      | none => some (s.startFlight c x)
  | none => none

def borrow (s : State κ) (c : Nat) : Option (State κ) :=
  match s.callers[c]? with
  | some x =>
    match x.stage with
    | .waiting f seen =>
      match s.flights[f]? with
      | some flight =>
        if flight.completed then some (s.setStage c x (.woken f))
        else some (s.setStage c x (.changing f seen))
      | none => none
    | _ => none
  | none => none

def changed (s : State κ) (c : Nat) : Option (State κ) :=
  match s.callers[c]? with
  | some x =>
    match x.stage with
    | .changing f seen =>
      match s.flights[f]? with
      | some flight => if flight.version ≠ seen then some (s.setStage c x (.woken f)) else none
      | none => none
    | _ => none
  | none => none

/-- `published_template`, and back to the loop without one. -/
def read (s : State κ) (c : Nat) : Option (State κ) :=
  match s.callers[c]? with
  | some x =>
    match x.stage with
    | .woken f =>
      match s.flights[f]? with
      | some flight =>
        match flight.template with
        | some a => some ((s.addHandle a).setStage c x (.returned a))
        | none => some (s.setStage c x .deciding)
      | none => none
    | _ => none
  | none => none

/-- `TemplateInner::new`. -/
def newTemplate (s : State κ) (c : Nat) (x : Caller κ) (f : Nat) : State κ :=
  { s with templates := s.templates ++ [Template.mk x.fingerprint 0] }.setStage c x
    (Stage.publishing f s.templates.length)

def prepared (s : State κ) (c : Nat) (ready : Bool) : Option (State κ) :=
  match s.callers[c]? with
  | some x =>
    match x.stage with
    | .preparing f =>
      if ready then some (s.newTemplate c x f)
      else if x.initializer then
        some (s.setCaller c { x with
          initializer := false, consumed := x.consumed + 1, stage := .initializing f })
      else some ({ s with expectFailed := true }.setStage c x (Stage.dropping f))
    | _ => none
  | none => none

def initialized (s : State κ) (c : Nat) (ok : Bool) : Option (State κ) :=
  match s.callers[c]? with
  | some x =>
    match x.stage with
    | .initializing f => some (s.setStage c x (if ok then .finishing f else .aborting f))
    | _ => none
  | none => none

def finished (s : State κ) (c : Nat) : Option (State κ) :=
  match s.callers[c]? with
  | some x =>
    match x.stage with
    | .finishing f => some (s.newTemplate c x f)
    | _ => none
  | none => none

def abandon (s : State κ) (c : Nat) : Option (State κ) :=
  match s.callers[c]? with
  | some x =>
    match x.stage with
    | .preparing f | .initializing f | .finishing f | .aborting f => some (s.setStage c x (.dropping f))
    | _ => none
  | none => none

def cancelWait (s : State κ) (c : Nat) : Option (State κ) :=
  match s.callers[c]? with
  | some x =>
    match x.stage with
    | .deciding | .waiting _ _ | .changing _ _ => some (s.setStage c x .failed)
    | _ => none
  | none => none

/-- `TemplateCacheInitializer::publish`, up to the end of its critical section. -/
def publish (s : State κ) (c : Nat) : Option (State κ) :=
  match s.callers[c]? with
  | some x =>
    match x.stage with
    | .publishing f a =>
      match s.flights[f]? with
      | some flight =>
        if s.entries x.fingerprint = some (.initializing f) then
          some (({ s with
            entries := Function.update s.entries x.fingerprint (some (.ready a))
            flights := s.flights.set f { flight with template := some a } }.setStage c x
              (Stage.completing f a)).assert flight.template.isNone)
        else some ((s.setStage c x (.completing f a)).assert false)
      | none => none
    | _ => none
  | none => none

/-- `Drop for TemplateCacheInitializer`, up to the end of its critical section. -/
def releaseEntry (s : State κ) (c : Nat) : Option (State κ) :=
  match s.callers[c]? with
  | some x =>
    match x.stage with
    | .dropping f =>
      if s.entries x.fingerprint = some (.initializing f) then
        some ({ s with entries := Function.update s.entries x.fingerprint none }.setStage c x
          (Stage.dropped f))
      else some (s.setStage c x (.dropped f))
    | _ => none
  | none => none

/-- `TemplateFlight::complete`. -/
def completeFlight (s : State κ) (f : Nat) : State κ :=
  { s with flights := s.flights.modify f fun flight =>
      { flight with completed := true, version := flight.version + 1 } }

def complete (s : State κ) (c : Nat) : Option (State κ) :=
  match s.callers[c]? with
  | some x =>
    match x.stage with
    | .completing f a => some (((s.completeFlight f).addHandle a).setStage c x (.returned a))
    | .dropped f => some ((s.completeFlight f).setStage c x .failed)
    | _ => none
  | none => none

def cloneHandle (s : State κ) (a : Nat) : Option (State κ) :=
  match s.templates[a]? with
  | some t => if t.handles = 0 then none else some (s.addHandle a)
  | none => none

def dropHandle (s : State κ) (a : Nat) : Option (State κ) :=
  match s.templates[a]? with
  | some t =>
    if t.handles = 0 then none
    else some { s with templates := s.templates.set a { t with handles := t.handles - 1 } }
  | none => none

def step (s : State κ) : Action κ → Option (State κ)
  | .call fingerprint => some { s with callers := s.callers ++ [⟨fingerprint, true, 0, .deciding⟩] }
  | .decide c => s.templateCacheAction c
  | .borrow c => s.borrow c
  | .changed c => s.changed c
  | .read c => s.read c
  | .prepared c ready => s.prepared c ready
  | .initialized c ok => s.initialized c ok
  | .finished c => s.finished c
  | .abandon c => s.abandon c
  | .cancelWait c => s.cancelWait c
  | .publish c => s.publish c
  | .releaseEntry c => s.releaseEntry c
  | .complete c => s.complete c
  | .cloneHandle a => s.cloneHandle a
  | .dropHandle a => s.dropHandle a

end State

variable {κ : Type} [DecidableEq κ]

/-- What a call does on its own: it changes nothing but its stage. -/
inductive Go (s : State κ) : Stage → Stage → Prop where
  | looked (f seen : Nat) (flight : Flight κ) (found : s.flights[f]? = some flight)
      (completed : flight.completed = true) : Go s (.waiting f seen) (.woken f)
  | listens (f seen : Nat) (flight : Flight κ) (found : s.flights[f]? = some flight)
      (running : flight.completed = false) : Go s (.waiting f seen) (.changing f seen)
  | signalled (f seen : Nat) (flight : Flight κ) (found : s.flights[f]? = some flight)
      (changed : flight.version ≠ seen) : Go s (.changing f seen) (.woken f)
  | retried (f : Nat) (flight : Flight κ) (found : s.flights[f]? = some flight)
      (unpublished : flight.template = none) : Go s (.woken f) .deciding
  | initialized (f : Nat) : Go s (.initializing f) (.finishing f)
  | refused (f : Nat) : Go s (.initializing f) (.aborting f)
  | abandonPreparing (f : Nat) : Go s (.preparing f) (.dropping f)
  | abandonInitializing (f : Nat) : Go s (.initializing f) (.dropping f)
  | abandonFinishing (f : Nat) : Go s (.finishing f) (.dropping f)
  | abandonAborting (f : Nat) : Go s (.aborting f) (.dropping f)
  | cancelDeciding : Go s .deciding .failed
  | cancelWaiting (f seen : Nat) : Go s (.waiting f seen) .failed
  | cancelChanging (f seen : Nat) : Go s (.changing f seen) .failed

/-- Every step of the cache, with its guard and its result. -/
inductive Transition (s : State κ) : State κ → Prop where
  | call (fingerprint : κ) :
      Transition s { s with callers := s.callers ++ [⟨fingerprint, true, 0, .deciding⟩] }
  | hit (c : Nat) (x : Caller κ) (a : Nat) (caller : s.callers[c]? = some x) (stage : x.stage = .deciding)
      (entry : s.entries x.fingerprint = some (.ready a)) (alive : s.live a = true) :
      Transition s ((s.addHandle a).setStage c x (.returned a))
  | join (c : Nat) (x : Caller κ) (f : Nat) (flight : Flight κ) (caller : s.callers[c]? = some x)
      (stage : x.stage = .deciding) (entry : s.entries x.fingerprint = some (.initializing f))
      (found : s.flights[f]? = some flight) :
      Transition s (s.setStage c x (.waiting f flight.version))
  | cold (c : Nat) (x : Caller κ) (caller : s.callers[c]? = some x) (stage : x.stage = .deciding)
      (nobody : ∀ f, s.entries x.fingerprint ≠ some (.initializing f))
      (expired : ∀ a, s.entries x.fingerprint = some (.ready a) → s.live a = false) :
      Transition s (s.startFlight c x)
  | go (c : Nat) (x : Caller κ) (stage : Stage) (caller : s.callers[c]? = some x)
      (rule : Go s x.stage stage) : Transition s (s.setStage c x stage)
  | read (c : Nat) (x : Caller κ) (f : Nat) (flight : Flight κ) (a : Nat)
      (caller : s.callers[c]? = some x) (stage : x.stage = .woken f)
      (found : s.flights[f]? = some flight) (published : flight.template = some a) :
      Transition s ((s.addHandle a).setStage c x (.returned a))
  | take (c : Nat) (x : Caller κ) (f : Nat) (caller : s.callers[c]? = some x)
      (stage : x.stage = .preparing f) (present : x.initializer = true) :
      Transition s (s.setCaller c { x with
        initializer := false, consumed := x.consumed + 1, stage := .initializing f })
  | taken (c : Nat) (x : Caller κ) (f : Nat) (caller : s.callers[c]? = some x)
      (stage : x.stage = .preparing f) (absent : x.initializer = false) :
      Transition s ({ s with expectFailed := true }.setStage c x (Stage.dropping f))
  | made (c : Nat) (x : Caller κ) (f : Nat) (caller : s.callers[c]? = some x)
      (stage : x.stage = .preparing f ∨ x.stage = .finishing f) : Transition s (s.newTemplate c x f)
  | publish (c : Nat) (x : Caller κ) (f a : Nat) (flight : Flight κ) (caller : s.callers[c]? = some x)
      (stage : x.stage = .publishing f a) (found : s.flights[f]? = some flight)
      (entry : s.entries x.fingerprint = some (.initializing f)) :
      Transition s (({ s with
        entries := Function.update s.entries x.fingerprint (some (.ready a))
        flights := s.flights.set f { flight with template := some a } }.setStage c x
          (Stage.completing f a)).assert flight.template.isNone)
  | publishLost (c : Nat) (x : Caller κ) (f a : Nat) (caller : s.callers[c]? = some x)
      (stage : x.stage = .publishing f a) (lost : s.entries x.fingerprint ≠ some (.initializing f)) :
      Transition s ((s.setStage c x (.completing f a)).assert false)
  | release (c : Nat) (x : Caller κ) (f : Nat) (caller : s.callers[c]? = some x)
      (stage : x.stage = .dropping f) (entry : s.entries x.fingerprint = some (.initializing f)) :
      Transition s ({ s with entries := Function.update s.entries x.fingerprint none }.setStage c x
        (Stage.dropped f))
  | releaseLost (c : Nat) (x : Caller κ) (f : Nat) (caller : s.callers[c]? = some x)
      (stage : x.stage = .dropping f) (lost : s.entries x.fingerprint ≠ some (.initializing f)) :
      Transition s (s.setStage c x (.dropped f))
  | complete (c : Nat) (x : Caller κ) (f a : Nat) (caller : s.callers[c]? = some x)
      (stage : x.stage = .completing f a) :
      Transition s (((s.completeFlight f).addHandle a).setStage c x (.returned a))
  | completeDropped (c : Nat) (x : Caller κ) (f : Nat) (caller : s.callers[c]? = some x)
      (stage : x.stage = .dropped f) : Transition s ((s.completeFlight f).setStage c x .failed)
  | cloneHandle (a : Nat) (t : Template κ) (found : s.templates[a]? = some t) (handle : 0 < t.handles) :
      Transition s (s.addHandle a)
  | dropHandle (a : Nat) (t : Template κ) (found : s.templates[a]? = some t) (handle : 0 < t.handles) :
      Transition s { s with templates := s.templates.set a { t with handles := t.handles - 1 } }

section Transition
variable {s t : State κ} {c a : Nat}

theorem templateCacheAction_transition (h : s.templateCacheAction c = some t) : Transition s t := by
  rw [State.templateCacheAction] at h
  split at h
  · rename_i x caller
    split at h
    · cases h
    · rename_i stage
      rw [not_not] at stage
      split at h
      · rename_i a entry
        split at h
        · rename_i alive
          cases h
          exact .hit c x a caller stage entry alive
        · rename_i expired
          cases h
          refine .cold c x caller stage (fun f hf => ?_) fun b hb => ?_
          · rw [entry] at hf
            cases hf
          · rw [entry, Option.some.injEq, Entry.ready.injEq] at hb
            exact hb ▸ Bool.not_eq_true _ ▸ expired
      · rename_i f entry
        split at h
        · rename_i flight found
          cases h
          exact .join c x f flight caller stage entry found
        · cases h
      · rename_i entry
        cases h
        refine .cold c x caller stage (fun f hf => ?_) fun b hb => ?_
        · rw [entry] at hf
          cases hf
        · rw [entry] at hb
          cases hb
  · cases h

theorem borrow_transition (h : s.borrow c = some t) : Transition s t := by
  rw [State.borrow] at h
  split at h
  · rename_i x caller
    split at h
    · rename_i f seen stage
      split at h
      · rename_i flight found
        split at h
        · rename_i completed
          cases h
          exact .go c x _ caller (stage ▸ .looked f seen flight found completed)
        · rename_i running
          cases h
          exact .go c x _ caller (stage ▸ .listens f seen flight found (Bool.not_eq_true _ ▸ running))
      · cases h
    · cases h
  · cases h

theorem changed_transition (h : s.changed c = some t) : Transition s t := by
  rw [State.changed] at h
  split at h
  · rename_i x caller
    split at h
    · rename_i f seen stage
      split at h
      · rename_i flight found
        split at h
        · rename_i changed
          cases h
          exact .go c x _ caller (stage ▸ .signalled f seen flight found changed)
        · cases h
      · cases h
    · cases h
  · cases h

theorem read_transition (h : s.read c = some t) : Transition s t := by
  rw [State.read] at h
  split at h
  · rename_i x caller
    split at h
    · rename_i f stage
      split at h
      · rename_i flight found
        split at h
        · rename_i a published
          cases h
          exact .read c x f flight a caller stage found published
        · rename_i unpublished
          cases h
          exact .go c x _ caller (stage ▸ .retried f flight found unpublished)
      · cases h
    · cases h
  · cases h

theorem prepared_transition {ready : Bool} (h : s.prepared c ready = some t) : Transition s t := by
  rw [State.prepared] at h
  split at h
  · rename_i x caller
    split at h
    · rename_i f stage
      split at h
      · cases h
        exact .made c x f caller (Or.inl stage)
      · split at h
        · rename_i present
          cases h
          exact .take c x f caller stage present
        · rename_i absent
          cases h
          exact .taken c x f caller stage (Bool.not_eq_true _ ▸ absent)
    · cases h
  · cases h

theorem initialized_transition {ok : Bool} (h : s.initialized c ok = some t) : Transition s t := by
  rw [State.initialized] at h
  split at h
  · rename_i x caller
    split at h
    · rename_i f stage
      cases ok <;> cases h
      · exact .go c x _ caller (stage ▸ .refused f)
      · exact .go c x _ caller (stage ▸ .initialized f)
    · cases h
  · cases h

theorem finished_transition (h : s.finished c = some t) : Transition s t := by
  rw [State.finished] at h
  split at h
  · rename_i x caller
    split at h
    · rename_i f stage
      cases h
      exact .made c x f caller (Or.inr stage)
    · cases h
  · cases h

theorem abandon_transition (h : s.abandon c = some t) : Transition s t := by
  rw [State.abandon] at h
  split at h
  · rename_i x caller
    split at h
    · rename_i f stage
      cases h
      exact .go c x _ caller (stage ▸ .abandonPreparing f)
    · rename_i f stage
      cases h
      exact .go c x _ caller (stage ▸ .abandonInitializing f)
    · rename_i f stage
      cases h
      exact .go c x _ caller (stage ▸ .abandonFinishing f)
    · rename_i f stage
      cases h
      exact .go c x _ caller (stage ▸ .abandonAborting f)
    · cases h
  · cases h

theorem cancelWait_transition (h : s.cancelWait c = some t) : Transition s t := by
  rw [State.cancelWait] at h
  split at h
  · rename_i x caller
    split at h
    · rename_i stage
      cases h
      exact .go c x _ caller (stage ▸ .cancelDeciding)
    · rename_i f seen stage
      cases h
      exact .go c x _ caller (stage ▸ .cancelWaiting f seen)
    · rename_i f seen stage
      cases h
      exact .go c x _ caller (stage ▸ .cancelChanging f seen)
    · cases h
  · cases h

theorem publish_transition (h : s.publish c = some t) : Transition s t := by
  rw [State.publish] at h
  split at h
  · rename_i x caller
    split at h
    · rename_i f a stage
      split at h
      · rename_i flight found
        split at h
        · rename_i entry
          cases h
          exact .publish c x f a flight caller stage found entry
        · rename_i lost
          cases h
          exact .publishLost c x f a caller stage lost
      · cases h
    · cases h
  · cases h

theorem releaseEntry_transition (h : s.releaseEntry c = some t) : Transition s t := by
  rw [State.releaseEntry] at h
  split at h
  · rename_i x caller
    split at h
    · rename_i f stage
      split at h
      · rename_i entry
        cases h
        exact .release c x f caller stage entry
      · rename_i lost
        cases h
        exact .releaseLost c x f caller stage lost
    · cases h
  · cases h

theorem complete_transition (h : s.complete c = some t) : Transition s t := by
  rw [State.complete] at h
  split at h
  · rename_i x caller
    split at h
    · rename_i f a stage
      cases h
      exact .complete c x f a caller stage
    · rename_i f stage
      cases h
      exact .completeDropped c x f caller stage
    · cases h
  · cases h

theorem cloneHandle_transition (h : s.cloneHandle a = some t) : Transition s t := by
  rw [State.cloneHandle] at h
  split at h
  · rename_i t found
    split at h
    · cases h
    · rename_i handle
      cases h
      exact .cloneHandle a t found (Nat.pos_of_ne_zero handle)
  · cases h

theorem dropHandle_transition (h : s.dropHandle a = some t) : Transition s t := by
  rw [State.dropHandle] at h
  split at h
  · rename_i t found
    split at h
    · cases h
    · rename_i handle
      cases h
      exact .dropHandle a t found (Nat.pos_of_ne_zero handle)
  · cases h

end Transition

/-- A step is one of the transitions. -/
theorem step_transition (s t : State κ) (a : Action κ) (h : s.step a = some t) : Transition s t := by
  cases a with
  | call fingerprint =>
    cases h
    exact .call fingerprint
  | decide c => exact templateCacheAction_transition h
  | borrow c => exact borrow_transition h
  | changed c => exact changed_transition h
  | read c => exact read_transition h
  | prepared c ready => exact prepared_transition h
  | initialized c ok => exact initialized_transition h
  | finished c => exact finished_transition h
  | abandon c => exact abandon_transition h
  | cancelWait c => exact cancelWait_transition h
  | publish c => exact publish_transition h
  | releaseEntry c => exact releaseEntry_transition h
  | complete c => exact complete_transition h
  | cloneHandle a => exact cloneHandle_transition h
  | dropHandle a => exact dropHandle_transition h

def machine (κ : Type) [DecidableEq κ] : Machine (State κ) (Action κ) where
  initial := fun s => s = State.initial
  step := State.step

end PostgresTestHarness.TemplateCache
