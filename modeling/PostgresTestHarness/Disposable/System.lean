import PostgresTestHarness.Admission.Closure
import PostgresTestHarness.Template.Bystander

/-! The disposable databases of one harness, on the PostgreSQL server that has them.

The admission gate, creations and cleanup jobs (`Admission/System.lean`) run beside attempts at templates,
sweeps and other clients of the server (`Template/System.lean`); here the statements of the creations and
the jobs are run on that server, and the harness's owner session keeps its lock from the sweeps. A database
that is handed out is somebody's until it is given up to the cleanup queue; who that is, a lease or a pool,
is not told apart. Attempts at templates may get either answer at the gate, as there, and what closes it for
one is an action of its own. `place`, `supplied`, `changes` and the numbers of closures are ghost: nothing
reads them but the guards that tell whose database a job drops. -/
namespace PostgresTestHarness.Disposable
open Postgres Admission
open Cleanup (CleanupCompletion CleanupAdmission)
open Template (Node Plan)

/-- `TemplateSource`. A handle on a template is the session that retains its lock. -/
inductive Source where
  | empty
  | template (node : Node) (handle : Nat)
  deriving DecidableEq

/-- Where a disposable database is. -/
inductive Place where
  /-- Its `CREATE` has not been answered. -/
  | unmade
  /-- Created, or perhaps, and not tagged. -/
  | doubtful
  /-- Created and tagged, and still with its creation. -/
  | tagged
  /-- With a lease, or with a pool. -/
  | held
  /-- With the job that has made it for a pool. -/
  | refilled
  /-- Refused by the pool, and with the job that drops it again. -/
  | unpublished
  /-- Given up to the cleanup queue. -/
  | given
  /-- Never made, or dropped. -/
  | gone
  deriving DecidableEq, Repr

structure Made (χ : Type) where
  name : DatabaseName
  source : Source
  /-- The closure that has made it for a pool. -/
  refills : Option Nat
  /-- The closure it was given up to. -/
  givenTo : Option Nat
  place : Place
  /-- Its source was retained when it was copied. -/
  supplied : Bool
  /-- What has been done to its content. -/
  changes : List (χ → χ)

structure Config (χ : Type) where
  plan : Plan χ
  cleanup : Cleanup.Config
  project : ProjectName
  ownerKey : Int64

structure State (χ : Type) where
  control : Admission.State
  base : Template.State χ
  /-- The session that holds the owner key has not ended. -/
  ownerAlive : Bool
  /-- A database for each creation, by its number. -/
  made : List (Made χ)

inductive Action (χ : Type) : Type 1 where
  | create (kind : CreationKind) (uuid : SimpleUuid) (source : Source)
  | ensureOpen (creation : Nat)
  /-- A creation's next statement: its answer, and where that is an error, whether it had an effect. -/
  | statement (creation : Nat) (now : UInt64) (result : Except Error Unit) (effect : Bool)
  | judge (creation : Nat)
  | dropPermit (creation : Nat)
  | deliver (creation : Nat)
  | submit (database : Nat) (kind : JobKind) (completion : CleanupCompletion) (permit : Bool) (admission : CleanupAdmission)
  | queue (a : Cleanup.Action)
  /-- A job gets its session from the pool, or does not. -/
  | checkOut (worker : Nat) (result : Except Error Unit)
  | drop (worker database : Nat) (result : Except Error Unit) (effect : Bool)
  | afterDrop (worker : Nat) (refill : Option (SimpleUuid × Source))
  | refilled (worker : Nat)
  | publish (worker database : Nat) (accepted : Bool)
  /-- Owned shutdown, or a template's creation that may have left something. -/
  | closeAdmission
  | use (database : Nat) (change : χ → χ)
  | base (a : Template.Action χ)
  | loseOwner

variable {χ : Type}

def Source.name (plan : Plan χ) : Source → Text
  | .empty => "template0".toList
  | .template node _ => (plan.request node).name.value

/-- What a copy of the source holds. -/
def Source.content (plan : Plan χ) : Source → χ
  | .empty => plan.template0
  | .template node _ => plan.content node.lineage

/-- PostgreSQL's own word that a statement has done nothing. -/
def refused : Error → Bool
  | .postgres _ true => true
  | _ => false

/-- Whether a statement with this answer has been run. -/
def executed (effect : Bool) : Except Error Unit → Bool
  | .ok () => true
  | .error error => effect && !refused error

/-- Where a creation's result leaves its database. -/
def resultPlace : Attempted → Place
  | .ok () => .tagged
  | .error (.noResidual _) => .gone
  | .error (.residualPossible _) => .doubtful

def attemptPlace : Attempt → Place
  | .creating => .unmade
  | .tagging | .compensating _ => .doubtful
  | .over result => resultPlace result

/-- The metadata that a disposable database is tagged with. -/
def Config.metadata (cfg : Config χ) (now : UInt64) : ResourceMetadata := .test cfg.project cfg.ownerKey now

/-- The statement that an attempt is at. -/
def Made.statement (cfg : Config χ) (m : Made χ) (now : UInt64) : Attempt → Option (Statement Unit)
  | .creating => some (.create m.name.value (m.source.name cfg.plan))
  | .tagging => some (.comment m.name.value (cfg.metadata now).encode)
  | .compensating _ => some (.drop m.name.value)
  | .over _ => none

/-- A statement of its creation is answered. -/
def Made.answered (m : Made χ) (supplied : Bool) (attempt : Attempt) (result : Except Error Unit) : Made χ :=
  { m with
    place := attemptPlace (attempt.answer result)
    supplied := if attemptPlace attempt = .unmade then supplied else m.supplied }

/-- The operations that drop the database of their own job. -/
def dropsGiven : Operation → Bool
  | .dropping _ | .deleting => true
  | _ => false

namespace State

def initial (cfg : Config χ) (base : Template.State χ) : State χ := ⟨.initial cfg.cleanup, base, true, []⟩

def put (s : State χ) (i : Nat) (m : Made χ) : State χ := { s with made := s.made.set i m }

/-- A step of the admission gate, its creations and its jobs. -/
def stepControl (cfg : Config χ) (s : State χ) (a : Admission.Action) : Option (State χ) :=
  (s.control.step cfg.cleanup a).map fun control => { s with control }

/-- A statement of the lifecycle pool, whose sessions are not among those of `base`. -/
def execute (s : State χ) (stmt : Statement Unit) : Option (State χ) :=
  (s.base.server.execute s.base.clients.length stmt).map fun (server, _) => { s with base := { s.base with server } }

def perform (s : State χ) (stmt : Statement Unit) (executed : Bool) : Option (State χ) :=
  if executed then s.execute stmt else some s

/-- What is there to be copied: `template0`, or a template with a live handle on it. -/
def supplies (s : State χ) : Source → Bool
  | .empty => true
  | .template node handle => s.base.retains handle node

/-- A name that is nowhere, nor in what a sweep has read. -/
def fresh (s : State χ) (name : DatabaseName) : Bool :=
  (s.base.server.find name.value).isNone && s.made.all (fun m => m.name != name) &&
    s.base.clients.all fun c =>
      match c.program with
      | .sweep _ phase => phase.ahead.all fun record => record.name != name.value
      | _ => true

def create (cfg : Config χ) (s : State χ) (kind : CreationKind) (uuid : SimpleUuid) (source : Source) : Option (State χ) :=
  if kind ≠ .template ∧ s.fresh (.test cfg.project uuid) then
    (s.stepControl cfg (.create kind)).map fun t =>
      { t with made := t.made ++ [⟨.test cfg.project uuid, source, none, none, .unmade, false, []⟩] }
  else none

def ensureOpen (cfg : Config χ) (s : State χ) (i : Nat) : Option (State χ) :=
  s.made[i]?.bind fun m => (s.stepControl cfg (.ensureOpen i)).map fun t =>
    t.put i { m with place := if s.control.closed then .gone else .unmade }

def statement (cfg : Config χ) (s : State χ) (i : Nat) (now : UInt64) (result : Except Error Unit) (effect : Bool) :
    Option (State χ) :=
  match s.control.creations[i]?, s.made[i]? with
  | some ⟨_, _, .attempting attempt, _⟩, some m =>
    (m.statement cfg now attempt).bind fun stmt => (s.perform stmt (executed effect result)).bind fun t =>
      (t.stepControl cfg (.statement i result)).map fun u => u.put i (m.answered (s.supplies m.source) attempt result)
  | _, _ => none

/-- The caller of a creation gets its result; a database is handed out with it. -/
def deliver (cfg : Config χ) (s : State χ) (i : Nat) : Option (State χ) :=
  match s.control.creations[i]?, s.made[i]? with
  | some ⟨_, _, .returned result, _⟩, some m =>
    (s.stepControl cfg (.deliver i)).map fun t =>
      t.put i { m with place := if result.isOk then .held else m.place }
  | _, _ => none

/-- A holder gives its database up. -/
def submit (cfg : Config χ) (s : State χ) (i : Nat) (kind : JobKind) (completion : CleanupCompletion) (permit : Bool)
    (admission : CleanupAdmission) : Option (State χ) :=
  s.made[i]?.bind fun m =>
    if m.place = .held then
      (s.stepControl cfg (.submit kind m.name.value completion permit admission)).map fun t =>
        t.put i { m with place := .given, givenTo := some s.control.queue.history.submissions }
    else none

def checkOut (cfg : Config χ) (s : State χ) (w : Nat) (result : Except Error Unit) : Option (State χ) :=
  match s.control.operations[w]? with
  | some (.checkingOut _) => s.stepControl cfg (.answer w result)
  | _ => none

/-- The `DROP` of a job: of the database it was given, or of the one it has made for a pool that has closed. -/
def drop (cfg : Config χ) (s : State χ) (w i : Nat) (result : Except Error Unit) (effect : Bool) : Option (State χ) :=
  match s.control.queue.workers[w]?, s.control.operations[w]?, s.made[i]? with
  | some (.executing job), some operation, some m =>
    if dropsGiven operation = true ∧ m.place = .given ∧ m.givenTo = some job.operation ∨
        operation matches .unpublishing ∧ m.place = .unpublished ∧ m.refills = some job.operation then
      (s.perform (.drop m.name.value) (executed effect result)).bind fun t =>
        (t.stepControl cfg (.answer w result)).map fun u =>
          u.put i { m with place := if result.isOk then .gone else m.place }
    else none
  | _, _, _ => none

def afterDrop (cfg : Config χ) (s : State χ) (w : Nat) : Option (SimpleUuid × Source) → Option (State χ)
  | none => s.stepControl cfg (.afterDrop w false)
  | some (uuid, source) =>
    match s.control.queue.workers[w]? with
    | some (.executing job) =>
      if s.fresh (.test cfg.project uuid) then
        (s.stepControl cfg (.afterDrop w true)).map fun t =>
          { t with made := t.made ++ [⟨.test cfg.project uuid, source, some job.operation, none, .unmade, false, []⟩] }
      else none
    | _ => none

def refilled (cfg : Config χ) (s : State χ) (w : Nat) : Option (State χ) :=
  match s.control.operations[w]? with
  | some (.refilling i) =>
    match s.control.creations[i]?, s.made[i]? with
    | some ⟨_, _, .returned result, _⟩, some m =>
      (s.stepControl cfg (.refilled w)).map fun t =>
        t.put i { m with place := if result.isOk then .refilled else m.place }
    | _, _ => none
  | _ => none

def publish (cfg : Config χ) (s : State χ) (w i : Nat) (accepted : Bool) : Option (State χ) :=
  match s.control.queue.workers[w]?, s.made[i]? with
  | some (.executing job), some m =>
    if m.place = .refilled ∧ m.refills = some job.operation then
      (s.stepControl cfg (.publish w accepted)).map fun t =>
        t.put i { m with place := if accepted then .held else .unpublished }
    else none
  | _, _ => none

/-- Somebody changes what a database holds. -/
def use (s : State χ) (i : Nat) (change : χ → χ) : Option (State χ) :=
  s.made[i]?.bind fun m => (s.base.server.find m.name.value).map fun db =>
    { s with base := { s.base with server := s.base.server.put m.name.value { db with content := change db.content } } }.put
      i { m with changes := m.changes ++ [change] }

/-- Others do not know the harness's names. -/
def leaves (s : State χ) : Template.Action χ → Bool
  | .other _ stmt => stmt.target.all fun name => s.made.all fun m => m.name.value != name
  | _ => true

/-- A sweep that asks for the owner key. -/
def asksOwner (cfg : Config χ) (s : State χ) : Template.Action χ → Bool
  | .advance i _ =>
    match s.base.clients[i]? with
    | some ⟨.sweep _ (.locking _ key _ _), _, _⟩ => key == cfg.ownerKey
    | _ => false
  | _ => false

/-- Its `pg_try_advisory_lock` is answered with false, or fails. -/
def refuse (s : State χ) : Template.Action χ → Option (Template.State χ)
  | .advance i o =>
    match s.base.clients[i]? with
    | some ⟨.sweep sw (.locking record key rest report), waiting, connected⟩ =>
      let c : Client Template.Program := ⟨.sweep sw (.locking record key rest report), waiting, connected⟩
      match o with
      | .ok => if connected then some (Template.State.goto s.base i c (.sweep sw (.scanning rest report.skipActive))) else none
      | .failed _ => some (Template.State.goto s.base i c (.sweep sw (.finished none)))
      | .refused => none
    | _ => none
  | _ => none

def stepBase (cfg : Config χ) (s : State χ) (a : Template.Action χ) : Option (State χ) :=
  if s.leaves a then
    (if s.ownerAlive && s.asksOwner cfg a then s.refuse a else Template.step cfg.plan s.base a).map fun base => { s with base }
  else none

def step (cfg : Config χ) (s : State χ) : Action χ → Option (State χ)
  | .create kind uuid source => s.create cfg kind uuid source
  | .ensureOpen i => s.ensureOpen cfg i
  | .statement i now result effect => s.statement cfg i now result effect
  | .judge i => s.stepControl cfg (.judge i)
  | .dropPermit i => s.stepControl cfg (.dropPermit i)
  | .deliver i => s.deliver cfg i
  | .submit i kind completion permit admission => s.submit cfg i kind completion permit admission
  | .queue a => s.stepControl cfg (.queue a)
  | .checkOut w result => s.checkOut cfg w result
  | .drop w i result effect => s.drop cfg w i result effect
  | .afterDrop w refill => s.afterDrop cfg w refill
  | .refilled w => s.refilled cfg w
  | .publish w i accepted => s.publish cfg w i accepted
  | .closeAdmission => s.stepControl cfg .shutdown
  | .use i change => s.use i change
  | .base a => s.stepBase cfg a
  | .loseOwner => some { s with ownerAlive := false }

end State

def machine (cfg : Config χ) : Machine (State χ) (Action χ) where
  initial s := ∃ base, Template.Initial cfg.plan base ∧ s = .initial cfg base
  step := State.step cfg

/-! ### What a step can be -/

/-- Every step there is, with its action, its guard and its result. -/
inductive Transition (cfg : Config χ) (s : State χ) : Action χ → State χ → Prop where
  | asked (kind : CreationKind) (uuid : SimpleUuid) (source : Source) (fresh : s.fresh (.test cfg.project uuid) = true) :
      Transition cfg s (.create kind uuid source) { s with
        control := { s.control with creations := s.control.creations ++ [⟨kind, kind.permit, .requested, 0⟩] }
        made := s.made ++ [⟨.test cfg.project uuid, source, none, none, .unmade, false, []⟩] }
  | opened (i : Nat) (c : Creation) (m : Made χ) (creation : s.control.creations[i]? = some c) (stage : c.stage = .requested)
      (made : s.made[i]? = some m) (next : CreationStage) (place : Place)
      (gate : next = .attempting .creating ∧ place = .unmade ∨
        next = .returned (.error (.noResidual .connectionBudgetClosed)) ∧ place = .gone) :
      Transition cfg s (.ensureOpen i) { s with
        control := s.control.moveCreation i { c with stage := next }
        made := s.made.set i { m with place } }
  | stated (i : Nat) (c : Creation) (m : Made χ) (attempt : Attempt) (stmt : Statement Unit) (now : UInt64)
      (result : Except Error Unit) (effect : Bool) (base : Template.State χ)
      (creation : s.control.creations[i]? = some c) (stage : c.stage = .attempting attempt) (made : s.made[i]? = some m)
      (statement : m.statement cfg now attempt = some stmt)
      (performed : s.perform stmt (executed effect result) = some { s with base }) :
      Transition cfg s (.statement i now result effect) { s with
        control := s.control.moveCreation i
          { c with stage := .attempting (attempt.answer result), statements := c.statements + 1 }
        base
        made := s.made.set i (m.answered (s.supplies m.source) attempt result) }
  | judged (i : Nat) (c : Creation) (result : Attempted) (creation : s.control.creations[i]? = some c)
      (stage : c.stage = .attempting (.over result)) :
      Transition cfg s (.judge i) { s with control :=
        (if mayLeaveResidual result then s.control.close else s.control).moveCreation i { c with stage := .returned result } }
  | permitDropped (i : Nat) (c : Creation) (creation : s.control.creations[i]? = some c) :
      Transition cfg s (.dropPermit i) { s with control := s.control.moveCreation i { c with permit := false } }
  | delivered (i : Nat) (c : Creation) (m : Made χ) (result : Attempted) (creation : s.control.creations[i]? = some c)
      (stage : c.stage = .returned result) (made : s.made[i]? = some m) :
      Transition cfg s (.deliver i) { s with
        control := s.control.moveCreation i { c with stage := .delivered result }
        made := s.made.set i { m with place := if result.isOk then .held else m.place } }
  | submitted (i : Nat) (m : Made χ) (kind : JobKind) (completion : CleanupCompletion) (permit : Bool)
      (admission : CleanupAdmission) (queue : Cleanup.State) (made : s.made[i]? = some m) (held : m.place = .held)
      (stepped : Cleanup.Transition cfg.cleanup s.control.queue
        (.submit m.name.value completion permit admission) queue) :
      Transition cfg s (.submit i kind completion permit admission) { s with
        control := { s.control with queue, kinds := s.control.kinds ++ [kind] }
        made := s.made.set i { m with place := .given, givenTo := some s.control.queue.history.submissions } }
  | queued (a : Cleanup.Action) (queue : Cleanup.State) (allowed : s.control.allows a = true)
      (stepped : Cleanup.Transition cfg.cleanup s.control.queue a queue) :
      Transition cfg s (.queue a) { s with control := { s.control with
        queue
        operations := s.control.operationsAfter queue a
        creations := s.control.creationsAfter a
        judged := s.control.judgedAfter a } }
  | checkedOut (w : Nat) (prewarmReturn : Bool) (result : Except Error Unit) (next : Operation)
      (operation : s.control.operations[w]? = some (.checkingOut prewarmReturn))
      (answered : (Operation.checkingOut prewarmReturn).answer result = some next) :
      Transition cfg s (.checkOut w result) { s with control := s.control.moveOperation w next }
  | dropped (w i : Nat) (job : Cleanup.CleanupJob) (o next : Operation) (m : Made χ) (result : Except Error Unit)
      (effect : Bool) (base : Template.State χ) (worker : s.control.queue.workers[w]? = some (.executing job))
      (operation : s.control.operations[w]? = some o) (made : s.made[i]? = some m)
      (owner : dropsGiven o = true ∧ m.place = .given ∧ m.givenTo = some job.operation ∨
        o = .unpublishing ∧ m.place = .unpublished ∧ m.refills = some job.operation)
      (answered : o.answer result = some next)
      (performed : s.perform (.drop m.name.value) (executed effect result) = some { s with base }) :
      Transition cfg s (.drop w i result effect) { s with
        control := s.control.moveOperation w next
        base
        made := s.made.set i { m with place := if result.isOk then .gone else m.place } }
  | spared (w : Nat) (operation : s.control.operations[w]? = some .dropped) :
      Transition cfg s (.afterDrop w none) { s with control := s.control.moveOperation w (.over (disposed (.ok (.reuse .succeeded)))) }
  | refilling (w : Nat) (job : Cleanup.CleanupJob) (uuid : SimpleUuid) (source : Source)
      (worker : s.control.queue.workers[w]? = some (.executing job)) (operation : s.control.operations[w]? = some .dropped)
      (fresh : s.fresh (.test cfg.project uuid) = true) :
      Transition cfg s (.afterDrop w (some (uuid, source))) { s with
        control := { s.control.moveOperation w (.refilling s.control.creations.length) with
          creations := s.control.creations ++ [⟨.refill w, false, .requested, 0⟩] }
        made := s.made ++ [⟨.test cfg.project uuid, source, some job.operation, none, .unmade, false, []⟩] }
  | refilled (w i : Nat) (c : Creation) (m : Made χ) (result : Attempted)
      (operation : s.control.operations[w]? = some (.refilling i)) (creation : s.control.creations[i]? = some c)
      (stage : c.stage = .returned result) (made : s.made[i]? = some m) :
      Transition cfg s (.refilled w) { s with
        control := (s.control.moveCreation i { c with stage := .delivered result }).moveOperation w (.refilled result)
        made := s.made.set i { m with place := if result.isOk then .refilled else m.place } }
  | published (w i : Nat) (job : Cleanup.CleanupJob) (m : Made χ) (accepted : Bool)
      (worker : s.control.queue.workers[w]? = some (.executing job)) (operation : s.control.operations[w]? = some .created)
      (made : s.made[i]? = some m) (place : m.place = .refilled) (refills : m.refills = some job.operation) :
      Transition cfg s (.publish w i accepted) { s with
        control := s.control.moveOperation w (.published accepted)
        made := s.made.set i { m with place := if accepted then .held else .unpublished } }
  | closed : Transition cfg s .closeAdmission { s with control := { s.control.close with shutdownBegun := true } }
  | used (i : Nat) (m : Made χ) (db : Database χ) (change : χ → χ) (made : s.made[i]? = some m)
      (found : s.base.server.find m.name.value = some db) :
      Transition cfg s (.use i change) { s with
        base := { s.base with server := s.base.server.put m.name.value { db with content := change db.content } }
        made := s.made.set i { m with changes := m.changes ++ [change] } }
  | based (a : Template.Action χ) (base : Template.State χ) (leaves : s.leaves a = true)
      (stepped : (if s.ownerAlive && s.asksOwner cfg a then s.refuse a else Template.step cfg.plan s.base a) = some base) :
      Transition cfg s (.base a) { s with base }
  | ownerLost : Transition cfg s .loseOwner { s with ownerAlive := false }

section Transition
variable {cfg : Config χ} {s t : State χ} {i w : Nat}

theorem stepControl_eq_some {a : Admission.Action} (h : s.stepControl cfg a = some t) :
    ∃ control, s.control.step cfg.cleanup a = some control ∧ t = { s with control } := by
  obtain ⟨control, hcontrol, rfl⟩ := Option.map_eq_some_iff.mp h
  exact ⟨control, hcontrol, rfl⟩

theorem perform_eq_some {stmt : Statement Unit} {executed : Bool} (h : s.perform stmt executed = some t) :
    ∃ base, t = { s with base } := by
  rw [State.perform] at h
  split at h
  · obtain ⟨⟨server, _⟩, _, rfl⟩ := Option.map_eq_some_iff.mp h
    exact ⟨_, rfl⟩
  · cases h
    exact ⟨_, rfl⟩

theorem create_transition {kind : CreationKind} {uuid : SimpleUuid} {source : Source}
    (h : s.create cfg kind uuid source = some t) : Transition cfg s (.create kind uuid source) t := by
  obtain ⟨⟨_, hfresh⟩, h⟩ := Option.ite_none_right_eq_some.mp h
  obtain ⟨u, hu, rfl⟩ := Option.map_eq_some_iff.mp h
  obtain ⟨control, hcontrol, rfl⟩ := stepControl_eq_some hu
  cases kind with
  | refill => cases hcontrol
  | _ =>
    cases hcontrol
    exact .asked _ uuid source hfresh

theorem ensureOpen_transition (h : s.ensureOpen cfg i = some t) : Transition cfg s (.ensureOpen i) t := by
  obtain ⟨m, hm, h⟩ := Option.bind_eq_some_iff.mp h
  obtain ⟨u, hu, rfl⟩ := Option.map_eq_some_iff.mp h
  obtain ⟨control, hcontrol, rfl⟩ := stepControl_eq_some hu
  simp only [Admission.State.step, Admission.State.ensureOpen] at hcontrol
  split at hcontrol
  · rename_i hc
    split at hcontrol <;> rename_i hclosed <;> cases hcontrol
    · exact .opened i _ m hc rfl hm _ _ (Or.inr ⟨rfl, by simp only [hclosed, if_true]⟩)
    · exact .opened i _ m hc rfl hm _ _ (Or.inl ⟨rfl, by simp only [hclosed, Bool.false_eq_true, if_false]⟩)
  · cases hcontrol

theorem statement_transition {now : UInt64} {result : Except Error Unit} {effect : Bool}
    (h : s.statement cfg i now result effect = some t) :
    Transition cfg s (.statement i now result effect) t := by
  simp only [State.statement] at h
  split at h
  · rename_i kind permit attempt statements m hc hm
    obtain ⟨stmt, hstmt, h⟩ := Option.bind_eq_some_iff.mp h
    obtain ⟨u, hu, h⟩ := Option.bind_eq_some_iff.mp h
    obtain ⟨base, rfl⟩ := perform_eq_some hu
    obtain ⟨v, hv, rfl⟩ := Option.map_eq_some_iff.mp h
    obtain ⟨control, hcontrol, rfl⟩ := stepControl_eq_some hv
    simp only [Admission.State.step, Admission.State.statement, hc] at hcontrol
    split at hcontrol
    · cases hcontrol
    · cases hcontrol
      exact .stated i _ m attempt stmt now result effect base hc rfl hm hstmt hu
  · cases h

theorem deliver_transition (h : s.deliver cfg i = some t) : Transition cfg s (.deliver i) t := by
  simp only [State.deliver] at h
  split at h
  · rename_i kind permit result statements m hc hm
    obtain ⟨u, hu, rfl⟩ := Option.map_eq_some_iff.mp h
    obtain ⟨control, hcontrol, rfl⟩ := stepControl_eq_some hu
    simp only [Admission.State.step, Admission.State.deliver, hc] at hcontrol
    split at hcontrol
    · cases hcontrol
    · rename_i heq
      cases heq
      cases hcontrol
      exact .delivered i _ m result hc rfl hm
    · cases hcontrol
  · cases h

theorem submit_transition {kind : JobKind} {completion : CleanupCompletion} {permit : Bool} {admission : CleanupAdmission}
    (h : s.submit cfg i kind completion permit admission = some t) :
    Transition cfg s (.submit i kind completion permit admission) t := by
  obtain ⟨m, hm, h⟩ := Option.bind_eq_some_iff.mp h
  obtain ⟨hheld, h⟩ := Option.ite_none_right_eq_some.mp h
  obtain ⟨u, hu, rfl⟩ := Option.map_eq_some_iff.mp h
  obtain ⟨control, hcontrol, rfl⟩ := stepControl_eq_some hu
  obtain ⟨queue, hqueue, rfl⟩ := Option.map_eq_some_iff.mp hcontrol
  exact .submitted i m kind completion permit admission queue hm hheld (Cleanup.submit_transition hqueue)

theorem checkOut_transition {result : Except Error Unit} (h : s.checkOut cfg w result = some t) :
    Transition cfg s (.checkOut w result) t := by
  simp only [State.checkOut] at h
  split at h
  · rename_i b ho
    obtain ⟨control, hcontrol, rfl⟩ := stepControl_eq_some h
    simp only [Admission.State.step, Admission.State.answer, ho] at hcontrol
    obtain ⟨next, hnext, rfl⟩ := Option.map_eq_some_iff.mp hcontrol
    exact .checkedOut w b result next ho hnext
  · cases h

theorem drop_transition {result : Except Error Unit} {effect : Bool} (h : s.drop cfg w i result effect = some t) :
    Transition cfg s (.drop w i result effect) t := by
  simp only [State.drop] at h
  split at h
  · rename_i job o m hw ho hm
    obtain ⟨howner, h⟩ := Option.ite_none_right_eq_some.mp h
    obtain ⟨u, hu, h⟩ := Option.bind_eq_some_iff.mp h
    obtain ⟨base, rfl⟩ := perform_eq_some hu
    obtain ⟨v, hv, rfl⟩ := Option.map_eq_some_iff.mp h
    obtain ⟨control, hcontrol, rfl⟩ := stepControl_eq_some hv
    simp only [Admission.State.step, Admission.State.answer, ho] at hcontrol
    obtain ⟨next, hnext, rfl⟩ := Option.map_eq_some_iff.mp hcontrol
    refine .dropped w i job o next m result effect base hw ho hm (howner.imp_right (And.imp_left fun hmatches => ?_)) hnext hu
    cases o <;> first | rfl | cases hmatches
  · cases h

theorem afterDrop_transition {refill : Option (SimpleUuid × Source)} (h : s.afterDrop cfg w refill = some t) :
    Transition cfg s (.afterDrop w refill) t := by
  cases refill with
  | none =>
    obtain ⟨control, hcontrol, rfl⟩ := stepControl_eq_some h
    simp only [Admission.State.step, Admission.State.afterDrop] at hcontrol
    split at hcontrol
    · rename_i ho
      cases hcontrol
      exact .spared w ho
    · cases hcontrol
  | some refill =>
    simp only [State.afterDrop] at h
    split at h
    · rename_i job hw
      obtain ⟨hfresh, h⟩ := Option.ite_none_right_eq_some.mp h
      obtain ⟨u, hu, rfl⟩ := Option.map_eq_some_iff.mp h
      obtain ⟨control, hcontrol, rfl⟩ := stepControl_eq_some hu
      simp only [Admission.State.step, Admission.State.afterDrop] at hcontrol
      split at hcontrol
      · rename_i ho
        cases hcontrol
        exact .refilling w job refill.1 refill.2 hw ho hfresh
      · cases hcontrol
    · cases h

theorem refilled_transition (h : s.refilled cfg w = some t) : Transition cfg s (.refilled w) t := by
  simp only [State.refilled] at h
  split at h
  · rename_i i ho
    split at h
    · rename_i kind permit result statements m hc hm
      obtain ⟨u, hu, rfl⟩ := Option.map_eq_some_iff.mp h
      obtain ⟨control, hcontrol, rfl⟩ := stepControl_eq_some hu
      simp only [Admission.State.step, Admission.State.refilled, ho, hc] at hcontrol
      cases hcontrol
      exact .refilled w i _ m result ho hc rfl hm
    · cases h
  · cases h

theorem publish_transition {accepted : Bool} (h : s.publish cfg w i accepted = some t) :
    Transition cfg s (.publish w i accepted) t := by
  simp only [State.publish] at h
  split at h
  · rename_i job m hw hm
    obtain ⟨⟨hplace, hrefills⟩, h⟩ := Option.ite_none_right_eq_some.mp h
    obtain ⟨u, hu, rfl⟩ := Option.map_eq_some_iff.mp h
    obtain ⟨control, hcontrol, rfl⟩ := stepControl_eq_some hu
    simp only [Admission.State.step, Admission.State.publish] at hcontrol
    split at hcontrol
    · rename_i ho
      cases hcontrol
      exact .published w i job m accepted hw ho hm hplace hrefills
    · cases hcontrol
  · cases h

theorem judge_transition (h : s.stepControl cfg (.judge i) = some t) : Transition cfg s (.judge i) t := by
  obtain ⟨control, hcontrol, rfl⟩ := stepControl_eq_some h
  simp only [Admission.State.step, Admission.State.judge] at hcontrol
  split at hcontrol
  · rename_i result _ hc
    have hjudged : Transition cfg s (.judge i) _ := .judged i _ result hc rfl
    split at hcontrol <;> rename_i hresidual <;> cases hcontrol <;>
      simpa only [hresidual, if_true, Bool.false_eq_true, if_false] using hjudged
  · cases hcontrol

theorem dropPermit_transition (h : s.stepControl cfg (.dropPermit i) = some t) : Transition cfg s (.dropPermit i) t := by
  obtain ⟨control, hcontrol, rfl⟩ := stepControl_eq_some h
  simp only [Admission.State.step, Admission.State.dropPermit] at hcontrol
  split at hcontrol
  · rename_i hc
    cases hcontrol
    exact .permitDropped i _ hc
  · rename_i hc
    cases hcontrol
    exact .permitDropped i _ hc
  · cases hcontrol

theorem queue_transition {b : Cleanup.Action} (h : s.stepControl cfg (.queue b) = some t) : Transition cfg s (.queue b) t := by
  obtain ⟨control, hcontrol, rfl⟩ := stepControl_eq_some h
  simp only [Admission.State.step, Admission.State.queueStep] at hcontrol
  obtain ⟨hallowed, hcontrol⟩ := Option.ite_none_right_eq_some.mp hcontrol
  obtain ⟨queue, hqueue, rfl⟩ := Option.map_eq_some_iff.mp hcontrol
  exact .queued b queue hallowed (Cleanup.step_transition _ _ _ _ hqueue)

theorem step_transition {a : Action χ} (h : s.step cfg a = some t) : Transition cfg s a t := by
  cases a with
  | create kind uuid source => exact create_transition h
  | ensureOpen i => exact ensureOpen_transition h
  | statement i now result effect => exact statement_transition h
  | judge i => exact judge_transition h
  | dropPermit i => exact dropPermit_transition h
  | deliver i => exact deliver_transition h
  | submit i kind completion permit admission => exact submit_transition h
  | queue a => exact queue_transition h
  | checkOut w result => exact checkOut_transition h
  | drop w i result effect => exact drop_transition h
  | afterDrop w refill => exact afterDrop_transition h
  | refilled w => exact refilled_transition h
  | publish w i accepted => exact publish_transition h
  | closeAdmission =>
    obtain ⟨control, hcontrol, rfl⟩ := stepControl_eq_some h
    cases hcontrol
    exact .closed
  | use i change =>
    obtain ⟨m, hm, h⟩ := Option.bind_eq_some_iff.mp h
    obtain ⟨db, hdb, rfl⟩ := Option.map_eq_some_iff.mp h
    exact .used i m db change hm hdb
  | base a =>
    obtain ⟨hleaves, h⟩ := Option.ite_none_right_eq_some.mp h
    obtain ⟨base, hbase, rfl⟩ := Option.map_eq_some_iff.mp h
    exact .based a base hleaves hbase
  | loseOwner =>
    cases h
    exact .ownerLost

end Transition

end PostgresTestHarness.Disposable
