import PostgresTestHarness.Library.Machine
import PostgresTestHarness.StaleCleanup.Program
import PostgresTestHarness.Template.Attempt

/-! Processes that build, use and sweep templates.

Any number of attempts and sweeps run on one server, each on its session. A template is a
node of a lineage; its initializer is a list of changes of the content, which it makes over
a connection of its own. A derived template is copied from its parent by an attempt that was
given a handle on the parent, a session that retains the parent's lock; an attempt whose
handle has lost its session copies nothing. Others may connect wherever connections are
allowed, and do with databases that are not templates what they like, short of writing a
template's record. The admission gates of the attempts' harnesses are left open here: an
attempt that asks at one may get either answer, whatever has gone before (`Admitted` ties the
answers to the gates). -/
namespace PostgresTestHarness.Template
open SessionLock Postgres

/-- A root, or a step from its parent. -/
inductive Lineage where
  | root (spec : RootSpec)
  | derived (parent : Lineage) (step : StepSpec)
  deriving DecidableEq

/-- A template of a project. -/
structure Node where
  project : ProjectName
  lineage : Lineage
  deriving DecidableEq

def Lineage.parent : Lineage → Option Lineage
  | .root _ => none
  | .derived parent _ => some parent

def Node.parent (n : Node) : Option Node := n.lineage.parent.map fun parent => { n with lineage := parent }

section Hash
variable (sha256 : List UInt8 → Digest)

def Lineage.identity : Lineage → TemplateIdentity
  | .root spec => .root spec
  | .derived parent step => .derived sha256 parent.identity.fingerprint step

/-- `TemplateSource::name`. -/
def Node.source (n : Node) : Text :=
  match n.parent with
  | none => "template0".toList
  | some p => (DatabaseName.template p.project (p.lineage.identity sha256).fingerprint).value

def Node.request (n : Node) : Request := .new sha256 n.project (n.lineage.identity sha256) (n.source sha256)

end Hash

/-- Templates with their initializers. Distinct templates have distinct names and keys. -/
structure Plan (χ : Type) where
  sha256 : List UInt8 → Digest
  template0 : χ
  rootInitializer : RootSpec → List (χ → χ)
  stepInitializer : StepSpec → List (χ → χ)
  nodes : List Node
  closed : ∀ n ∈ nodes, ∀ p, n.parent = some p → p ∈ nodes
  namesApart : ∀ m ∈ nodes, ∀ n ∈ nodes, (m.request sha256).name.value = (n.request sha256).name.value → m = n
  locksApart : ∀ m ∈ nodes, ∀ n ∈ nodes, (m.request sha256).lockKey = (n.request sha256).lockKey → m = n
  coordinationsApart : ∀ m ∈ nodes, ∀ n ∈ nodes,
    (m.request sha256).coordinationKey = (n.request sha256).coordinationKey → m = n
  keysApart : ∀ m ∈ nodes, ∀ n ∈ nodes, (m.request sha256).lockKey ≠ (n.request sha256).coordinationKey

/-- A list of changes, in order. -/
def build {χ : Type} (changes : List (χ → χ)) (content : χ) : χ := changes.foldl (fun content change => change content) content

namespace Plan
variable {χ : Type} (plan : Plan χ)

abbrev request (n : Node) : Request := n.request plan.sha256

def initializer : Lineage → List (χ → χ)
  | .root spec => plan.rootInitializer spec
  | .derived _ step => plan.stepInitializer step

/-- What a template has to hold: its initializer's work on its source's content. -/
def content : Lineage → χ
  | .root spec => build (plan.rootInitializer spec) plan.template0
  | .derived parent step => build (plan.stepInitializer step) (content parent)

def sourceContent : Lineage → χ
  | .root _ => plan.template0
  | .derived parent _ => plan.content parent

theorem content_eq (l : Lineage) : plan.content l = build (plan.initializer l) (plan.sourceContent l) := by
  cases l <;> rfl

end Plan

/-- What runs on a session: an attempt with the handle on its parent, or a sweep. -/
inductive Program where
  | attempt (node : Node) (handle : Option Nat) (now : UInt64) (phase : Phase)
  | sweep (sw : StaleCleanup.Sweep) (phase : StaleCleanup.Phase)
  deriving DecidableEq

abbrev State (χ : Type) := System χ Program

inductive Action (χ : Type) : Type 1 where
  | begin (node : Node) (handle : Option Nat) (now : UInt64)
  | startSweep (sw : StaleCleanup.Sweep)
  | advance (i : Nat) (o : Outcome)
  | tick (i : Nat) (now : UInt64)
  | write (i : Nat)
  | initialized (i : Nat)
  | initializerFailed (i : Nat)
  | lose (i : Nat)
  | connect (name : Text) (client : Nat)
  | disconnect (name : Text) (client : Nat)
  | other (session : Nat) {α : Type} (stmt : Statement α)

variable {χ : Type}

/-- The session whose program an action moves, or that it ends. -/
def Action.session : Action χ → Option Nat
  | .advance i _ | .tick i _ | .write i | .initialized i | .initializerFailed i | .lose i => some i
  | _ => none

section Step
variable (plan : Plan χ)

def Program.code : Program → Option (Code Program)
  | .attempt node handle now phase =>
    (Template.code (plan.request node) now phase).map (Code.map (.attempt node handle now))
  | .sweep sw phase => (StaleCleanup.code sw phase).map (Code.map (.sweep sw))

def Program.holds : Program → Option (List (Int64 × Mode))
  | .attempt node _ _ phase => Template.holds (plan.request node) phase
  | .sweep _ phase => StaleCleanup.holds phase

/-- A live handle on a template. -/
def State.retains (s : State χ) (j : Nat) (node : Node) : Bool :=
  match s.clients[j]? with
  | some ⟨.attempt n _ _ .retained, _, true⟩ => n == node
  | _ => false

/-- Whether an attempt can copy its source: `template0`, or the template it has a live handle on. -/
def State.hasSource (s : State χ) (node : Node) (handle : Option Nat) : Bool :=
  match node.parent with
  | none => handle.isNone
  | some parent => handle.any fun j => s.retains j parent

/-- An attempt that copies has its source. -/
def State.mayAdvance (s : State χ) (i : Nat) (o : Outcome) : Bool :=
  match s.clients[i]? with
  | some ⟨.attempt node handle _ .create, _, _⟩ => o == .failed false || o == .refused || s.hasSource node handle
  | _ => true

/-- A live attempt that runs its initializer, and how far it is. -/
def State.initializing (s : State χ) (i : Nat) : Option (Client Program × Node × Option Nat × UInt64 × Nat) :=
  s.clients[i]?.bind fun c =>
    match c.program, c.connected with
    | .attempt node handle now (.initializing done), true => some (c, node, handle, now, done)
    | _, _ => none

def State.goto (s : State χ) (i : Nat) (c : Client Program) (p : Program) : State χ :=
  { s with clients := s.clients.set i (c.goto p) }

/-- The next change that an initializer makes, over its own connection. -/
def State.write (s : State χ) (i : Nat) : Option (State χ) :=
  (s.initializing i).bind fun (c, node, handle, now, done) =>
    (s.server.find (plan.request node).name.value).bind fun db =>
      (plan.initializer node.lineage)[done]?.bind fun change =>
        if i ∈ db.clients then
          some
            { server := s.server.put (plan.request node).name.value { db with content := change db.content }
              clients := s.clients.set i (c.goto (.attempt node handle now (.initializing (done + 1)))) }
        else none

/-- An initializer that has made all its changes returns. -/
def State.initialized (s : State χ) (i : Nat) : Option (State χ) :=
  (s.initializing i).bind fun (c, node, handle, now, done) =>
    if done = (plan.initializer node.lineage).length then
      some (s.goto i c (.attempt node handle now .disableConnections))
    else none

def State.initializerFailed (s : State χ) (i : Nat) : Option (State χ) :=
  (s.initializing i).map fun (c, node, handle, now, _) => s.goto i c (.attempt node handle now .abortDrop)

def State.tick (s : State χ) (i : Nat) (now : UInt64) : Option (State χ) :=
  s.clients[i]?.bind fun c =>
    match c.program, c.waiting with
    | .attempt node handle _ phase, false => some (s.goto i c (.attempt node handle now phase))
    | _, _ => none

def State.connectClient (s : State χ) (name : Text) (client : Nat) : Option (State χ) :=
  (s.server.find name).bind fun db =>
    if db.allowConnections then
      some { s with server := s.server.put name { db with clients := client :: db.clients } }
    else none

def State.disconnectClient (s : State χ) (name : Text) (client : Nat) : Option (State χ) :=
  (s.server.find name).map fun db =>
    { s with server := s.server.put name { db with clients := db.clients.erase client } }

/-- A text that is a template's record. -/
def templateRecord (text : Text) : Bool :=
  match ResourceMetadata.parse text with
  | some (.template ..) => true
  | _ => false

def writesRecord : {α : Type} → Statement α → Bool
  | _, .comment _ text => templateRecord text
  | _, _ => false

/-- What others may do: nothing with a template or `template0`, no locks here, and no template's record. -/
def Plan.permits {α : Type} (stmt : Statement α) : Bool :=
  !stmt.locking && stmt.target.all (fun name =>
    name != "template0".toList && plan.nodes.all fun n => (plan.request n).name.value != name) && !writesRecord stmt

def step (s : State χ) : Action χ → Option (State χ)
  | .begin node handle now =>
    if plan.nodes.contains node && s.hasSource node handle then
      some (s.connect (.attempt node handle now (.lockShared .first)))
    else none
  | .startSweep sw => some (s.connect (.sweep sw .listing))
  | .advance i o => if s.mayAdvance i o then s.advance (Program.code plan) i o else none
  | .tick i now => s.tick i now
  | .write i => s.write plan i
  | .initialized i => s.initialized plan i
  | .initializerFailed i => s.initializerFailed i
  | .lose i => s.lose i
  | .connect name client => s.connectClient name client
  | .disconnect name client => s.disconnectClient name client
  | .other session stmt =>
    if plan.permits stmt then (s.server.execute session stmt).map fun (server, _) => { s with server } else none

/-- No sessions yet, and no templates: `template0`, and what others have. -/
structure Initial (s : State χ) : Prop where
  clients : s.clients = []
  locks : s.server.locks = Table.empty
  template0 : ∃ db, s.server.find "template0".toList = some db ∧ db.content = plan.template0 ∧ db.clients = [] ∧
    db.allowConnections = false
  absent : ∀ n ∈ plan.nodes, s.server.find (plan.request n).name.value = none
  foreign : ∀ name db text, s.server.find name = some db → db.comment = some text → templateRecord text = false

def machine : Machine (State χ) (Action χ) where
  initial := Initial plan
  step := step plan

end Step

/-! ### What a step can be -/

/-- A session that runs an attempt. -/
structure State.Attempts (s : State χ) (i : Nat) (c : Client Program) (node : Node) (handle : Option Nat) (now : UInt64)
    (phase : Phase) : Prop where
  client : s.clients[i]? = some c
  program : c.program = .attempt node handle now phase

/-- A session that runs a sweep. -/
structure State.Sweeps (s : State χ) (i : Nat) (c : Client Program) (sw : StaleCleanup.Sweep)
    (phase : StaleCleanup.Phase) : Prop where
  client : s.clients[i]? = some c
  program : c.program = .sweep sw phase

/-- What a step can be, and whose it is. -/
inductive Transition (plan : Plan χ) (s t : State χ) : Option Nat → Prop where
  | begun {node handle now} : node ∈ plan.nodes → s.hasSource node handle = true →
      t = s.connect (.attempt node handle now (.lockShared .first)) → Transition plan s t none
  | sweepBegun {sw} : t = s.connect (.sweep sw .listing) → Transition plan s t none
  | turned {i c d node handle now phase after} : s.Attempts i c node handle now phase →
      Turn (plan.request node) now i c.connected s.server phase t.server after →
      (phase = .create → after = .tag → s.hasSource node handle = true) →
      d.program = .attempt node handle now after → d.connected = (c.connected && phase.returned.isNone) →
      t.clients = s.clients.set i d → Transition plan s t (some i)
  | swept {i c sw phase after} : s.Sweeps i c sw phase → StaleCleanup.Turn sw i c.connected s.server phase t.server after →
      t.clients = s.clients.set i (c.goto (.sweep sw after)) → Transition plan s t (some i)
  | ticked {i c node handle now now' phase} : s.Attempts i c node handle now phase → t.server = s.server →
      t.clients = s.clients.set i (c.goto (.attempt node handle now' phase)) → Transition plan s t (some i)
  | wrote {i c node handle now done db change} : s.Attempts i c node handle now (.initializing done) →
      c.connected = true → s.server.find (plan.request node).name.value = some db →
      (plan.initializer node.lineage)[done]? = some change →
      t.server = s.server.put (plan.request node).name.value { db with content := change db.content } →
      t.clients = s.clients.set i (c.goto (.attempt node handle now (.initializing (done + 1)))) →
      Transition plan s t (some i)
  | returned {i c node handle now done phase} : s.Attempts i c node handle now (.initializing done) →
      c.connected = true → phase = .disableConnections ∧ done = (plan.initializer node.lineage).length ∨ phase = .abortDrop →
      t.server = s.server → t.clients = s.clients.set i (c.goto (.attempt node handle now phase)) →
      Transition plan s t (some i)
  | lost {i c} : s.clients[i]? = some c →
      t.server = { s.server with locks := s.server.locks.endSession i } →
      t.clients = s.clients.set i { c with connected := false, waiting := false } → Transition plan s t (some i)
  | clientsChanged {name db clients} : s.server.find name = some db →
      (db.allowConnections = false → db.clients = [] → clients = []) →
      t.server = s.server.put name { db with clients } → t.clients = s.clients → Transition plan s t none
  | performed {session : Nat} {α : Type} {stmt : Statement α} {answer : α} : plan.permits stmt = true →
      s.server.execute session stmt = some (t.server, answer) → t.clients = s.clients → Transition plan s t none

variable {plan : Plan χ} {s t : State χ} {i : Nat}

theorem initializing_eq_some {c : Client Program} {node : Node} {handle : Option Nat} {now : UInt64} {done : Nat}
    (h : s.initializing i = some (c, node, handle, now, done)) :
    s.Attempts i c node handle now (.initializing done) ∧ c.connected = true := by
  obtain ⟨c', hc, h⟩ := Option.bind_eq_some_iff.mp h
  split at h
  · rename_i hprogram hconnected
    cases h
    exact ⟨⟨hc, hprogram⟩, hconnected⟩
  · cases h

/-- An attempt that has created its database had its source. -/
theorem source_of_created {o : Outcome} {c d : Client Program} {node : Node} {handle : Option Nat} {now : UInt64}
    (hmay : s.mayAdvance i o = true) (h : s.advance (Program.code plan) i o = some t)
    (hc : s.Attempts i c node handle now .create) (hclients : t.clients = s.clients.set i d)
    (hd : d.program = .attempt node handle now .tag) : s.hasSource node handle = true := by
  obtain ⟨program, waiting, connected⟩ := c
  obtain ⟨hi, rfl⟩ := hc
  have hlt := (List.getElem?_eq_some_iff.mp hi).1
  have hset : t.clients[i]? = some d := by rw [hclients, List.getElem?_set_self hlt]
  rw [State.mayAdvance, hi] at hmay
  rw [System.advance, hi] at h
  rcases Bool.or_eq_true_iff.mp hmay with ho | hsource
  · -- the statement was not run
    rcases Bool.or_eq_true_iff.mp ho with ho | ho
    · cases beq_iff_eq.mp ho
      cases connected <;> cases h <;>
      · rw [List.getElem?_set_self hlt] at hset
        cases hset
        cases hd
    · cases beq_iff_eq.mp ho
      cases connected
      · cases h
      · cases h
        rw [List.getElem?_set_self hlt] at hset
        cases hset
        cases hd
  · exact hsource

theorem step_transition {a : Action χ} (h : step plan s a = some t) : Transition plan s t a.session := by
  cases a with
  | begin node handle now =>
    obtain ⟨hboth, heq⟩ := Option.ite_none_right_eq_some.mp h
    cases heq
    obtain ⟨hnode, hsource⟩ := Bool.and_eq_true_iff.mp hboth
    exact .begun (List.contains_iff_mem.mp hnode) hsource rfl
  | startSweep sw =>
    cases h
    exact .sweepBegun rfl
  | advance i o =>
    obtain ⟨hmay, h⟩ := Option.ite_none_right_eq_some.mp h
    obtain ⟨c, d, next, hc, hcode, hadvanced, hclients⟩ := System.advance_eq_some h
    cases hprogram : c.program with
    | attempt node handle now phase =>
      rw [hprogram] at hcode
      obtain ⟨next, hnext, rfl⟩ := Option.map_eq_some_iff.mp hcode
      obtain ⟨after, hd, hconnected, hturn⟩ := turn_of_advanced hnext hadvanced hprogram
      refine .turned ⟨hc, hprogram⟩ hturn (fun hphase hafter => ?_) hd hconnected hclients
      subst hphase hafter
      exact source_of_created hmay h ⟨hc, hprogram⟩ hclients hd
    | sweep sw phase =>
      rw [hprogram] at hcode
      obtain ⟨next, hnext, rfl⟩ := Option.map_eq_some_iff.mp hcode
      obtain ⟨after, rfl, hturn⟩ := StaleCleanup.turn_of_advanced hnext hadvanced
      exact .swept ⟨hc, hprogram⟩ hturn hclients
  | tick i now =>
    obtain ⟨c, hc, h⟩ := Option.bind_eq_some_iff.mp h
    split at h
    · rename_i hprogram hwaiting
      cases h
      exact .ticked ⟨hc, hprogram⟩ rfl rfl
    · cases h
  | write i =>
    obtain ⟨⟨c, node, handle, now, done⟩, hinit, h⟩ := Option.bind_eq_some_iff.mp h
    obtain ⟨db, hdb, h⟩ := Option.bind_eq_some_iff.mp h
    obtain ⟨change, hchange, h⟩ := Option.bind_eq_some_iff.mp h
    obtain ⟨_, heq⟩ := Option.ite_none_right_eq_some.mp h
    cases heq
    obtain ⟨hattempt, hconnected⟩ := initializing_eq_some hinit
    exact .wrote hattempt hconnected hdb hchange rfl rfl
  | initialized i =>
    obtain ⟨⟨c, node, handle, now, done⟩, hinit, h⟩ := Option.bind_eq_some_iff.mp h
    obtain ⟨hdone, heq⟩ := Option.ite_none_right_eq_some.mp h
    cases heq
    obtain ⟨hattempt, hconnected⟩ := initializing_eq_some hinit
    exact .returned hattempt hconnected (Or.inl ⟨rfl, hdone⟩) rfl rfl
  | initializerFailed i =>
    obtain ⟨⟨c, node, handle, now, done⟩, hinit, heq⟩ := Option.map_eq_some_iff.mp h
    cases heq
    obtain ⟨hattempt, hconnected⟩ := initializing_eq_some hinit
    exact .returned hattempt hconnected (Or.inr rfl) rfl rfl
  | lose i =>
    obtain ⟨c, hc, hserver, hclients⟩ := System.lose_eq_some h
    exact .lost hc hserver hclients
  | connect name client =>
    obtain ⟨db, hdb, h⟩ := Option.bind_eq_some_iff.mp h
    obtain ⟨hallow, heq⟩ := Option.ite_none_right_eq_some.mp h
    cases heq
    refine .clientsChanged hdb (fun hclosed => ?_) rfl rfl
    rw [hclosed] at hallow
    cases hallow
  | disconnect name client =>
    obtain ⟨db, hdb, heq⟩ := Option.map_eq_some_iff.mp h
    cases heq
    exact .clientsChanged hdb (fun _ hnone => by rw [hnone]; rfl) rfl rfl
  | other session stmt =>
    obtain ⟨hpermits, h⟩ := Option.ite_none_right_eq_some.mp h
    obtain ⟨⟨server, answer⟩, hrun, heq⟩ := Option.map_eq_some_iff.mp h
    cases heq
    exact .performed hpermits hrun rfl

end PostgresTestHarness.Template
