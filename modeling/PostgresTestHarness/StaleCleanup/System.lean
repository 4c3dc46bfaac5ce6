import PostgresTestHarness.Library.Machine
import PostgresTestHarness.StaleCleanup.Program

/-! Sweeps among other sessions.

Any number of sweeps run with sessions of others, which take and release locks and change
databases as they like, except that a database with a harness record is changed only
for a session that holds the key in the record. -/
namespace PostgresTestHarness.StaleCleanup
open SessionLock Postgres

/-- What runs on a session: a sweep, or somebody else, who may be asking for a lock. -/
inductive Program where
  | sweep (sw : Sweep) (phase : Phase)
  | other (asked : Option (Mode × Int64))
  deriving DecidableEq

def Program.code : Program → Option (Code Program)
  | .sweep sw phase => (StaleCleanup.code sw phase).map (Code.map (.sweep sw))
  | .other asked => asked.map fun (mode, key) => .acquire mode key (.other none) (.other none)

/-- Others take whatever locks they like. -/
def Program.holds : Program → Option (List (Int64 × Mode))
  | .sweep _ phase => StaleCleanup.holds phase
  | .other _ => none

abbrev State (χ : Type) := System χ Program

inductive Action : Type 1 where
  | startSweep (sw : Sweep)
  | startOther
  | advance (i : Nat) (o : Outcome)
  | lose (i : Nat)
  | ask (i : Nat) (mode : Mode) (key : Int64)
  | perform (i holder : Nat) {α : Type} (stmt : Statement α)

variable {χ : Type}

/-- The session of somebody else that is not waiting. -/
def State.free (s : State χ) (i : Nat) : Bool :=
  match s.clients[i]? with
  | some ⟨.other none, false, true⟩ => true
  | _ => false

/-- The session of somebody else. -/
def State.other (s : State χ) (i : Nat) : Bool :=
  match s.clients[i]? with
  | some ⟨.other _, _, true⟩ => true
  | _ => false

/-- The record of a database by this name. -/
def State.metadata (s : State χ) (name : Text) : Option ResourceMetadata :=
  (s.server.find name).bind fun db => db.comment.bind ResourceMetadata.parse

/-- Whether a session of somebody else stands for a change of the database: it has no record,
or the session holds its key. -/
def State.entitled (s : State χ) (holder : Nat) (name : Text) : Bool :=
  match s.metadata name with
  | none => true
  | some metadata =>
    s.other holder && s.server.locks.held.any fun lock => lock.session == holder && lock.key == metadata.lockKey

def State.ask (s : State χ) (i : Nat) (mode : Mode) (key : Int64) : State χ :=
  { s with clients := s.clients.set i ⟨.other (some (mode, key)), false, true⟩ }

def step (s : State χ) : Action → Option (State χ)
  | .startSweep sw => some (s.connect (.sweep sw .listing))
  | .startOther => some (s.connect (.other none))
  | .advance i o => s.advance Program.code i o
  | .lose i => s.lose i
  | .ask i mode key => if s.free i then some (s.ask i mode key) else none
  | .perform i holder stmt =>
    if s.free i && stmt.target.all (s.entitled holder) then
      (s.server.execute i stmt).map fun (server, _) => { s with server }
    else none

/-- Any catalog, and no session yet. -/
structure Initial (s : State χ) : Prop where
  clients : s.clients = []
  locks : s.server.locks = Table.empty
  drops : s.server.drops = []
  numbered : s.server.Numbered

def machine (χ : Type) : Machine (State χ) Action where
  initial := Initial
  step := step

/-- What a step can be, and whose it is: a new session, a turn of a sweep, a change of locks for
somebody else, a statement of somebody else, the end of a session. -/
inductive Transition (s t : State χ) : Option Nat → Prop where
  | connected {p : Program} : (∃ sw, p = .sweep sw .listing) ∨ p = .other none → t = s.connect p →
      Transition s t none
  | turned {i : Nat} {sw : Sweep} {phase after : Phase} {c : Client Program} : s.clients[i]? = some c →
      c.program = .sweep sw phase → Turn sw i c.connected s.server phase t.server after →
      t.clients = s.clients.set i (c.goto (.sweep sw after)) → Transition s t (some i)
  | otherLocks {i : Nat} {c d : Client Program} {asked asked' : Option (Mode × Int64)} : s.clients[i]? = some c →
      c.program = .other asked → d.program = .other asked' → t.clients = s.clients.set i d →
      t.server.databases = s.server.databases → t.server.nextOid = s.server.nextOid →
      t.server.drops = s.server.drops → Transition s t (some i)
  | performed {i : Nat} (holder : Nat) {α : Type} {stmt : Statement α} {answer : α}
      {asked : Option (Mode × Int64)} {c : Client Program} : s.clients[i]? = some c → c.program = .other asked →
      (∀ name, stmt.target = some name → s.entitled holder name = true) →
      s.server.execute i stmt = some (t.server, answer) → t.clients = s.clients → Transition s t (some i)
  | lost {i : Nat} {c : Client Program} : s.clients[i]? = some c →
      t.server = { s.server with locks := s.server.locks.endSession i } →
      t.clients = s.clients.set i { c with connected := false, waiting := false } → Transition s t (some i)

theorem free_cases {s : State χ} {i : Nat} (h : s.free i = true) :
    s.clients[i]? = some ⟨.other none, false, true⟩ := by
  rw [State.free] at h
  split at h
  · rename_i heq
    exact heq
  · cases h

/-- Asking, waiting and giving up change no database. -/
theorem Advanced.otherLocks {ρ : Type} {i : Nat} {s t : Server χ} {c d : Client ρ} {mode : Mode} {key : Int64}
    {ok failed : ρ} (h : Advanced i s c (.acquire mode key ok failed) t d) :
    (d.program = c.program ∨ d.program = ok ∨ d.program = failed) ∧ t.databases = s.databases ∧
      t.nextOid = s.nextOid ∧ t.drops = s.drops := by
  cases h with
  | requested => exact ⟨Or.inl rfl, rfl, rfl, rfl⟩
  | granted => exact ⟨Or.inr (Or.inl rfl), rfl, rfl, rfl⟩
  | grantedUnseen => exact ⟨Or.inr (Or.inr rfl), rfl, rfl, rfl⟩
  | withdrawn => exact ⟨Or.inr (Or.inr rfl), rfl, rfl, rfl⟩
  | notAsked => exact ⟨Or.inr (Or.inr rfl), rfl, rfl, rfl⟩

theorem step_transition {s t : State χ} {a : Action} (h : step s a = some t) : ∃ actor, Transition s t actor := by
  cases a with
  | startSweep sw =>
    cases h
    exact ⟨_, .connected (Or.inl ⟨sw, rfl⟩) rfl⟩
  | startOther =>
    cases h
    exact ⟨_, .connected (Or.inr rfl) rfl⟩
  | advance i o =>
    obtain ⟨c, d, next, hc, hcode, hadvanced, hclients⟩ := System.advance_eq_some h
    cases hprogram : c.program with
    | sweep sw phase =>
      rw [hprogram] at hcode
      obtain ⟨next, hnext, rfl⟩ := Option.map_eq_some_iff.mp hcode
      obtain ⟨after, rfl, hturn⟩ := turn_of_advanced hnext hadvanced
      exact ⟨_, .turned hc hprogram hturn hclients⟩
    | other asked =>
      rw [hprogram] at hcode
      obtain ⟨⟨mode, key⟩, rfl, rfl⟩ := Option.map_eq_some_iff.mp hcode
      obtain ⟨hd, hdatabases, hnext, hdrops⟩ := Advanced.otherLocks hadvanced
      have hother : ∃ asked, d.program = .other asked := by
        rcases hd with hd | hd | hd
        · exact ⟨_, hd.trans hprogram⟩
        · exact ⟨_, hd⟩
        · exact ⟨_, hd⟩
      obtain ⟨asked, hother⟩ := hother
      exact ⟨_, .otherLocks hc hprogram hother hclients hdatabases hnext hdrops⟩
  | lose i =>
    obtain ⟨c, hc, hserver, hclients⟩ := System.lose_eq_some h
    exact ⟨_, .lost hc hserver hclients⟩
  | ask i mode key =>
    obtain ⟨hfree, heq⟩ := Option.ite_none_right_eq_some.mp h
    cases heq
    exact ⟨_, .otherLocks (free_cases hfree) rfl rfl rfl rfl rfl rfl⟩
  | perform i holder stmt =>
    obtain ⟨hboth, heq⟩ := Option.ite_none_right_eq_some.mp h
    obtain ⟨⟨server, answer⟩, hrun, heq⟩ := Option.map_eq_some_iff.mp heq
    cases heq
    obtain ⟨hfree, hentitled⟩ := Bool.and_eq_true_iff.mp hboth
    refine ⟨_, .performed holder (free_cases hfree) rfl (fun name hname => ?_) hrun rfl⟩
    rw [hname] at hentitled
    exact hentitled

end PostgresTestHarness.StaleCleanup
