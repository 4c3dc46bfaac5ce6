import PostgresTestHarness.StaleCleanup.Report
import PostgresTestHarness.Template.System

/-! Who may touch a template.

Sessions hold what their programs hold (`tidy`), so that nobody else holds a key that one
holds exclusively. What a step changes of a template is changed by a session that holds the
template's key exclusively, or is only who is connected (`Change`). -/
namespace PostgresTestHarness.Template
open SessionLock Postgres

variable {χ : Type} {plan : Plan χ} {s t : State χ} {i : Nat}

/-! ### Others -/

/-- What others leave alone. -/
structure Permitted (plan : Plan χ) {α : Type} (stmt : Statement α) : Prop where
  locking : stmt.locking = false
  template0 : stmt.target ≠ some "template0".toList
  nodes : ∀ n ∈ plan.nodes, stmt.target ≠ some (plan.request n).name.value

theorem permitted {α : Type} {stmt : Statement α} (h : plan.permits stmt = true) : Permitted plan stmt := by
  rw [Plan.permits, Bool.and_eq_true, Bool.and_eq_true] at h
  obtain ⟨⟨hlocking, htarget⟩, _⟩ := h
  have hname : ∀ name, stmt.target = some name → name ≠ "template0".toList ∧
      ∀ n ∈ plan.nodes, (plan.request n).name.value ≠ name := by
    intro name hname
    rw [hname, Option.all_some, Bool.and_eq_true, bne_iff_ne, List.all_eq_true] at htarget
    exact ⟨htarget.1, fun n hn => bne_iff_ne.mp (htarget.2 n hn)⟩
  exact ⟨by simpa using hlocking, fun h => (hname _ h).1 rfl, fun n hn h => (hname _ h).2 n hn rfl⟩

/-- A database after a step has the comment it had, or none, or another that the step wrote. -/
def Commented (s : Server χ) (name : Text) (wrote : Text → Prop) (comment : Option Text) : Prop :=
  (∃ db, s.find name = some db ∧ comment = db.comment) ∨ comment = none ∨ ∃ text, comment = some text ∧ wrote text

section Commented
variable {u v : Server χ} {name other : Text} {db : Database χ} {wrote : Text → Prop}

theorem Commented.mono {wrote' : Text → Prop} {comment : Option Text} (h : Commented u name wrote comment)
    (himp : ∀ text, wrote text → wrote' text) : Commented u name wrote' comment := by
  rcases h with h | h | ⟨text, heq, hwrote⟩
  · exact Or.inl h
  · exact Or.inr (Or.inl h)
  · exact Or.inr (Or.inr ⟨text, heq, himp text hwrote⟩)

theorem commented_of_find (h : v.find name = u.find name) (hdb : v.find name = some db) :
    Commented u name wrote db.comment := Or.inl ⟨db, h ▸ hdb, rfl⟩

/-- A change of a database that keeps its comment, or writes another. -/
theorem commented_put {changed : Database χ} (hdb : (u.put other changed).find name = some db)
    (hchanged : name = other → Commented u name wrote changed.comment) : Commented u name wrote db.comment := by
  rw [Server.find_put] at hdb
  split at hdb
  · rename_i hname
    cases hdb
    exact hchanged hname
  · exact Or.inl ⟨db, hdb, rfl⟩

theorem commented_drop {session : Nat} (hdb : (u.dropDatabase session other).find name = some db) :
    Commented u name wrote db.comment := by
  rw [Server.find_drop] at hdb
  split at hdb
  · cases hdb
  · exact Or.inl ⟨db, hdb, rfl⟩

theorem commented_create {source : Text} (h : u.createDatabase other source = some v) (hdb : v.find name = some db) :
    Commented u name wrote db.comment := by
  obtain ⟨_, original, _, _, rfl⟩ := Server.createDatabase_eq_some.mp h
  exact @commented_put χ u name other db wrote _ hdb fun _ => Or.inr (Or.inl rfl)

theorem commented_terminate (hdb : (u.terminate other).find name = some db) : Commented u name wrote db.comment := by
  rw [Server.terminate] at hdb
  split at hdb
  · rename_i before hbefore
    exact commented_put hdb fun hname => Or.inl ⟨before, hname ▸ hbefore, rfl⟩
  · exact Or.inl ⟨db, hdb, rfl⟩

/-- Others write no template's record. -/
theorem commented_performed {session : Nat} {α : Type} {stmt : Statement α} {answer : α}
    (hpermits : plan.permits stmt = true) (h : u.execute session stmt = some (v, answer))
    (hdb : v.find name = some db) : Commented u name (fun text => templateRecord text = false) db.comment := by
  cases stmt with
  | tryLock key => cases (permitted hpermits).locking
  | unlock mode key => cases (permitted hpermits).locking
  | find _ => cases h; exact commented_of_find rfl hdb
  | list => cases h; exact commented_of_find rfl hdb
  | create other source =>
    obtain ⟨_, hu, heq⟩ := Option.map_eq_some_iff.mp h
    cases heq
    exact commented_create hu hdb
  | comment other text =>
    obtain ⟨_, hu, heq⟩ := Option.map_eq_some_iff.mp h
    cases heq
    obtain ⟨before, _, rfl⟩ := Server.alter_eq_some.mp hu
    have htext : templateRecord text = false := by simpa [writesRecord] using (Bool.and_eq_true_iff.mp hpermits).2
    exact commented_put hdb fun _ => Or.inr (Or.inr ⟨text, rfl, htext⟩)
  | drop other => cases h; exact commented_drop hdb
  | disableConnections other =>
    obtain ⟨_, hu, heq⟩ := Option.map_eq_some_iff.mp h
    cases heq
    obtain ⟨before, hbefore, rfl⟩ := Server.alter_eq_some.mp hu
    exact commented_put hdb fun hname => Or.inl ⟨before, hname ▸ hbefore, rfl⟩
  | terminateConnections other => cases h; exact commented_terminate hdb
  | connectionsRemain _ => cases h; exact commented_of_find rfl hdb

/-- An attempt writes records of its template, to the database of its template. -/
theorem commented_turn {r : Request} {now : UInt64} {connected : Bool} {phase next : Phase}
    (h : Turn r now i connected u phase v next) (hdb : v.find name = some db) :
    Commented u name (fun text => name = r.name.value ∧ ∃ state created, text = (r.metadata state created).encode)
      db.comment := by
  rcases h.edit with hsame | ⟨_, hedit⟩
  · exact commented_of_find (hsame.find name) hdb
  cases hedit with
  | dropped => exact commented_drop hdb
  | created hcreate => exact commented_create hcreate hdb
  | terminated => exact commented_terminate hdb
  | @disabled before hbefore => exact commented_put hdb fun hname => Or.inl ⟨before, hname ▸ hbefore, rfl⟩
  | tagged => exact commented_put hdb fun hname => Or.inr (Or.inr ⟨_, rfl, hname, _, _, rfl⟩)
  | taggedReady => exact commented_put hdb fun hname => Or.inr (Or.inr ⟨_, rfl, hname, _, _, rfl⟩)

theorem commented_swept {sw : StaleCleanup.Sweep} {connected : Bool} {phase next : StaleCleanup.Phase}
    (h : StaleCleanup.Turn sw i connected u phase v next) (hdb : v.find name = some db) :
    Commented u name wrote db.comment := by
  have hsame : v.databases = u.databases → Commented u name wrote db.comment :=
    fun hdatabases => commented_of_find (by rw [Server.find, hdatabases, Server.find]) hdb
  cases h with
  | dropped => exact commented_drop hdb
  | droppedUnseen => exact commented_drop hdb
  | lockFailed hdatabases => exact hsame hdatabases
  | unlockFailed hdatabases => exact hsame hdatabases
  | _ => exact hsame rfl

end Commented

/-! ### Locks -/

theorem program_discipline (plan : Plan χ) : Discipline (Program.code plan) (Program.holds plan) := by
  intro p next h
  cases p with
  | attempt node handle now phase =>
    obtain ⟨next, hnext, rfl⟩ := Option.map_eq_some_iff.mp h
    exact (Code.follows_map _ _ _ _).mpr (discipline (plan.request node) now phase next hnext)
  | sweep sw phase =>
    obtain ⟨next, hnext, rfl⟩ := Option.map_eq_some_iff.mp h
    exact (Code.follows_map _ _ _ _).mpr (StaleCleanup.discipline sw phase next hnext)

abbrev Tidy (plan : Plan χ) (s : State χ) : Prop := Kept (Program.code plan) (Program.holds plan) s

theorem requests_initializing {c : Client Program} {node : Node} {handle : Option Nat} {now : UInt64} {done : Nat}
    (h : c.program = .attempt node handle now (.initializing done)) : c.requests (Program.code plan) i = [] := by
  rw [Client.requests, h]
  cases c.waiting <;> rfl

/-- An initializer leaves its session's locks alone. -/
theorem tidy_goto (hs : Tidy plan s) {c : Client Program} {node : Node} {handle : Option Nat} {now : UInt64}
    {done : Nat} {phase : Phase} (hc : s.Attempts i c node handle now (.initializing done))
    (hserver : t.server.locks = s.server.locks)
    (hclients : t.clients = s.clients.set i (c.goto (.attempt node handle now phase)))
    (hphase : ∀ r : Request, holds r phase = holds r (.initializing done)) : Tidy plan t := by
  refine hs.goto hc.client hclients hserver rfl ((requests_initializing hc.program).trans (requests_goto _).symm)
    (fun _ => rfl) fun l hl => ?_
  rw [hc.program]
  exact (hphase _).symm.trans hl

theorem tidy_step {a : Action χ} (hs : Tidy plan s) (h : step plan s a = some t) : Tidy plan t := by
  cases a with
  | begin node handle now =>
    obtain ⟨_, heq⟩ := Option.ite_none_right_eq_some.mp h
    cases heq
    exact hs.connect _ fun l hl => (Option.some.inj hl).symm
  | startSweep sw =>
    cases h
    exact hs.connect _ fun l hl => (Option.some.inj hl).symm
  | advance i o =>
    obtain ⟨_, h⟩ := Option.ite_none_right_eq_some.mp h
    exact hs.advance (program_discipline plan) h
  | tick i now =>
    obtain ⟨c, hc, h⟩ := Option.bind_eq_some_iff.mp h
    split at h
    · rename_i hprogram hwaiting
      cases h
      refine hs.goto hc rfl rfl rfl ((requests_of_not_waiting hwaiting).trans (requests_goto _).symm) (fun _ => rfl)
        fun l hl => ?_
      rw [hprogram]
      exact hl
    · cases h
  | write i =>
    obtain ⟨⟨c, node, handle, now, done⟩, hinit, h⟩ := Option.bind_eq_some_iff.mp h
    obtain ⟨db, _, h⟩ := Option.bind_eq_some_iff.mp h
    obtain ⟨change, _, h⟩ := Option.bind_eq_some_iff.mp h
    obtain ⟨_, heq⟩ := Option.ite_none_right_eq_some.mp h
    cases heq
    exact tidy_goto hs (initializing_eq_some hinit).1 rfl rfl fun _ => rfl
  | initialized i =>
    obtain ⟨⟨c, node, handle, now, done⟩, hinit, h⟩ := Option.bind_eq_some_iff.mp h
    obtain ⟨_, heq⟩ := Option.ite_none_right_eq_some.mp h
    cases heq
    exact tidy_goto hs (initializing_eq_some hinit).1 rfl rfl fun _ => rfl
  | initializerFailed i =>
    obtain ⟨⟨c, node, handle, now, done⟩, hinit, heq⟩ := Option.map_eq_some_iff.mp h
    cases heq
    exact tidy_goto hs (initializing_eq_some hinit).1 rfl rfl fun _ => rfl
  | lose i => exact hs.lose h
  | connect name client =>
    obtain ⟨db, _, h⟩ := Option.bind_eq_some_iff.mp h
    obtain ⟨_, heq⟩ := Option.ite_none_right_eq_some.mp h
    cases heq
    exact hs.of_locks rfl rfl
  | disconnect name client =>
    obtain ⟨db, _, heq⟩ := Option.map_eq_some_iff.mp h
    cases heq
    exact hs.of_locks rfl rfl
  | other session stmt =>
    obtain ⟨hpermits, h⟩ := Option.ite_none_right_eq_some.mp h
    obtain ⟨⟨server, answer⟩, hrun, heq⟩ := Option.map_eq_some_iff.mp h
    cases heq
    exact hs.of_locks (Server.execute_locks hrun (permitted hpermits).locking) rfl

theorem tidy_initial (h : Initial plan s) : Tidy plan s := .initial h.locks h.clients

theorem tidy (hs : (machine plan).Reachable s) : Tidy plan s :=
  Machine.Invariant.holds (m := machine plan) ⟨fun _ => tidy_initial, fun _ _ _ _ => tidy_step⟩ hs

/-! ### The course of a program -/

/-- How an attempt comes to where it is after a step: it is new, has had its turn, its initializer
has written or returned, or it stays while others act, with its session or without. -/
inductive Course (plan : Plan χ) (s t : State χ) (actor : Option Nat) (j : Nat) (d : Client Program) (node : Node)
    (handle : Option Nat) : Phase → Prop where
  | begun : node ∈ plan.nodes → s.hasSource node handle = true → j = s.clients.length → t.server = s.server →
      Course plan s t actor j d node handle (.lockShared .first)
  | turned {c now before phase} : s.Attempts j c node handle now before →
      d.connected = (c.connected && before.returned.isNone) →
      Turn (plan.request node) now j c.connected s.server before t.server phase →
      (before = .create → phase = .tag → s.hasSource node handle = true) → Course plan s t actor j d node handle phase
  | wrote {c now done db change} : s.Attempts j c node handle now (.initializing done) → c.connected = true →
      s.server.find (plan.request node).name.value = some db → (plan.initializer node.lineage)[done]? = some change →
      t.server = s.server.put (plan.request node).name.value { db with content := change db.content } →
      Course plan s t actor j d node handle (.initializing (done + 1))
  | returned {c now done phase} : s.Attempts j c node handle now (.initializing done) → c.connected = true →
      phase = .disableConnections ∧ done = (plan.initializer node.lineage).length ∨ phase = .abortDrop →
      t.server = s.server → Course plan s t actor j d node handle phase
  | stayed {c now phase} : s.Attempts j c node handle now phase → (d.connected = true → c.connected = true) →
      (actor ≠ some j ∨ SameCatalog s.server t.server) → Course plan s t actor j d node handle phase

theorem course_of_transition {actor : Option Nat} (h : Transition plan s t actor) {j : Nat} {d : Client Program}
    {node : Node} {handle : Option Nat} {now : UInt64} {phase : Phase} (hd : t.Attempts j d node handle now phase) :
    Course plan s t actor j d node handle phase := by
  obtain ⟨hj, hprogram⟩ := hd
  -- a session that was there, and whose place is not the actor's
  have hother : ∀ {k : Nat}, actor = some k → j ≠ k → s.clients[j]? = some d → Course plan s t actor j d node handle phase :=
    fun hactor hjk hj => .stayed ⟨hj, hprogram⟩ id (Or.inl fun h => hjk (Option.some.inj (h.symm.trans hactor)))
  have hnobody : actor = none → s.clients[j]? = some d → Course plan s t actor j d node handle phase :=
    fun hactor hj => .stayed ⟨hj, hprogram⟩ id (Or.inl fun h => by rw [hactor] at h; cases h)
  cases h with
  | begun hnode hsource ht =>
    rw [ht] at hj
    rcases Ledger.getElem?_concat_cases hj with ⟨rfl, rfl⟩ | hj
    · cases hprogram
      exact .begun hnode hsource rfl (by rw [ht]; rfl)
    · exact hnobody rfl hj
  | sweepBegun ht =>
    rw [ht] at hj
    rcases Ledger.getElem?_concat_cases hj with ⟨rfl, rfl⟩ | hj
    · cases hprogram
    · exact hnobody rfl hj
  | turned hc hturn hsource hd hconnected hclients =>
    rw [hclients] at hj
    rcases Ledger.getElem?_set_cases hj with ⟨rfl, rfl⟩ | ⟨hji, hj⟩
    · cases hprogram.symm.trans hd
      exact .turned hc hconnected hturn hsource
    · exact hother rfl hji hj
  | swept hc _ hclients =>
    rw [hclients] at hj
    rcases Ledger.getElem?_set_cases hj with ⟨rfl, rfl⟩ | ⟨hji, hj⟩
    · cases hprogram
    · exact hother rfl hji hj
  | ticked hc hserver hclients =>
    rw [hclients] at hj
    rcases Ledger.getElem?_set_cases hj with ⟨rfl, rfl⟩ | ⟨hji, hj⟩
    · cases hprogram
      exact .stayed hc id (Or.inr (by rw [hserver]; exact .refl _))
    · exact hother rfl hji hj
  | wrote hc hconnected hdb hchange hserver hclients =>
    rw [hclients] at hj
    rcases Ledger.getElem?_set_cases hj with ⟨rfl, rfl⟩ | ⟨hji, hj⟩
    · cases hprogram
      exact .wrote hc hconnected hdb hchange hserver
    · exact hother rfl hji hj
  | returned hc hconnected hphase hserver hclients =>
    rw [hclients] at hj
    rcases Ledger.getElem?_set_cases hj with ⟨rfl, rfl⟩ | ⟨hji, hj⟩
    · cases hprogram
      exact .returned hc hconnected hphase hserver
    · exact hother rfl hji hj
  | lost hc hserver hclients =>
    rw [hclients] at hj
    rcases Ledger.getElem?_set_cases hj with ⟨rfl, rfl⟩ | ⟨hji, hj⟩
    · exact .stayed ⟨hc, hprogram⟩ nofun (Or.inr (by rw [hserver]; exact ⟨rfl, rfl, rfl⟩))
    · exact hother rfl hji hj
  | clientsChanged _ _ _ hclients => exact hnobody rfl (hclients ▸ hj)
  | performed _ _ hclients => exact hnobody rfl (hclients ▸ hj)

/-- How a sweep comes to where it is. -/
theorem sweeps_cases {actor : Option Nat} (h : Transition plan s t actor) {j : Nat} {d : Client Program}
    {sw : StaleCleanup.Sweep} {phase : StaleCleanup.Phase} (hd : t.Sweeps j d sw phase) :
    phase = .listing ∨
    (∃ c before, s.Sweeps j c sw before ∧ StaleCleanup.Turn sw j c.connected s.server before t.server phase) ∨
    ∃ c, s.Sweeps j c sw phase := by
  obtain ⟨hj, hprogram⟩ := hd
  cases h with
  | begun _ _ ht =>
    rw [ht] at hj
    rcases Ledger.getElem?_concat_cases hj with ⟨rfl, rfl⟩ | hj
    · cases hprogram
    · exact Or.inr (Or.inr ⟨d, hj, hprogram⟩)
  | sweepBegun ht =>
    rw [ht] at hj
    rcases Ledger.getElem?_concat_cases hj with ⟨rfl, rfl⟩ | hj
    · cases hprogram
      exact Or.inl rfl
    · exact Or.inr (Or.inr ⟨d, hj, hprogram⟩)
  | turned _ _ _ hd' _ hclients =>
    rw [hclients] at hj
    rcases Ledger.getElem?_set_cases hj with ⟨rfl, rfl⟩ | ⟨_, hj⟩
    · cases hprogram.symm.trans hd'
    · exact Or.inr (Or.inr ⟨d, hj, hprogram⟩)
  | swept hc hturn hclients =>
    rw [hclients] at hj
    rcases Ledger.getElem?_set_cases hj with ⟨rfl, rfl⟩ | ⟨_, hj⟩
    · cases hprogram
      exact Or.inr (Or.inl ⟨_, _, hc, hturn⟩)
    · exact Or.inr (Or.inr ⟨d, hj, hprogram⟩)
  | ticked _ _ hclients =>
    rw [hclients] at hj
    rcases Ledger.getElem?_set_cases hj with ⟨rfl, rfl⟩ | ⟨_, hj⟩
    · cases hprogram
    · exact Or.inr (Or.inr ⟨d, hj, hprogram⟩)
  | wrote _ _ _ _ _ hclients =>
    rw [hclients] at hj
    rcases Ledger.getElem?_set_cases hj with ⟨rfl, rfl⟩ | ⟨_, hj⟩
    · cases hprogram
    · exact Or.inr (Or.inr ⟨d, hj, hprogram⟩)
  | returned _ _ _ _ hclients =>
    rw [hclients] at hj
    rcases Ledger.getElem?_set_cases hj with ⟨rfl, rfl⟩ | ⟨_, hj⟩
    · cases hprogram
    · exact Or.inr (Or.inr ⟨d, hj, hprogram⟩)
  | lost hc _ hclients =>
    rw [hclients] at hj
    rcases Ledger.getElem?_set_cases hj with ⟨rfl, rfl⟩ | ⟨_, hj⟩
    · exact Or.inr (Or.inr ⟨_, hc, hprogram⟩)
    · exact Or.inr (Or.inr ⟨d, hj, hprogram⟩)
  | clientsChanged _ _ _ hclients => exact Or.inr (Or.inr ⟨d, hclients ▸ hj, hprogram⟩)
  | performed _ _ hclients => exact Or.inr (Or.inr ⟨d, hclients ▸ hj, hprogram⟩)

/-! ### Records -/

/-- A comment that is none, or a record of the template. -/
def Own (plan : Plan χ) (n : Node) (comment : Option Text) : Prop :=
  ∀ text, comment = some text → ∃ state created, text = ((plan.request n).metadata state created).encode

/-- Templates have no records but their own, in the catalog and in what sweeps have read of it, and
no other database has a template's record. -/
structure Recorded (plan : Plan χ) (s : State χ) : Prop where
  member : ∀ i c node handle now phase, s.Attempts i c node handle now phase → node ∈ plan.nodes
  own : ∀ n ∈ plan.nodes, ∀ db, s.server.find (plan.request n).name.value = some db → Own plan n db.comment
  foreign : ∀ name db text, s.server.find name = some db → (∀ n ∈ plan.nodes, name ≠ (plan.request n).name.value) →
    db.comment = some text → templateRecord text = false
  grounded : ∀ i c sw phase, s.Sweeps i c sw phase → phase.Grounded sw
  read : ∀ i c sw phase, s.Sweeps i c sw phase → ∀ record ∈ phase.ahead, ∀ n ∈ plan.nodes,
    record.name = (plan.request n).name.value → Own plan n record.comment

/-- What a step writes to a database. -/
theorem commented {actor : Option Nat} (hs : Recorded plan s) (h : Transition plan s t actor) {name : Text}
    {db : Database χ} (hdb : t.server.find name = some db) : Commented s.server name (fun text =>
      templateRecord text = false ∧ (∀ n ∈ plan.nodes, name ≠ (plan.request n).name.value) ∨
      ∃ n ∈ plan.nodes, name = (plan.request n).name.value ∧
        ∃ state created, text = ((plan.request n).metadata state created).encode) db.comment := by
  cases h with
  | begun _ _ ht => exact commented_of_find (by rw [ht]; rfl) hdb
  | sweepBegun ht => exact commented_of_find (by rw [ht]; rfl) hdb
  | @turned j c d node handle now phase after hc hturn =>
    refine (commented_turn hturn hdb).mono fun text hwrote => Or.inr ⟨node, ?_, hwrote⟩
    exact hs.member _ _ _ _ _ _ hc
  | swept _ hturn => exact commented_swept hturn hdb
  | ticked _ hserver => exact commented_of_find (by rw [hserver]) hdb
  | @wrote _ _ _ _ _ _ before _ _ _ hbefore _ hserver =>
    rw [hserver] at hdb
    exact commented_put hdb fun hname => Or.inl ⟨before, hname ▸ hbefore, rfl⟩
  | returned _ _ _ hserver => exact commented_of_find (by rw [hserver]) hdb
  | lost _ hserver => exact commented_of_find (by rw [hserver]; rfl) hdb
  | @clientsChanged _ before _ hbefore _ hserver =>
    rw [hserver] at hdb
    exact commented_put hdb fun hname => Or.inl ⟨before, hname ▸ hbefore, rfl⟩
  | performed hpermits hrun =>
    by_cases hname : ∀ n ∈ plan.nodes, name ≠ (plan.request n).name.value
    · exact (commented_performed hpermits hrun hdb).mono fun text hwrote => Or.inl ⟨hwrote, hname⟩
    · simp only [not_forall, ne_eq, not_not] at hname
      obtain ⟨n, hn, hname⟩ := hname
      refine commented_of_find (Server.execute_find hrun ?_) hdb
      rw [hname]
      exact (permitted hpermits).nodes n hn

theorem recorded_initial (h : Initial plan s) : Recorded plan s := by
  refine ⟨fun i c _ _ _ _ hc => ?_, fun n hn db hdb => ?_, fun name db text hdb _ => h.foreign name db text hdb,
    fun i c _ _ hc => ?_, fun i c _ _ hc => ?_⟩
  · have := hc.client
    rw [h.clients] at this
    cases this
  · rw [h.absent n hn] at hdb
    cases hdb
  all_goals
    have := hc.client
    rw [h.clients] at this
    cases this

theorem recorded_step {actor : Option Nat} (hs : Recorded plan s) (h : Transition plan s t actor) : Recorded plan t := by
  refine ⟨fun j d node handle now phase hd => ?_, fun n hn db hdb text htext => ?_, fun name db text hdb hname htext => ?_,
    fun j d sw phase hd => ?_, fun j d sw phase hd record hrecord n hn hname => ?_⟩
  · cases course_of_transition h hd with
    | begun hnode => exact hnode
    | turned hc => exact hs.member _ _ _ _ _ _ hc
    | wrote hc => exact hs.member _ _ _ _ _ _ hc
    | returned hc => exact hs.member _ _ _ _ _ _ hc
    | stayed hc => exact hs.member _ _ _ _ _ _ hc
  · rcases commented hs h hdb with ⟨before, hbefore, heq⟩ | hnone | ⟨text', heq, ⟨_, hother⟩ | ⟨m, hm, hname, hwrote⟩⟩
    · exact hs.own n hn before hbefore text (heq ▸ htext)
    · rw [hnone] at htext
      cases htext
    · exact absurd rfl (hother n hn)
    · cases plan.namesApart n hn m hm hname
      rw [heq, Option.some.injEq] at htext
      exact htext ▸ hwrote
  · rcases commented hs h hdb with ⟨before, hbefore, heq⟩ | hnone | ⟨text', heq, ⟨hrecord, _⟩ | ⟨m, hm, hname', _⟩⟩
    · exact hs.foreign name before text hbefore hname (heq ▸ htext)
    · rw [hnone] at htext
      cases htext
    · rw [heq, Option.some.injEq] at htext
      exact htext ▸ hrecord
    · exact absurd hname' (hname m hm)
  · rcases sweeps_cases h hd with rfl | ⟨c, before, hc, hturn⟩ | ⟨c, hc⟩
    · trivial
    · exact hturn.grounded (hs.grounded _ _ _ _ hc)
    · exact hs.grounded _ _ _ _ hc
  · rcases sweeps_cases h hd with rfl | ⟨c, before, hc, hturn⟩ | ⟨c, hc⟩
    · cases hrecord
    · by_cases hlisted : before = .listing
      · subst hlisted
        generalize t.server = server at hturn
        cases hturn with
        | listed =>
          obtain ⟨entry, hentry, rfl⟩ := List.mem_map.mp hrecord
          refine hs.own n hn entry.2 ?_
          rw [← hname]
          exact AList.mem_lookup_iff.mpr hentry
        | listFailed => cases hrecord
      · exact hs.read _ _ _ _ hc record ((hturn.onward hlisted).ahead.subset hrecord) n hn hname
    · exact hs.read _ _ _ _ hc record hrecord n hn hname

theorem recorded (hs : (machine plan).Reachable s) : Recorded plan s := by
  refine Machine.Invariant.holds (m := machine plan) ⟨fun s h => recorded_initial h, fun s a t _ ih h => ?_⟩ hs
  have htransition := step_transition h
  exact recorded_step ih htransition

/-! ### Changes -/

/-- What a step does to a template's database: nothing, or a matter of who is connected, or the work
of a session that has the template's key. -/
inductive Change (plan : Plan χ) (s t : State χ) (actor : Option Nat) (n : Node) : Prop where
  | same : t.server.find (plan.request n).name.value = s.server.find (plan.request n).name.value →
      Change plan s t actor n
  | clients {db clients} : s.server.find (plan.request n).name.value = some db →
      (db.allowConnections = false → db.clients = [] → clients = []) →
      t.server.find (plan.request n).name.value = some { db with clients } → Change plan s t actor n
  | turned {i c handle now before after l} : actor = some i → s.Attempts i c n handle now before → c.connected = true →
      holds (plan.request n) before = some l → ((plan.request n).lockKey, .exclusive) ∈ l →
      Turn (plan.request n) now i c.connected s.server before t.server after → Change plan s t actor n
  | wrote {i c handle now done db change} : actor = some i → s.Attempts i c n handle now (.initializing done) →
      c.connected = true → s.server.find (plan.request n).name.value = some db →
      (plan.initializer n.lineage)[done]? = some change →
      t.server.find (plan.request n).name.value = some { db with content := change db.content } →
      Change plan s t actor n
  | swept {i c sw phase} : actor = some i → s.Sweeps i c sw phase → c.connected = true →
      StaleCleanup.holds phase = some [((plan.request n).lockKey, .exclusive)] →
      t.server.find (plan.request n).name.value = none → Change plan s t actor n

/-- A sweep that drops a template's database holds the template's key. -/
theorem key_of_dropping (hs : Recorded plan s) {c : Client Program} {sw : StaleCleanup.Sweep} {record : DatabaseRecord}
    {key : Int64} {name : DatabaseName} {rest : List DatabaseRecord} {report : StaleCleanup.CleanupReport}
    (hc : s.Sweeps i c sw (.dropping record key name rest report)) {n : Node} (hn : n ∈ plan.nodes)
    (hname : (plan.request n).name.value = name.value) : key = (plan.request n).lockKey := by
  obtain ⟨metadata, hcandidate, rfl⟩ := StaleCleanup.classify_eq_candidate.mp (hs.grounded _ _ _ _ hc)
  have hvalue := (DatabaseName.fromExisting_eq_some.mp hcandidate.managed).1
  have hown := hs.read _ _ _ _ hc record (List.mem_cons_self ..) n hn (hvalue.symm.trans hname.symm)
  obtain ⟨text, hcomment, hparse⟩ := Option.bind_eq_some_iff.mp hcandidate.parses
  obtain ⟨state, created, rfl⟩ := hown text hcomment
  rw [ResourceMetadata.parse_encode, Option.some.injEq] at hparse
  rw [← hparse]
  rfl

theorem change_of_transition (hs : Recorded plan s) {actor : Option Nat} (h : Transition plan s t actor) {n : Node}
    (hn : n ∈ plan.nodes) : Change plan s t actor n := by
  cases h with
  | begun _ _ ht => exact .same (by rw [ht]; rfl)
  | sweepBegun ht => exact .same (by rw [ht]; rfl)
  | ticked _ hserver => exact .same (by rw [hserver])
  | returned _ _ _ hserver => exact .same (by rw [hserver])
  | lost _ hserver => exact .same (by rw [hserver]; rfl)
  | @turned i c d node handle now phase after hc hturn =>
    rcases hturn.writes with hsame | ⟨hconnected, ⟨l, hl, hmem⟩, hothers⟩
    · exact .same (hsame _)
    · by_cases hnode : node = n
      · subst hnode
        exact .turned rfl hc hconnected hl hmem hturn
      · refine .same (hothers _ fun heq => hnode ?_)
        exact (plan.namesApart _ hn _ (hs.member _ _ _ _ _ _ hc) heq).symm
  | @swept i c sw phase after hc hturn =>
    have hsame : t.server.databases = s.server.databases → Change plan s t (some i) n := fun hdatabases =>
      .same (by rw [Server.find, hdatabases, Server.find])
    -- a database that a sweep drops is this one, or another
    have hdrop : ∀ {record key name rest report}, phase = .dropping record key name rest report → c.connected = true →
        t.server = s.server.dropDatabase i name.value → Change plan s t (some i) n := by
      intro record key name rest report hphase hconnected hserver
      subst hphase
      by_cases hname : (plan.request n).name.value = name.value
      · refine .swept rfl hc hconnected ?_ (by rw [hserver, Server.find_drop, if_pos hname])
        rw [StaleCleanup.holds, key_of_dropping hs hc hn hname]
      · exact .same (by rw [hserver, Server.find_drop, if_neg hname])
    generalize hserver : t.server = server at hturn
    cases hturn with
    | dropped hconnected => exact hdrop rfl hconnected hserver
    | droppedUnseen hconnected => exact hdrop rfl hconnected hserver
    | lockFailed hdatabases => exact hsame (by rw [hserver, hdatabases])
    | unlockFailed hdatabases => exact hsame (by rw [hserver, hdatabases])
    | _ => exact hsame (by rw [hserver])
  | @wrote i c node handle now done db change hc hconnected hdb hchange hserver =>
    by_cases hnode : node = n
    · subst hnode
      exact .wrote rfl hc hconnected hdb hchange (by rw [hserver, Server.find_put, if_pos rfl])
    · refine .same ?_
      rw [hserver, Server.find_put, if_neg fun heq => hnode ?_]
      exact (plan.namesApart _ hn _ (hs.member _ _ _ _ _ _ hc) heq).symm
  | @clientsChanged name db clients hdb hclosed hserver =>
    by_cases hname : (plan.request n).name.value = name
    · subst hname
      exact .clients hdb hclosed (by rw [hserver, Server.find_put, if_pos rfl])
    · exact .same (by rw [hserver, Server.find_put, if_neg hname])
  | performed hpermits hrun => exact .same (Server.execute_find hrun ((permitted hpermits).nodes n hn))

end PostgresTestHarness.Template
