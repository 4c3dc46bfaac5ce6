import Mathlib.Data.List.AList
import PostgresTestHarness.Catalog.Metadata
import PostgresTestHarness.Library.SessionLock

/-! A PostgreSQL server, as far as the harness's admin sessions see it.

A statement is atomic and has an answer; one that the server refuses has no result
here. Blocking lock requests are not statements: they wait in the lock table
(`Library/SessionLock.lean`), and `Postgres/Client.lean` says how a session gets through
one. A database is known by its `oid`, so that a database that is dropped and made again
under its name is another one. -/
namespace PostgresTestHarness.Postgres
open SessionLock

/-- A database: its comment, whether clients can connect, who is connected, what is in it. -/
structure Database (χ : Type) where
  oid : Nat
  comment : Option Text
  allowConnections : Bool
  clients : List Nat
  content : χ

/-- `DatabaseRecord`. -/
structure DatabaseRecord where
  name : Text
  comment : Option Text
  deriving DecidableEq, Repr

/-- A `DROP DATABASE` that was executed, and the database it removed, if there was one. -/
structure Dropped where
  session : Nat
  name : Text
  removed : Option Nat
  deriving DecidableEq, Repr

structure Server (χ : Type) where
  databases : AList fun _ : Text => Database χ
  locks : Table Nat Int64
  nextOid : Nat
  drops : List Dropped

/-- The statements of an admin session, by what they answer. -/
inductive Statement : Type → Type where
  | tryLock (key : Int64) : Statement Bool
  | unlock (mode : Mode) (key : Int64) : Statement Unit
  | find (name : Text) : Statement (Option DatabaseRecord)
  | list : Statement (List DatabaseRecord)
  | create (name source : Text) : Statement Unit
  | comment (name text : Text) : Statement Unit
  | drop (name : Text) : Statement Unit
  | disableConnections (name : Text) : Statement Unit
  | terminateConnections (name : Text) : Statement Unit
  | connectionsRemain (name : Text) : Statement Bool

variable {χ : Type}

/-- The database that a statement changes. -/
def Statement.target {α : Type} : Statement α → Option Text
  | .create name _ => some name
  | .comment name _ => some name
  | .drop name => some name
  | .disableConnections name => some name
  | .terminateConnections name => some name
  | _ => none

/-- Whether a statement changes the lock table. -/
def Statement.locking {α : Type} : Statement α → Bool
  | .tryLock _ => true
  | .unlock _ _ => true
  | _ => false

namespace Server

def find (s : Server χ) (name : Text) : Option (Database χ) := s.databases.lookup name

/-- The row that describes a database. -/
def record (name : Text) (db : Database χ) : DatabaseRecord := ⟨name, db.comment⟩

def put (s : Server χ) (name : Text) (db : Database χ) : Server χ :=
  { s with databases := s.databases.insert name db }

/-- `CREATE DATABASE .. TEMPLATE ..`: a copy of the source, under the next oid. It needs a
source that nobody is connected to, and a name that is free. -/
def createDatabase (s : Server χ) (name source : Text) : Option (Server χ) :=
  match s.find name, s.find source with
  | none, some original =>
    if original.clients.isEmpty then
      some { s.put name ⟨s.nextOid, none, true, [], original.content⟩ with nextOid := s.nextOid + 1 }
    else none
  | _, _ => none

/-- `DROP DATABASE IF EXISTS .. WITH (FORCE)`. -/
def dropDatabase (s : Server χ) (session : Nat) (name : Text) : Server χ :=
  { s with
    databases := s.databases.erase name
    drops := ⟨session, name, (s.find name).map (·.oid)⟩ :: s.drops }

/-- A change of a database that has to be there. -/
def alter (s : Server χ) (name : Text) (change : Database χ → Database χ) : Option (Server χ) :=
  (s.find name).map fun db => s.put name (change db)

/-- `pg_terminate_backend` for every client of a database, each of which is gone. -/
def terminate (s : Server χ) (name : Text) : Server χ :=
  match s.find name with
  | some db => s.put name { db with clients := [] }
  | none => s

/-- What a statement does and answers. -/
def execute (session : Nat) (s : Server χ) : {α : Type} → Statement α → Option (Server χ × α)
  | _, .tryLock key =>
    if s.locks.available ⟨session, key, .exclusive⟩ then
      some ({ s with locks := s.locks.take ⟨session, key, .exclusive⟩ }, true)
    else some (s, false)
  | _, .unlock mode key => some ({ s with locks := s.locks.release ⟨session, key, mode⟩ }, ())
  | _, .find name => some (s, (s.find name).map (record name))
  | _, .list => some (s, s.databases.entries.map fun e => record e.1 e.2)
  | _, .create name source => (s.createDatabase name source).map (·, ())
  | _, .comment name text => (s.alter name fun db => { db with comment := some text }).map (·, ())
  | _, .drop name => some (s.dropDatabase session name, ())
  | _, .disableConnections name => (s.alter name fun db => { db with allowConnections := false }).map (·, ())
  | _, .terminateConnections name => some (s.terminate name, ())
  | _, .connectionsRemain name => some (s, (s.find name).any fun db => !db.clients.isEmpty)

end Server

section Frame
variable {s t : Server χ} {session : Nat} {α : Type} {stmt : Statement α} {answer : α}

theorem Server.find_put (name other : Text) (db : Database χ) :
    (s.put name db).find other = if other = name then some db else s.find other := by
  rw [find, put]
  split
  · rename_i h
    rw [h, AList.lookup_insert]
  · rename_i h
    rw [AList.lookup_insert_ne h, find]

theorem Server.find_drop (name other : Text) :
    (s.dropDatabase session name).find other = if other = name then none else s.find other := by
  rw [find, dropDatabase]
  split
  · rename_i h
    rw [h, AList.lookup_erase]
  · rename_i h
    rw [AList.lookup_erase_ne h, find]

theorem Server.createDatabase_eq_some {name source : Text} : s.createDatabase name source = some t ↔
    s.find name = none ∧ ∃ original, s.find source = some original ∧ original.clients = [] ∧
      t = { s.put name ⟨s.nextOid, none, true, [], original.content⟩ with nextOid := s.nextOid + 1 } := by
  rw [createDatabase]
  cases hname : s.find name with
  | some db =>
    cases hsource : s.find source <;> simp
  | none =>
    cases hsource : s.find source with
    | none => simp
    | some original =>
      simp only [Option.ite_none_right_eq_some, Option.some.injEq, List.isEmpty_iff, true_and, exists_eq_left']
      exact and_congr_right fun _ => eq_comm

theorem Server.alter_eq_some {name : Text} {change : Database χ → Database χ} :
    s.alter name change = some t ↔ ∃ db, s.find name = some db ∧ t = s.put name (change db) := by
  rw [alter, Option.map_eq_some_iff]
  exact exists_congr fun db => and_congr_right fun _ => eq_comm

/-- The database that a statement does not change. -/
theorem Server.execute_find (h : s.execute session stmt = some (t, answer)) {name : Text}
    (hname : stmt.target ≠ some name) : t.find name = s.find name := by
  cases stmt with
  | tryLock key =>
    rw [execute] at h
    split at h <;> cases h <;> rfl
  | unlock mode key => cases h; rfl
  | find other => cases h; rfl
  | list => cases h; rfl
  | create other source =>
    obtain ⟨u, hu, heq⟩ := Option.map_eq_some_iff.mp h
    cases heq
    obtain ⟨_, original, _, _, rfl⟩ := createDatabase_eq_some.mp hu
    exact (find_put other name _).trans (if_neg fun heq => hname (congrArg some heq.symm))
  | comment other text =>
    obtain ⟨u, hu, heq⟩ := Option.map_eq_some_iff.mp h
    cases heq
    obtain ⟨db, _, rfl⟩ := alter_eq_some.mp hu
    exact (find_put other name _).trans (if_neg fun heq => hname (congrArg some heq.symm))
  | drop other =>
    cases h
    exact (find_drop other name).trans (if_neg fun heq => hname (congrArg some heq.symm))
  | disableConnections other =>
    obtain ⟨u, hu, heq⟩ := Option.map_eq_some_iff.mp h
    cases heq
    obtain ⟨db, _, rfl⟩ := alter_eq_some.mp hu
    exact (find_put other name _).trans (if_neg fun heq => hname (congrArg some heq.symm))
  | terminateConnections other =>
    cases h
    rw [terminate]
    split
    · exact (find_put other name _).trans (if_neg fun heq => hname (congrArg some heq.symm))
    · rfl
  | connectionsRemain other => cases h; rfl

/-- Only two statements change the lock table. -/
theorem Server.execute_locks (h : s.execute session stmt = some (t, answer)) (hlocking : stmt.locking = false) :
    t.locks = s.locks := by
  cases stmt with
  | tryLock key => cases hlocking
  | unlock mode key => cases hlocking
  | find other => cases h; rfl
  | list => cases h; rfl
  | create other source =>
    obtain ⟨u, hu, heq⟩ := Option.map_eq_some_iff.mp h
    cases heq
    obtain ⟨_, original, _, _, rfl⟩ := createDatabase_eq_some.mp hu
    rfl
  | comment other text =>
    obtain ⟨u, hu, heq⟩ := Option.map_eq_some_iff.mp h
    cases heq
    obtain ⟨db, _, rfl⟩ := alter_eq_some.mp hu
    rfl
  | drop other => cases h; rfl
  | disableConnections other =>
    obtain ⟨u, hu, heq⟩ := Option.map_eq_some_iff.mp h
    cases heq
    obtain ⟨db, _, rfl⟩ := alter_eq_some.mp hu
    rfl
  | terminateConnections other =>
    cases h
    rw [terminate]
    split <;> rfl
  | connectionsRemain other => cases h; rfl

/-- Only one statement makes an entry in the log of drops. -/
theorem Server.execute_drops (h : s.execute session stmt = some (t, answer)) :
    t.drops = s.drops ∨ ∃ name, t.drops = ⟨session, name, (s.find name).map (·.oid)⟩ :: s.drops := by
  cases stmt with
  | tryLock key =>
    rw [execute] at h
    split at h <;> cases h <;> exact Or.inl rfl
  | unlock mode key => cases h; exact Or.inl rfl
  | find other => cases h; exact Or.inl rfl
  | list => cases h; exact Or.inl rfl
  | create other source =>
    obtain ⟨u, hu, heq⟩ := Option.map_eq_some_iff.mp h
    cases heq
    obtain ⟨_, original, _, _, rfl⟩ := createDatabase_eq_some.mp hu
    exact Or.inl rfl
  | comment other text =>
    obtain ⟨u, hu, heq⟩ := Option.map_eq_some_iff.mp h
    cases heq
    obtain ⟨db, _, rfl⟩ := alter_eq_some.mp hu
    exact Or.inl rfl
  | drop other => cases h; exact Or.inr ⟨other, rfl⟩
  | disableConnections other =>
    obtain ⟨u, hu, heq⟩ := Option.map_eq_some_iff.mp h
    cases heq
    obtain ⟨db, _, rfl⟩ := alter_eq_some.mp hu
    exact Or.inl rfl
  | terminateConnections other =>
    cases h
    rw [terminate]
    split <;> exact Or.inl rfl
  | connectionsRemain other => cases h; exact Or.inl rfl

/-- What a statement leaves of the lock table: everybody's requests, and the locks of all
other sessions. -/
structure LockFrame (session : Nat) (before after : Table Nat Int64) : Prop where
  compatible : before.Compatible → after.Compatible
  requested : ∀ j, after.requestedBy j = before.requestedBy j
  others : ∀ j, j ≠ session → after.heldBy j = before.heldBy j

theorem Server.execute_lockFrame (h : s.execute session stmt = some (t, answer)) :
    LockFrame session s.locks t.locks := by
  have hsame : t.locks = s.locks → LockFrame session s.locks t.locks := fun hlocks => by
    rw [hlocks]
    exact ⟨id, fun _ => rfl, fun _ _ => rfl⟩
  cases stmt with
  | tryLock key =>
    rw [execute] at h
    split at h
    · rename_i havailable
      cases h
      refine ⟨fun hs => hs.take (Bool.and_eq_true_iff.mp havailable).1, fun j => Table.requestedBy_take .., fun j hj => ?_⟩
      exact (Table.heldBy_take ..).trans (if_neg (Ne.symm hj))
    · cases h
      exact hsame rfl
  | unlock mode key =>
    cases h
    exact ⟨Table.Compatible.release, fun j => Table.requestedBy_release .., fun j hj =>
      Table.heldBy_release_of_ne (Ne.symm hj)⟩
  | find other => exact hsame (execute_locks h rfl)
  | list => exact hsame (execute_locks h rfl)
  | create other source => exact hsame (execute_locks h rfl)
  | comment other text => exact hsame (execute_locks h rfl)
  | drop other => exact hsame (execute_locks h rfl)
  | disableConnections other => exact hsame (execute_locks h rfl)
  | terminateConnections other => exact hsame (execute_locks h rfl)
  | connectionsRemain other => exact hsame (execute_locks h rfl)

end Frame

/-! ### Numbers -/

/-- Every database has its own number, also those that are gone. -/
structure Server.Numbered (s : Server χ) : Prop where
  found : ∀ {name db}, s.find name = some db → db.oid < s.nextOid
  apart : ∀ {name other db db'}, s.find name = some db → s.find other = some db' → db.oid = db'.oid → name = other
  gone : ∀ oid ∈ s.drops.filterMap (·.removed), oid < s.nextOid ∧ ∀ name db, s.find name = some db → db.oid ≠ oid
  once : (s.drops.filterMap (·.removed)).Nodup

section Numbered
variable {s t : Server χ} {session : Nat}

/-- A database that is changed keeps its number. -/
theorem Server.Numbered.alter (hs : s.Numbered) {name : Text} {db changed : Database χ} (hdb : s.find name = some db)
    (hoid : changed.oid = db.oid) : (s.put name changed).Numbered := by
  have hbefore : ∀ {other found}, (s.put name changed).find other = some found →
      ∃ before, s.find other = some before ∧ before.oid = found.oid := by
    intro other found h
    rw [find_put] at h
    split at h
    · rename_i heq
      cases h
      exact ⟨db, heq ▸ hdb, hoid.symm⟩
    · exact ⟨found, h, rfl⟩
  refine ⟨fun h => ?_, fun h h' heq => ?_, fun oid hoid => ⟨(hs.gone oid hoid).1, fun other found h => ?_⟩, hs.once⟩
  · obtain ⟨before, hfound, heq⟩ := hbefore h
    exact heq ▸ hs.found hfound
  · obtain ⟨before, hfound, hb⟩ := hbefore h
    obtain ⟨before', hfound', hb'⟩ := hbefore h'
    exact hs.apart hfound hfound' (by rw [hb, hb', heq])
  · obtain ⟨before, hfound, heq⟩ := hbefore h
    exact heq ▸ (hs.gone oid hoid).2 other before hfound

theorem Server.Numbered.drop (hs : s.Numbered) (name : Text) : (s.dropDatabase session name).Numbered := by
  have hbefore : ∀ {other found}, (s.dropDatabase session name).find other = some found →
      other ≠ name ∧ s.find other = some found := by
    intro other found h
    rw [find_drop] at h
    split at h
    · cases h
    · rename_i hne
      exact ⟨hne, h⟩
  have hdrops : (s.dropDatabase session name).drops.filterMap (·.removed) =
      ((s.find name).map (·.oid)).toList ++ s.drops.filterMap (·.removed) := by
    rw [dropDatabase, List.filterMap_cons]
    cases s.find name <;> rfl
  refine ⟨fun h => hs.found (hbefore h).2, fun h h' => hs.apart (hbefore h).2 (hbefore h').2, fun oid hoid => ?_, ?_⟩
  · rw [hdrops, List.mem_append, Option.mem_toList, Option.map_eq_some_iff] at hoid
    rcases hoid with ⟨db, hdb, rfl⟩ | hoid
    · exact ⟨hs.found hdb, fun other found h heq => (hbefore h).1 (hs.apart (hbefore h).2 hdb heq)⟩
    · exact ⟨(hs.gone oid hoid).1, fun other found h => (hs.gone oid hoid).2 other found (hbefore h).2⟩
  · rw [hdrops]
    cases hdb : s.find name with
    | none => exact hs.once
    | some db =>
      exact List.nodup_cons.mpr ⟨fun hmem => (hs.gone db.oid hmem).2 name db hdb rfl, hs.once⟩

theorem Server.Numbered.create (hs : s.Numbered) {name source : Text} (h : s.createDatabase name source = some t) :
    t.Numbered := by
  obtain ⟨hname, original, _, _, rfl⟩ := createDatabase_eq_some.mp h
  have hcases : ∀ {other found}, Server.find { s.put name ⟨s.nextOid, none, true, [], original.content⟩ with
      nextOid := s.nextOid + 1 } other = some found →
      (other = name ∧ found.oid = s.nextOid) ∨ s.find other = some found := by
    intro other found h
    change (s.put name _).find other = some found at h
    rw [find_put] at h
    split at h
    · rename_i heq
      cases h
      exact Or.inl ⟨heq, rfl⟩
    · exact Or.inr h
  refine ⟨fun hfound => ?_, fun hfound hother heq => ?_,
    fun oid hoid => ⟨Nat.lt_succ_of_lt (hs.gone oid hoid).1, fun other found hfound => ?_⟩, hs.once⟩
  · rcases hcases hfound with ⟨_, hoid⟩ | hold
    · rw [hoid]
      exact Nat.lt_succ_self _
    · exact Nat.lt_succ_of_lt (hs.found hold)
  · rcases hcases hfound with ⟨rfl, hoid⟩ | hold <;> rcases hcases hother with ⟨rfl, hoid'⟩ | hold'
    · rfl
    · have := hs.found hold'
      omega
    · have := hs.found hold
      omega
    · exact hs.apart hold hold' heq
  · rcases hcases hfound with ⟨_, hnew⟩ | hold
    · have := (hs.gone oid hoid).1
      omega
    · exact (hs.gone oid hoid).2 other found hold

/-- Only the databases, the numbers and the log of drops matter. -/
theorem Server.Numbered.of_catalog (hs : s.Numbered) (hdatabases : t.databases = s.databases)
    (hnext : t.nextOid = s.nextOid) (hdrops : t.drops = s.drops) : t.Numbered := by
  have hfind : ∀ name, t.find name = s.find name := fun name => by rw [find, hdatabases, find]
  refine ⟨fun h => ?_, fun h h' => ?_, fun oid hoid => ?_, hdrops ▸ hs.once⟩
  · rw [hnext]
    exact hs.found (hfind _ ▸ h)
  · exact hs.apart (hfind _ ▸ h) (hfind _ ▸ h')
  · rw [hnext]
    obtain ⟨hlt, hne⟩ := hs.gone oid (hdrops ▸ hoid)
    exact ⟨hlt, fun name db h => hne name db (hfind _ ▸ h)⟩

theorem Server.Numbered.execute (hs : s.Numbered) {α : Type} {stmt : Statement α} {answer : α}
    (h : s.execute session stmt = some (t, answer)) : t.Numbered := by
  have halter : ∀ {name change}, (∀ db, (change db).oid = db.oid) → (s.alter name change).map (·, ()) = some (t, ()) →
      t.Numbered := by
    intro name change hchange h
    obtain ⟨u, hu, heq⟩ := Option.map_eq_some_iff.mp h
    cases heq
    obtain ⟨db, hdb, rfl⟩ := alter_eq_some.mp hu
    exact hs.alter hdb (hchange db)
  cases stmt with
  | tryLock key =>
    rw [Server.execute] at h
    split at h
    · cases h
      exact hs.of_catalog rfl rfl rfl
    · cases h
      exact hs
  | unlock mode key =>
    cases h
    exact hs.of_catalog rfl rfl rfl
  | find name => cases h; exact hs
  | list => cases h; exact hs
  | create name source =>
    obtain ⟨u, hu, heq⟩ := Option.map_eq_some_iff.mp h
    cases heq
    exact hs.create hu
  | comment name text => exact @halter name (fun db => { db with comment := some text }) (fun _ => rfl) h
  | drop name =>
    cases h
    exact hs.drop name
  | disableConnections name => exact @halter name (fun db => { db with allowConnections := false }) (fun _ => rfl) h
  | terminateConnections name =>
    cases h
    rw [terminate]
    split
    · rename_i db hdb
      exact hs.alter hdb rfl
    · exact hs
  | connectionsRemain name => cases h; exact hs

end Numbered

end PostgresTestHarness.Postgres
