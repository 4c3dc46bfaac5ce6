import PostgresTestHarness.Catalog.AdvisoryKey
import PostgresTestHarness.Postgres.Client

/-! An attempt to get a template.

`begin_template`, the initializer and `TemplateInitialization::finish` or `abort` as one
program on one session. A phase is the next statement; where a function is called from
several places, as `acquire_and_inspect_shared_template_lock` is, the phase says from
which. The template is created behind its harness's admission gate (`ensureOpen`), which a
creation closes that may have left something (`closeAdmission`). An attempt that returns an
error says no more what locks it has: its client is dropped, and the session ends. -/
namespace PostgresTestHarness.Template
open SessionLock Postgres

/-- What an attempt is for. -/
structure Request where
  project : ProjectName
  name : DatabaseName
  identity : TemplateIdentity
  lockKey : Int64
  coordinationKey : Int64
  source : Text
  deriving DecidableEq

/-- The arguments of `begin_template`, and the keys it computes from them. -/
def Request.new (sha256 : List UInt8 → Digest) (project : ProjectName) (identity : TemplateIdentity) (source : Text) :
    Request where
  project
  name := .template project identity.fingerprint
  identity
  lockKey := templateLockKey sha256 project identity.fingerprint
  coordinationKey := templateCoordinationKey sha256 project identity.fingerprint
  source

/-- `ResourceMetadata::template`, at a time of the system's clock. -/
def Request.metadata (r : Request) (state : TemplateState) (now : UInt64) : ResourceMetadata :=
  .template r.project r.lockKey r.identity.fingerprint r.identity.parent state now

def templateMetadataMatches (metadata : ResourceMetadata) (project : ProjectName) (identity : TemplateIdentity)
    (lockKey : Int64) (state : TemplateState) : Bool :=
  match metadata with
  | .template metadataProject metadataLockKey fingerprint parent metadataState _ =>
    metadataProject == project && metadataLockKey == lockKey && fingerprint == identity.fingerprint &&
      parent == identity.parent && metadataState == state
  | .test .. => false

def templateRecordIsReady (record : Option DatabaseRecord) (project : ProjectName) (identity : TemplateIdentity)
    (lockKey : Int64) : Bool :=
  ((record.bind (·.comment)).bind ResourceMetadata.parse).any fun metadata =>
    templateMetadataMatches metadata project identity lockKey .ready

def recoverableTemplateInitialization (metadata : ResourceMetadata) (project : ProjectName)
    (identity : TemplateIdentity) (lockKey : Int64) : Bool :=
  templateMetadataMatches metadata project identity lockKey .initializing

/-- `template_is_ready`, on the record it reads. -/
def Request.isReady (r : Request) (record : Option DatabaseRecord) : Bool :=
  templateRecordIsReady record r.project r.identity r.lockKey

/-- `recoverable` in `begin_template`. -/
def Request.recoverable (r : Request) (record : DatabaseRecord) : Bool :=
  (record.comment.bind ResourceMetadata.parse).any fun metadata =>
    recoverableTemplateInitialization metadata r.project r.identity r.lockKey

/-- The calls of `acquire_and_inspect_shared_template_lock`. -/
inductive Check where
  | first
  | underCoordination
  | afterUpgrade
  | afterFinish
  deriving DecidableEq

/-- The function that returned an error. -/
inductive Part where
  | begin
  | finish
  | abort
  deriving DecidableEq

inductive Failure where
  | statement
  | inconsistentMetadata
  | templateConnectionsRemain
  | connectionBudgetClosed
  deriving DecidableEq

inductive Phase where
  | lockShared (check : Check)
  | inspect (check : Check)
  | unlockShared (check : Check)
  | lockCoordination
  | lockExclusive
  | inspectExclusive
  | unlockExclusive
  | findExisting
  | dropExisting (record : DatabaseRecord)
  | ensureOpen
  | create
  | tag
  | compensate
  | closeAdmission
  | initializing (done : Nat)
  | disableConnections
  | terminateConnections
  | verifyConnections
  | tagReady
  | unlockFinished
  | unlockCoordination (check : Check) (ready : Bool)
  | abortDrop
  | abortUnlock (dropped : Bool)
  | abortUnlockCoordination (dropped unlocked : Bool)
  | retained
  | aborted
  | stopped (part : Part) (failure : Failure)
  /-- After an error or an abort, without its client. -/
  | discarded (error : Option (Part × Failure))
  deriving DecidableEq

def Check.part : Check → Part
  | .afterFinish => .finish
  | _ => .begin

/-- Where an inspection goes on that found the template ready. -/
def Check.ready : Check → Phase
  | .first => .retained
  | check => .unlockCoordination check true

/-- Where an inspection goes on that did not, once it has unlocked. -/
def Check.notReady : Check → Phase
  | .first => .lockCoordination
  | .underCoordination => .lockExclusive
  | check => .unlockCoordination check false

/-- Where it goes on without the coordination lock. -/
def Check.released : Check → Bool → Phase
  | _, true => .retained
  | .afterFinish, false => .stopped .finish .inconsistentMetadata
  | _, false => .lockShared .first

/-- Where an error of a phase's statement leads: back to the caller, but a template that could
not be tagged is dropped first, the gate closes where one may be left, and `abort` goes through
all its steps. -/
def Phase.failed : Phase → Phase
  | .lockShared check | .inspect check | .unlockShared check | .unlockCoordination check _ =>
    .stopped check.part .statement
  | .tag => .compensate
  | .create | .compensate => .closeAdmission
  | .disableConnections | .terminateConnections | .verifyConnections | .tagReady | .unlockFinished =>
    .stopped .finish .statement
  | .abortDrop => .abortUnlock false
  | .abortUnlock dropped => .abortUnlockCoordination dropped false
  | .abortUnlockCoordination _ _ => .stopped .abort .statement
  | _ => .stopped .begin .statement

/-- The error with which a function has returned that gives its session up. -/
def Phase.returned : Phase → Option (Option (Part × Failure))
  | .stopped part failure => some (some (part, failure))
  | .aborted => some none
  | _ => none

/-- An attempt that is over without a session: its function has returned, and its client may be dropped. -/
inductive Over (error : Option (Part × Failure)) (phase : Phase) : Prop where
  | returned : phase.returned = some error → Over error phase
  | discarded : phase = .discarded error → Over error phase

theorem Over.not_working {error : Option (Part × Failure)} {phase : Phase} (hover : Over error phase)
    (hreturned : phase.returned = none) (hdiscarded : phase ≠ .discarded error) : False := by
  rcases hover with h | h
  · cases hreturned.symm.trans h
  · exact hdiscarded h

/-- Where `begin_template` goes on with the record it has found. -/
def Request.existing (r : Request) : Option DatabaseRecord → Phase
  | none => .ensureOpen
  | some record => if r.recoverable record then .dropExisting record else .stopped .begin .inconsistentMetadata

def code (r : Request) (now : UInt64) (phase : Phase) : Option (Code Phase) :=
  match phase with
  | .lockShared check => some (.acquire .shared r.lockKey (.inspect check) phase.failed)
  | .inspect check => some (.run (.find r.name.value)
      (fun record => if r.isReady record then check.ready else .unlockShared check) phase.failed)
  | .unlockShared check => some (.run (.unlock .shared r.lockKey) (fun _ => check.notReady) phase.failed)
  | .lockCoordination => some (.acquire .exclusive r.coordinationKey (.lockShared .underCoordination) phase.failed)
  | .lockExclusive => some (.acquire .exclusive r.lockKey .inspectExclusive phase.failed)
  | .inspectExclusive => some (.run (.find r.name.value)
      (fun record => if r.isReady record then .unlockExclusive else .findExisting) phase.failed)
  | .unlockExclusive =>
    some (.run (.unlock .exclusive r.lockKey) (fun _ => .lockShared .afterUpgrade) phase.failed)
  | .findExisting => some (.run (.find r.name.value) r.existing phase.failed)
  | .dropExisting _ => some (.run (.drop r.name.value) (fun _ => .ensureOpen) phase.failed)
  | .ensureOpen => some (.ask .create (.stopped .begin .connectionBudgetClosed))
  | .create => some (.classify (.create r.name.value r.source) (fun _ => .tag) (.stopped .begin .statement) phase.failed)
  | .tag => some (.run (.comment r.name.value (r.metadata .initializing now).encode)
      (fun _ => .initializing 0) phase.failed)
  | .compensate => some (.run (.drop r.name.value) (fun _ => .stopped .begin .statement) phase.failed)
  | .closeAdmission => some (.pass (.stopped .begin .statement))
  | .initializing _ => none
  | .disableConnections => some (.run (.disableConnections r.name.value)
      (fun _ => .terminateConnections) phase.failed)
  | .terminateConnections => some (.run (.terminateConnections r.name.value)
      (fun _ => .verifyConnections) phase.failed)
  | .verifyConnections => some (.run (.connectionsRemain r.name.value)
      (fun remain => if remain then .stopped .finish .templateConnectionsRemain else .tagReady) phase.failed)
  | .tagReady => some (.run (.comment r.name.value (r.metadata .ready now).encode)
      (fun _ => .unlockFinished) phase.failed)
  | .unlockFinished =>
    some (.run (.unlock .exclusive r.lockKey) (fun _ => .lockShared .afterFinish) phase.failed)
  | .unlockCoordination check ready =>
    some (.run (.unlock .exclusive r.coordinationKey) (fun _ => check.released ready) phase.failed)
  | .abortDrop => some (.run (.drop r.name.value) (fun _ => .abortUnlock true) phase.failed)
  | .abortUnlock dropped => some (.run (.unlock .exclusive r.lockKey)
      (fun _ => .abortUnlockCoordination dropped true) phase.failed)
  | .abortUnlockCoordination dropped unlocked => some (.run (.unlock .exclusive r.coordinationKey)
      (fun _ => if dropped && unlocked then .aborted else phase.failed) phase.failed)
  | .stopped part failure => some (.close (.discarded (some (part, failure))))
  | .aborted => some (.close (.discarded none))
  | .retained | .discarded _ => none

/-- Phases that wait for a lock. -/
def Phase.acquires : Phase → Bool
  | .lockShared _ | .lockCoordination | .lockExclusive => true
  | _ => false

/-- Phases without a statement: at the gate, in an initializer, or when a function has returned. -/
def Phase.atRest : Phase → Bool
  | .ensureOpen | .closeAdmission | .initializing _ | .retained | .aborted | .stopped _ _ | .discarded _ => true
  | _ => false

/-- The locks of an attempt's session. -/
def holds (r : Request) : Phase → Option (List (Int64 × Mode))
  | .lockShared .first | .lockCoordination | .aborted | .discarded _ => some []
  | .inspect .first | .unlockShared .first | .retained => some [(r.lockKey, .shared)]
  | .lockShared _ | .lockExclusive | .unlockCoordination _ false | .abortUnlockCoordination _ true =>
    some [(r.coordinationKey, .exclusive)]
  | .inspect _ | .unlockShared _ | .unlockCoordination _ true =>
    some [(r.lockKey, .shared), (r.coordinationKey, .exclusive)]
  | .abortUnlockCoordination _ false | .stopped _ _ => none
  | _ => some [(r.lockKey, .exclusive), (r.coordinationKey, .exclusive)]

/-! ### What an attempt recognizes -/

section Recognize
variable {r : Request} {record : DatabaseRecord}

theorem templateMetadataMatches_iff {metadata : ResourceMetadata} {state : TemplateState} :
    templateMetadataMatches metadata r.project r.identity r.lockKey state = true ↔
      ∃ created, metadata = r.metadata state created := by
  cases metadata with
  | test project ownerKey createdAt =>
    refine ⟨nofun, fun ⟨_, h⟩ => ?_⟩
    cases h
  | template project lockKey fingerprint parent metadataState createdAt =>
    simp only [templateMetadataMatches, Bool.and_eq_true, beq_iff_eq, Request.metadata]
    constructor
    · intro hparts
      obtain ⟨⟨⟨⟨rfl, rfl⟩, rfl⟩, rfl⟩, rfl⟩ := hparts
      exact ⟨createdAt, rfl⟩
    · intro hparts
      obtain ⟨created, h⟩ := hparts
      cases h
      exact ⟨⟨⟨⟨rfl, rfl⟩, rfl⟩, rfl⟩, rfl⟩

theorem isReady_iff {found : Option DatabaseRecord} : r.isReady found = true ↔
    ∃ record created, found = some record ∧
      record.comment.bind ResourceMetadata.parse = some (r.metadata .ready created) := by
  rw [Request.isReady, templateRecordIsReady, Option.any_eq_true]
  simp only [templateMetadataMatches_iff]
  constructor
  · intro hparts
    obtain ⟨_, hparse, created, rfl⟩ := hparts
    cases found with
    | none => cases hparse
    | some record => exact ⟨record, created, rfl, hparse⟩
  · intro hparts
    obtain ⟨record, created, rfl, hparse⟩ := hparts
    exact ⟨_, hparse, created, rfl⟩

theorem recoverable_iff : r.recoverable record = true ↔
    ∃ created, record.comment.bind ResourceMetadata.parse = some (r.metadata .initializing created) := by
  rw [Request.recoverable, Option.any_eq_true]
  simp only [recoverableTemplateInitialization, templateMetadataMatches_iff]
  constructor
  · intro hparts
    obtain ⟨_, hparse, created, rfl⟩ := hparts
    exact ⟨created, hparse⟩
  · intro hparts
    obtain ⟨created, hparse⟩ := hparts
    exact ⟨_, hparse, created, rfl⟩

end Recognize

/-! ### What a turn of an attempt does -/

variable {χ : Type}

/-- What a turn leaves of a server that it does not change, but for its locks. -/
structure SameCatalog (s t : Server χ) : Prop where
  databases : t.databases = s.databases
  nextOid : t.nextOid = s.nextOid
  drops : t.drops = s.drops

theorem SameCatalog.refl (s : Server χ) : SameCatalog s s := ⟨rfl, rfl, rfl⟩

theorem SameCatalog.find {s t : Server χ} (h : SameCatalog s t) (name : Text) : t.find name = s.find name := by
  rw [Server.find, h.databases, Server.find]

/-- The turns of an attempt on session `i`. A statement that has an effect needs its session; the
attempt goes on as it should, or does not see the effect. -/
inductive Turn (r : Request) (now : UInt64) (i : Nat) (connected : Bool) (s : Server χ) :
    Phase → Server χ → Phase → Prop where
  | waited {t} {phase : Phase} : phase.acquires = true → SameCatalog s t → Turn r now i connected s phase t phase
  | failed {t} {phase : Phase} : phase.atRest = false → SameCatalog s t → Turn r now i connected s phase t phase.failed
  | lockedShared {t} (check) : SameCatalog s t → Turn r now i connected s (.lockShared check) t (.inspect check)
  | inspected (check) : connected = true → Turn r now i connected s (.inspect check) s
      (if r.isReady ((s.find r.name.value).map (Server.record r.name.value)) then check.ready else .unlockShared check)
  | unlockedShared {t} (check) : SameCatalog s t → Turn r now i connected s (.unlockShared check) t check.notReady
  | lockedCoordination {t} : SameCatalog s t →
      Turn r now i connected s .lockCoordination t (.lockShared .underCoordination)
  | lockedExclusive {t} : SameCatalog s t → Turn r now i connected s .lockExclusive t .inspectExclusive
  | inspectedExclusive : connected = true → Turn r now i connected s .inspectExclusive s
      (if r.isReady ((s.find r.name.value).map (Server.record r.name.value)) then .unlockExclusive else .findExisting)
  | unlockedExclusive {t} : SameCatalog s t →
      Turn r now i connected s .unlockExclusive t (.lockShared .afterUpgrade)
  | found : connected = true → Turn r now i connected s .findExisting s
      (r.existing ((s.find r.name.value).map (Server.record r.name.value)))
  | dropped {record next} : connected = true → next = .ensureOpen ∨ next = .stopped .begin .statement →
      Turn r now i connected s (.dropExisting record) (s.dropDatabase i r.name.value) next
  | answered {next} : next = .create ∨ next = .stopped .begin .connectionBudgetClosed →
      Turn r now i connected s .ensureOpen s next
  | created {t next} : connected = true → s.createDatabase r.name.value r.source = some t →
      next = .tag ∨ next = .closeAdmission → Turn r now i connected s .create t next
  | refused : connected = true → Turn r now i connected s .create s (.stopped .begin .statement)
  | tagged {db next} : connected = true → s.find r.name.value = some db → next = .initializing 0 ∨ next = .compensate →
      Turn r now i connected s .tag
        (s.put r.name.value { db with comment := some (r.metadata .initializing now).encode }) next
  | compensated {next} : connected = true → next = .stopped .begin .statement ∨ next = .closeAdmission →
      Turn r now i connected s .compensate (s.dropDatabase i r.name.value) next
  | closedAdmission : Turn r now i connected s .closeAdmission s (.stopped .begin .statement)
  | disabled {db next} : connected = true → s.find r.name.value = some db →
      next = .terminateConnections ∨ next = .stopped .finish .statement →
      Turn r now i connected s .disableConnections (s.put r.name.value { db with allowConnections := false }) next
  | terminated {next} : connected = true → next = .verifyConnections ∨ next = .stopped .finish .statement →
      Turn r now i connected s .terminateConnections (s.terminate r.name.value) next
  | verified : connected = true → Turn r now i connected s .verifyConnections s
      (if (s.find r.name.value).any fun db => !db.clients.isEmpty then .stopped .finish .templateConnectionsRemain
        else .tagReady)
  | taggedReady {db next} : connected = true → s.find r.name.value = some db →
      next = .unlockFinished ∨ next = .stopped .finish .statement →
      Turn r now i connected s .tagReady
        (s.put r.name.value { db with comment := some (r.metadata .ready now).encode }) next
  | unlockedFinished {t} : SameCatalog s t →
      Turn r now i connected s .unlockFinished t (.lockShared .afterFinish)
  | unlockedCoordination {t} (check ready) : SameCatalog s t →
      Turn r now i connected s (.unlockCoordination check ready) t (check.released ready)
  | abortDropped {seen} : connected = true →
      Turn r now i connected s .abortDrop (s.dropDatabase i r.name.value) (.abortUnlock seen)
  | abortUnlocked {t} (dropped) : SameCatalog s t →
      Turn r now i connected s (.abortUnlock dropped) t (.abortUnlockCoordination dropped true)
  | abortedAll {t} (dropped unlocked) : SameCatalog s t →
      Turn r now i connected s (.abortUnlockCoordination dropped unlocked) t
        (if dropped && unlocked then .aborted else .stopped .abort .statement)
  | discarded {t} {phase : Phase} {error} : phase.returned = some error → SameCatalog s t →
      Turn r now i connected s phase t (.discarded error)

/-- The turns that change the catalog. -/
inductive Edit (r : Request) (now : UInt64) (i : Nat) (s : Server χ) : Phase → Server χ → Prop where
  | dropped {phase : Phase} : (∃ record, phase = .dropExisting record) ∨ phase = .compensate ∨ phase = .abortDrop →
      Edit r now i s phase (s.dropDatabase i r.name.value)
  | created {t} : s.createDatabase r.name.value r.source = some t → Edit r now i s .create t
  | tagged {db} : s.find r.name.value = some db → Edit r now i s .tag
      (s.put r.name.value { db with comment := some (r.metadata .initializing now).encode })
  | disabled {db} : s.find r.name.value = some db → Edit r now i s .disableConnections
      (s.put r.name.value { db with allowConnections := false })
  | terminated : Edit r now i s .terminateConnections (s.terminate r.name.value)
  | taggedReady {db} : s.find r.name.value = some db → Edit r now i s .tagReady
      (s.put r.name.value { db with comment := some (r.metadata .ready now).encode })

section Turn
variable {r : Request} {now : UInt64} {i : Nat} {s t : Server χ}

/-- A function that still runs a statement has not returned. -/
theorem returned_of_statement {phase : Phase} (h : phase.atRest = false) : phase.returned = none := by
  cases phase with
  | aborted => cases h
  | stopped part failure => cases h
  | _ => rfl

/-- Turns that ask for a lock. -/
theorem turn_of_acquire {σ : Type} {c d : Client σ} {f : Phase → σ} {phase ok : Phase} {mode : Mode} {key : Int64}
    (h : Advanced i s c (.acquire mode key (f ok) (f phase.failed)) t d) (hprogram : c.program = f phase)
    (hphase : phase.acquires = true) (hstatement : phase.atRest = false)
    (hok : ∀ t, SameCatalog s t → Turn r now i c.connected s phase t ok) :
    ∃ after, d.program = f after ∧ d.connected = (c.connected && phase.returned.isNone) ∧
      Turn r now i c.connected s phase t after := by
  rw [returned_of_statement hstatement, Option.isNone_none, Bool.and_true]
  cases h with
  | requested => exact ⟨phase, hprogram, rfl, .waited hphase ⟨rfl, rfl, rfl⟩⟩
  | granted => exact ⟨ok, rfl, rfl, hok _ ⟨rfl, rfl, rfl⟩⟩
  | grantedUnseen => exact ⟨_, rfl, rfl, .failed hstatement ⟨rfl, rfl, rfl⟩⟩
  | withdrawn => exact ⟨_, rfl, rfl, .failed hstatement ⟨rfl, rfl, rfl⟩⟩
  | notAsked => exact ⟨_, rfl, rfl, .failed hstatement (.refl s)⟩

/-- Turns that run a statement. -/
theorem turn_of_run {σ : Type} {c d : Client σ} {f : Phase → σ} {phase : Phase} {α : Type} {stmt : Statement α}
    {ok : α → Phase} (h : Advanced i s c (.run stmt (fun answer => f (ok answer)) (f phase.failed)) t d)
    (hstatement : phase.atRest = false) (hok : ∀ u answer, c.connected = true → s.execute i stmt = some (u, answer) →
      Turn r now i c.connected s phase u (ok answer) ∧ Turn r now i c.connected s phase u phase.failed) :
    ∃ after, d.program = f after ∧ d.connected = (c.connected && phase.returned.isNone) ∧
      Turn r now i c.connected s phase t after := by
  rw [returned_of_statement hstatement, Option.isNone_none, Bool.and_true]
  cases h with
  | ran hconnected hrun => exact ⟨_, rfl, rfl, (hok _ _ hconnected hrun).1⟩
  | ranUnseen hconnected hrun => exact ⟨_, rfl, rfl, (hok _ _ hconnected hrun).2⟩
  | notRun => exact ⟨_, rfl, rfl, .failed hstatement (.refl s)⟩

/-- A turn of a program that has an attempt in it. -/
theorem turn_of_advanced {σ : Type} {c d : Client σ} {f : Phase → σ} {phase : Phase} {next : Code Phase}
    (hcode : code r now phase = some next) (h : Advanced i s c (next.map f) t d) (hprogram : c.program = f phase) :
    ∃ after, d.program = f after ∧ d.connected = (c.connected && phase.returned.isNone) ∧
      Turn r now i c.connected s phase t after := by
  cases phase with
  | lockShared check =>
    cases hcode
    exact turn_of_acquire h hprogram rfl rfl fun _ ht => .lockedShared check ht
  | inspect check =>
    cases hcode
    refine turn_of_run h rfl fun u answer hconnected hrun => ?_
    cases hrun
    exact ⟨.inspected check hconnected, .failed rfl (.refl s)⟩
  | unlockShared check =>
    cases hcode
    refine turn_of_run h rfl fun u answer hconnected hrun => ?_
    cases hrun
    exact ⟨.unlockedShared check ⟨rfl, rfl, rfl⟩, .failed rfl ⟨rfl, rfl, rfl⟩⟩
  | lockCoordination =>
    cases hcode
    exact turn_of_acquire h hprogram rfl rfl fun _ ht => .lockedCoordination ht
  | lockExclusive =>
    cases hcode
    exact turn_of_acquire h hprogram rfl rfl fun _ ht => .lockedExclusive ht
  | inspectExclusive =>
    cases hcode
    refine turn_of_run h rfl fun u answer hconnected hrun => ?_
    cases hrun
    exact ⟨.inspectedExclusive hconnected, .failed rfl (.refl s)⟩
  | unlockExclusive =>
    cases hcode
    refine turn_of_run h rfl fun u answer hconnected hrun => ?_
    cases hrun
    exact ⟨.unlockedExclusive ⟨rfl, rfl, rfl⟩, .failed rfl ⟨rfl, rfl, rfl⟩⟩
  | findExisting =>
    cases hcode
    refine turn_of_run h rfl fun u answer hconnected hrun => ?_
    cases hrun
    exact ⟨.found hconnected, .failed rfl (.refl s)⟩
  | dropExisting record =>
    cases hcode
    refine turn_of_run h rfl fun u answer hconnected hrun => ?_
    cases hrun
    exact ⟨.dropped hconnected (Or.inl rfl), .dropped hconnected (Or.inr rfl)⟩
  | ensureOpen =>
    cases hcode
    cases h with
    | answered hnext =>
      rcases hnext with rfl | rfl
      · exact ⟨_, rfl, (Bool.and_true _).symm, .answered (Or.inl rfl)⟩
      · exact ⟨_, rfl, (Bool.and_true _).symm, .answered (Or.inr rfl)⟩
  | create =>
    cases hcode
    have hcreated : ∀ {u answer}, s.execute i (.create r.name.value r.source) = some (u, answer) →
        s.createDatabase r.name.value r.source = some u := by
      intro u answer hrun
      obtain ⟨_, hu, heq⟩ := Option.map_eq_some_iff.mp hrun
      cases heq
      exact hu
    cases h with
    | classifiedRan hconnected hrun =>
      exact ⟨_, rfl, (Bool.and_true _).symm, .created hconnected (hcreated hrun) (Or.inl rfl)⟩
    | classifiedUnseen hconnected hrun =>
      exact ⟨_, rfl, (Bool.and_true _).symm, .created hconnected (hcreated hrun) (Or.inr rfl)⟩
    | classifiedNotRun => exact ⟨_, rfl, (Bool.and_true _).symm, .failed rfl (.refl s)⟩
    | refused hconnected => exact ⟨_, rfl, (Bool.and_true _).symm, .refused hconnected⟩
  | tag =>
    cases hcode
    refine turn_of_run h rfl fun u answer hconnected hrun => ?_
    obtain ⟨_, hu, heq⟩ := Option.map_eq_some_iff.mp hrun
    cases heq
    obtain ⟨db, hdb, rfl⟩ := Server.alter_eq_some.mp hu
    exact ⟨.tagged hconnected hdb (Or.inl rfl), .tagged hconnected hdb (Or.inr rfl)⟩
  | compensate =>
    cases hcode
    refine turn_of_run h rfl fun u answer hconnected hrun => ?_
    cases hrun
    exact ⟨.compensated hconnected (Or.inl rfl), .compensated hconnected (Or.inr rfl)⟩
  | closeAdmission =>
    cases hcode
    cases h with
    | passed => exact ⟨_, rfl, (Bool.and_true _).symm, .closedAdmission⟩
  | initializing _ => cases hcode
  | disableConnections =>
    cases hcode
    refine turn_of_run h rfl fun u answer hconnected hrun => ?_
    obtain ⟨_, hu, heq⟩ := Option.map_eq_some_iff.mp hrun
    cases heq
    obtain ⟨db, hdb, rfl⟩ := Server.alter_eq_some.mp hu
    exact ⟨.disabled hconnected hdb (Or.inl rfl), .disabled hconnected hdb (Or.inr rfl)⟩
  | terminateConnections =>
    cases hcode
    refine turn_of_run h rfl fun u answer hconnected hrun => ?_
    cases hrun
    exact ⟨.terminated hconnected (Or.inl rfl), .terminated hconnected (Or.inr rfl)⟩
  | verifyConnections =>
    cases hcode
    refine turn_of_run h rfl fun u answer hconnected hrun => ?_
    cases hrun
    exact ⟨.verified hconnected, .failed rfl (.refl s)⟩
  | tagReady =>
    cases hcode
    refine turn_of_run h rfl fun u answer hconnected hrun => ?_
    obtain ⟨_, hu, heq⟩ := Option.map_eq_some_iff.mp hrun
    cases heq
    obtain ⟨db, hdb, rfl⟩ := Server.alter_eq_some.mp hu
    exact ⟨.taggedReady hconnected hdb (Or.inl rfl), .taggedReady hconnected hdb (Or.inr rfl)⟩
  | unlockFinished =>
    cases hcode
    refine turn_of_run h rfl fun u answer hconnected hrun => ?_
    cases hrun
    exact ⟨.unlockedFinished ⟨rfl, rfl, rfl⟩, .failed rfl ⟨rfl, rfl, rfl⟩⟩
  | unlockCoordination check ready =>
    cases hcode
    refine turn_of_run h rfl fun u answer hconnected hrun => ?_
    cases hrun
    exact ⟨.unlockedCoordination check ready ⟨rfl, rfl, rfl⟩, .failed rfl ⟨rfl, rfl, rfl⟩⟩
  | abortDrop =>
    cases hcode
    refine turn_of_run h rfl fun u answer hconnected hrun => ?_
    cases hrun
    exact ⟨.abortDropped hconnected, .abortDropped hconnected⟩
  | abortUnlock dropped =>
    cases hcode
    refine turn_of_run h rfl fun u answer hconnected hrun => ?_
    cases hrun
    exact ⟨.abortUnlocked dropped ⟨rfl, rfl, rfl⟩, .failed rfl ⟨rfl, rfl, rfl⟩⟩
  | abortUnlockCoordination dropped unlocked =>
    cases hcode
    refine turn_of_run h rfl fun u answer hconnected hrun => ?_
    cases hrun
    exact ⟨.abortedAll dropped unlocked ⟨rfl, rfl, rfl⟩, .failed rfl ⟨rfl, rfl, rfl⟩⟩
  | retained => cases hcode
  | aborted =>
    cases hcode
    cases h with
    | closed => exact ⟨_, rfl, (Bool.and_false _).symm, .discarded rfl ⟨rfl, rfl, rfl⟩⟩
  | stopped part failure =>
    cases hcode
    cases h with
    | closed => exact ⟨_, rfl, (Bool.and_false _).symm, .discarded rfl ⟨rfl, rfl, rfl⟩⟩
  | discarded error => cases hcode

/-- A turn leaves the catalog alone, or edits it. -/
theorem Turn.edit {connected : Bool} {phase next : Phase} (h : Turn r now i connected s phase t next) :
    SameCatalog s t ∨ connected = true ∧ Edit r now i s phase t := by
  cases h with
  | waited _ hsame => exact Or.inl hsame
  | failed _ hsame => exact Or.inl hsame
  | lockedShared _ hsame => exact Or.inl hsame
  | unlockedShared _ hsame => exact Or.inl hsame
  | lockedCoordination hsame => exact Or.inl hsame
  | lockedExclusive hsame => exact Or.inl hsame
  | unlockedExclusive hsame => exact Or.inl hsame
  | unlockedFinished hsame => exact Or.inl hsame
  | unlockedCoordination _ _ hsame => exact Or.inl hsame
  | abortUnlocked _ hsame => exact Or.inl hsame
  | abortedAll _ _ hsame => exact Or.inl hsame
  | inspected => exact Or.inl (.refl s)
  | inspectedExclusive => exact Or.inl (.refl s)
  | found => exact Or.inl (.refl s)
  | verified => exact Or.inl (.refl s)
  | dropped hconnected => exact Or.inr ⟨hconnected, .dropped (Or.inl ⟨_, rfl⟩)⟩
  | compensated hconnected => exact Or.inr ⟨hconnected, .dropped (Or.inr (Or.inl rfl))⟩
  | answered => exact Or.inl (.refl s)
  | refused => exact Or.inl (.refl s)
  | closedAdmission => exact Or.inl (.refl s)
  | discarded _ hsame => exact Or.inl hsame
  | abortDropped hconnected => exact Or.inr ⟨hconnected, .dropped (Or.inr (Or.inr rfl))⟩
  | created hconnected hcreate => exact Or.inr ⟨hconnected, .created hcreate⟩
  | tagged hconnected hdb => exact Or.inr ⟨hconnected, .tagged hdb⟩
  | disabled hconnected hdb => exact Or.inr ⟨hconnected, .disabled hdb⟩
  | terminated hconnected => exact Or.inr ⟨hconnected, .terminated⟩
  | taggedReady hconnected hdb => exact Or.inr ⟨hconnected, .taggedReady hdb⟩

/-- What a turn adds to the log of drops, and where. -/
theorem Turn.drops_cases {connected : Bool} {phase next : Phase} (h : Turn r now i connected s phase t next) :
    t.drops = s.drops ∨ connected = true ∧ (∃ removed, t.drops = ⟨i, r.name.value, removed⟩ :: s.drops) ∧
      ((∃ record, phase = .dropExisting record) ∨ phase = .compensate ∨ phase = .abortDrop) := by
  rcases h.edit with hsame | ⟨hconnected, hedit⟩
  · exact Or.inl hsame.drops
  cases hedit with
  | dropped hphase => exact Or.inr ⟨hconnected, ⟨_, rfl⟩, hphase⟩
  | created hcreate =>
    obtain ⟨_, _, _, _, rfl⟩ := Server.createDatabase_eq_some.mp hcreate
    exact Or.inl rfl
  | tagged => exact Or.inl rfl
  | disabled => exact Or.inl rfl
  | terminated =>
    rw [Server.terminate]
    split <;> exact Or.inl rfl
  | taggedReady => exact Or.inl rfl

/-- The phases that one turn alone leads to. -/
def Phase.marked : Phase → Bool
  | .dropExisting _ | .tag | .compensate | .stopped .begin .inconsistentMetadata => true
  | _ => false

theorem acquires_marked {phase : Phase} (h : phase.acquires = true) : phase.marked = false := by
  cases phase with
  | lockShared | lockCoordination | lockExclusive => rfl
  | _ => cases h

theorem failed_marked {phase : Phase} (h : phase.failed.marked = true) : phase = .tag := by
  cases phase with
  | tag => rfl
  | lockShared check | inspect check | unlockShared check | unlockCoordination check _ => cases check <;> cases h
  | _ => cases h

/-- What a search finds is dropped, replaced or refused. -/
theorem existing_cases (r : Request) (found : Option DatabaseRecord) : r.existing found = .ensureOpen ∨
    (∃ record, r.existing found = .dropExisting record) ∨
      r.existing found = .stopped .begin .inconsistentMetadata := by
  cases found with
  | none => exact Or.inl rfl
  | some record =>
    rw [Request.existing]
    split
    · exact Or.inr (Or.inl ⟨record, rfl⟩)
    · exact Or.inr (Or.inr rfl)

/-- A function that has returned without a session goes on to drop its client. -/
theorem code_of_returned {phase : Phase} {error : Option (Part × Failure)} (h : phase.returned = some error) :
    code r now phase = some (.close (.discarded error)) := by
  cases phase with
  | aborted =>
    cases h
    rfl
  | stopped part failure =>
    cases h
    rfl
  | _ => cases h

theorem failed_ne_discarded {phase : Phase} {error : Option (Part × Failure)} : phase.failed ≠ .discarded error := by
  cases phase <;> nofun

/-- A client is dropped after an error or an abort. -/
theorem Turn.returned_of_discarded {connected : Bool} {phase next : Phase} {error : Option (Part × Failure)}
    (h : Turn r now i connected s phase t next) (hnext : next = .discarded error) : phase.returned = some error := by
  cases h with
  | discarded hreturned =>
    cases hnext
    exact hreturned
  | waited hacquires =>
    rw [hnext] at hacquires
    cases hacquires
  | failed => exact absurd hnext failed_ne_discarded
  | inspected check => split at hnext <;> cases check <;> cases hnext
  | unlockedShared check => cases check <;> cases hnext
  | inspectedExclusive => split at hnext <;> cases hnext
  | found =>
    generalize (s.find r.name.value).map (Server.record r.name.value) = answer at hnext
    rcases existing_cases r answer with heq | ⟨record, heq⟩ | heq <;> cases heq.symm.trans hnext
  | verified => split at hnext <;> cases hnext
  | unlockedCoordination check ready => cases check <;> cases ready <;> cases hnext
  | abortedAll => split at hnext <;> cases hnext
  | dropped _ hcases => rcases hcases with rfl | rfl <;> cases hnext
  | answered hcases => rcases hcases with rfl | rfl <;> cases hnext
  | created _ _ hcases => rcases hcases with rfl | rfl <;> cases hnext
  | tagged _ _ hcases => rcases hcases with rfl | rfl <;> cases hnext
  | compensated _ hcases => rcases hcases with rfl | rfl <;> cases hnext
  | disabled _ _ hcases => rcases hcases with rfl | rfl <;> cases hnext
  | terminated _ hcases => rcases hcases with rfl | rfl <;> cases hnext
  | taggedReady _ _ hcases => rcases hcases with rfl | rfl <;> cases hnext
  | _ => cases hnext

theorem Turn.discarded_of_returned {connected : Bool} {phase next : Phase} {error : Option (Part × Failure)}
    (h : Turn r now i connected s phase t next) (hphase : phase.returned = some error) : next = .discarded error := by
  cases h with
  | discarded hreturned => rw [Option.some.inj (hreturned.symm.trans hphase)]
  | waited hacquires =>
    cases phase with
    | aborted => cases hacquires
    | stopped part failure => cases hacquires
    | _ => cases hphase
  | failed hstatement =>
    rw [returned_of_statement hstatement] at hphase
    cases hphase
  | _ => cases hphase

/-- An attempt that is over has no turn but the end of its session. -/
theorem Over.turn {connected : Bool} {phase next : Phase} {error : Option (Part × Failure)} (hover : Over error phase)
    (h : Turn r now i connected s phase t next) : Over error next := by
  rcases hover with hreturned | rfl
  · exact .discarded (h.discarded_of_returned hreturned)
  · cases h with
    | waited hacquires => cases hacquires
    | failed hstatement => cases hstatement
    | discarded hreturned => cases hreturned

/-- Where those phases come from: the search for a database, a creation, a tag that failed. -/
theorem Turn.marked {connected : Bool} {phase next : Phase} (h : Turn r now i connected s phase t next)
    (hmarked : next.marked = true) :
    (connected = true ∧ phase = .findExisting ∧
        next = r.existing ((s.find r.name.value).map (Server.record r.name.value))) ∨
      (phase = .create ∧ next = .tag ∧ s.createDatabase r.name.value r.source = some t) ∨
      (phase = .tag ∧ next = .compensate) := by
  cases h with
  | found hconnected => exact Or.inl ⟨hconnected, rfl, rfl⟩
  | created _ hcreate hcases =>
    rcases hcases with rfl | rfl
    · exact Or.inr (Or.inl ⟨rfl, rfl, hcreate⟩)
    · cases hmarked
  | tagged _ _ hcases =>
    rcases hcases with rfl | rfl
    · cases hmarked
    · exact Or.inr (Or.inr ⟨rfl, rfl⟩)
  | waited hphase =>
    rw [acquires_marked hphase] at hmarked
    cases hmarked
  | failed =>
    obtain rfl := failed_marked hmarked
    exact Or.inr (Or.inr ⟨rfl, rfl⟩)
  | inspected check => split at hmarked <;> cases check <;> cases hmarked
  | unlockedShared check => cases check <;> cases hmarked
  | inspectedExclusive => split at hmarked <;> cases hmarked
  | verified => split at hmarked <;> cases hmarked
  | unlockedCoordination check ready => cases check <;> cases ready <;> cases hmarked
  | abortedAll => split at hmarked <;> cases hmarked
  | dropped _ hcases => rcases hcases with rfl | rfl <;> cases hmarked
  | answered hcases => rcases hcases with rfl | rfl <;> cases hmarked
  | compensated _ hcases => rcases hcases with rfl | rfl <;> cases hmarked
  | disabled _ _ hcases => rcases hcases with rfl | rfl <;> cases hmarked
  | terminated _ hcases => rcases hcases with rfl | rfl <;> cases hmarked
  | taggedReady _ _ hcases => rcases hcases with rfl | rfl <;> cases hmarked
  | _ => cases hmarked

/-- An attempt that is about to drop a leftover has just found it, tagged as one. -/
theorem Turn.found_leftover {connected : Bool} {phase next : Phase} {record : DatabaseRecord}
    (h : Turn r now i connected s phase t next) (hnext : next = .dropExisting record) :
    phase = .findExisting ∧ connected = true ∧ (s.find r.name.value).map (Server.record r.name.value) = some record ∧
      r.recoverable record = true := by
  subst hnext
  rcases h.marked rfl with ⟨hconnected, hphase, hfound⟩ | ⟨_, hnext, _⟩ | ⟨_, hnext⟩
  · refine ⟨hphase, hconnected, ?_⟩
    generalize (s.find r.name.value).map (Server.record r.name.value) = answer at hfound
    cases answer with
    | none => cases hfound
    | some other =>
      rw [Request.existing] at hfound
      split at hfound
      · rename_i hrecoverable
        cases hfound
        exact ⟨rfl, hrecoverable⟩
      · cases hfound
  · cases hnext
  · cases hnext

/-- An attempt that is about to compensate could not tag a database it has just created. -/
theorem Turn.not_tagged {connected : Bool} {phase next : Phase} (h : Turn r now i connected s phase t next) :
    (next = .compensate → phase = .tag) ∧
      (next = .tag → phase = .create ∧ s.createDatabase r.name.value r.source = some t) := by
  have hfound := existing_cases r ((s.find r.name.value).map (Server.record r.name.value))
  refine ⟨fun hnext => ?_, fun hnext => ?_⟩
  · subst hnext
    rcases h.marked rfl with ⟨_, _, hsearch⟩ | ⟨_, hnext, _⟩ | ⟨hphase, _⟩
    · rw [← hsearch] at hfound
      simp at hfound
    · cases hnext
    · exact hphase
  · subst hnext
    rcases h.marked rfl with ⟨_, _, hsearch⟩ | ⟨hphase, _, hcreate⟩ | ⟨_, hnext⟩
    · rw [← hsearch] at hfound
      simp at hfound
    · exact ⟨hphase, hcreate⟩
    · cases hnext

end Turn

/-! ### Locks -/

section Discipline
variable (r : Request)

theorem holds_checkReady {check : Check} {l : List (Int64 × Mode)} (h : holds r check.ready = some l) :
    holds r (.inspect check) = some l := by
  cases check <;> exact h

theorem holds_existing {found : Option DatabaseRecord} {l : List (Int64 × Mode)}
    (h : holds r (r.existing found) = some l) : holds r .findExisting = some l := by
  cases found with
  | none => exact h
  | some record =>
    rw [Request.existing] at h
    split at h
    · exact h
    · cases h

/-- The shared lock is given back where the template is not ready. -/
theorem holds_checkNotReady {check : Check} {l : List (Int64 × Mode)} (h : holds r check.notReady = some l) :
    ∃ before, holds r (.unlockShared check) = some before ∧ l = before.erase (r.lockKey, .shared) := by
  cases check with
  | first => exact ⟨_, rfl, by rw [List.erase_cons_head]; exact (Option.some.inj h).symm⟩
  | underCoordination => exact ⟨_, rfl, by rw [List.erase_cons_head]; exact (Option.some.inj h).symm⟩
  | afterUpgrade => exact ⟨_, rfl, by rw [List.erase_cons_head]; exact (Option.some.inj h).symm⟩
  | afterFinish => exact ⟨_, rfl, by rw [List.erase_cons_head]; exact (Option.some.inj h).symm⟩

theorem holds_released {check : Check} {ready : Bool} {l : List (Int64 × Mode)}
    (h : holds r (check.released ready) = some l) :
    ∃ before, holds r (.unlockCoordination check ready) = some before ∧
      l = before.erase (r.coordinationKey, .exclusive) := by
  cases ready with
  | true =>
    refine ⟨_, rfl, ?_⟩
    have hne : ((r.lockKey, Mode.shared) == (r.coordinationKey, Mode.exclusive)) = false :=
      beq_eq_false_iff_ne.mpr fun heq => by cases (Prod.mk.inj heq).2
    rw [List.erase_cons_tail (by rw [hne]; exact Bool.false_ne_true), List.erase_cons_head]
    cases check <;> exact (Option.some.inj h).symm
  | false =>
    refine ⟨_, rfl, ?_⟩
    rw [List.erase_cons_head]
    cases check with
    | afterFinish => cases h
    | _ => exact (Option.some.inj h).symm

theorem discipline (now : UInt64) : Discipline (code r now) (holds r) := by
  intro p next h
  -- a lock that an exclusive holder gives back is the first of its two
  have hboth : ∀ {l : List (Int64 × Mode)}, some [(r.coordinationKey, Mode.exclusive)] = some l →
      l = [(r.lockKey, Mode.exclusive), (r.coordinationKey, Mode.exclusive)].erase (r.lockKey, .exclusive) := by
    intro l hl
    rw [List.erase_cons_head]
    exact (Option.some.inj hl).symm
  cases p with
  | lockShared check =>
    cases h
    refine ⟨fun l hl => ?_, rfl⟩
    cases check <;> exact ⟨_, rfl, (Option.some.inj hl).symm⟩
  | inspect check =>
    cases h
    refine ⟨fun found l hl => ?_, nofun⟩
    beta_reduce at hl
    split at hl
    · exact holds_checkReady r hl
    · cases check <;> exact hl
  | unlockShared check =>
    cases h
    exact ⟨fun l hl => holds_checkNotReady r hl, rfl⟩
  | lockCoordination =>
    cases h
    exact ⟨fun l hl => ⟨_, rfl, (Option.some.inj hl).symm⟩, rfl⟩
  | lockExclusive =>
    cases h
    exact ⟨fun l hl => ⟨_, rfl, (Option.some.inj hl).symm⟩, rfl⟩
  | inspectExclusive =>
    cases h
    refine ⟨fun found l hl => ?_, nofun⟩
    beta_reduce at hl
    split at hl <;> exact hl
  | unlockExclusive =>
    cases h
    exact ⟨fun l hl => ⟨_, rfl, hboth hl⟩, rfl⟩
  | findExisting =>
    cases h
    exact ⟨fun found l hl => holds_existing r hl, nofun⟩
  | dropExisting record =>
    cases h
    exact ⟨fun _ l hl => hl, nofun⟩
  | ensureOpen =>
    cases h
    exact ⟨fun l hl => hl, nofun⟩
  | create =>
    cases h
    exact ⟨⟨fun _ l hl => hl, fun l hl => hl⟩, nofun⟩
  | tag =>
    cases h
    exact ⟨fun _ l hl => hl, fun l hl => hl⟩
  | compensate =>
    cases h
    exact ⟨nofun, fun l hl => hl⟩
  | closeAdmission =>
    cases h
    exact nofun
  | initializing _ => cases h
  | disableConnections =>
    cases h
    exact ⟨fun _ l hl => hl, nofun⟩
  | terminateConnections =>
    cases h
    exact ⟨fun _ l hl => hl, nofun⟩
  | verifyConnections =>
    cases h
    refine ⟨fun remain l hl => ?_, nofun⟩
    beta_reduce at hl
    split at hl
    · cases hl
    · exact hl
  | tagReady =>
    cases h
    exact ⟨fun _ l hl => hl, nofun⟩
  | unlockFinished =>
    cases h
    exact ⟨fun l hl => ⟨_, rfl, hboth hl⟩, rfl⟩
  | unlockCoordination check ready =>
    cases h
    exact ⟨fun l hl => holds_released r hl, rfl⟩
  | abortDrop =>
    cases h
    exact ⟨fun _ l hl => hl, fun l hl => hl⟩
  | abortUnlock dropped =>
    cases h
    exact ⟨fun l hl => ⟨_, rfl, hboth hl⟩, rfl⟩
  | abortUnlockCoordination dropped unlocked =>
    cases h
    refine ⟨fun l hl => ?_, rfl⟩
    cases unlocked with
    | false =>
      rw [Bool.and_false] at hl
      cases hl
    | true =>
      refine ⟨_, rfl, ?_⟩
      rw [List.erase_cons_head]
      split at hl
      · exact (Option.some.inj hl).symm
      · cases hl
  | retained => cases h
  | aborted =>
    cases h
    trivial
  | stopped part failure =>
    cases h
    trivial
  | discarded error => cases h

/-- A turn leaves the catalog alone, or changes the template's database under its exclusive lock. -/
theorem Turn.writes {now : UInt64} {i : Nat} {connected : Bool} {s t : Server χ} {phase next : Phase}
    (h : Turn r now i connected s phase t next) : (∀ name, t.find name = s.find name) ∨
      connected = true ∧ (∃ l, holds r phase = some l ∧ (r.lockKey, .exclusive) ∈ l) ∧
        ∀ name, name ≠ r.name.value → t.find name = s.find name := by
  have hput : ∀ (db : Database χ) name, name ≠ r.name.value → (s.put r.name.value db).find name = s.find name :=
    fun db name hname => (Server.find_put _ _ _).trans (if_neg hname)
  rcases h.edit with hsame | ⟨hconnected, hedit⟩
  · exact Or.inl hsame.find
  refine Or.inr ⟨hconnected, ?_, fun name hname => ?_⟩
  · cases hedit with
    | dropped hphase => rcases hphase with ⟨_, rfl⟩ | rfl | rfl <;> exact ⟨_, rfl, List.mem_cons_self ..⟩
    | _ => exact ⟨_, rfl, List.mem_cons_self ..⟩
  · cases hedit with
    | dropped => exact (Server.find_drop _ _).trans (if_neg hname)
    | created hcreate =>
      obtain ⟨_, original, _, _, rfl⟩ := Server.createDatabase_eq_some.mp hcreate
      exact hput _ name hname
    | tagged => exact hput _ name hname
    | disabled => exact hput _ name hname
    | terminated =>
      rw [Server.terminate]
      split
      · exact hput _ name hname
      · rfl
    | taggedReady => exact hput _ name hname

end Discipline

/-- An attempt, with what the clock says when it reads it. -/
structure Attempt where
  request : Request
  now : UInt64
  phase : Phase
  deriving DecidableEq

namespace Attempt

def goto (a : Attempt) (phase : Phase) : Attempt := { a with phase }

def code (a : Attempt) : Option (Code Attempt) := (Template.code a.request a.now a.phase).map (Code.map a.goto)

def holds (a : Attempt) : Option (List (Int64 × Mode)) := Template.holds a.request a.phase

theorem discipline : Discipline code holds := by
  intro a next h
  obtain ⟨next, hnext, rfl⟩ := Option.map_eq_some_iff.mp h
  exact (Code.follows_map _ _ _ _).mpr (Template.discipline a.request a.now a.phase next hnext)

/-- A turn of an attempt on its session. -/
theorem turn_of_advanced {i : Nat} {s t : Server χ} {c d : Client Attempt} {next : Code Attempt}
    (hcode : c.program.code = some next) (h : Advanced i s c next t d) :
    ∃ after, d.program = c.program.goto after ∧
      d.connected = (c.connected && c.program.phase.returned.isNone) ∧
      Turn c.program.request c.program.now i c.connected s c.program.phase t after := by
  obtain ⟨next, hnext, rfl⟩ := Option.map_eq_some_iff.mp hcode
  exact Template.turn_of_advanced hnext h rfl

end Attempt

end PostgresTestHarness.Template
