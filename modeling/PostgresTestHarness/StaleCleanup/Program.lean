import PostgresTestHarness.Postgres.Client

/-! The stale database sweep.

`cleanup_stale_blocking` as a program: it lists the databases, and for each record that
is an old one of its project takes the lock the record names, reads the record again, and
drops the database if nothing has changed. Its errors are not told apart: `none` is a
result that is an error. -/
namespace PostgresTestHarness.StaleCleanup
open SessionLock Postgres

/-- `std::time::Duration`. -/
structure Duration where
  secs : UInt64
  nanos : Nat
  valid : nanos < 10 ^ 9
  deriving DecidableEq, Repr

/-- `Duration::as_secs`. -/
def Duration.asSecs (d : Duration) : UInt64 := d.secs

/-- `CleanupReport`. -/
structure CleanupReport where
  droppedTestDatabases : Nat := 0
  droppedTemplates : Nat := 0
  skippedActive : Nat := 0
  skippedFresh : Nat := 0
  skippedUnrecognized : Nat := 0
  deriving DecidableEq, Repr

def CleanupReport.totalDropped (r : CleanupReport) : Nat := r.droppedTestDatabases + r.droppedTemplates

/-- The counter for a kind. -/
def CleanupReport.dropped (r : CleanupReport) : DatabaseKind → Nat
  | .test => r.droppedTestDatabases
  | .template => r.droppedTemplates

/-- All counters together. -/
def CleanupReport.total (r : CleanupReport) : Nat :=
  r.totalDropped + r.skippedActive + r.skippedFresh + r.skippedUnrecognized

inductive CleanupClassification where
  | ignore
  | unrecognized
  | fresh
  | candidate (name : DatabaseName) (lockKey : Int64)
  deriving DecidableEq

def metadataMatchesName (metadata : ResourceMetadata) (name : DatabaseName) : Bool :=
  match metadata, name.kind with
  | .test .., .test => true
  | .template project _ fingerprint .., .template => DatabaseName.template project fingerprint == name
  | _, _ => false

/-- `record.comment.as_deref().and_then(ResourceMetadata::parse)`. -/
def recordMetadata (record : DatabaseRecord) : Option ResourceMetadata :=
  record.comment.bind ResourceMetadata.parse

/-- What `cleanup_stale_blocking` was called for, and when. -/
structure Sweep where
  project : ProjectName
  staleAfter : Duration
  now : UInt64
  deriving DecidableEq

/-- `now.saturating_sub(metadata.created_at())`. -/
def Sweep.age (sw : Sweep) (metadata : ResourceMetadata) : Nat :=
  sw.now.toNat - metadata.createdAt.toNat

def classifyCleanupRecord (sw : Sweep) (record : DatabaseRecord) : CleanupClassification :=
  match DatabaseName.fromExisting sw.project record.name with
  | none => .ignore
  | some name =>
    match recordMetadata record with
    | none => .unrecognized
    | some metadata =>
      if metadata.project ≠ sw.project ∨ metadataMatchesName metadata name = false then .unrecognized
      else if sw.age metadata < sw.staleAfter.asSecs.toNat then .fresh
      else .candidate name metadata.lockKey

def CleanupReport.skipUnrecognized (r : CleanupReport) : CleanupReport :=
  { r with skippedUnrecognized := r.skippedUnrecognized + 1 }

def CleanupReport.skipFresh (r : CleanupReport) : CleanupReport := { r with skippedFresh := r.skippedFresh + 1 }

def CleanupReport.skipActive (r : CleanupReport) : CleanupReport := { r with skippedActive := r.skippedActive + 1 }

def CleanupReport.drop (r : CleanupReport) : DatabaseKind → CleanupReport
  | .test => { r with droppedTestDatabases := r.droppedTestDatabases + 1 }
  | .template => { r with droppedTemplates := r.droppedTemplates + 1 }

def revalidateCleanupCandidate (sw : Sweep) (snapshot : DatabaseRecord) (current : Option DatabaseRecord)
    (heldKey : Int64) (report : CleanupReport) : Option DatabaseName × CleanupReport :=
  match current with
  | none => (none, report)
  | some current =>
    match classifyCleanupRecord sw current with
    | .ignore => (none, report)
    | .unrecognized => (none, report.skipUnrecognized)
    | .fresh => (none, report.skipFresh)
    | .candidate name lockKey =>
      if current = snapshot ∧ lockKey = heldKey then (some name, report) else (none, report)

/-- Where a sweep is. The record at hand stands before those that are left. -/
inductive Phase where
  | listing
  | scanning (records : List DatabaseRecord) (report : CleanupReport)
  | locking (record : DatabaseRecord) (key : Int64) (rest : List DatabaseRecord) (report : CleanupReport)
  | finding (record : DatabaseRecord) (key : Int64) (rest : List DatabaseRecord) (report : CleanupReport)
  | dropping (record : DatabaseRecord) (key : Int64) (name : DatabaseName) (rest : List DatabaseRecord)
      (report : CleanupReport)
  | unlocking (key : Int64) (result : Option (Option DatabaseKind)) (rest : List DatabaseRecord)
      (report : CleanupReport)
  | finished (result : Option CleanupReport)
  deriving DecidableEq

/-- The head of the loop's body. -/
def scan (sw : Sweep) (record : DatabaseRecord) (rest : List DatabaseRecord) (report : CleanupReport) : Phase :=
  match classifyCleanupRecord sw record with
  | .ignore => .scanning rest report
  | .unrecognized => .scanning rest report.skipUnrecognized
  | .fresh => .scanning rest report.skipFresh
  | .candidate _ lockKey => .locking record lockKey rest report

/-- `cleanup_candidate_after_lock`, once the record has been read again. -/
def revalidated (sw : Sweep) (record : DatabaseRecord) (key : Int64) (rest : List DatabaseRecord)
    (report : CleanupReport) (current : Option DatabaseRecord) : Phase :=
  match revalidateCleanupCandidate sw record current key report with
  | (some name, report) => .dropping record key name rest report
  | (none, report) => .unlocking key (some none) rest report

/-- `finish_locked_cleanup` after its unlock, and the end of the loop's body. -/
def unlocked (result : Option (Option DatabaseKind)) (rest : List DatabaseRecord) (report : CleanupReport) : Phase :=
  match result with
  | none => .finished none
  | some none => .scanning rest report
  | some (some kind) => .scanning rest (report.drop kind)

def code (sw : Sweep) : Phase → Option (Code Phase)
  | .listing => some (.run .list (fun records => .scanning records {}) (.finished none))
  | .scanning [] report => some (.pass (.finished (some report)))
  | .scanning (record :: rest) report => some (.pass (scan sw record rest report))
  | .locking record key rest report => some (.run (.tryLock key)
      (fun acquired => if acquired then .finding record key rest report else .scanning rest report.skipActive)
      (.finished none))
  | .finding record key rest report => some (.run (.find record.name)
      (revalidated sw record key rest report) (.unlocking key none rest report))
  | .dropping _ key name rest report => some (.run (.drop name.value)
      (fun _ => .unlocking key (some (some name.kind)) rest report) (.unlocking key none rest report))
  | .unlocking key result rest report => some (.run (.unlock .exclusive key)
      (fun _ => unlocked result rest report) (.finished none))
  | .finished _ => none

/-- The locks of a sweep's session: the key of the record at hand, from the try to the unlock. -/
def holds : Phase → Option (List (Int64 × Mode))
  | .listing | .scanning _ _ | .locking _ _ _ _ => some []
  | .finding _ key _ _ | .dropping _ key _ _ _ | .unlocking key _ _ _ => some [(key, .exclusive)]
  | .finished (some _) => some []
  | .finished none => none

/-! ### What a sweep looks for -/

section Classify
variable {sw : Sweep} {record : DatabaseRecord} {name : DatabaseName} {key : Int64}

/-- What makes a record a candidate: its name has a shape of the project, its comment is a
record of the project and of that name, and it is old enough. -/
structure Candidate (sw : Sweep) (record : DatabaseRecord) (name : DatabaseName) (metadata : ResourceMetadata) :
    Prop where
  managed : DatabaseName.fromExisting sw.project record.name = some name
  parses : recordMetadata record = some metadata
  project : metadata.project = sw.project
  matchesName : metadataMatchesName metadata name = true
  old : sw.staleAfter.asSecs.toNat ≤ sw.age metadata

theorem classify_eq_candidate : classifyCleanupRecord sw record = .candidate name key ↔
    ∃ metadata, Candidate sw record name metadata ∧ metadata.lockKey = key := by
  rw [classifyCleanupRecord]
  constructor
  · intro h
    split at h
    · cases h
    · rename_i n hmanaged
      split at h
      · cases h
      · rename_i metadata hparses
        split at h
        · cases h
        · rename_i hboth
          rw [not_or, not_not, Bool.not_eq_false] at hboth
          split at h
          · cases h
          · rename_i hold
            cases h
            exact ⟨metadata, ⟨hmanaged, hparses, hboth.1, hboth.2, Nat.not_lt.mp hold⟩, rfl⟩
  · intro hparts
    obtain ⟨metadata, h, rfl⟩ := hparts
    have hboth : ¬ (metadata.project ≠ sw.project ∨ metadataMatchesName metadata name = false) := by
      rw [not_or, not_not, Bool.not_eq_false]
      exact ⟨h.project, h.matchesName⟩
    simp only [h.managed, h.parses]
    rw [if_neg hboth, if_neg (Nat.not_lt.mpr h.old)]

/-- A record that is dropped is the one that was listed, and still a candidate. -/
theorem revalidate_eq_some {current : Option DatabaseRecord} {report after : CleanupReport}
    (h : revalidateCleanupCandidate sw record current key report = (some name, after)) :
    current = some record ∧ classifyCleanupRecord sw record = .candidate name key ∧ after = report := by
  rw [revalidateCleanupCandidate.eq_def] at h
  split at h
  · cases h
  · rename_i found
    split at h
    · cases h
    · cases h
    · cases h
    · rename_i n k hclass
      split at h
      · rename_i hsame
        cases h
        exact ⟨congrArg some hsame.1, by rw [← hsame.1, hclass, hsame.2], rfl⟩
      · cases h

theorem CleanupReport.dropped_skip (r : CleanupReport) (kind : DatabaseKind) :
    r.skipUnrecognized.dropped kind = r.dropped kind ∧ r.skipFresh.dropped kind = r.dropped kind ∧
      r.skipActive.dropped kind = r.dropped kind := by
  cases kind <;> exact ⟨rfl, rfl, rfl⟩

/-- A record that is not dropped is counted once at most. -/
theorem revalidate_eq_none {current : Option DatabaseRecord} {report after : CleanupReport}
    (h : revalidateCleanupCandidate sw record current key report = (none, after)) :
    after.total ≤ report.total + 1 ∧ ∀ kind, after.dropped kind = report.dropped kind := by
  rw [revalidateCleanupCandidate.eq_def] at h
  have hsame : report.total ≤ report.total + 1 ∧ ∀ kind, report.dropped kind = report.dropped kind :=
    ⟨Nat.le_succ _, fun _ => rfl⟩
  split at h
  · cases h
    exact hsame
  · split at h
    · cases h
      exact hsame
    · cases h
      exact ⟨Nat.le_refl _, fun kind => (report.dropped_skip kind).1⟩
    · cases h
      refine ⟨Nat.le_of_eq ?_, fun kind => (report.dropped_skip kind).2.1⟩
      simp only [CleanupReport.total, CleanupReport.totalDropped, CleanupReport.skipFresh]
      omega
    · split at h
      · cases h
      · cases h
        exact hsame

end Classify

/-! ### What a turn of a sweep does -/

/-- The turns of a sweep on session `i`. A statement that has an effect needs its session. -/
inductive Turn {χ : Type} (sw : Sweep) (i : Nat) (connected : Bool) (s : Server χ) : Phase → Server χ → Phase → Prop where
  | listed : connected = true →
      Turn sw i connected s .listing s (.scanning (s.databases.entries.map fun e => Server.record e.1 e.2) {})
  | listFailed : Turn sw i connected s .listing s (.finished none)
  | ended {report} : Turn sw i connected s (.scanning [] report) s (.finished (some report))
  | scanned {record rest report} :
      Turn sw i connected s (.scanning (record :: rest) report) s (scan sw record rest report)
  | acquired {record key rest report} : connected = true → s.locks.available ⟨i, key, .exclusive⟩ = true →
      Turn sw i connected s (.locking record key rest report)
        { s with locks := s.locks.take ⟨i, key, .exclusive⟩ } (.finding record key rest report)
  | refused {record key rest report} : connected = true →
      Turn sw i connected s (.locking record key rest report) s (.scanning rest report.skipActive)
  | lockFailed {record key rest report t} : t.databases = s.databases → t.drops = s.drops →
      t.nextOid = s.nextOid → Turn sw i connected s (.locking record key rest report) t (.finished none)
  | found {record key rest report} : connected = true →
      Turn sw i connected s (.finding record key rest report) s
        (revalidated sw record key rest report ((s.find record.name).map (Server.record record.name)))
  | findFailed {record key rest report} :
      Turn sw i connected s (.finding record key rest report) s (.unlocking key none rest report)
  | dropped {record key name rest report} : connected = true →
      Turn sw i connected s (.dropping record key name rest report) (s.dropDatabase i name.value)
        (.unlocking key (some (some name.kind)) rest report)
  | droppedUnseen {record key name rest report} : connected = true →
      Turn sw i connected s (.dropping record key name rest report) (s.dropDatabase i name.value)
        (.unlocking key none rest report)
  | dropFailed {record key name rest report} :
      Turn sw i connected s (.dropping record key name rest report) s (.unlocking key none rest report)
  | unlocked {key result rest report} : connected = true →
      Turn sw i connected s (.unlocking key result rest report)
        { s with locks := s.locks.release ⟨i, key, .exclusive⟩ } (unlocked result rest report)
  | unlockFailed {key result rest report t} : t.databases = s.databases → t.drops = s.drops →
      t.nextOid = s.nextOid → Turn sw i connected s (.unlocking key result rest report) t (.finished none)

/-- A turn of a program that has a sweep in it. -/
theorem turn_of_advanced {χ σ : Type} {sw : Sweep} {i : Nat} {s t : Server χ} {c d : Client σ} {f : Phase → σ}
    {phase : Phase} {next : Code Phase} (hcode : code sw phase = some next) (h : Advanced i s c (next.map f) t d) :
    ∃ after, d = c.goto (f after) ∧ Turn sw i c.connected s phase t after := by
  cases phase with
  | listing =>
    cases hcode
    cases h with
    | ran hconnected hrun =>
      cases hrun
      exact ⟨_, rfl, .listed hconnected⟩
    | ranUnseen hconnected hrun =>
      cases hrun
      exact ⟨_, rfl, .listFailed⟩
    | notRun => exact ⟨_, rfl, .listFailed⟩
  | scanning records report =>
    cases records with
    | nil =>
      cases hcode
      cases h
      exact ⟨_, rfl, .ended⟩
    | cons record rest =>
      cases hcode
      cases h
      exact ⟨_, rfl, .scanned⟩
  | locking record key rest report =>
    cases hcode
    cases h with
    | ran hconnected hrun =>
      rw [Server.execute] at hrun
      split at hrun
      · rename_i havailable
        cases hrun
        exact ⟨_, rfl, .acquired hconnected havailable⟩
      · cases hrun
        exact ⟨_, rfl, .refused hconnected⟩
    | ranUnseen hconnected hrun =>
      rw [Server.execute] at hrun
      split at hrun
      · cases hrun
        exact ⟨_, rfl, .lockFailed rfl rfl rfl⟩
      · cases hrun
        exact ⟨_, rfl, .lockFailed rfl rfl rfl⟩
    | notRun => exact ⟨_, rfl, .lockFailed rfl rfl rfl⟩
  | finding record key rest report =>
    cases hcode
    cases h with
    | ran hconnected hrun =>
      cases hrun
      exact ⟨_, rfl, .found hconnected⟩
    | ranUnseen hconnected hrun =>
      cases hrun
      exact ⟨_, rfl, .findFailed⟩
    | notRun => exact ⟨_, rfl, .findFailed⟩
  | dropping record key name rest report =>
    cases hcode
    cases h with
    | ran hconnected hrun =>
      cases hrun
      exact ⟨_, rfl, .dropped hconnected⟩
    | ranUnseen hconnected hrun =>
      cases hrun
      exact ⟨_, rfl, .droppedUnseen hconnected⟩
    | notRun => exact ⟨_, rfl, .dropFailed⟩
  | unlocking key result rest report =>
    cases hcode
    cases h with
    | ran hconnected hrun =>
      cases hrun
      exact ⟨_, rfl, .unlocked hconnected⟩
    | ranUnseen hconnected hrun =>
      cases hrun
      exact ⟨_, rfl, .unlockFailed rfl rfl rfl⟩
    | notRun => exact ⟨_, rfl, .unlockFailed rfl rfl rfl⟩
  | finished result => cases hcode

theorem discipline (sw : Sweep) : Discipline (code sw) holds := by
  have hscan : ∀ record rest report, holds (scan sw record rest report) = some [] := by
    intro record rest report
    rw [scan]
    split <;> rfl
  have hrevalidated : ∀ record key rest report current,
      holds (revalidated sw record key rest report current) = some [(key, .exclusive)] := by
    intro record key rest report current
    rw [revalidated]
    split <;> rfl
  intro p next h
  cases p with
  | listing =>
    cases h
    exact ⟨fun _ _ hl => hl, nofun⟩
  | scanning records report =>
    cases records with
    | nil =>
      cases h
      exact fun l hl => hl
    | cons record rest =>
      cases h
      exact fun l hl => (hscan record rest report).symm.trans hl
  | locking record key rest report =>
    cases h
    exact ⟨fun l hl => ⟨[], rfl, (Option.some.inj hl).symm⟩, fun l hl => hl, rfl⟩
  | finding record key rest report =>
    cases h
    exact ⟨fun current l hl => (hrevalidated record key rest report current).symm.trans hl, fun _ hl => hl⟩
  | dropping record key name rest report =>
    cases h
    exact ⟨fun _ _ hl => hl, fun _ hl => hl⟩
  | unlocking key result rest report =>
    cases h
    refine ⟨fun l hl => ⟨[(key, .exclusive)], rfl, ?_⟩, rfl⟩
    rw [List.erase_cons_head]
    cases result with
    | none => cases hl
    | some kind =>
      cases kind
      · exact (Option.some.inj hl).symm
      · exact (Option.some.inj hl).symm
  | finished result => cases h

end PostgresTestHarness.StaleCleanup
