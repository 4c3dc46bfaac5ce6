import PostgresTestHarness.Container.System
import PostgresTestHarness.Library.Utf8Lossy

/-! What a container's exit before it is ready is reported as.

The end of its logs is read as text, whatever bytes it has, and searched for phrases in lower
case. That is the same as searching the bytes: a character that the limit cuts in two, or that
was never one, hides no phrase beside it (`container_exit_classified`). -/
namespace PostgresTestHarness.Container
open Utf8Lossy (decode lowerByte byte)

/-- `OwnedContainerProfile`. -/
structure OwnedContainerProfile where
  initdbNoSync : Bool
  tmpfsSizeBytes : Option UInt64
  deriving DecidableEq, Repr

def defaultOwnedContainerTmpfsSizeBytes : UInt64 := 1024 * 1024 * 1024

namespace OwnedContainerProfile

def performance : OwnedContainerProfile := ⟨true, some defaultOwnedContainerTmpfsSizeBytes⟩

def withInitdbNoSync (profile : OwnedContainerProfile) (enabled : Bool) : OwnedContainerProfile :=
  { profile with initdbNoSync := enabled }

def withTmpfsSizeBytes (profile : OwnedContainerProfile) (sizeBytes : UInt64) : Except Error OwnedContainerProfile :=
  if sizeBytes = 0 ∨ sizeBytes.toNat > 2 ^ 63 - 1 then
    .error (.harness (.invalidConfiguration
      "owned-container tmpfs size must be between 1 and i64::MAX bytes".toList))
  else .ok { profile with tmpfsSizeBytes := some sizeBytes }

def withoutTmpfs (profile : OwnedContainerProfile) : OwnedContainerProfile := { profile with tmpfsSizeBytes := none }

end OwnedContainerProfile

inductive ProfileSetter where
  | initdbNoSync (enabled : Bool)
  | tmpfsSizeBytes (sizeBytes : UInt64)
  | withoutTmpfs
  deriving DecidableEq, Repr

def ProfileSetter.apply (profile : OwnedContainerProfile) : ProfileSetter → Except Error OwnedContainerProfile
  | .initdbNoSync enabled => .ok (profile.withInitdbNoSync enabled)
  | .tmpfsSizeBytes sizeBytes => profile.withTmpfsSizeBytes sizeBytes
  | .withoutTmpfs => .ok profile.withoutTmpfs

/-- Calls in a row, as long as they succeed. -/
def OwnedContainerProfile.set (profile : OwnedContainerProfile) :
    List ProfileSetter → Except Error OwnedContainerProfile
  | [] => .ok profile
  | setter :: rest =>
    match setter.apply profile with
    | .error error => .error error
    | .ok profile => profile.set rest

/-- The size in `container_request`, `size_bytes as i64`. -/
def OwnedContainerProfile.mountSizeBytes (profile : OwnedContainerProfile) : Option Int64 :=
  profile.tmpfsSizeBytes.map UInt64.toInt64

/-- The container engine gets the size that was asked for. -/
def OwnedContainerProfile.Mountable (profile : OwnedContainerProfile) : Prop :=
  ∀ size, profile.tmpfsSizeBytes = some size → 0 < size.toNat ∧ size.toInt64.toInt = size.toNat

theorem OwnedContainerProfile.mountable_performance : performance.Mountable := by
  intro size h
  cases h
  exact ⟨by decide, by decide⟩

theorem toInt_toInt64 {size : UInt64} (h : size.toNat ≤ 2 ^ 63 - 1) : size.toInt64.toInt = size.toNat :=
  BitVec.toInt_eq_toNat_of_lt (by
    show 2 * size.toNat < 2 ^ 64
    omega)

theorem OwnedContainerProfile.Mountable.apply {profile after : OwnedContainerProfile} (h : profile.Mountable)
    {setter : ProfileSetter} (hset : setter.apply profile = .ok after) : after.Mountable := by
  cases setter with
  | initdbNoSync enabled =>
    cases hset
    exact h
  | withoutTmpfs =>
    cases hset
    exact fun size h => by cases h
  | tmpfsSizeBytes sizeBytes =>
    simp only [ProfileSetter.apply, withTmpfsSizeBytes] at hset
    split at hset
    · cases hset
    · rename_i hbounds
      cases hset
      intro size hsize
      cases hsize
      rw [not_or, Nat.not_lt, ← ne_eq, ← UInt64.toNat_inj.ne] at hbounds
      exact ⟨Nat.pos_of_ne_zero hbounds.1, toInt_toInt64 hbounds.2⟩

/-- Whatever setters are called, the size survives the cast. -/
theorem OwnedContainerProfile.Mountable.set {profile after : OwnedContainerProfile} (h : profile.Mountable)
    {setters : List ProfileSetter} (hset : profile.set setters = .ok after) : after.Mountable := by
  induction setters generalizing profile with
  | nil =>
    cases hset
    exact h
  | cons setter rest ih =>
    rw [OwnedContainerProfile.set] at hset
    split at hset
    · cases hset
    · rename_i next hnext
      exact ih (h.apply hnext) hset

theorem mountSizeBytes_of_set {setters : List ProfileSetter} {profile : OwnedContainerProfile}
    (hset : OwnedContainerProfile.performance.set setters = .ok profile) :
    profile.mountSizeBytes.map Int64.toInt = profile.tmpfsSizeBytes.map fun size => (size.toNat : Int) := by
  have hmountable := OwnedContainerProfile.mountable_performance.set hset
  unfold OwnedContainerProfile.mountSizeBytes
  cases hsize : profile.tmpfsSizeBytes with
  | none => rfl
  | some size => exact congrArg some (hmountable size hsize).2

def postgresStoragePath : Text := "/var/lib/postgresql".toList

def startupLogLimitBytes : Nat := 64 * 1024

/-- `bounded_container_output`, from what the two logs yield until they end or fail. -/
def boundedContainerOutput (stderr stdout : List UInt8) : List UInt8 :=
  let output := stderr.take startupLogLimitBytes
  let remaining := startupLogLimitBytes - output.length
  if remaining > 0 then output ++ stdout.take remaining else output

/-- `str::contains`. -/
def contains (text : Text) (phrase : String) : Bool := decide (phrase.toList <:+: text)

/-- `String::from_utf8_lossy(output).to_ascii_lowercase()`. -/
def outputText (output : List UInt8) : Text := (decode output).map Char.toLower

def storageExhaustionEvidence (output : List UInt8) : Option Text :=
  if contains (outputText output) "no space left on device" then
    some "container log reported no space left on device".toList
  else none

def memoryExhaustionEvidence (output : List UInt8) (exitCode : Option Int64) : Option Text :=
  if contains (outputText output) "cannot allocate memory" || contains (outputText output) "out of memory" then
    some "container log reported memory exhaustion".toList
  else if exitCode = some 137 then
    some "container exited with status 137, consistent with an engine OOM kill".toList
  else none

def containerExitError (profile : OwnedContainerProfile) (exit : ContainerExit) : Error :=
  match profile.tmpfsSizeBytes with
  | some tmpfsSizeBytes =>
    match storageExhaustionEvidence exit.output with
    | some evidence => .containerStorageExhausted tmpfsSizeBytes evidence
    | none =>
      match memoryExhaustionEvidence exit.output exit.exitCode with
      | some evidence => .containerMemoryExhausted tmpfsSizeBytes evidence
      | none => .containerExitedBeforeReady exit.exitCode
  | none => .containerExitedBeforeReady exit.exitCode

/-- `tmpfs_start_error_evidence`. -/
def tmpfsStartErrorEvidence (source : TestcontainersError) : Bool :=
  let message := source.message.map Char.toLower
  contains message "tmpfs" || (contains message "mount" && decide (postgresStoragePath <:+: message))

/-! ### In the bytes of the logs -/

/-- A phrase is in these bytes, in whatever case. -/
def Mentions (log : List UInt8) (phrase : String) : Prop := phrase.toList.map byte <:+: log.map lowerByte

instance (log : List UInt8) (phrase : String) : Decidable (Mentions log phrase) :=
  inferInstanceAs (Decidable (_ <:+: _))

theorem contains_outputText {phrase : String} (h : Utf8Lossy.Ascii phrase.toList) (output : List UInt8) :
    contains (outputText output) phrase = true ↔ Mentions output phrase := by
  rw [contains, decide_eq_true_iff]
  exact Utf8Lossy.contains_iff h output

theorem boundedContainerOutput_eq (stderr stdout : List UInt8) :
    boundedContainerOutput stderr stdout = (stderr ++ stdout).take startupLogLimitBytes := by
  rw [List.take_append]
  unfold boundedContainerOutput
  by_cases h : startupLogLimitBytes ≤ stderr.length
  · have hfull : (stderr.take startupLogLimitBytes).length = startupLogLimitBytes := List.length_take_of_le h
    simp only [hfull, Nat.sub_self, Nat.sub_eq_zero_of_le h, gt_iff_lt, Nat.lt_irrefl, if_false, List.take_zero,
      List.append_nil]
  · have hall : stderr.take startupLogLimitBytes = stderr := List.take_of_length_le (by omega)
    simp only [hall]
    exact if_pos (by omega)

/-- The error by the first 64 KiB of the logs, standard error first. -/
def classified (profile : OwnedContainerProfile) (exitCode : Option Int64) (log : List UInt8) : Error :=
  match profile.tmpfsSizeBytes with
  | none => .containerExitedBeforeReady exitCode
  | some size =>
    if Mentions log "no space left on device" then
      .containerStorageExhausted size "container log reported no space left on device".toList
    else if Mentions log "cannot allocate memory" ∨ Mentions log "out of memory" then
      .containerMemoryExhausted size "container log reported memory exhaustion".toList
    else if exitCode = some 137 then
      .containerMemoryExhausted size "container exited with status 137, consistent with an engine OOM kill".toList
    else .containerExitedBeforeReady exitCode

theorem ascii_of_all {phrase : String} (h : phrase.toList.all (fun c => decide (c.toNat < 0x80)) = true) :
    Utf8Lossy.Ascii phrase.toList := fun c hc => of_decide_eq_true (List.all_eq_true.mp h c hc)

theorem storageExhaustionEvidence_eq (output : List UInt8) : storageExhaustionEvidence output =
    if Mentions output "no space left on device" then some "container log reported no space left on device".toList
    else none :=
  if_congr (contains_outputText (ascii_of_all (by decide)) output) rfl rfl

theorem memoryExhaustionEvidence_eq (output : List UInt8) (exitCode : Option Int64) :
    memoryExhaustionEvidence output exitCode =
      if Mentions output "cannot allocate memory" ∨ Mentions output "out of memory" then
        some "container log reported memory exhaustion".toList
      else if exitCode = some 137 then
        some "container exited with status 137, consistent with an engine OOM kill".toList
      else none := by
  refine if_congr ?_ rfl rfl
  rw [Bool.or_eq_true, contains_outputText (ascii_of_all (by decide)), contains_outputText (ascii_of_all (by decide))]

/-- The report of an exit is that of the bytes that the logs begin with. -/
theorem container_exit_classified (profile : OwnedContainerProfile) (exitCode : Option Int64)
    (stderr stdout : List UInt8) :
    containerExitError profile ⟨exitCode, boundedContainerOutput stderr stdout⟩ =
      classified profile exitCode ((stderr ++ stdout).take startupLogLimitBytes) := by
  rw [boundedContainerOutput_eq, containerExitError, classified]
  cases profile.tmpfsSizeBytes with
  | none => rfl
  | some size =>
    simp only [storageExhaustionEvidence_eq, memoryExhaustionEvidence_eq]
    by_cases hstorage : Mentions ((stderr ++ stdout).take startupLogLimitBytes) "no space left on device"
    · simp only [if_pos hstorage]
    · simp only [if_neg hstorage]
      by_cases hmemory : Mentions ((stderr ++ stdout).take startupLogLimitBytes) "cannot allocate memory" ∨
          Mentions ((stderr ++ stdout).take startupLogLimitBytes) "out of memory"
      · simp only [if_pos hmemory]
      · simp only [if_neg hmemory]
        by_cases hkilled : exitCode = some 137
        · simp only [if_pos hkilled]
        · simp only [if_neg hkilled]

end PostgresTestHarness.Container
