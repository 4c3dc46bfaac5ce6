import PostgresTestHarness.StaleCleanup.Report

/-! The stale-age threshold, a `Duration` with nanoseconds.

A record's age is whole seconds, and it is compared with the whole seconds of the threshold.
So a record is treated by its age (`AgeRespected`) unless it is exactly as old as these and the
threshold has a fraction on top. -/
namespace PostgresTestHarness.StaleCleanup
open Postgres

theorem nanos_zero : 0 < 10 ^ 9 := by decide

/-- `Duration::from_secs`. -/
def Duration.fromSecs (secs : UInt64) : Duration := ⟨secs, 0, nanos_zero⟩

/-- Durations are ordered by their seconds, then by their nanoseconds. -/
instance : LE Duration := ⟨fun a b => a.secs < b.secs ∨ a.secs = b.secs ∧ a.nanos ≤ b.nanos⟩

instance : LT Duration := ⟨fun a b => a.secs < b.secs ∨ a.secs = b.secs ∧ a.nanos < b.nanos⟩

theorem Duration.le_def {a b : Duration} : a ≤ b ↔ a.secs < b.secs ∨ a.secs = b.secs ∧ a.nanos ≤ b.nanos := Iff.rfl

theorem Duration.lt_def {a b : Duration} : a < b ↔ a.secs < b.secs ∨ a.secs = b.secs ∧ a.nanos < b.nanos := Iff.rfl

theorem Duration.not_lt {a b : Duration} : ¬ a < b ↔ b ≤ a := by
  rw [lt_def, le_def, UInt64.lt_iff_toNat_lt, UInt64.lt_iff_toNat_lt, ← UInt64.toNat_inj, ← UInt64.toNat_inj]
  omega

section Age
variable {sw : Sweep} {record : DatabaseRecord} {metadata : ResourceMetadata}

theorem Sweep.age_lt (sw : Sweep) (metadata : ResourceMetadata) : sw.age metadata < UInt64.size :=
  Nat.lt_of_le_of_lt (Nat.sub_le _ _) sw.now.toNat_lt

/-- The age of a record, as a duration. -/
def Sweep.recordedAge (sw : Sweep) (metadata : ResourceMetadata) : Duration :=
  .fromSecs (UInt64.ofNat (sw.age metadata))

@[simp] theorem Sweep.recordedAge_secs (sw : Sweep) (metadata : ResourceMetadata) :
    (sw.recordedAge metadata).secs.toNat = sw.age metadata :=
  UInt64.toNat_ofNat_of_lt (sw.age_lt metadata)

/-- The age reaches the threshold when its seconds do, and do more than that if there is a fraction. -/
theorem staleAfter_le : sw.staleAfter ≤ sw.recordedAge metadata ↔
    sw.staleAfter.secs.toNat < sw.age metadata ∨
      sw.staleAfter.secs.toNat = sw.age metadata ∧ sw.staleAfter.nanos = 0 := by
  rw [Duration.le_def, UInt64.lt_iff_toNat_lt, ← UInt64.toNat_inj, Sweep.recordedAge_secs]
  exact or_congr_right (and_congr_right fun _ => Nat.le_zero)

/-- A record's kind is that of its name; a template's name ends in its short fingerprint. -/
def Agrees : ResourceMetadata → DatabaseKind → Text → Prop
  | .test .., .test, _ => True
  | .template _ _ fingerprint .., .template, suffix => suffix = fingerprint.shortHex
  | _, _, _ => False

/-- The name has one of the shapes of the project, and the comment is a record of the project that
agrees with it. -/
structure Recognized (p : ProjectName) (record : DatabaseRecord) (metadata : ResourceMetadata) : Prop where
  named : ∃ (kind : DatabaseKind) (suffix : Text), validHexSuffix suffix kind.suffixLen = true ∧
    record.name = p.databasePrefix kind ++ suffix ∧ Agrees metadata kind suffix
  parses : recordMetadata record = some metadata
  project : metadata.project = p

theorem Recognized.unique {p : ProjectName} {other : ResourceMetadata} (h : Recognized p record metadata)
    (h' : Recognized p record other) : metadata = other := by
  have hsame := h.parses.symm.trans h'.parses
  exact Option.some.inj hsame

/-- The check against the name compares what the record says with the name's parts. -/
theorem metadataMatchesName_iff {p : ProjectName} {name : DatabaseName} {suffix : Text}
    (hproject : metadata.project = p) (hvalue : name.value = p.databasePrefix name.kind ++ suffix) :
    metadataMatchesName metadata name = true ↔ Agrees metadata name.kind suffix := by
  unfold metadataMatchesName
  cases metadata with
  | test =>
    cases name.kind with
    | test => simp [Agrees]
    | template => simp [Agrees]
  | template project lockKey fingerprint parent state createdAt =>
    cases hkind : name.kind with
    | test => simp [Agrees]
    | template =>
      rw [hkind] at hvalue
      obtain rfl : project = p := hproject
      simp only [Agrees, beq_iff_eq]
      constructor
      · intro h
        rw [← h] at hvalue
        exact (List.append_cancel_left hvalue).symm
      · intro h
        subst h
        exact DatabaseName.ext_value hvalue.symm hkind.symm

theorem recognized_iff {p : ProjectName} : Recognized p record metadata ↔
    ∃ name, DatabaseName.fromExisting p record.name = some name ∧ recordMetadata record = some metadata ∧
      metadata.project = p ∧ metadataMatchesName metadata name = true := by
  constructor
  · intro hparts
    obtain ⟨⟨kind, suffix, hvalid, hname, hagrees⟩, hparses, hproject⟩ := hparts
    refine ⟨.managed p kind suffix hvalid, ?_, hparses, hproject, ?_⟩
    · rw [DatabaseName.fromExisting_eq_some]
      exact ⟨hname.symm, suffix, hvalid, hname⟩
    · rw [metadataMatchesName_iff hproject rfl]
      exact hagrees
  · intro hparts
    obtain ⟨name, hmanaged, hparses, hproject, hmatches⟩ := hparts
    obtain ⟨hvalue, suffix, hvalid, hname⟩ := DatabaseName.fromExisting_eq_some.mp hmanaged
    rw [metadataMatchesName_iff hproject (hvalue.trans hname)] at hmatches
    exact ⟨⟨name.kind, suffix, hvalid, hname, hmatches⟩, hparses, hproject⟩

/-- A recognized record is a candidate or fresh, as its age in seconds says. -/
theorem classify_candidate_iff : (∃ name key, classifyCleanupRecord sw record = .candidate name key) ↔
    ∃ metadata, Recognized sw.project record metadata ∧ sw.staleAfter.secs.toNat ≤ sw.age metadata := by
  constructor
  · intro hparts
    obtain ⟨name, key, h⟩ := hparts
    obtain ⟨metadata, hcandidate, _⟩ := classify_eq_candidate.mp h
    refine ⟨metadata, recognized_iff.mpr ⟨name, ?_⟩, hcandidate.old⟩
    exact ⟨hcandidate.managed, hcandidate.parses, hcandidate.project, hcandidate.matchesName⟩
  · intro hparts
    obtain ⟨metadata, hrecognized, hold⟩ := hparts
    obtain ⟨name, hmanaged, hparses, hproject, hmatches⟩ := recognized_iff.mp hrecognized
    refine ⟨name, metadata.lockKey, classify_eq_candidate.mpr ⟨metadata, ?_, rfl⟩⟩
    exact ⟨hmanaged, hparses, hproject, hmatches, hold⟩

theorem classify_fresh (h : Recognized sw.project record metadata)
    (hyoung : sw.age metadata < sw.staleAfter.secs.toNat) : classifyCleanupRecord sw record = .fresh := by
  obtain ⟨name, hmanaged, hparses, hproject, hmatches⟩ := recognized_iff.mp h
  have hboth : ¬ (metadata.project ≠ sw.project ∨ metadataMatchesName metadata name = false) := by
    rw [not_or, not_not, Bool.not_eq_false]
    exact ⟨hproject, hmatches⟩
  simp only [classifyCleanupRecord, hmanaged, hparses]
  rw [if_neg hboth]
  exact if_pos hyoung

/-- The sweep goes by the record's age and by the whole threshold. -/
structure AgeRespected (sw : Sweep) (record : DatabaseRecord) : Prop where
  candidate : (∃ name key, classifyCleanupRecord sw record = .candidate name key) ↔
    ∃ metadata, Recognized sw.project record metadata ∧ sw.staleAfter ≤ sw.recordedAge metadata
  fresh : ∀ metadata, Recognized sw.project record metadata → sw.recordedAge metadata < sw.staleAfter →
    classifyCleanupRecord sw record = .fresh
  /-- A record below the threshold is never about to be dropped, in any run among other sessions. -/
  kept : ∀ (χ : Type) (s : State χ) (i : Nat) (c : Client Program) (key : Int64) (name : DatabaseName)
    (rest : List DatabaseRecord) (report : CleanupReport), (machine χ).Reachable s →
    s.sweeps i c sw (.dropping record key name rest report) →
    ∀ metadata, Recognized sw.project record metadata → ¬ sw.recordedAge metadata < sw.staleAfter

/-- A record as old as the whole seconds of a threshold with a fraction is a candidate. -/
theorem not_ageRespected (h : Recognized sw.project record metadata)
    (hage : sw.age metadata = sw.staleAfter.secs.toNat) (hnanos : sw.staleAfter.nanos ≠ 0) :
    ¬ AgeRespected sw record := by
  intro hrespected
  obtain ⟨other, hother, hle⟩ := hrespected.candidate.mp
    (classify_candidate_iff.mpr ⟨metadata, h, Nat.le_of_eq hage.symm⟩)
  obtain rfl := hother.unique h
  rw [staleAfter_le] at hle
  obtain hlt | ⟨_, hzero⟩ := hle
  · omega
  · exact hnanos hzero

theorem age_respected_iff (sw : Sweep) (record : DatabaseRecord) : AgeRespected sw record ↔
    ∀ metadata, Recognized sw.project record metadata → sw.age metadata = sw.staleAfter.secs.toNat →
      sw.staleAfter.nanos = 0 := by
  constructor
  · intro hrespected metadata h hage
    by_contra hnanos
    exact not_ageRespected h hage hnanos hrespected
  · intro hwhole
    -- without the exception, the seconds decide
    have hseconds : ∀ metadata, Recognized sw.project record metadata →
        (sw.staleAfter ≤ sw.recordedAge metadata ↔ sw.staleAfter.secs.toNat ≤ sw.age metadata) := by
      intro metadata h
      have := hwhole metadata h
      rw [staleAfter_le]
      omega
    have hcandidate : (∃ name key, classifyCleanupRecord sw record = .candidate name key) ↔
        ∃ metadata, Recognized sw.project record metadata ∧ sw.staleAfter ≤ sw.recordedAge metadata := by
      rw [classify_candidate_iff]
      refine exists_congr fun metadata => and_congr_right fun h => ?_
      rw [hseconds metadata h]
    refine ⟨hcandidate, fun metadata h hyoung => ?_, fun χ s i c key name rest report hs hc metadata h => ?_⟩
    · apply classify_fresh h
      rw [← Nat.not_le, ← hseconds metadata h, ← Duration.not_lt, not_not]
      exact hyoung
    · obtain ⟨other, hother, hle⟩ := hcandidate.mp ⟨name, key, grounded hs i c sw _ hc⟩
      obtain rfl := hother.unique h
      rw [Duration.not_lt]
      exact hle

end Age

/-- A threshold of 1.5 seconds, one second after the record was made. -/
def halfPast : Sweep := ⟨sampleProject, ⟨1, 500000000, by decide⟩, 101⟩

def oneSecondOld : DatabaseRecord :=
  ⟨"pgh_shop_test_".toList ++ List.replicate 32 '0', some (ResourceMetadata.test sampleProject 7 100).encode⟩

theorem oneSecondOld_recognized : Recognized sampleProject oneSecondOld (.test sampleProject 7 100) where
  named := ⟨.test, List.replicate 32 '0', by decide, rfl, trivial⟩
  parses := by decide +kernel
  project := rfl

/-- It is a candidate although the threshold is not reached. -/
theorem fraction_ignored : classifyCleanupRecord halfPast oneSecondOld =
      .candidate (.managed sampleProject .test (List.replicate 32 '0') (by decide)) 7 ∧
    ¬ AgeRespected halfPast oneSecondOld := by
  refine ⟨by decide +kernel, ?_⟩
  exact not_ageRespected oneSecondOld_recognized (by decide) (by decide)

end PostgresTestHarness.StaleCleanup
