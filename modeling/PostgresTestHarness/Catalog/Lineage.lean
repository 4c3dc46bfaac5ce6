import Mathlib.Data.List.Induction
import Mathlib.Data.Set.Function
import PostgresTestHarness.Catalog.Fingerprint

/-! Lineages and their fingerprints.

A template is described by what its root builder was given and what the builder of each
of its steps was given; `Description.identity` is what the harness computes from it. The
byte strings that are hashed on the way tell the description (`fingerprint_eq_iff`): the
first frame tells a root or a step from a derivation, and the frames after it tell the
input, or the parent and the step. -/
namespace PostgresTestHarness

/-- What a builder is given: its domain, then labels with their contents. -/
structure BuilderInput where
  domain : Slice
  fields : List (Slice × Slice)
  deriving DecidableEq

def BuilderInput.build (input : BuilderInput) : FingerprintBuilder :=
  input.fields.foldl (fun b field => b.add field.1 field.2) (FingerprintBuilder.new input.domain)

/-- A template: its root's input, then the input of each step. -/
structure Description where
  root : BuilderInput
  steps : List BuilderInput
  deriving DecidableEq

section Hash
variable (sha256 : List UInt8 → Digest)

/-- `finish_root` of the root, then `TemplateIdentity::derived` for each `finish_step`. -/
def Description.identity (d : Description) : TemplateIdentity :=
  d.steps.foldl (fun identity step => .derived sha256 identity.fingerprint (step.build.finishStep sha256))
    (.root (d.root.build.finishRoot sha256))

/-- The byte strings that are hashed for a description. -/
inductive Description.Hashed (d : Description) : List UInt8 → Prop where
  | root : Hashed d d.root.build.hashed
  | step {input : BuilderInput} : input ∈ d.steps → Hashed d input.build.hashed
  | derived (before after : List BuilderInput) (input : BuilderInput) :
      d.steps = before ++ input :: after →
      Hashed d (derivedFrames (identity sha256 ⟨d.root, before⟩).fingerprint (input.build.finishStep sha256))

end Hash

/-! ### What a builder hashes -/

/-- The frames of a builder's input. -/
def BuilderInput.frames (input : BuilderInput) : List (List UInt8) :=
  templateDomain :: input.domain :: input.fields.flatMap fun field => [field.1.1, field.2.1]

theorem build_hashed (input : BuilderInput) :
    input.build.hashed = PostgresTestHarness.frames input.frames := by
  suffices ∀ (fields : List (Slice × Slice)) (b : FingerprintBuilder),
      (fields.foldl (fun b field => b.add field.1 field.2) b).hashed =
        b.hashed ++ PostgresTestHarness.frames (fields.flatMap fun field => [field.1.1, field.2.1]) by
    rw [BuilderInput.build, this]
    rfl
  intro fields
  induction fields with
  | nil => exact fun b => (List.append_nil _).symm
  | cons field rest ih =>
    intro b
    rw [List.foldl_cons, ih]
    simp only [FingerprintBuilder.add, FingerprintBuilder.addFrame, PostgresTestHarness.frames,
      List.flatMap_cons, List.append_assoc, List.cons_append, List.nil_append]

theorem slice_lt (a : Slice) : a.1.length < 2 ^ 64 := Nat.lt_trans a.2 (by decide)

theorem BuilderInput.frames_lt (input : BuilderInput) : ∀ a ∈ input.frames, a.length < 2 ^ 64 := by
  intro a ha
  rcases List.mem_cons.mp ha with rfl | ha
  · decide
  · rcases List.mem_cons.mp ha with rfl | ha
    · exact slice_lt input.domain
    · obtain ⟨field, _, hfield⟩ := List.mem_flatMap.mp ha
      rcases List.mem_cons.mp hfield with rfl | hfield
      · exact slice_lt field.1
      · rw [List.mem_singleton.mp hfield]
        exact slice_lt field.2

/-- Labels and contents alternate, so their frames tell them apart. -/
theorem fields_injective {l m : List (Slice × Slice)}
    (h : (l.flatMap fun field => [field.1.1, field.2.1]) = m.flatMap fun field => [field.1.1, field.2.1]) :
    l = m := by
  induction l generalizing m with
  | nil =>
    cases m with
    | nil => rfl
    | cons field rest => cases h
  | cons field rest ih =>
    cases m with
    | nil => cases h
    | cons other tail =>
      simp only [List.flatMap_cons, List.cons_append, List.nil_append, List.cons.injEq] at h
      obtain ⟨hlabel, hcontent, hrest⟩ := h
      rw [Prod.ext (Subtype.ext hlabel) (Subtype.ext hcontent), ih hrest]

theorem build_hashed_injective {input other : BuilderInput} (h : input.build.hashed = other.build.hashed) :
    input = other := by
  rw [build_hashed, build_hashed] at h
  have hframes := frames_injective input.frames_lt other.frames_lt h
  simp only [BuilderInput.frames, List.cons.injEq, true_and] at hframes
  obtain ⟨domain, fields⟩ := input
  obtain ⟨domain', fields'⟩ := other
  rw [BuilderInput.mk.injEq]
  exact ⟨Subtype.ext hframes.1, fields_injective hframes.2⟩

/-- A builder never hashes what a derivation hashes: the domains differ. -/
theorem build_hashed_ne (input : BuilderInput) (parent : TemplateFingerprint) (step : StepSpec) :
    input.build.hashed ≠ derivedFrames parent step := by
  intro h
  rw [build_hashed, BuilderInput.frames, derivedFrames, frames, frames, List.flatMap_cons,
    List.flatMap_cons] at h
  have := (frame_append_inj (by decide) (by decide) h).1
  exact absurd this (by decide)

theorem derivedFrames_injective {parent parent' : TemplateFingerprint} {step step' : StepSpec}
    (h : derivedFrames parent step = derivedFrames parent' step') : parent = parent' ∧ step = step' := by
  have hlt : ∀ (p : TemplateFingerprint) (t : StepSpec),
      ∀ a ∈ [derivedDomain, p.bytes.1, t.bytes.1], a.length < 2 ^ 64 := by
    intro p t a ha
    simp only [List.mem_cons, List.not_mem_nil, or_false] at ha
    obtain rfl | rfl | rfl := ha
    · decide
    · rw [p.bytes.2]
      decide
    · rw [t.bytes.2]
      decide
  have := frames_injective (hlt parent step) (hlt parent' step') h
  simp only [List.cons.injEq, true_and, and_true] at this
  obtain ⟨⟨_⟩, ⟨_⟩⟩ := parent, parent'
  obtain ⟨⟨_⟩, ⟨_⟩⟩ := step, step'
  exact ⟨congrArg TemplateFingerprint.mk (Subtype.ext this.1), congrArg StepSpec.mk (Subtype.ext this.2)⟩

/-! ### From fingerprints to descriptions -/

section Injective
variable {sha256 : List UInt8 → Digest}

theorem identity_concat (root : BuilderInput) (steps : List BuilderInput) (input : BuilderInput) :
    Description.identity sha256 ⟨root, steps ++ [input]⟩ =
      .derived sha256 (Description.identity sha256 ⟨root, steps⟩).fingerprint
        (input.build.finishStep sha256) := by
  rw [Description.identity, List.foldl_concat]
  rfl

/-- What is hashed for a parent is hashed for the child. -/
theorem Description.Hashed.child {root : BuilderInput} {steps : List BuilderInput} {bytes : List UInt8}
    (h : Hashed sha256 ⟨root, steps⟩ bytes) (input : BuilderInput) :
    Hashed sha256 ⟨root, steps ++ [input]⟩ bytes := by
  cases h with
  | root => exact .root (d := ⟨root, steps ++ [input]⟩)
  | step hmem => exact .step (List.mem_append_left _ hmem)
  | derived before after last hsteps =>
    refine .derived (d := ⟨root, steps ++ [input]⟩) before (after ++ [input]) last ?_
    show steps ++ [input] = _
    rw [show steps = _ from hsteps, List.append_assoc]
    rfl

theorem Description.hashed_last (root : BuilderInput) (steps : List BuilderInput) (input : BuilderInput) :
    Hashed sha256 ⟨root, steps ++ [input]⟩
      (derivedFrames (identity sha256 ⟨root, steps⟩).fingerprint (input.build.finishStep sha256)) :=
  .derived (d := ⟨root, steps ++ [input]⟩) steps [] input rfl

/-- Hashes are apart on everything that is hashed for either description. -/
def Description.Apart (sha256 : List UInt8 → Digest) (d e : Description) : Prop :=
  Set.InjOn sha256 {bytes | Hashed sha256 d bytes ∨ Hashed sha256 e bytes}

theorem description_of_fingerprint {d e : Description} (h : d.Apart sha256 e)
    (heq : (d.identity sha256).fingerprint = (e.identity sha256).fingerprint) : d = e := by
  obtain ⟨root, steps⟩ := d
  obtain ⟨root', steps'⟩ := e
  -- from the last step back to the root
  induction steps using List.reverseRecOn generalizing steps' with
  | nil =>
    cases steps' using List.reverseRecOn with
    | nil =>
      have := h (Or.inl .root) (Or.inr .root) (TemplateFingerprint.mk.inj heq)
      exact congrArg (Description.mk · []) (build_hashed_injective this)
    | append_singleton steps' input =>
      rw [identity_concat] at heq
      have := h (Or.inl .root) (Or.inr (Description.hashed_last root' steps' input))
        (TemplateFingerprint.mk.inj heq)
      exact absurd this (build_hashed_ne _ _ _)
  | append_singleton steps input ih =>
    cases steps' using List.reverseRecOn with
    | nil =>
      rw [identity_concat] at heq
      have := h (Or.inl (Description.hashed_last root steps input)) (Or.inr .root)
        (TemplateFingerprint.mk.inj heq)
      exact absurd this.symm (build_hashed_ne _ _ _)
    | append_singleton steps' input' =>
      rw [identity_concat, identity_concat] at heq
      have hframes := h (Or.inl (Description.hashed_last root steps input))
        (Or.inr (Description.hashed_last root' steps' input')) (TemplateFingerprint.mk.inj heq)
      obtain ⟨hparent, hstep⟩ := derivedFrames_injective hframes
      have hinput := h (Or.inl (.step (List.mem_append_right _ (List.mem_singleton_self input))))
        (Or.inr (.step (List.mem_append_right _ (List.mem_singleton_self input'))))
        (StepSpec.mk.inj hstep)
      have hrest := ih steps' (fun a ha b hb => h (ha.imp (·.child input) (·.child input'))
        (hb.imp (·.child input) (·.child input'))) hparent
      rw [Description.mk.injEq] at hrest ⊢
      exact ⟨hrest.1, by rw [hrest.2, build_hashed_injective hinput]⟩

theorem identity_parent (root : BuilderInput) (steps : List BuilderInput) (input : BuilderInput) :
    (Description.identity sha256 ⟨root, steps ++ [input]⟩).parent =
      some (Description.identity sha256 ⟨root, steps⟩).fingerprint := by
  rw [identity_concat]
  rfl

end Injective

/-- Fingerprints are equal exactly for equal descriptions, and so tell the parent that is
recorded with them: the fingerprint of the lineage without its last step. -/
theorem fingerprint_eq_iff (sha256 : List UInt8 → Digest) (d e : Description) (h : d.Apart sha256 e) :
    ((d.identity sha256).fingerprint = (e.identity sha256).fingerprint ↔ d = e) ∧
    ((d.identity sha256).fingerprint = (e.identity sha256).fingerprint →
      (d.identity sha256).parent = (e.identity sha256).parent) ∧
    (∀ steps input, d.steps = steps ++ [input] →
      (d.identity sha256).parent = some (Description.identity sha256 ⟨d.root, steps⟩).fingerprint) ∧
    (d.steps = [] → e.steps ≠ [] →
      (d.identity sha256).fingerprint ≠ (e.identity sha256).fingerprint) := by
  refine ⟨⟨description_of_fingerprint h, fun hde => by rw [hde]⟩, fun heq => ?_, fun steps input hsteps => ?_,
    fun hd he heq => ?_⟩
  · rw [description_of_fingerprint h heq]
  · obtain ⟨root, _⟩ := d
    obtain rfl := hsteps
    exact identity_parent root steps input
  · rw [description_of_fingerprint h heq] at hd
    exact he hd

section Example

/-- The bytes of `schema`, with one label `sql` for `one`. -/
def sampleRoot : BuilderInput :=
  ⟨⟨[115, 99, 104, 101, 109, 97], by decide⟩, [(⟨[115, 113, 108], by decide⟩, ⟨[111, 110, 101], by decide⟩)]⟩

/-- The bytes of `seed`. -/
def sampleStep : BuilderInput := ⟨⟨[115, 101, 101, 100], by decide⟩, []⟩

def sampleRootHex : String := "22f2cbde194f10d61252e8dcef6f4825013c5e2b6b038ac8a0867c602b5acd5e"

def sampleStepHex : String := "41707e668bde38a7fc84654ea841de1b5bf49c6cd7f61a242eb3ce2cb1acc18a"

/-- SHA-256 of what is hashed for the sample lineage. -/
def sampleSha256 : List UInt8 → Digest :=
  tabulated [(sampleRoot.build.hashed, sampleRootHex), (sampleStep.build.hashed, sampleStepHex),
    (frames [derivedDomain, (decodeHex sampleRootHex.toList).getD [], (decodeHex sampleStepHex.toList).getD []],
      "1d701fd5e882adc42733d49b6b3d63e23b0764985862be7ab470ac14a627e2f5")]

theorem sample_hashed {bytes : List UInt8} (h : Description.Hashed sampleSha256 ⟨sampleRoot, [sampleStep]⟩ bytes) :
    bytes ∈ [sampleRoot.build.hashed, sampleStep.build.hashed,
      derivedFrames ⟨sampleSha256 sampleRoot.build.hashed⟩ ⟨sampleSha256 sampleStep.build.hashed⟩] := by
  cases h with
  | root => exact List.mem_cons_self ..
  | step hmem =>
    rw [List.mem_singleton.mp hmem]
    exact List.mem_cons_of_mem _ (List.mem_cons_self ..)
  | derived before after input hsteps =>
    obtain ⟨rfl, rfl, rfl⟩ : before = [] ∧ input = sampleStep ∧ after = [] := by
      cases before with
      | nil =>
        obtain ⟨hinput, hafter⟩ := List.cons.inj hsteps
        exact ⟨rfl, hinput.symm, hafter.symm⟩
      | cons _ rest =>
        obtain ⟨_, hrest⟩ := List.cons.inj hsteps
        cases rest <;> cases hrest
    exact List.mem_cons_of_mem _ (List.mem_cons_of_mem _ (List.mem_cons_self ..))

theorem sample_apart : Description.Apart sampleSha256 ⟨sampleRoot, []⟩ ⟨sampleRoot, [sampleStep]⟩ := by
  have hinj : ∀ a ∈ [sampleRoot.build.hashed, sampleStep.build.hashed,
      derivedFrames ⟨sampleSha256 sampleRoot.build.hashed⟩ ⟨sampleSha256 sampleStep.build.hashed⟩],
      ∀ b ∈ [sampleRoot.build.hashed, sampleStep.build.hashed,
      derivedFrames ⟨sampleSha256 sampleRoot.build.hashed⟩ ⟨sampleSha256 sampleStep.build.hashed⟩],
      sampleSha256 a = sampleSha256 b → a = b := by decide +kernel
  have hmem : ∀ {bytes : List UInt8}, Description.Hashed sampleSha256 ⟨sampleRoot, []⟩ bytes ∨
      Description.Hashed sampleSha256 ⟨sampleRoot, [sampleStep]⟩ bytes → bytes ∈ [sampleRoot.build.hashed,
        sampleStep.build.hashed,
        derivedFrames ⟨sampleSha256 sampleRoot.build.hashed⟩ ⟨sampleSha256 sampleStep.build.hashed⟩] := by
    intro bytes hcase
    rcases hcase with h | h
    · exact sample_hashed (h.child sampleStep)
    · exact sample_hashed h
  exact fun a ha b hb => hinj a (hmem ha) b (hmem hb)

theorem fingerprint_eq_iff_sample :
    (Description.identity sampleSha256 ⟨sampleRoot, []⟩).fingerprint ≠
      (Description.identity sampleSha256 ⟨sampleRoot, [sampleStep]⟩).fingerprint :=
  (fingerprint_eq_iff sampleSha256 ⟨sampleRoot, []⟩ ⟨sampleRoot, [sampleStep]⟩ sample_apart).2.2.2 rfl nofun

end Example

end PostgresTestHarness
