import PostgresTestHarness.Catalog.Name

/-! Advisory lock keys.

A key is the first eight bytes of a hash of a domain and an identity, each framed.
`names_and_keys_apart` says that neither names nor what keys are hashed from can be
confused: of two projects, of two kinds of database, of two domains. -/
namespace PostgresTestHarness

/-- A string. The language bounds its length by `isize::MAX`. -/
abbrev Str := { text : Text // text.len < 2 ^ 63 }

def advisoryDomain : List UInt8 := Text.bytes "postgres-test-harness-advisory-v1".toList

/-- What `advisory_key` hashes. -/
def advisoryPreimage (domain identity : Text) : List UInt8 :=
  advisoryDomain ++ (frame domain.bytes ++ frame identity.bytes)

def templateDomainName : Text := "template".toList

def coordinationDomainName : Text := "template-coordination".toList

def runDomainName : Text := "run".toList

/-- `{project}:{fingerprint}`. -/
def templateKeyIdentity (p : ProjectName) (f : TemplateFingerprint) : Text := p.value ++ ':' :: f.toHex

section Hash
variable (sha256 : List UInt8 → Digest)

/-- `i64::from_be_bytes` of the first eight bytes. -/
def advisoryKey (domain identity : Text) : Int64 :=
  (UInt64.ofNat (ofBeBytes ((sha256 (advisoryPreimage domain identity)).1.take 8))).toInt64

def templateLockKey (p : ProjectName) (f : TemplateFingerprint) : Int64 :=
  advisoryKey sha256 templateDomainName (templateKeyIdentity p f)

def templateCoordinationKey (p : ProjectName) (f : TemplateFingerprint) : Int64 :=
  advisoryKey sha256 coordinationDomainName (templateKeyIdentity p f)

/-- The key that a server holds for its test databases. -/
def ownerKey (runId : SimpleUuid) : Int64 := advisoryKey sha256 runDomainName runId.text

end Hash

theorem text_bytes_lt {s : Text} (h : s.len < 2 ^ 63) : s.bytes.length < 2 ^ 64 := by
  rw [Text.length_bytes]
  exact Nat.lt_trans h (by decide)

theorem advisoryPreimage_injective {domain identity domain' identity' : Text} (hd : domain.len < 2 ^ 63)
    (hi : identity.len < 2 ^ 63) (hd' : domain'.len < 2 ^ 63) (hi' : identity'.len < 2 ^ 63)
    (h : advisoryPreimage domain identity = advisoryPreimage domain' identity') :
    domain = domain' ∧ identity = identity' := by
  obtain ⟨hdomain, hrest⟩ := frame_append_inj (text_bytes_lt hd) (text_bytes_lt hd') (List.append_cancel_left h)
  rw [← List.append_nil (frame identity.bytes), ← List.append_nil (frame identity'.bytes)] at hrest
  have hidentity := (frame_append_inj (text_bytes_lt hi) (text_bytes_lt hi') hrest).1
  exact ⟨Text.bytes_injective hdomain, Text.bytes_injective hidentity⟩

theorem len_lt_of_chars {s : Text} {n : Nat} (h : ∀ c ∈ s, c.val ≤ 0x7f) (hn : s.length ≤ n)
    (hlt : n < 2 ^ 63) : s.len < 2 ^ 63 := by
  rw [Text.len_of_ascii h]
  exact Nat.lt_of_le_of_lt hn hlt

theorem templateKeyIdentity_len (p : ProjectName) (f : TemplateFingerprint) :
    (templateKeyIdentity p f).len < 2 ^ 63 := by
  refine len_lt_of_chars (n := 81) (fun c hc => ?_) ?_ (by decide)
  · rcases List.mem_append.mp hc with hc | hc
    · exact isNameChar_ascii (p.chars c hc)
    · rcases List.mem_cons.mp hc with rfl | hc
      · decide
      · exact isNameChar_ascii (isLowercaseHex_name (isLowercaseHex_encodeHex hc))
  · have := p.length_le
    rw [templateKeyIdentity, List.length_append, List.length_cons, f.length_toHex]
    omega

theorem runId_len (runId : SimpleUuid) : runId.text.len < 2 ^ 63 := by
  have h := validHexSuffix_iff.mp runId.valid
  exact len_lt_of_chars (fun c hc => isNameChar_ascii (isLowercaseHex_name (h.2 c hc))) (Nat.le_of_eq h.1)
    (by decide)

/-- A project's name has no colon. -/
theorem templateKeyIdentity_injective {p q : ProjectName} {f g : TemplateFingerprint}
    (h : templateKeyIdentity p f = templateKeyIdentity q g) : p = q ∧ f = g := by
  have hcolon : ∀ r : ProjectName, ':' ∉ r.value := fun r hc => absurd (r.chars ':' hc) (by decide)
  have hfirst : splitOnce ':' (templateKeyIdentity p f) = some (p.value, f.toHex) :=
    splitOnce_eq_some.mpr ⟨rfl, hcolon p⟩
  have hsecond : splitOnce ':' (templateKeyIdentity q g) = some (q.value, g.toHex) :=
    splitOnce_eq_some.mpr ⟨rfl, hcolon q⟩
  rw [h, hsecond, Option.some.injEq, Prod.mk.injEq] at hfirst
  exact ⟨ProjectName.ext_value hfirst.1.symm, TemplateFingerprint.toHex_injective hfirst.2.symm⟩

/-- Keys of different domains are hashed from different bytes. -/
theorem advisoryPreimage_ne {domain identity domain' identity' : Text} (hd : domain.len < 2 ^ 63)
    (hi : identity.len < 2 ^ 63) (hd' : domain'.len < 2 ^ 63) (hi' : identity'.len < 2 ^ 63)
    (hne : domain ≠ domain') : advisoryPreimage domain identity ≠ advisoryPreimage domain' identity' :=
  fun h => hne (advisoryPreimage_injective hd hi hd' hi' h).1

theorem fromExisting_isSome {q : ProjectName} {value : Text} : (DatabaseName.fromExisting q value).isSome = true ↔
    ∃ digits, (∀ c ∈ digits, isLowercaseHex c = true) ∧
      ((digits.length = 32 ∧ value = "pgh_".toList ++ q.value ++ "_test_".toList ++ digits) ∨
        (digits.length = 24 ∧ value = "pgh_".toList ++ q.value ++ "_template_".toList ++ digits)) := by
  rw [Option.isSome_iff_exists]
  constructor
  · intro hparts
    obtain ⟨n, hn⟩ := hparts
    obtain ⟨_, digits, hdigits, heq⟩ := DatabaseName.fromExisting_eq_some.mp hn
    obtain ⟨hlength, hhex⟩ := validHexSuffix_iff.mp hdigits
    refine ⟨digits, hhex, ?_⟩
    cases hkind : n.kind with
    | test =>
      rw [hkind] at hlength heq
      exact Or.inl ⟨hlength, heq⟩
    | template =>
      rw [hkind] at hlength heq
      exact Or.inr ⟨hlength, heq⟩
  · intro hparts
    obtain ⟨digits, hhex, ⟨hlength, rfl⟩ | ⟨hlength, rfl⟩⟩ := hparts
    · exact ⟨DatabaseName.managed q .test digits (validHexSuffix_iff.mpr ⟨hlength, hhex⟩),
        (DatabaseName.fromExisting_managed q q .test digits _ _).mpr ⟨rfl, rfl⟩⟩
    · exact ⟨DatabaseName.managed q .template digits (validHexSuffix_iff.mpr ⟨hlength, hhex⟩),
        (DatabaseName.fromExisting_managed q q .template digits _ _).mpr ⟨rfl, rfl⟩⟩

/-- Every generated name passes the check behind its `expect`. -/
theorem managed_new (p : ProjectName) (kind : DatabaseKind) (suffix : Text)
    (h : validHexSuffix suffix kind.suffixLen = true) :
    DatabaseName.new (p.databasePrefix kind ++ suffix) kind = .ok (DatabaseName.managed p kind suffix h) := by
  rw [DatabaseName.new, dif_pos (DatabaseName.valid_managed p kind h)]
  rfl

theorem fromExisting_managed_isSome (p q : ProjectName) (kind : DatabaseKind) (suffix : Text)
    (h : validHexSuffix suffix kind.suffixLen = true) :
    (DatabaseName.fromExisting q (DatabaseName.managed p kind suffix h).value).isSome = true ↔ p = q := by
  rw [Option.isSome_iff_exists]
  exact ⟨fun ⟨n, hn⟩ => ((DatabaseName.fromExisting_managed p q kind suffix h n).mp hn).1,
    fun hpq => ⟨_, (DatabaseName.fromExisting_managed p q kind suffix h _).mpr ⟨hpq, rfl⟩⟩⟩

/-- Generated names are accepted, within PostgreSQL's length, and of one project and kind only; and what is
hashed for the three kinds of keys differs between kinds, projects, fingerprints and runs. -/
theorem names_and_keys_apart :
    (∀ (p : ProjectName) (uuid : SimpleUuid) (f : TemplateFingerprint),
      DatabaseName.new (p.databasePrefix .test ++ uuid.text) .test = .ok (DatabaseName.test p uuid) ∧
      DatabaseName.new (p.databasePrefix .template ++ f.shortHex) .template = .ok (DatabaseName.template p f)) ∧
    (∀ n : DatabaseName, n.value.len ≤ 63 ∧ ∀ c ∈ n.value, isNameChar c = true) ∧
    (∀ (p q : ProjectName) (uuid : SimpleUuid) (f : TemplateFingerprint),
      (DatabaseName.test p uuid).value ≠ (DatabaseName.template q f).value) ∧
    (∀ (p q : ProjectName) (uuid : SimpleUuid) (f : TemplateFingerprint),
      ((DatabaseName.fromExisting q (DatabaseName.test p uuid).value).isSome = true ↔ p = q) ∧
      DatabaseName.fromExisting p (DatabaseName.test p uuid).value = some (DatabaseName.test p uuid) ∧
      ((DatabaseName.fromExisting q (DatabaseName.template p f).value).isSome = true ↔ p = q) ∧
      DatabaseName.fromExisting p (DatabaseName.template p f).value = some (DatabaseName.template p f)) ∧
    (∀ (q : ProjectName) (value : Text), (DatabaseName.fromExisting q value).isSome = true ↔
      ∃ digits, (∀ c ∈ digits, isLowercaseHex c = true) ∧
        ((digits.length = 32 ∧ value = "pgh_".toList ++ q.value ++ "_test_".toList ++ digits) ∨
          (digits.length = 24 ∧ value = "pgh_".toList ++ q.value ++ "_template_".toList ++ digits))) ∧
    (∀ domain identity domain' identity' : Str,
      advisoryPreimage domain.1 identity.1 = advisoryPreimage domain'.1 identity'.1 →
      domain = domain' ∧ identity = identity') ∧
    (∀ (p q : ProjectName) (f g : TemplateFingerprint) (runId runId' : SimpleUuid),
      let template := advisoryPreimage templateDomainName
      let coordination := advisoryPreimage coordinationDomainName
      let run := advisoryPreimage runDomainName
      (template (templateKeyIdentity p f) = template (templateKeyIdentity q g) → p = q ∧ f = g) ∧
      (coordination (templateKeyIdentity p f) = coordination (templateKeyIdentity q g) → p = q ∧ f = g) ∧
      (run runId.text = run runId'.text → runId.text = runId'.text) ∧
      template (templateKeyIdentity p f) ≠ coordination (templateKeyIdentity q g) ∧
      template (templateKeyIdentity p f) ≠ run runId.text ∧
      coordination (templateKeyIdentity p f) ≠ run runId.text) := by
  have hdomain : templateDomainName.len < 2 ^ 63 ∧ coordinationDomainName.len < 2 ^ 63 ∧
      runDomainName.len < 2 ^ 63 := by decide
  refine ⟨fun p uuid f => ⟨managed_new p .test _ uuid.valid, managed_new p .template _ _⟩, fun n => ?_,
    fun p q uuid f h => ?_, fun p q uuid f => ⟨fromExisting_managed_isSome p q .test _ _, ?_,
      fromExisting_managed_isSome p q .template _ _, ?_⟩, fun q value => fromExisting_isSome, ?_, ?_⟩
  · have := n.valid
    rw [validDatabaseName, Bool.and_eq_true, Bool.and_eq_true, decide_eq_true_eq, List.all_eq_true] at this
    exact ⟨this.1.2, this.2⟩
  · have := (@DatabaseName.managed_inj p q .test .template _ _ uuid.valid (DatabaseName.valid_shortHex f) h).2
    cases this
  · exact (DatabaseName.fromExisting_managed p p .test _ _ _).mpr ⟨rfl, rfl⟩
  · exact (DatabaseName.fromExisting_managed p p .template _ _ _).mpr ⟨rfl, rfl⟩
  · intro domain identity domain' identity' h
    obtain ⟨hd, hi⟩ := advisoryPreimage_injective domain.2 identity.2 domain'.2 identity'.2 h
    exact ⟨Subtype.ext hd, Subtype.ext hi⟩
  · intro p q f g runId runId'
    have hp := templateKeyIdentity_len p f
    have hq := templateKeyIdentity_len q g
    have hrun := runId_len runId
    refine ⟨fun h => ?_, fun h => ?_, fun h => ?_, ?_, ?_, ?_⟩
    · exact templateKeyIdentity_injective (advisoryPreimage_injective hdomain.1 hp hdomain.1 hq h).2
    · exact templateKeyIdentity_injective (advisoryPreimage_injective hdomain.2.1 hp hdomain.2.1 hq h).2
    · exact (advisoryPreimage_injective hdomain.2.2 hrun hdomain.2.2 (runId_len runId') h).2
    · exact advisoryPreimage_ne hdomain.1 hp hdomain.2.1 hq (by decide)
    · exact advisoryPreimage_ne hdomain.1 hp hdomain.2.2 hrun (by decide)
    · exact advisoryPreimage_ne hdomain.2.1 hp hdomain.2.2 hrun (by decide)

end PostgresTestHarness
