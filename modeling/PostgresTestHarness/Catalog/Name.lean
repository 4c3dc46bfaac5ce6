import Mathlib.Data.List.Basic
import Mathlib.Data.List.Induction
import PostgresTestHarness.Error
import PostgresTestHarness.Catalog.Fingerprint

/-! Project names and the names of managed databases.

A `ProjectName` and a `DatabaseName` carry the check that their constructor made. A
managed name has one of two shapes (`fromExisting_eq_some`), and its shape tells the
project and the kind. -/
namespace PostgresTestHarness

/-! ### Projects -/

/-- `MAX_PROJECT_NAME_LEN`. -/
def maxProjectNameLen : Nat := 16

def isNameChar (c : Char) : Bool := isAsciiLowercase c || isAsciiDigit c || c == '_'

/-- Why `ProjectName::new` refuses a name. -/
def ProjectName.rejection (name : Text) : Option Text :=
  if name.isEmpty then some "the name must not be empty".toList
  else if maxProjectNameLen < name.len then some "the name must be at most 16 ASCII characters".toList
  else if !name.head?.any isAsciiLowercase then
    some "the name must start with a lowercase ASCII letter".toList
  else if !name.all isNameChar then
    some "only lowercase ASCII letters, digits, and underscores are allowed".toList
  else none

structure ProjectName where
  value : Text
  valid : ProjectName.rejection value = none
  deriving DecidableEq

theorem rejection_shop : ProjectName.rejection "shop".toList = none := by decide

def ProjectName.new (name : Text) : Except Error ProjectName :=
  match h : rejection name with
  | some reason => .error (.invalidProjectName name reason)
  | none => .ok ⟨name, h⟩

/-! ### Databases -/

/-- `IDENTIFIER_MAX_LEN`. -/
def identifierMaxLen : Nat := 63

inductive DatabaseKind where
  | test
  | template
  deriving DecidableEq, Repr

/-- What `DatabaseName::new` asks of a name. -/
def validDatabaseName (value : Text) : Bool :=
  !value.isEmpty && decide (value.len ≤ identifierMaxLen) && value.all isNameChar

structure DatabaseName where
  value : Text
  kind : DatabaseKind
  valid : validDatabaseName value = true
  deriving DecidableEq

def DatabaseName.new (value : Text) (kind : DatabaseKind) : Except Error DatabaseName :=
  if h : validDatabaseName value = true then .ok ⟨value, kind, h⟩
  else .error (.invalidDatabaseName value)

def validHexSuffix (suffix : Text) (expectedLen : Nat) : Bool :=
  suffix.len == expectedLen && suffix.all isLowercaseHex

/-- `Uuid::simple`: 32 lowercase hex digits. -/
structure SimpleUuid where
  text : Text
  valid : validHexSuffix text 32 = true
  deriving DecidableEq

def DatabaseKind.middle : DatabaseKind → Text
  | .test => "_test_".toList
  | .template => "_template_".toList

/-- `pgh_{project}_test_` or `pgh_{project}_template_`. -/
def ProjectName.databasePrefix (p : ProjectName) (kind : DatabaseKind) : Text :=
  "pgh_".toList ++ p.value ++ kind.middle

/-- The hex digits at the end of a managed name. -/
def DatabaseKind.suffixLen : DatabaseKind → Nat
  | .test => 32
  | .template => shortFingerprintHexLen

def DatabaseName.fromExisting (project : ProjectName) (value : Text) : Option DatabaseName :=
  match (project.databasePrefix .test).isPrefixOf? value with
  | some suffix =>
    if validHexSuffix suffix DatabaseKind.test.suffixLen then (DatabaseName.new value .test).toOption else none
  | none =>
    match (project.databasePrefix .template).isPrefixOf? value with
    | some suffix =>
      if validHexSuffix suffix DatabaseKind.template.suffixLen then (DatabaseName.new value .template).toOption
      else none
    | none => none

/-! ### What a name is made of -/

theorem isNameChar_ascii {c : Char} (h : isNameChar c = true) : c.val ≤ 0x7f := by
  simp only [isNameChar, isAsciiLowercase, isAsciiDigit, Bool.or_eq_true, decide_eq_true_eq, beq_iff_eq] at h
  rcases h with (⟨_, h⟩ | ⟨_, h⟩) | rfl
  · exact UInt32.le_trans h (by decide)
  · exact UInt32.le_trans h (by decide)
  · decide

theorem isLowercaseHex_name {c : Char} (h : isLowercaseHex c = true) : isNameChar c = true := by
  simp only [isLowercaseHex, Bool.or_eq_true, decide_eq_true_eq] at h
  simp only [isNameChar, isAsciiLowercase, Bool.or_eq_true, decide_eq_true_eq]
  exact h.elim (fun h => Or.inl (Or.inr h)) fun h => Or.inl (Or.inl ⟨h.1, Char.le_trans h.2 (by decide)⟩)

theorem underscore_not_hex {s : Text} {n : Nat} (h : validHexSuffix s n = true) : '_' ∉ s := by
  intro hmem
  exact absurd (List.all_eq_true.mp (Bool.and_eq_true_iff.mp h).2 '_' hmem) (by decide)

theorem len_of_names {s : Text} (h : ∀ c ∈ s, isNameChar c = true) : s.len = s.length :=
  Text.len_of_ascii fun c hc => isNameChar_ascii (h c hc)

theorem validHexSuffix_iff {s : Text} {n : Nat} :
    validHexSuffix s n = true ↔ s.length = n ∧ ∀ c ∈ s, isLowercaseHex c = true := by
  rw [validHexSuffix, Bool.and_eq_true, List.all_eq_true, beq_iff_eq]
  refine and_congr_left fun h => ?_
  rw [len_of_names fun c hc => isLowercaseHex_name (h c hc)]

theorem DatabaseKind.middle_ends (kind : DatabaseKind) : ∃ front, kind.middle = front ++ ['_'] := by
  cases kind with
  | test => exact ⟨"_test".toList, rfl⟩
  | template => exact ⟨"_template".toList, rfl⟩

namespace ProjectName

theorem rejection_eq_none {name : Text} : rejection name = none ↔
    name ≠ [] ∧ name.len ≤ 16 ∧ name.head?.any isAsciiLowercase = true ∧ ∀ c ∈ name, isNameChar c = true := by
  simp only [rejection, ite_eq_iff, reduceCtorEq, and_false, false_or, and_true, List.isEmpty_iff,
    maxProjectNameLen, Nat.not_lt, Bool.not_eq_true', Bool.not_eq_false, List.all_eq_true, ne_eq]

theorem new_ok {name : Text} {p : ProjectName} : ProjectName.new name = .ok p ↔ p.value = name := by
  rw [ProjectName.new]
  obtain ⟨value, valid⟩ := p
  constructor
  · intro h
    split at h
    · cases h
    · injection h with h
      exact (ProjectName.mk.inj h).symm
  · intro heq
    obtain rfl := heq
    split
    · rename_i h
      rw [valid] at h
      cases h
    · rfl

theorem new_toOption {name : Text} {p : ProjectName} :
    (ProjectName.new name).toOption = some p ↔ p.value = name := by
  rw [← new_ok]
  cases ProjectName.new name <;> simp [Except.toOption]

theorem chars (p : ProjectName) : ∀ c ∈ p.value, isNameChar c = true := (rejection_eq_none.mp p.valid).2.2.2

theorem length_le (p : ProjectName) : p.value.length ≤ 16 := by
  rw [← len_of_names p.chars]
  exact (rejection_eq_none.mp p.valid).2.1

theorem ext_value {p q : ProjectName} (h : p.value = q.value) : p = q := by
  obtain ⟨_, _⟩ := p
  obtain ⟨_, _⟩ := q
  exact (ProjectName.mk.injEq ..).mpr h

theorem databasePrefix_chars (p : ProjectName) (kind : DatabaseKind) :
    ∀ c ∈ p.databasePrefix kind, isNameChar c = true := by
  intro c hc
  rcases List.mem_append.mp hc with hc | hc
  · rcases List.mem_append.mp hc with hc | hc
    · exact List.all_eq_true.mp (show "pgh_".toList.all isNameChar = true by decide) c hc
    · exact p.chars c hc
  · have : kind.middle.all isNameChar = true := by cases kind <;> decide
    exact List.all_eq_true.mp this c hc

end ProjectName

namespace DatabaseName

theorem new_ok {value : Text} {kind : DatabaseKind} {n : DatabaseName} :
    (DatabaseName.new value kind).toOption = some n ↔ n.value = value ∧ n.kind = kind := by
  obtain ⟨v, k, valid⟩ := n
  rw [DatabaseName.new]
  constructor
  · intro h
    split at h
    · cases h
      exact ⟨rfl, rfl⟩
    · cases h
  · intro hparts
    obtain ⟨rfl, rfl⟩ := hparts
    rw [dif_pos valid]
    rfl

theorem ext_value {m n : DatabaseName} (h : m.value = n.value) (hkind : m.kind = n.kind) : m = n := by
  obtain ⟨_, _, _⟩ := m
  obtain ⟨_, _, _⟩ := n
  exact (DatabaseName.mk.injEq ..).mpr ⟨h, hkind⟩

/-- A prefix with its hex digits is short enough, and has no other characters. -/
theorem valid_managed (p : ProjectName) (kind : DatabaseKind) {suffix : Text}
    (h : validHexSuffix suffix kind.suffixLen = true) :
    validDatabaseName (p.databasePrefix kind ++ suffix) = true := by
  rw [validHexSuffix_iff] at h
  have hchars : ∀ c ∈ p.databasePrefix kind ++ suffix, isNameChar c = true := fun c hc =>
    (List.mem_append.mp hc).elim (p.databasePrefix_chars kind c) fun hc => isLowercaseHex_name (h.2 c hc)
  have hp := p.length_le
  have hlength : (p.databasePrefix kind ++ suffix).length ≤ 63 := by
    rw [List.length_append, h.1, ProjectName.databasePrefix, List.length_append, List.length_append]
    cases kind
    · show 4 + p.value.length + 6 + 32 ≤ 63
      omega
    · show 4 + p.value.length + 10 + 24 ≤ 63
      omega
  rw [validDatabaseName, Bool.and_eq_true, Bool.and_eq_true, decide_eq_true_eq, List.all_eq_true,
    len_of_names hchars]
  exact ⟨⟨rfl, hlength⟩, hchars⟩

/-- The name of a kind of database with these hex digits. -/
def managed (p : ProjectName) (kind : DatabaseKind) (suffix : Text)
    (h : validHexSuffix suffix kind.suffixLen = true) : DatabaseName :=
  ⟨p.databasePrefix kind ++ suffix, kind, valid_managed p kind h⟩

theorem valid_shortHex (f : TemplateFingerprint) :
    validHexSuffix f.shortHex DatabaseKind.template.suffixLen = true := by
  rw [validHexSuffix_iff]
  refine ⟨?_, fun c hc => isLowercaseHex_encodeHex (List.mem_of_mem_take hc)⟩
  rw [TemplateFingerprint.shortHex, List.length_take, TemplateFingerprint.length_toHex]
  rfl

/-- `DatabaseName::test`, for the identifier that `Uuid::now_v7` returned. -/
def test (p : ProjectName) (uuid : SimpleUuid) : DatabaseName := managed p .test uuid.text uuid.valid

/-- `DatabaseName::template`. -/
def template (p : ProjectName) (f : TemplateFingerprint) : DatabaseName :=
  managed p .template f.shortHex (valid_shortHex f)

/-- The two prefixes of a project differ where one says `test` and the other `template`. -/
theorem prefixes_differ (p : ProjectName) (suffix rest : Text) :
    p.databasePrefix .test ++ suffix ≠ p.databasePrefix .template ++ rest := by
  intro h
  rw [ProjectName.databasePrefix, ProjectName.databasePrefix, List.append_assoc _ _ suffix,
    List.append_assoc _ _ rest] at h
  have hfourth := congrArg (·[3]?) (List.append_cancel_left h)
  exact absurd hfourth (show some 's' ≠ some 'm' by decide)

theorem fromExisting_eq_some {q : ProjectName} {value : Text} {n : DatabaseName} :
    fromExisting q value = some n ↔ n.value = value ∧
      ∃ suffix, validHexSuffix suffix n.kind.suffixLen = true ∧ value = q.databasePrefix n.kind ++ suffix := by
  rw [fromExisting]
  cases htest : (q.databasePrefix .test).isPrefixOf? value with
  | some suffix =>
    rw [List.isPrefixOf?_eq_some_iff_append_eq] at htest
    show (if _ then _ else _) = _ ↔ _
    rw [Option.ite_none_right_eq_some, new_ok]
    constructor
    · intro hparts
      obtain ⟨hvalid, hvalue, hkind⟩ := hparts
      rw [hkind]
      exact ⟨hvalue, suffix, hvalid, htest.symm⟩
    · intro hparts
      obtain ⟨hvalue, rest, hvalid, heq⟩ := hparts
      cases hkind : n.kind with
      | test =>
        rw [hkind] at hvalid heq
        rw [List.append_cancel_left (htest.trans heq)]
        exact ⟨hvalid, hvalue, rfl⟩
      | template =>
        rw [hkind] at heq
        exact absurd (htest.trans heq) (prefixes_differ q suffix rest)
  | none =>
    have hnot : ∀ rest, value ≠ q.databasePrefix .test ++ rest := by
      intro rest heq
      rw [List.isPrefixOf?_eq_some_iff_append_eq.mpr heq.symm] at htest
      cases htest
    cases htemplate : (q.databasePrefix .template).isPrefixOf? value with
    | some suffix =>
      rw [List.isPrefixOf?_eq_some_iff_append_eq] at htemplate
      show (if _ then _ else _) = _ ↔ _
      rw [Option.ite_none_right_eq_some, new_ok]
      constructor
      · intro hparts
        obtain ⟨hvalid, hvalue, hkind⟩ := hparts
        rw [hkind]
        exact ⟨hvalue, suffix, hvalid, htemplate.symm⟩
      · intro hparts
        obtain ⟨hvalue, rest, hvalid, heq⟩ := hparts
        cases hkind : n.kind with
        | test =>
          rw [hkind] at heq
          exact absurd heq (hnot rest)
        | template =>
          rw [hkind] at hvalid heq
          rw [List.append_cancel_left (htemplate.trans heq)]
          exact ⟨hvalid, hvalue, rfl⟩
    | none =>
      refine iff_of_false nofun ?_
      intro hparts
      obtain ⟨_, rest, _, heq⟩ := hparts
      cases hkind : n.kind with
      | test =>
        rw [hkind] at heq
        exact hnot rest heq
      | template =>
        rw [hkind, eq_comm, ← List.isPrefixOf?_eq_some_iff_append_eq, htemplate] at heq
        cases heq

/-- Every prefix ends in an underscore. -/
theorem databasePrefix_ends (p : ProjectName) (kind : DatabaseKind) :
    ∃ front, p.databasePrefix kind = front ++ ['_'] := by
  obtain ⟨front, hfront⟩ := kind.middle_ends
  exact ⟨"pgh_".toList ++ p.value ++ front, by rw [ProjectName.databasePrefix, hfront, List.append_assoc _ front]⟩

/-- Hex digits do not reach into a longer prefix: it would end in one of them. -/
theorem tail_eq_nil {p q : ProjectName} {kind other : DatabaseKind} {suffix rest tail : Text}
    (hsuffix : validHexSuffix suffix kind.suffixLen = true)
    (hlonger : q.databasePrefix other = p.databasePrefix kind ++ tail) (hsplit : suffix = tail ++ rest) :
    tail = [] := by
  obtain ⟨front, hfront⟩ := databasePrefix_ends q other
  cases tail using List.reverseRecOn with
  | nil => rfl
  | append_singleton tail c =>
    rw [hfront, ← List.append_assoc] at hlonger
    have hc : ['_'] = [c] := List.append_inj_right' hlonger rfl
    refine absurd ?_ (underscore_not_hex hsuffix)
    rw [hsplit, ← hc]
    exact List.mem_append_left _ (List.mem_append_right _ (List.mem_singleton_self _))

theorem managed_inj {p q : ProjectName} {kind other : DatabaseKind} {suffix rest : Text}
    (hsuffix : validHexSuffix suffix kind.suffixLen = true) (hrest : validHexSuffix rest other.suffixLen = true)
    (h : p.databasePrefix kind ++ suffix = q.databasePrefix other ++ rest) : p = q ∧ kind = other := by
  have hsame : p.databasePrefix kind = q.databasePrefix other := by
    rcases List.append_eq_append_iff.mp h with ⟨tail, hq, hs⟩ | ⟨tail, hp, hs⟩
    · rw [hq, tail_eq_nil hsuffix hq hs, List.append_nil]
    · rw [hp, tail_eq_nil hrest hp hs, List.append_nil]
  have hlength := congrArg List.length h
  rw [hsame, List.length_append, List.length_append, (validHexSuffix_iff.mp hsuffix).1,
    (validHexSuffix_iff.mp hrest).1] at hlength
  have hkind : kind = other := by
    have : kind.suffixLen = other.suffixLen := by omega
    cases kind <;> cases other <;> first | rfl | cases this
  subst hkind
  rw [ProjectName.databasePrefix, ProjectName.databasePrefix, List.append_assoc, List.append_assoc] at hsame
  exact ⟨ProjectName.ext_value (List.append_cancel_right (List.append_cancel_left hsame)), rfl⟩

/-- A managed name is recognized by its own project, and by no other. -/
theorem fromExisting_managed (p q : ProjectName) (kind : DatabaseKind) (suffix : Text)
    (h : validHexSuffix suffix kind.suffixLen = true) (n : DatabaseName) :
    fromExisting q (managed p kind suffix h).value = some n ↔ p = q ∧ n = managed p kind suffix h := by
  rw [fromExisting_eq_some]
  constructor
  · intro hparts
    obtain ⟨hvalue, rest, hrest, heq⟩ := hparts
    obtain ⟨hp, hkind⟩ := managed_inj h hrest heq
    exact ⟨hp, ext_value hvalue hkind.symm⟩
  · intro hparts
    obtain ⟨rfl, rfl⟩ := hparts
    exact ⟨rfl, suffix, h, rfl⟩

end DatabaseName

end PostgresTestHarness
