import Mathlib.Data.List.Basic
import PostgresTestHarness.Text

/-! Template fingerprints, and what they are hashed from.

Everything that is hashed is a list of frames, each behind its length, so that no two
lists give the same bytes (`frames_injective`). SHA-256 itself is a parameter. -/
namespace PostgresTestHarness

/-- A slice. The language bounds its length by `isize::MAX`. -/
abbrev Slice := { bytes : List UInt8 // bytes.length < 2 ^ 63 }

/-- What SHA-256 returns. -/
abbrev Digest := { bytes : List UInt8 // bytes.length = 32 }

theorem length_zeros : (List.replicate 32 (0 : UInt8)).length = 32 := rfl

/-- `u64::to_be_bytes` of a length. -/
def toBeBytes (n : Nat) : List UInt8 := (List.range 8).map fun i => UInt8.ofNat (n / 256 ^ (7 - i))

/-- `u64::from_be_bytes`. -/
def ofBeBytes (bytes : List UInt8) : Nat := bytes.foldl (fun n b => 256 * n + b.toNat) 0

/-- What `add_frame` hashes. -/
def frame (bytes : List UInt8) : List UInt8 := toBeBytes bytes.length ++ bytes

def frames (l : List (List UInt8)) : List UInt8 := l.flatMap frame

/-! ### Hexadecimal digits -/

/-- The value of an ASCII hex digit of either case. -/
def hexValue (c : Char) : Option Nat :=
  if isAsciiDigit c then some (c.toNat - '0'.toNat)
  else if 'a' ≤ c ∧ c ≤ 'f' then some (c.toNat - 'a'.toNat + 10)
  else if 'A' ≤ c ∧ c ≤ 'F' then some (c.toNat - 'A'.toNat + 10)
  else none

/-- `byte.is_ascii_hexdigit()`. -/
def isAsciiHexdigit (c : Char) : Bool := (hexValue c).isSome

/-- `{byte:02x}`. -/
def hexByte (b : UInt8) : Text := [Nat.digitChar (b.toNat / 16), Nat.digitChar (b.toNat % 16)]

def encodeHex (bytes : List UInt8) : Text := bytes.flatMap hexByte

/-- `u8::from_str_radix(.., 16)` of each two digits. -/
def decodeHex : Text → Option (List UInt8)
  | [] => some []
  | [_] => none
  | high :: low :: rest =>
    (hexValue high).bind fun h => (hexValue low).bind fun l =>
      (decodeHex rest).map fun bytes => UInt8.ofNat (16 * h + l) :: bytes

/-! ### Fingerprints -/

/-- `TemplateFingerprint`. -/
structure TemplateFingerprint where
  bytes : Digest
  deriving DecidableEq

def TemplateFingerprint.toHex (f : TemplateFingerprint) : Text := encodeHex f.bytes

/-- `SHORT_FINGERPRINT_HEX_LEN`. -/
def shortFingerprintHexLen : Nat := 24

def TemplateFingerprint.shortHex (f : TemplateFingerprint) : Text := f.toHex.take shortFingerprintHexLen

def TemplateFingerprint.fromHex (hex : Text) : Option TemplateFingerprint :=
  if hex.len ≠ 64 ∨ hex.all isAsciiHexdigit = false then none
  else (decodeHex hex).bind fun bytes => if h : bytes.length = 32 then some ⟨⟨bytes, h⟩⟩ else none

/-- `RootSpec`. -/
structure RootSpec where
  fingerprint : TemplateFingerprint
  deriving DecidableEq

/-- `StepSpec`. -/
structure StepSpec where
  bytes : Digest
  deriving DecidableEq

/-- `TemplateIdentity`. -/
structure TemplateIdentity where
  fingerprint : TemplateFingerprint
  parent : Option TemplateFingerprint
  deriving DecidableEq

def templateDomain : List UInt8 := Text.bytes "postgres-test-harness-template-v1".toList

def derivedDomain : List UInt8 := Text.bytes "postgres-test-harness-derived-template-v1".toList

/-- `FingerprintBuilder`: what its hasher was updated with. -/
structure FingerprintBuilder where
  hashed : List UInt8

def FingerprintBuilder.addFrame (b : FingerprintBuilder) (bytes : List UInt8) : FingerprintBuilder :=
  ⟨b.hashed ++ frame bytes⟩

def FingerprintBuilder.new (domain : Slice) : FingerprintBuilder :=
  ((⟨[]⟩ : FingerprintBuilder).addFrame templateDomain).addFrame domain

def FingerprintBuilder.add (b : FingerprintBuilder) (label content : Slice) : FingerprintBuilder :=
  (b.addFrame label).addFrame content

/-- SHA-256 where it is known, for evaluation. -/
def tabulated (known : List (List UInt8 × String)) (bytes : List UInt8) : Digest :=
  match (known.lookup bytes).bind fun hex => TemplateFingerprint.fromHex hex.toList with
  | some f => f.bytes
  | none => ⟨List.replicate 32 0, length_zeros⟩

section Hash
variable (sha256 : List UInt8 → Digest)

def FingerprintBuilder.finishRoot (b : FingerprintBuilder) : RootSpec := ⟨⟨sha256 b.hashed⟩⟩

def FingerprintBuilder.finishStep (b : FingerprintBuilder) : StepSpec := ⟨sha256 b.hashed⟩

/-- What `derived_fingerprint` hashes. -/
def derivedFrames (parent : TemplateFingerprint) (step : StepSpec) : List UInt8 :=
  frames [derivedDomain, parent.bytes, step.bytes]

def derivedFingerprint (parent : TemplateFingerprint) (step : StepSpec) : TemplateFingerprint :=
  ⟨sha256 (derivedFrames parent step)⟩

def TemplateIdentity.root (spec : RootSpec) : TemplateIdentity := ⟨spec.fingerprint, none⟩

def TemplateIdentity.derived (parent : TemplateFingerprint) (step : StepSpec) : TemplateIdentity :=
  ⟨derivedFingerprint sha256 parent step, some parent⟩

end Hash

/-! ### Frames -/

theorem length_toBeBytes (n : Nat) : (toBeBytes n).length = 8 := by
  rw [toBeBytes, List.length_map, List.length_range]

theorem ofBeBytes_toBeBytes {n : Nat} (h : n < 2 ^ 64) : ofBeBytes (toBeBytes n) = n := by
  simp only [toBeBytes, ofBeBytes, List.range_succ, List.range_zero, List.nil_append, List.cons_append,
    List.map_cons, List.map_nil, List.foldl_cons, List.foldl_nil, UInt8.toNat_ofNat']
  omega

theorem frame_append_inj {a b x y : List UInt8} (ha : a.length < 2 ^ 64) (hb : b.length < 2 ^ 64)
    (h : frame a ++ x = frame b ++ y) : a = b ∧ x = y := by
  rw [frame, frame, List.append_assoc, List.append_assoc] at h
  obtain ⟨hlength, hrest⟩ := List.append_inj h ((length_toBeBytes _).trans (length_toBeBytes _).symm)
  have hlen : a.length = b.length := by
    rw [← ofBeBytes_toBeBytes ha, hlength, ofBeBytes_toBeBytes hb]
  exact List.append_inj hrest hlen

theorem frame_ne_nil (a : List UInt8) : frame a ≠ [] := by
  intro h
  have := congrArg List.length h
  rw [frame, List.length_append, length_toBeBytes, List.length_nil] at this
  omega

/-- Different lists of frames give different bytes. -/
theorem frames_injective {l m : List (List UInt8)} (hl : ∀ a ∈ l, a.length < 2 ^ 64)
    (hm : ∀ a ∈ m, a.length < 2 ^ 64) (h : frames l = frames m) : l = m := by
  induction l generalizing m with
  | nil =>
    cases m with
    | nil => rfl
    | cons b rest =>
      rw [frames, frames, List.flatMap_cons, List.flatMap_nil] at h
      exact absurd (List.append_eq_nil_iff.mp h.symm).1 (frame_ne_nil b)
  | cons a rest ih =>
    cases m with
    | nil =>
      rw [frames, frames, List.flatMap_cons, List.flatMap_nil] at h
      exact absurd (List.append_eq_nil_iff.mp h).1 (frame_ne_nil a)
    | cons b tail =>
      obtain ⟨rfl, hrest⟩ := frame_append_inj (hl a (List.mem_cons_self ..)) (hm b (List.mem_cons_self ..)) h
      rw [ih (fun c hc => hl c (List.mem_cons_of_mem _ hc)) (fun c hc => hm c (List.mem_cons_of_mem _ hc)) hrest]

/-! ### Hexadecimal digits, back and forth -/

theorem hexValue_digitChar {n : Nat} (h : n < 16) : hexValue (Nat.digitChar n) = some n := by
  have : ∀ m : Fin 16, hexValue (Nat.digitChar m) = some m.val := by decide
  exact this ⟨n, h⟩

theorem hexValue_lt {c : Char} {n : Nat} (h : hexValue c = some n) : n < 16 := by
  simp only [hexValue, isAsciiDigit, decide_eq_true_eq, Char.le_def, UInt32.le_iff_toNat_le] at h
  split at h
  · rename_i hc
    have hc' : c.toNat ≤ 57 := hc.2
    cases h
    show c.toNat - 48 < 16
    omega
  · split at h
    · rename_i hc
      have hc' : c.toNat ≤ 102 := hc.2
      cases h
      show c.toNat - 97 + 10 < 16
      omega
    · split at h
      · rename_i hc
        have hc' : c.toNat ≤ 70 := hc.2
        cases h
        show c.toNat - 65 + 10 < 16
        omega
      · cases h

theorem hexdigit_ascii {c : Char} (h : isAsciiHexdigit c = true) : c.val ≤ 0x7f := by
  simp only [isAsciiHexdigit, hexValue, isAsciiDigit, decide_eq_true_eq] at h
  split at h
  · rename_i hc
    exact UInt32.le_trans hc.2 (by decide)
  · split at h
    · rename_i hc
      exact UInt32.le_trans hc.2 (by decide)
    · split at h
      · rename_i hc
        exact UInt32.le_trans hc.2 (by decide)
      · cases h

theorem decodeHex_hexByte (b : UInt8) (rest : Text) :
    decodeHex (hexByte b ++ rest) = (decodeHex rest).map (b :: ·) := by
  have hb := b.toNat_lt
  have hvalue : UInt8.ofNat (16 * (b.toNat / 16) + b.toNat % 16) = b := by
    rw [Nat.div_add_mod]
    exact UInt8.ofNat_toNat
  rw [hexByte, List.cons_append, List.cons_append, List.nil_append, decodeHex,
    hexValue_digitChar (by omega), Option.bind_some, hexValue_digitChar (by omega), Option.bind_some, hvalue]

theorem decodeHex_encodeHex (bytes : List UInt8) : decodeHex (encodeHex bytes) = some bytes := by
  induction bytes with
  | nil => rfl
  | cons b rest ih =>
    rw [encodeHex, List.flatMap_cons, decodeHex_hexByte, ← encodeHex, ih, Option.map_some]

theorem length_encodeHex (bytes : List UInt8) : (encodeHex bytes).length = 2 * bytes.length := by
  rw [encodeHex, List.length_flatMap]
  induction bytes with
  | nil => rfl
  | cons b rest ih =>
    rw [List.map_cons, List.sum_cons, ih, hexByte, List.length_cons, List.length_cons, List.length_cons,
      List.length_nil]
    omega

/-- `byte.is_ascii_digit() || (b'a'..=b'f').contains(&byte)`. -/
def isLowercaseHex (c : Char) : Bool := isAsciiDigit c || decide ('a' ≤ c ∧ c ≤ 'f')

theorem isLowercaseHex_encodeHex {bytes : List UInt8} {c : Char} (h : c ∈ encodeHex bytes) :
    isLowercaseHex c = true := by
  have hdigit : ∀ m : Fin 16, isLowercaseHex (Nat.digitChar m) = true := by decide
  obtain ⟨b, _, hc⟩ := List.mem_flatMap.mp h
  have hb := b.toNat_lt
  rcases List.mem_cons.mp hc with rfl | hc
  · exact hdigit ⟨_, by omega⟩
  · rw [List.mem_singleton.mp hc]
    exact hdigit ⟨_, by omega⟩

theorem encodeHex_injective : Function.Injective encodeHex := by
  intro a b h
  have := congrArg decodeHex h
  rw [decodeHex_encodeHex, decodeHex_encodeHex, Option.some.injEq] at this
  exact this

theorem TemplateFingerprint.toHex_injective : Function.Injective toHex :=
  fun ⟨_⟩ ⟨_⟩ h => congrArg TemplateFingerprint.mk (Subtype.ext (encodeHex_injective h))

theorem TemplateFingerprint.length_toHex (f : TemplateFingerprint) : f.toHex.length = 64 := by
  rw [toHex, length_encodeHex, f.bytes.2]

end PostgresTestHarness
