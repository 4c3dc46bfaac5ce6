import PostgresTestHarness.Error

/-! Image references.

A reference is cut at its first `@`, and what stands before it at its last `:`, unless a `/`
comes after that. The pieces are put together again in another way: the digest goes with the
tag, and a tag is made up where there is none. Positions are counted in characters, which come in
the same order as the bytes. -/
namespace PostgresTestHarness

/-- `char::is_whitespace`. -/
def isWhitespace (c : Char) : Bool :=
  let n := c.toNat
  decide (9 ≤ n ∧ n ≤ 13) || n == 0x20 || n == 0x85 || n == 0xa0 || n == 0x1680 ||
    decide (0x2000 ≤ n ∧ n ≤ 0x200a) || n == 0x2028 || n == 0x2029 || n == 0x202f || n == 0x205f || n == 0x3000

/-- `str::rfind` of a character: where the last one is. -/
def rfind (c : Char) : Text → Option Nat
  | [] => none
  | d :: rest =>
    match rfind c rest with
    | some i => some (i + 1)
    | none => if d = c then some 0 else none

structure ImageReference where
  repository : Text
  tag : Text
  deriving DecidableEq, Repr

namespace ImageReference

/-- What stands before the first `@`, and after it. -/
def splitDigest (image : Text) : Text × Option Text :=
  match splitOnce '@' image with
  | some (name, digest) => (name, some digest)
  | none => (image, none)

/-- The last `:`, if no `/` follows. -/
def tagSeparator (nameAndTag : Text) : Option Nat :=
  let lastSlash := rfind '/' nameAndTag
  (rfind ':' nameAndTag).filter fun index => lastSlash.all fun slash => decide (index > slash)

def splitTag (nameAndTag : Text) : Text × Text :=
  match tagSeparator nameAndTag with
  | none => (nameAndTag, "latest".toList)
  | some index => (nameAndTag.take index, nameAndTag.drop (index + 1))

/-- `@` and the digest. -/
def digestSuffix : Option Text → Text
  | none => []
  | some digest => '@' :: digest

def parse (image : Text) : Except Error ImageReference :=
  if image.isEmpty || image.any isWhitespace then
    .error (.invalidImageReference "the image must be non-empty and contain no whitespace".toList)
  else
    let (nameAndTag, digest) := splitDigest image
    if nameAndTag.isEmpty || digest.any List.isEmpty then
      .error (.invalidImageReference "the repository and optional digest must be non-empty".toList)
    else
      let (repository, tag) := splitTag nameAndTag
      if repository.isEmpty || tag.isEmpty then
        .error (.invalidImageReference "the repository and tag must be non-empty".toList)
      else .ok ⟨repository, tag ++ digestSuffix digest⟩

end ImageReference

/-! ### The three cuts -/

theorem rfind_eq_none {c : Char} {s : Text} : rfind c s = none ↔ c ∉ s := by
  induction s with
  | nil => simp [rfind]
  | cons d rest ih =>
    rw [rfind, List.mem_cons, not_or]
    cases hrest : rfind c rest with
    | some i =>
      rw [hrest] at ih
      simp only [reduceCtorEq, false_iff, not_and]
      intro _
      rw [← ih]
      simp
    | none =>
      rw [hrest] at ih
      have hmem : c ∉ rest := ih.mp rfl
      by_cases hdc : d = c
      · simp [hdc]
      · simp [hdc, hmem, Ne.symm hdc]

/-- The last one has none of its kind after it. -/
theorem rfind_append {c : Char} {a b : Text} (h : c ∉ b) : rfind c (a ++ c :: b) = some a.length := by
  induction a with
  | nil =>
    rw [List.nil_append, rfind, rfind_eq_none.mpr h]
    exact if_pos rfl
  | cons d rest ih => rw [List.cons_append, rfind, ih, List.length_cons]

theorem rfind_eq_some {c : Char} {s : Text} {i : Nat} (h : rfind c s = some i) :
    ∃ a b, s = a ++ c :: b ∧ a.length = i ∧ c ∉ b := by
  induction s generalizing i with
  | nil => cases h
  | cons d rest ih =>
    rw [rfind] at h
    cases hrest : rfind c rest with
    | some j =>
      rw [hrest] at h
      cases h
      obtain ⟨a, b, rfl, rfl, hb⟩ := ih hrest
      exact ⟨d :: a, b, rfl, rfl, hb⟩
    | none =>
      rw [hrest] at h
      simp only [Option.ite_none_right_eq_some, Option.some.injEq] at h
      obtain ⟨rfl, rfl⟩ := h
      exact ⟨[], rest, rfl, rfl, rfind_eq_none.mp hrest⟩

theorem splitOnce_eq_none {c : Char} {s : Text} : splitOnce c s = none ↔ c ∉ s := by
  induction s with
  | nil => simp [splitOnce]
  | cons d rest ih =>
    rw [splitOnce]
    by_cases hdc : d = c
    · simp [hdc]
    · simp [hdc, ih, Ne.symm hdc]

namespace ImageReference
variable {image name repository tag : Text} {digest : Option Text}

theorem splitDigest_eq : splitDigest image = (name, digest) ↔ image = name ++ digestSuffix digest ∧ '@' ∉ name := by
  unfold splitDigest
  cases hsplit : splitOnce '@' image with
  | none =>
    have hnone := splitOnce_eq_none.mp hsplit
    constructor
    · intro h
      cases h
      exact ⟨(List.append_nil _).symm, hnone⟩
    · intro hparts
      obtain ⟨rfl, hname⟩ := hparts
      cases digest with
      | none => rw [digestSuffix, List.append_nil]
      | some digest => exact absurd (List.mem_append_right _ List.mem_cons_self) hnone
  | some parts =>
    obtain ⟨front, rest⟩ := parts
    obtain ⟨rfl, hfront⟩ := splitOnce_eq_some.mp hsplit
    constructor
    · intro h
      cases h
      exact ⟨rfl, hfront⟩
    · intro hparts
      obtain ⟨heq, hname⟩ := hparts
      cases digest with
      | none =>
        rw [digestSuffix, List.append_nil] at heq
        exact absurd (heq ▸ List.mem_append_right _ List.mem_cons_self) hname
      | some digest =>
        rw [splitOnce_eq_some.mpr ⟨heq, hname⟩, Option.some.injEq] at hsplit
        cases hsplit
        rfl

/-- A character that the tail has not stands before it. -/
theorem before_of_not_mem {c d : Char} {a b front tail : Text} (hne : c ≠ d) (hd : d ∉ tail)
    (h : front ++ c :: tail = a ++ d :: b) : ∃ rest, front = a ++ d :: rest ∧ b = rest ++ c :: tail := by
  rw [List.append_eq_append_iff] at h
  obtain ⟨middle, rfl, h⟩ | ⟨middle, rfl, h⟩ := h
  · cases middle with
    | nil => exact absurd (List.cons.inj h).1 hne
    | cons e rest =>
      rw [(List.cons.inj h).2] at hd
      exact absurd (List.mem_append_right _ List.mem_cons_self) hd
  · cases middle with
    | nil => exact absurd (List.cons.inj h).1.symm hne
    | cons e rest =>
      obtain ⟨rfl, rfl⟩ := List.cons.inj h
      exact ⟨rest, rfl, rfl⟩

/-- A tag without `/` and `:`, after a `:`. -/
theorem tagSeparator_tagged (hcolon : ':' ∉ tag) (hslash : '/' ∉ tag) :
    tagSeparator (repository ++ ':' :: tag) = some repository.length := by
  simp only [tagSeparator, rfind_append hcolon, Option.filter_some]
  rw [if_pos]
  rw [Option.all_eq_true]
  intro slash h
  obtain ⟨a, b, heq, rfl, _⟩ := rfind_eq_some h
  obtain ⟨rest, rfl, _⟩ := before_of_not_mem (by decide) hslash heq
  rw [decide_eq_true_eq, List.length_append, List.length_cons]
  omega

theorem splitTag_tagged (hcolon : ':' ∉ tag) (hslash : '/' ∉ tag) :
    splitTag (repository ++ ':' :: tag) = (repository, tag) := by
  rw [splitTag, tagSeparator_tagged hcolon hslash]
  simp [List.take_left', List.drop_append]

theorem tagSeparator_eq_some {index : Nat} (h : tagSeparator name = some index) :
    ∃ repository tag, name = repository ++ ':' :: tag ∧ repository.length = index ∧ ':' ∉ tag ∧ '/' ∉ tag := by
  simp only [tagSeparator, Option.filter_eq_some_iff] at h
  obtain ⟨hcolon, hslash⟩ := h
  obtain ⟨repository, tag, rfl, rfl, hnot⟩ := rfind_eq_some hcolon
  refine ⟨repository, tag, rfl, rfl, hnot, ?_⟩
  rw [← rfind_eq_none]
  by_contra hsome
  obtain ⟨slash, hfound⟩ := Option.ne_none_iff_exists'.mp hsome
  obtain ⟨a, b, rfl, _, hb⟩ := rfind_eq_some hfound
  -- the last slash of all is the one in the tag
  have hlast : rfind '/' (repository ++ ':' :: (a ++ '/' :: b)) = some (repository ++ ':' :: a).length := by
    rw [← rfind_append hb, List.append_assoc, List.cons_append]
  rw [hlast, Option.all_some, decide_eq_true_eq, List.length_append] at hslash
  omega

/-- The tag is a given one or made up. -/
theorem splitTag_cases (h : splitTag name = (repository, tag)) :
    (name = repository ++ ':' :: tag ∧ ':' ∉ tag ∧ '/' ∉ tag) ∨ (repository = name ∧ tag = "latest".toList) := by
  cases hindex : tagSeparator name with
  | none =>
    rw [splitTag, hindex] at h
    cases h
    exact Or.inr ⟨rfl, rfl⟩
  | some index =>
    obtain ⟨front, rest, rfl, rfl, hcolon, hslash⟩ := tagSeparator_eq_some hindex
    rw [splitTag_tagged hcolon hslash] at h
    cases h
    exact Or.inl ⟨rfl, hcolon, hslash⟩

/-- What an accepted image is: a name, a tag that was given or made up, a digest or none. -/
structure Parsed (image : Text) (reference : ImageReference) (name tag : Text) (digest : Option Text) : Prop where
  composed : image = name ++ digestSuffix digest
  given : (name = reference.repository ++ ':' :: tag ∧ ':' ∉ tag ∧ '/' ∉ tag) ∨
    (reference.repository = name ∧ tag = "latest".toList)
  tagged : reference.tag = tag ++ digestSuffix digest
  at_not_mem : '@' ∉ name
  repository_ne : reference.repository ≠ []
  tag_ne : tag ≠ []
  digest_ne : digest.any List.isEmpty = false
  plain : ∀ c ∈ image, isWhitespace c = false

variable {reference : ImageReference}

theorem parsed_of_parse (h : parse image = .ok reference) : ∃ name tag digest, Parsed image reference name tag digest := by
  unfold parse at h
  split at h
  · cases h
  · rename_i hplain
    simp only [Bool.or_eq_true, not_or, Bool.not_eq_true] at hplain
    cases hdigest : splitDigest image with
    | mk name digest =>
      simp only [hdigest] at h
      split at h
      · cases h
      · rename_i hname
        simp only [Bool.or_eq_true, not_or, Bool.not_eq_true] at hname
        cases htag : splitTag name with
        | mk repository tag =>
          simp only [htag] at h
          split at h
          · cases h
          · rename_i hpieces
            simp only [Bool.or_eq_true, not_or, Bool.not_eq_true, List.isEmpty_eq_false_iff] at hpieces
            cases h
            obtain ⟨himage, hat⟩ := splitDigest_eq.mp hdigest
            refine ⟨name, tag, digest, himage, splitTag_cases htag, rfl, hat, hpieces.1, hpieces.2, hname.2, ?_⟩
            intro c hc
            simpa using List.any_eq_false.mp hplain.2 c hc

/-- Pieces that fit together are read back. -/
theorem parse_tagged (hcolon : ':' ∉ tag) (hslash : '/' ∉ tag) (hat : '@' ∉ repository ++ ':' :: tag)
    (hrepository : repository ≠ []) (htag : tag ≠ []) (hdigest : digest.any List.isEmpty = false)
    (hplain : ∀ c ∈ repository ++ ':' :: tag ++ digestSuffix digest, isWhitespace c = false) :
    parse (repository ++ ':' :: tag ++ digestSuffix digest) = .ok ⟨repository, tag ++ digestSuffix digest⟩ := by
  have hany : (repository ++ ':' :: tag ++ digestSuffix digest).any isWhitespace = false := by
    rw [List.any_eq_false]
    intro c hc
    simp [hplain c hc]
  have hne : (repository ++ ':' :: tag ++ digestSuffix digest).isEmpty = false := by simp
  have hname : (repository ++ ':' :: tag).isEmpty = false := by simp
  have hcut : splitDigest (repository ++ ':' :: tag ++ digestSuffix digest) = (repository ++ ':' :: tag, digest) :=
    splitDigest_eq.mpr ⟨rfl, hat⟩
  simp only [parse, hany, hne, hcut, hname, hdigest, splitTag_tagged hcolon hslash, Bool.or_self,
    Bool.false_eq_true, if_false, List.isEmpty_eq_false_iff.mpr hrepository, List.isEmpty_eq_false_iff.mpr htag]

namespace Parsed

theorem colon_not_mem (h : Parsed image reference name tag digest) : ':' ∉ tag := by
  obtain ⟨_, hcolon, _⟩ | ⟨_, rfl⟩ := h.given
  · exact hcolon
  · decide

theorem slash_not_mem (h : Parsed image reference name tag digest) : '/' ∉ tag := by
  obtain ⟨_, _, hslash⟩ | ⟨_, rfl⟩ := h.given
  · exact hslash
  · decide

theorem at_not_mem_pieces (h : Parsed image reference name tag digest) : '@' ∉ reference.repository ++ ':' :: tag := by
  obtain ⟨hname, _⟩ | ⟨hname, rfl⟩ := h.given
  · rw [← hname]
    exact h.at_not_mem
  · rw [hname, List.mem_append, not_or]
    exact ⟨h.at_not_mem, by decide⟩

theorem plain_pieces (h : Parsed image reference name tag digest) {c : Char} (hc : c ∈ reference.repository ++ ':' :: tag) :
    isWhitespace c = false := by
  obtain ⟨hname, _⟩ | ⟨hname, rfl⟩ := h.given
  · apply h.plain
    rw [h.composed, hname]
    exact List.mem_append_left _ hc
  · rw [hname, List.mem_append] at hc
    obtain hc | hc := hc
    · apply h.plain
      rw [h.composed]
      exact List.mem_append_left _ hc
    · have hlatest : (':' :: "latest".toList).all (fun c => !isWhitespace c) = true := by decide
      simpa using List.all_eq_true.mp hlatest c hc

theorem splitDigest_tag (h : Parsed image reference name tag digest) : splitDigest reference.tag = (tag, digest) := by
  rw [splitDigest_eq]
  refine ⟨h.tagged, fun hmem => h.at_not_mem_pieces ?_⟩
  exact List.mem_append_right _ (List.mem_cons_of_mem _ hmem)

theorem again (h : Parsed image reference name tag digest) :
    parse (reference.repository ++ ':' :: reference.tag) = .ok reference := by
  have hwhole : reference.repository ++ ':' :: reference.tag =
      reference.repository ++ ':' :: tag ++ digestSuffix digest := by
    rw [h.tagged, List.append_assoc, List.cons_append]
  rw [hwhole, parse_tagged h.colon_not_mem h.slash_not_mem h.at_not_mem_pieces h.repository_ne h.tag_ne h.digest_ne]
  · rw [← h.tagged]
  · intro c hc
    rw [List.mem_append] at hc
    obtain hc | hc := hc
    · exact h.plain_pieces hc
    · apply h.plain
      rw [h.composed]
      exact List.mem_append_right _ hc

/-- The image is the reference with its tag, or without the tag that was made up. -/
theorem shape (h : Parsed image reference name tag digest) :
    image = reference.repository ++ ':' :: reference.tag ∨
      image = reference.repository ++ digestSuffix digest ∧ tag = "latest".toList := by
  obtain ⟨hname, _⟩ | ⟨hname, htag⟩ := h.given
  · left
    rw [h.composed, hname, h.tagged, List.append_assoc, List.cons_append]
  · right
    refine ⟨?_, htag⟩
    rw [h.composed, hname]

end Parsed

/-- The second is the first with an explicit tag `latest`. -/
def OnlyLatest (reference : ImageReference) (a b : Text) : Prop :=
  ∃ digest : Option Text, a = reference.repository ++ digestSuffix digest ∧
    b = reference.repository ++ ":latest".toList ++ digestSuffix digest

/-- What a reference says of the image it was read from. -/
structure Faithful (image : Text) (reference : ImageReference) : Prop where
  repository_ne : reference.repository ≠ []
  tag_ne : reference.tag ≠ []
  /-- The tag before its digest. -/
  tag_plain : '/' ∉ (splitDigest reference.tag).1 ∧ ':' ∉ (splitDigest reference.tag).1
  repository_plain : '@' ∉ reference.repository
  again : parse (reference.repository ++ ':' :: reference.tag) = .ok reference
  shape : image = reference.repository ++ ':' :: reference.tag ∨
    ∃ digest : Option Text, image = reference.repository ++ digestSuffix digest ∧
      reference.tag = "latest".toList ++ digestSuffix digest
  same : ∀ other, parse other = .ok reference →
    image = other ∨ OnlyLatest reference image other ∨ OnlyLatest reference other image
  /-- What stands between a `:` and a later `/` of the name is no tag. -/
  port : ∀ host port rest, (splitDigest image).1 = host ++ ':' :: port ++ '/' :: rest →
    ∃ rest', reference.repository = host ++ ':' :: port ++ '/' :: rest'

theorem onlyLatest_of_shapes {a b : Text} (ha : a = reference.repository ++ digestSuffix digest)
    (hb : b = reference.repository ++ ':' :: reference.tag)
    (htag : reference.tag = "latest".toList ++ digestSuffix digest) : OnlyLatest reference a b := by
  refine ⟨digest, ha, ?_⟩
  rw [hb, htag, List.append_assoc]
  rfl

/-- A reference that is accepted has both of its parts, says what was written, up to a default tag, and is
read from its own text again. -/
theorem image_reference_faithful (image : Text) (reference : ImageReference) (h : parse image = .ok reference) :
    Faithful image reference := by
  obtain ⟨name, tag, digest, hparsed⟩ := parsed_of_parse h
  have hcut := hparsed.splitDigest_tag
  refine ⟨hparsed.repository_ne, ?_, ?_, fun hmem => hparsed.at_not_mem_pieces (List.mem_append_left _ hmem),
    hparsed.again, ?_, fun other hother => ?_, fun host port rest hname => ?_⟩
  · rw [hparsed.tagged]
    exact List.append_ne_nil_of_left_ne_nil hparsed.tag_ne _
  · rw [hcut]
    exact ⟨hparsed.slash_not_mem, hparsed.colon_not_mem⟩
  · obtain hwhole | ⟨hbare, rfl⟩ := hparsed.shape
    · exact Or.inl hwhole
    · exact Or.inr ⟨digest, hbare, hparsed.tagged⟩
  · obtain ⟨name', tag', digest', hparsed'⟩ := parsed_of_parse hother
    -- both have the digest of the reference's tag
    obtain ⟨rfl, rfl⟩ := Prod.mk.inj (hcut.symm.trans hparsed'.splitDigest_tag)
    obtain hwhole | ⟨hbare, hlatest⟩ := hparsed.shape
    · obtain hwhole' | ⟨hbare', rfl⟩ := hparsed'.shape
      · exact Or.inl (hwhole.trans hwhole'.symm)
      · exact Or.inr (Or.inr (onlyLatest_of_shapes hbare' hwhole hparsed.tagged))
    · obtain hwhole' | ⟨hbare', _⟩ := hparsed'.shape
      · rw [hlatest] at hparsed
        exact Or.inr (Or.inl (onlyLatest_of_shapes hbare hwhole' hparsed.tagged))
      · exact Or.inl (hbare.trans hbare'.symm)
  · rw [splitDigest_eq.mpr ⟨hparsed.composed, hparsed.at_not_mem⟩] at hname
    obtain ⟨htagged, _, hslash⟩ | ⟨hbare, _⟩ := hparsed.given
    · obtain ⟨rest', hrepository, _⟩ := before_of_not_mem (by decide) hslash (htagged.symm.trans hname)
      exact ⟨rest', hrepository⟩
    · exact ⟨rest, hbare.trans hname⟩

theorem image_reference_faithful_ports :
    parse "registry.example:5000/postgres:18@sha256:abc".toList =
      .ok ⟨"registry.example:5000/postgres".toList, "18@sha256:abc".toList⟩ ∧
    Faithful "registry.example:5000/postgres:18@sha256:abc".toList
      ⟨"registry.example:5000/postgres".toList, "18@sha256:abc".toList⟩ :=
  ⟨by decide +kernel, image_reference_faithful _ _ (by decide +kernel)⟩

end ImageReference

end PostgresTestHarness
