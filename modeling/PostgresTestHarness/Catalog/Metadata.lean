import Mathlib.Data.List.Lookmap
import Mathlib.Data.List.Nodup
import Mathlib.Data.List.Perm.Basic
import PostgresTestHarness.Catalog.Name

/-! The record that a managed database carries as its comment.

A record is written as fields in a fixed order and read in any order: `parse` puts the
fields in a map, and takes out of it what the kind asks for. `parse_eq_some` says which
texts it reads and as what; that every record is read back (`parse_encode`) is a case of
it. -/
namespace PostgresTestHarness

def metadataPrefix : Text := "postgres-test-harness:v1".toList

inductive TemplateState where
  | initializing
  | ready
  deriving DecidableEq, Repr

inductive ResourceMetadata where
  | test (project : ProjectName) (ownerKey : Int64) (createdAt : UInt64)
  | template (project : ProjectName) (lockKey : Int64) (fingerprint : TemplateFingerprint)
      (parent : Option TemplateFingerprint) (state : TemplateState) (createdAt : UInt64)
  deriving DecidableEq

def TemplateState.encode : TemplateState → Text
  | .initializing => "initializing".toList
  | .ready => "ready".toList

/-- Field names with their values. -/
abbrev Fields := List (Text × Text)

namespace ResourceMetadata

/-- The fields in the order in which they are written. -/
def fields : ResourceMetadata → Fields
  | .test project ownerKey createdAt =>
    [("kind".toList, "test".toList), ("project".toList, project.value),
      ("owner".toList, displayI64 ownerKey), ("created".toList, displayU64 createdAt)]
  | .template project lockKey fingerprint parent state createdAt =>
    [("kind".toList, "template".toList), ("project".toList, project.value),
      ("lock".toList, displayI64 lockKey), ("fingerprint".toList, fingerprint.toHex)] ++
    (parent.map fun p => ("parent".toList, p.toHex)).toList ++
    [("state".toList, state.encode), ("created".toList, displayU64 createdAt)]

def project : ResourceMetadata → ProjectName
  | .test project .. => project
  | .template project .. => project

def createdAt : ResourceMetadata → UInt64
  | .test _ _ createdAt => createdAt
  | .template _ _ _ _ _ createdAt => createdAt

def lockKey : ResourceMetadata → Int64
  | .test _ ownerKey _ => ownerKey
  | .template _ lockKey .. => lockKey

end ResourceMetadata

/-- `;{key}={value}`. -/
def renderField (field : Text × Text) : Text := ';' :: field.1 ++ '=' :: field.2

/-- The prefix, then the fields. -/
def render (fields : Fields) : Text := metadataPrefix ++ fields.flatMap renderField

def ResourceMetadata.encode (m : ResourceMetadata) : Text := render m.fields

/-! ### Reading -/

/-- The loop that fills the map: a field without `=` and a key that is there already end it. -/
def readFields (values : Fields) : List Text → Option Fields
  | [] => some values
  | part :: parts =>
    (splitOnce '=' part).bind fun (key, value) =>
      if (values.map Prod.fst).contains key then none else readFields (values ++ [(key, value)]) parts

/-- `values.remove(key)`: the value, and the map without it. -/
def removeField (key : Text) (values : Fields) : Option (Text × Fields) :=
  (values.lookup key).map fun value => (value, values.filter (·.1 != key))

def TemplateState.parse (s : Text) : Option TemplateState :=
  if s = "initializing".toList then some .initializing
  else if s = "ready".toList then some .ready
  else none

/-- `values.is_empty().then_some(metadata)`. -/
def whenEmpty (values : Fields) (m : ResourceMetadata) : Option ResourceMetadata :=
  if values.isEmpty then some m else none

namespace ResourceMetadata

/-- What is read for a test database, after the fields of both kinds. -/
def parseTest (project : ProjectName) (createdAt : UInt64) (values : Fields) : Option ResourceMetadata := do
  let (owner, values) ← removeField "owner".toList values
  let ownerKey ← parseI64 owner
  whenEmpty values (.test project ownerKey createdAt)

/-- `values.remove("parent")`, which may be missing. -/
def parseParent (values : Fields) : Option (Option TemplateFingerprint × Fields) :=
  match removeField "parent".toList values with
  | some (parent, values) => (TemplateFingerprint.fromHex parent).map fun parent => (some parent, values)
  | none => some (none, values)

/-- What is read for a template, after the fields of both kinds. -/
def parseTemplate (project : ProjectName) (createdAt : UInt64) (values : Fields) :
    Option ResourceMetadata := do
  let (lock, values) ← removeField "lock".toList values
  let lockKey ← parseI64 lock
  let (hex, values) ← removeField "fingerprint".toList values
  let fingerprint ← TemplateFingerprint.fromHex hex
  let (parent, values) ← parseParent values
  let (state, values) ← removeField "state".toList values
  let state ← TemplateState.parse state
  whenEmpty values (.template project lockKey fingerprint parent state createdAt)

/-- What is read from the map. -/
def parseFields (values : Fields) : Option ResourceMetadata := do
  let (kind, values) ← removeField "kind".toList values
  let (project, values) ← removeField "project".toList values
  let project ← (ProjectName.new project).toOption
  let (created, values) ← removeField "created".toList values
  let createdAt ← parseU64 created
  if kind = "test".toList ∧ values.length = 1 then parseTest project createdAt values
  else if kind = "template".toList then parseTemplate project createdAt values
  else none

def parse (encoded : Text) : Option ResourceMetadata :=
  match encoded.splitOn ';' with
  | [] => none
  | first :: parts => if first ≠ metadataPrefix then none else (readFields [] parts).bind parseFields

end ResourceMetadata

/-! ### What the fields of a record say -/

/-- A text of decimal digits, after one plus sign at most. -/
def DenotesU64 (s : Text) (n : UInt64) : Prop :=
  ∃ sign digits, s = sign ++ digits ∧ (sign = [] ∨ sign = ['+']) ∧ IsDecimal digits n.toNat

/-- A text of decimal digits, after one sign at most. -/
def DenotesI64 (s : Text) (k : Int64) : Prop :=
  ∃ sign digits n, s = sign ++ digits ∧ IsDecimal digits n ∧
    ((sign = ['-'] ∧ k.toInt = -n) ∨ ((sign = [] ∨ sign = ['+']) ∧ k.toInt = n))

/-- The two digits of a byte. -/
def nibbles (b : UInt8) : List Nat := [b.toNat / 16, b.toNat % 16]

/-- A text whose 64 hex digits, of either case, are those of a fingerprint. -/
def DenotesHex (s : Text) (f : TemplateFingerprint) : Prop :=
  s.map hexValue = (f.bytes.1.flatMap nibbles).map some

/-- Fields in any order that say what a record says: each name once, and nothing else. -/
inductive Denotes (fields : Fields) : ResourceMetadata → Prop where
  | test {project : ProjectName} {created owner : Text} {createdAt : UInt64} {ownerKey : Int64} :
      fields.Perm [("kind".toList, "test".toList), ("project".toList, project.value),
        ("created".toList, created), ("owner".toList, owner)] →
      DenotesU64 created createdAt → DenotesI64 owner ownerKey →
      Denotes fields (.test project ownerKey createdAt)
  | template {project : ProjectName} {created lock hex : Text} {parent : Option (Text × TemplateFingerprint)}
      {createdAt : UInt64} {lockKey : Int64} {fingerprint : TemplateFingerprint} {state : TemplateState} :
      fields.Perm ([("kind".toList, "template".toList), ("project".toList, project.value),
        ("created".toList, created), ("lock".toList, lock), ("fingerprint".toList, hex)] ++
        (parent.map fun p => ("parent".toList, p.1)).toList ++ [("state".toList, state.encode)]) →
      DenotesU64 created createdAt → DenotesI64 lock lockKey → DenotesHex hex fingerprint →
      (∀ p, parent = some p → DenotesHex p.1 p.2) →
      Denotes fields (.template project lockKey fingerprint (parent.map Prod.snd) state createdAt)

/-- Names and values that the separators leave whole. -/
def Separated (fields : Fields) : Prop := ∀ f ∈ fields, '=' ∉ f.1 ∧ ';' ∉ f.1 ∧ ';' ∉ f.2

/-! ### Fingerprints in a field -/

theorem decodeHex_eq_some {s : Text} {bytes : List UInt8} :
    decodeHex s = some bytes ↔ s.map hexValue = (bytes.flatMap nibbles).map some := by
  fun_induction decodeHex s generalizing bytes with
  | case1 => cases bytes <;> simp [nibbles]
  | case2 c => cases bytes <;> simp [nibbles]
  | case3 high low rest ih =>
    cases bytes with
    | nil => simp [Option.bind_eq_some_iff]
    | cons b tail =>
      have hb := b.toNat_lt
      simp only [Option.bind_eq_some_iff, Option.map_eq_some_iff, List.cons.injEq, List.map_cons,
        List.flatMap_cons, nibbles, List.cons_append, List.nil_append]
      constructor
      · intro hparts
        obtain ⟨h, hh, l, hl, bytes, hrest, hbyte, rfl⟩ := hparts
        have hlt : h < 16 ∧ l < 16 := ⟨hexValue_lt hh, hexValue_lt hl⟩
        have hvalue : b.toNat = 16 * h + l := by
          rw [← hbyte, UInt8.toNat_ofNat', Nat.mod_eq_of_lt (by omega)]
        refine ⟨hh.trans (congrArg some ?_), hl.trans (congrArg some ?_), ih.mp hrest⟩ <;> omega
      · intro hparts
        obtain ⟨hh, hl, hrest⟩ := hparts
        refine ⟨_, hh, _, hl, tail, ih.mpr hrest, ?_, rfl⟩
        rw [Nat.div_add_mod]
        exact UInt8.ofNat_toNat

theorem length_nibbles (bytes : List UInt8) : (bytes.flatMap nibbles).length = 2 * bytes.length := by
  induction bytes with
  | nil => rfl
  | cons b rest ih =>
    rw [List.flatMap_cons, List.length_append, ih, List.length_cons]
    show 2 + _ = _
    omega

theorem fromHex_eq_some {s : Text} {f : TemplateFingerprint} :
    TemplateFingerprint.fromHex s = some f ↔ DenotesHex s f := by
  obtain ⟨bytes, hbytes⟩ := f
  rw [TemplateFingerprint.fromHex, DenotesHex, ← decodeHex_eq_some]
  constructor
  · intro h
    rw [Option.ite_none_left_eq_some, Option.bind_eq_some_iff] at h
    obtain ⟨_, decoded, hdecoded, h⟩ := h
    split at h
    · cases h
      exact hdecoded
    · cases h
  · intro h
    have hall : ∀ c ∈ s, isAsciiHexdigit c = true := by
      intro c hc
      have := List.mem_map_of_mem hc (f := hexValue)
      rw [decodeHex_eq_some.mp h] at this
      obtain ⟨n, _, hn⟩ := List.mem_map.mp this
      rw [isAsciiHexdigit, ← hn]
      rfl
    have hlength : s.length = 64 := by
      have := congrArg List.length (decodeHex_eq_some.mp h)
      rw [List.length_map, List.length_map, length_nibbles, hbytes] at this
      exact this
    have hlen : s.len = 64 := by
      rw [Text.len_of_ascii fun c hc => hexdigit_ascii (hall c hc), hlength]
    have hshape : ¬ (s.len ≠ 64 ∨ s.all isAsciiHexdigit = false) := by
      rw [hlen, List.all_eq_true.mpr hall]
      simp
    rw [if_neg hshape, h, Option.bind_some, dif_pos hbytes]

theorem denotesHex_toHex (f : TemplateFingerprint) : DenotesHex f.toHex f :=
  decodeHex_eq_some.mp (decodeHex_encodeHex f.bytes)

theorem TemplateState.parse_eq_some {s : Text} {state : TemplateState} :
    TemplateState.parse s = some state ↔ s = state.encode := by
  constructor
  · intro h
    rw [TemplateState.parse] at h
    split at h
    · rename_i hs
      cases h
      exact hs
    · rw [Option.ite_none_right_eq_some, Option.some.injEq] at h
      obtain ⟨hs, rfl⟩ := h
      exact hs
  · intro heq
    obtain rfl := heq
    cases state <;> rfl

/-! ### Fields out of a text -/

/-- `{key}={value}`. -/
def fieldBody (field : Text × Text) : Text := field.1 ++ '=' :: field.2

theorem render_eq (fields : Fields) :
    render fields = [';'].intercalate (metadataPrefix :: fields.map fieldBody) := by
  suffices ∀ first : Text, first ++ fields.flatMap renderField = [';'].intercalate (first :: fields.map fieldBody) from
    this metadataPrefix
  induction fields with
  | nil => simp
  | cons field rest ih =>
    intro first
    have := ih (fieldBody field)
    rw [List.flatMap_cons, List.map_cons, List.intercalate_cons_cons, ← this]
    simp [renderField, fieldBody]

theorem not_mem_of_mem_splitOn {c : Char} {s part : Text} (h : part ∈ s.splitOn c) : c ∉ part := by
  induction s generalizing part with
  | nil =>
    rw [List.splitOn_nil, List.mem_singleton] at h
    rw [h]
    exact List.not_mem_nil
  | cons d rest ih =>
    rw [List.splitOn_cons_eq_if_modifyHead] at h
    split at h
    · rcases List.mem_cons.mp h with rfl | h
      · exact List.not_mem_nil
      · exact ih h
    · rename_i hd
      cases hsplit : rest.splitOn c with
      | nil => exact absurd hsplit (List.splitOn_ne_nil c rest)
      | cons first tail =>
        rw [hsplit] at h ih
        rcases List.mem_cons.mp h with rfl | h
        · rw [List.mem_cons, not_or]
          exact ⟨fun hcd => hd (beq_iff_eq.mpr hcd.symm), ih (List.mem_cons_self ..)⟩
        · exact ih (List.mem_cons_of_mem _ h)

theorem splitOn_render {fields : Fields} (h : Separated fields) :
    (render fields).splitOn ';' = metadataPrefix :: fields.map fieldBody := by
  rw [render_eq]
  refine List.splitOn_intercalate ';' (fun part hpart => ?_) (List.cons_ne_nil _ _)
  rcases List.mem_cons.mp hpart with rfl | hpart
  · decide
  · obtain ⟨field, hfield, rfl⟩ := List.mem_map.mp hpart
    obtain ⟨_, hkey, hvalue⟩ := h field hfield
    rw [fieldBody, List.mem_append, List.mem_cons, not_or, not_or]
    exact ⟨hkey, by decide, hvalue⟩

/-- A map is filled with fields of different names, in their order. -/
theorem readFields_eq_some {values : Fields} (hnodup : (values.map Prod.fst).Nodup) {parts : List Text}
    {result : Fields} : readFields values parts = some result ↔
      ∃ fields, result = values ++ fields ∧ parts = fields.map fieldBody ∧ (∀ f ∈ fields, '=' ∉ f.1) ∧
        ((values ++ fields).map Prod.fst).Nodup := by
  induction parts generalizing values with
  | nil =>
    rw [readFields, Option.some.injEq]
    constructor
    · intro heq
      obtain rfl := heq
      exact ⟨[], (List.append_nil _).symm, rfl, nofun, by rwa [List.append_nil]⟩
    · intro hparts
      obtain ⟨fields, rfl, hparts, _⟩ := hparts
      rw [List.map_eq_nil_iff.mp hparts.symm, List.append_nil]
  | cons part parts ih =>
    rw [readFields, Option.bind_eq_some_iff]
    constructor
    · intro hparts
      obtain ⟨⟨key, value⟩, hsplit, hrest⟩ := hparts
      obtain ⟨rfl, hkey⟩ := splitOnce_eq_some.mp hsplit
      rw [Option.ite_none_left_eq_some, List.contains_iff_mem] at hrest
      have hmore : ((values ++ [(key, value)]).map Prod.fst).Nodup := by
        rw [List.map_append, List.nodup_append]
        refine ⟨hnodup, List.nodup_singleton _, fun a ha b hb hab => hrest.1 ?_⟩
        have hb : b = key := List.mem_singleton.mp hb
        rw [← hb, ← hab]
        exact ha
      obtain ⟨fields, rfl, rfl, hkeys, hall⟩ := (ih hmore).mp hrest.2
      rw [List.append_assoc] at hall
      exact ⟨(key, value) :: fields, List.append_assoc .., rfl, List.forall_mem_cons.mpr ⟨hkey, hkeys⟩, hall⟩
    · intro hparts
      obtain ⟨fields, rfl, hparts, hkeys, hall⟩ := hparts
      cases fields with
      | nil => cases hparts
      | cons field fields =>
        obtain ⟨key, value⟩ := field
        obtain ⟨rfl, rfl⟩ := List.cons.inj hparts
        have hkey := hkeys _ (List.mem_cons_self ..)
        refine ⟨(key, value), splitOnce_eq_some.mpr ⟨rfl, hkey⟩, ?_⟩
        rw [List.append_cons] at hall
        have hmore := List.Nodup.of_append_left (List.map_append ▸ hall)
        have hnot : key ∉ values.map Prod.fst := by
          rw [List.map_append, List.nodup_append] at hmore
          exact fun hmem => hmore.2.2 key hmem key (List.mem_singleton_self key) rfl
        rw [Option.ite_none_left_eq_some, List.contains_iff_mem]
        exact ⟨hnot, (ih hmore).mpr ⟨fields, List.append_cons .., rfl,
          fun f hf => hkeys f (List.mem_cons_of_mem _ hf), hall⟩⟩

/-! ### Values out of a map -/

theorem lookup_of_mem {values : Fields} (hnodup : (values.map Prod.fst).Nodup) {key value : Text}
    (h : (key, value) ∈ values) : values.lookup key = some value := by
  induction values with
  | nil => cases h
  | cons field rest ih =>
    rw [List.map_cons, List.nodup_cons] at hnodup
    rw [List.lookup_cons]
    rcases List.mem_cons.mp h with rfl | h
    · rw [beq_self_eq_true]
    · have : key ≠ field.1 := fun hk => hnodup.1 (hk ▸ List.mem_map_of_mem h)
      rw [beq_eq_false_iff_ne.mpr this]
      exact ih hnodup.2 h

theorem removeField_of_perm {values rest : Fields} (hnodup : (values.map Prod.fst).Nodup) {key value : Text}
    (h : values.Perm ((key, value) :: rest)) :
    ∃ left, removeField key values = some (value, left) ∧ left.Perm rest ∧ (left.map Prod.fst).Nodup := by
  have hmem : (key, value) ∈ values := h.mem_iff.mpr (List.mem_cons_self ..)
  refine ⟨values.filter (·.1 != key), ?_, ?_, ?_⟩
  · rw [removeField, lookup_of_mem hnodup hmem, Option.map_some]
  · have hkeys := (h.map Prod.fst).nodup_iff.mp hnodup
    rw [List.map_cons, List.nodup_cons] at hkeys
    refine (h.filter _).trans ?_
    rw [List.filter_cons_of_neg (by simp), List.filter_eq_self.mpr fun field hfield => ?_]
    rw [bne_iff_ne]
    exact fun hk => hkeys.1 (List.mem_map.mpr ⟨field, hfield, hk⟩)
  · exact hnodup.sublist (List.filter_sublist.map Prod.fst)

theorem mem_of_lookup {values : Fields} {key value : Text} (h : values.lookup key = some value) :
    (key, value) ∈ values := by
  induction values with
  | nil => cases h
  | cons field rest ih =>
    rw [List.lookup_cons] at h
    split at h
    · rename_i hk
      cases h
      rw [beq_iff_eq.mp hk]
      exact List.mem_cons_self ..
    · exact List.mem_cons_of_mem _ (ih h)

theorem perm_of_removeField {values left : Fields} (hnodup : (values.map Prod.fst).Nodup) {key value : Text}
    (h : removeField key values = some (value, left)) :
    values.Perm ((key, value) :: left) ∧ (left.map Prod.fst).Nodup := by
  obtain ⟨found, hfound, heq⟩ := Option.map_eq_some_iff.mp h
  have hperm := List.perm_cons_erase (mem_of_lookup hfound)
  obtain ⟨left', hleft, hrest, hnodup'⟩ := removeField_of_perm hnodup hperm
  rw [h, Option.some.injEq, Prod.mk.injEq] at hleft
  obtain ⟨rfl, rfl⟩ := hleft
  cases heq
  exact ⟨hperm.trans (hrest.symm.cons _), hnodup'⟩

theorem removeField_none {values : Fields} {key : Text} (h : key ∉ values.map Prod.fst) :
    removeField key values = none := by
  rw [removeField, Option.map_eq_none_iff, Option.eq_none_iff_forall_ne_some]
  exact fun value hvalue => h (List.mem_map_of_mem (mem_of_lookup hvalue) (f := Prod.fst))

theorem whenEmpty_eq_some {values : Fields} {m m' : ResourceMetadata} :
    whenEmpty values m = some m' ↔ values = [] ∧ m = m' := by
  rw [whenEmpty, Option.ite_none_right_eq_some, Option.some.injEq, List.isEmpty_iff]

/-- The next field that is asked for, out of a map with different names. -/
theorem removeField_bind {values : Fields} (hnodup : (values.map Prod.fst).Nodup) {key : Text} {α : Type}
    {read : Text × Fields → Option α} {a : α} (h : (removeField key values).bind read = some a) :
    ∃ value left, values.Perm ((key, value) :: left) ∧ (left.map Prod.fst).Nodup ∧ read (value, left) = some a := by
  obtain ⟨⟨value, left⟩, hremove, hread⟩ := Option.bind_eq_some_iff.mp h
  obtain ⟨hperm, hleft⟩ := perm_of_removeField hnodup hremove
  exact ⟨value, left, hperm, hleft, hread⟩

namespace ResourceMetadata

theorem parseTest_denotes {project : ProjectName} {createdAt : UInt64} {values : Fields} {m : ResourceMetadata}
    (hnodup : (values.map Prod.fst).Nodup) (h : parseTest project createdAt values = some m) :
    ∃ owner ownerKey, values.Perm [("owner".toList, owner)] ∧ DenotesI64 owner ownerKey ∧
      m = .test project ownerKey createdAt := by
  obtain ⟨owner, left, hperm, _, h⟩ := removeField_bind hnodup h
  obtain ⟨ownerKey, howner, h⟩ := Option.bind_eq_some_iff.mp h
  obtain ⟨rfl, rfl⟩ := whenEmpty_eq_some.mp h
  exact ⟨owner, ownerKey, hperm, parseI64_eq_some.mp howner, rfl⟩

/-- A parent that may be missing. -/
theorem parseParent_denotes {values left : Fields} {parent : Option TemplateFingerprint}
    (hnodup : (values.map Prod.fst).Nodup) (h : parseParent values = some (parent, left)) :
    ∃ written : Option (Text × TemplateFingerprint), parent = written.map Prod.snd ∧
      values.Perm ((written.map fun p => ("parent".toList, p.1)).toList ++ left) ∧
      (∀ p, written = some p → DenotesHex p.1 p.2) ∧ (left.map Prod.fst).Nodup := by
  rw [parseParent] at h
  split at h
  · rename_i hex rest hremove
    obtain ⟨f, hf, heq⟩ := Option.map_eq_some_iff.mp h
    obtain ⟨rfl, rfl⟩ := Prod.mk.inj heq
    obtain ⟨hperm, hleft⟩ := perm_of_removeField hnodup hremove
    refine ⟨some (hex, f), rfl, hperm, fun p hp => ?_, hleft⟩
    rw [← Option.some.inj hp]
    exact fromHex_eq_some.mp hf
  · obtain ⟨rfl, rfl⟩ := Prod.mk.inj (Option.some.inj h)
    exact ⟨none, rfl, List.Perm.refl _, nofun, hnodup⟩

theorem parseTemplate_denotes {project : ProjectName} {createdAt : UInt64} {values : Fields}
    {m : ResourceMetadata} (hnodup : (values.map Prod.fst).Nodup)
    (h : parseTemplate project createdAt values = some m) :
    ∃ lock lockKey hex fingerprint, ∃ parent : Option (Text × TemplateFingerprint), ∃ state : TemplateState,
      values.Perm ([("lock".toList, lock), ("fingerprint".toList, hex)] ++
        (parent.map fun p => ("parent".toList, p.1)).toList ++ [("state".toList, state.encode)]) ∧
      DenotesI64 lock lockKey ∧ DenotesHex hex fingerprint ∧ (∀ p, parent = some p → DenotesHex p.1 p.2) ∧
      m = .template project lockKey fingerprint (parent.map Prod.snd) state createdAt := by
  obtain ⟨lock, left, hlock, hnodup, h⟩ := removeField_bind hnodup h
  obtain ⟨lockKey, hlockKey, h⟩ := Option.bind_eq_some_iff.mp h
  obtain ⟨hex, left, hhex, hnodup, h⟩ := removeField_bind hnodup h
  obtain ⟨fingerprint, hfingerprint, h⟩ := Option.bind_eq_some_iff.mp h
  obtain ⟨⟨parent, left⟩, hparent, h⟩ := Option.bind_eq_some_iff.mp h
  obtain ⟨written, rfl, hwritten, hdenotes, hnodup⟩ := parseParent_denotes hnodup hparent
  obtain ⟨text, left, hstate, _, h⟩ := removeField_bind hnodup h
  obtain ⟨state, htext, h⟩ := Option.bind_eq_some_iff.mp h
  obtain ⟨rfl, rfl⟩ := whenEmpty_eq_some.mp h
  rw [TemplateState.parse_eq_some.mp htext] at hstate
  refine ⟨lock, lockKey, hex, fingerprint, written, state, ?_, parseI64_eq_some.mp hlockKey,
    fromHex_eq_some.mp hfingerprint, hdenotes, rfl⟩
  exact hlock.trans ((hhex.trans ((hwritten.trans (hstate.append_left _)).cons _)).cons _)

theorem parseFields_denotes {values : Fields} {m : ResourceMetadata} (hnodup : (values.map Prod.fst).Nodup)
    (h : parseFields values = some m) : Denotes values m := by
  obtain ⟨kind, left, hkind, hnodup, h⟩ := removeField_bind hnodup h
  obtain ⟨name, left, hname, hnodup, h⟩ := removeField_bind hnodup h
  obtain ⟨project, hproject, h⟩ := Option.bind_eq_some_iff.mp h
  obtain ⟨created, left, hcreated, hnodup, h⟩ := removeField_bind hnodup h
  obtain ⟨createdAt, hcreatedAt, h⟩ := Option.bind_eq_some_iff.mp h
  have hvalue : project.value = name := ProjectName.new_toOption.mp hproject
  have hcommon := hkind.trans ((hname.trans (hcreated.cons _)).cons _)
  rw [← hvalue] at hcommon
  split at h
  · rename_i hcase
    obtain ⟨owner, ownerKey, howner, hdenotes, rfl⟩ := parseTest_denotes hnodup h
    rw [hcase.1] at hcommon
    exact .test (hcommon.trans (howner.append_left [_, _, _])) (parseU64_eq_some.mp hcreatedAt) hdenotes
  · rw [Option.ite_none_right_eq_some] at h
    obtain ⟨rfl, htemplate⟩ := h
    obtain ⟨lock, lockKey, hex, fingerprint, parent, state, hperm, hlock, hhex, hparent, rfl⟩ :=
      parseTemplate_denotes hnodup htemplate
    exact .template (hcommon.trans (hperm.append_left [_, _, _])) (parseU64_eq_some.mp hcreatedAt) hlock hhex hparent

theorem parseTest_of_perm {project : ProjectName} {createdAt : UInt64} {values : Fields} {owner : Text}
    {ownerKey : Int64} (hnodup : (values.map Prod.fst).Nodup) (hperm : values.Perm [("owner".toList, owner)])
    (howner : DenotesI64 owner ownerKey) :
    parseTest project createdAt values = some (.test project ownerKey createdAt) := by
  obtain ⟨left, hremove, hleft, _⟩ := removeField_of_perm hnodup hperm
  refine Option.bind_eq_some_iff.mpr ⟨_, hremove, Option.bind_eq_some_iff.mpr ⟨_, parseI64_eq_some.mpr howner, ?_⟩⟩
  exact whenEmpty_eq_some.mpr ⟨List.perm_nil.mp hleft, rfl⟩

theorem parseParent_of_perm {values rest : Fields} (hnodup : (values.map Prod.fst).Nodup)
    (written : Option (Text × TemplateFingerprint))
    (hperm : values.Perm ((written.map fun p => ("parent".toList, p.1)).toList ++ rest))
    (hdenotes : ∀ p, written = some p → DenotesHex p.1 p.2) (hrest : "parent".toList ∉ rest.map Prod.fst) :
    ∃ left, parseParent values = some (written.map Prod.snd, left) ∧ left.Perm rest ∧
      (left.map Prod.fst).Nodup := by
  rw [parseParent]
  cases written with
  | none =>
    have hnone : "parent".toList ∉ values.map Prod.fst :=
      fun hmem => hrest (((hperm.map Prod.fst).mem_iff).mp hmem)
    rw [removeField_none hnone]
    exact ⟨values, rfl, hperm, hnodup⟩
  | some p =>
    obtain ⟨left, hremove, hleft, hnodup⟩ := removeField_of_perm hnodup hperm
    rw [hremove]
    show ∃ left, (TemplateFingerprint.fromHex p.1).map _ = _ ∧ _
    rw [fromHex_eq_some.mpr (hdenotes p rfl)]
    exact ⟨left, rfl, hleft, hnodup⟩

theorem parseTemplate_of_perm {project : ProjectName} {createdAt : UInt64} {values : Fields} {lock hex : Text}
    {lockKey : Int64} {fingerprint : TemplateFingerprint} {parent : Option (Text × TemplateFingerprint)}
    {state : TemplateState} (hnodup : (values.map Prod.fst).Nodup)
    (hperm : values.Perm ([("lock".toList, lock), ("fingerprint".toList, hex)] ++
      (parent.map fun p => ("parent".toList, p.1)).toList ++ [("state".toList, state.encode)]))
    (hlock : DenotesI64 lock lockKey) (hhex : DenotesHex hex fingerprint)
    (hparent : ∀ p, parent = some p → DenotesHex p.1 p.2) : parseTemplate project createdAt values =
      some (.template project lockKey fingerprint (parent.map Prod.snd) state createdAt) := by
  obtain ⟨left, hremove, hleft, hnodup⟩ := removeField_of_perm hnodup hperm
  refine Option.bind_eq_some_iff.mpr ⟨_, hremove, Option.bind_eq_some_iff.mpr ⟨_, parseI64_eq_some.mpr hlock, ?_⟩⟩
  obtain ⟨left, hremove, hleft, hnodup⟩ := removeField_of_perm hnodup hleft
  refine Option.bind_eq_some_iff.mpr ⟨_, hremove, Option.bind_eq_some_iff.mpr ⟨_, fromHex_eq_some.mpr hhex, ?_⟩⟩
  obtain ⟨left, hremove, hleft, hnodup⟩ := parseParent_of_perm hnodup parent hleft hparent
    (show "parent".toList ∉ ["state".toList] by decide)
  refine Option.bind_eq_some_iff.mpr ⟨_, hremove, ?_⟩
  obtain ⟨left, hremove, hleft, hnodup⟩ := removeField_of_perm hnodup hleft
  refine Option.bind_eq_some_iff.mpr ⟨_, hremove,
    Option.bind_eq_some_iff.mpr ⟨_, TemplateState.parse_eq_some.mpr rfl, ?_⟩⟩
  exact whenEmpty_eq_some.mpr ⟨List.perm_nil.mp hleft, rfl⟩

/-- The fields of both kinds, then what is left. -/
theorem parseFields_of_perm {values rest : Fields} {kind created : Text} {project : ProjectName}
    {createdAt : UInt64} (hnodup : (values.map Prod.fst).Nodup)
    (hperm : values.Perm ([("kind".toList, kind), ("project".toList, project.value), ("created".toList, created)] ++
      rest)) (hcreated : DenotesU64 created createdAt) :
    ∃ left, left.Perm rest ∧ (left.map Prod.fst).Nodup ∧ parseFields values =
      if kind = "test".toList ∧ left.length = 1 then parseTest project createdAt left
      else if kind = "template".toList then parseTemplate project createdAt left
      else none := by
  obtain ⟨left, hremove, hleft, hnodup⟩ := removeField_of_perm hnodup hperm
  obtain ⟨left', hremove', hleft', hnodup'⟩ := removeField_of_perm hnodup hleft
  obtain ⟨left'', hremove'', hleft'', hnodup''⟩ := removeField_of_perm hnodup' hleft'
  refine ⟨left'', hleft'', hnodup'', ?_⟩
  rw [parseFields, hremove, Option.bind_eq_bind, Option.bind_some]
  simp only [hremove', hremove'', ProjectName.new_toOption.mpr rfl, parseU64_eq_some.mpr hcreated,
    Option.bind_eq_bind, Option.bind_some]

theorem parseFields_of_denotes {values : Fields} {m : ResourceMetadata} (hnodup : (values.map Prod.fst).Nodup)
    (h : Denotes values m) : parseFields values = some m := by
  cases h with
  | test hperm hcreated howner =>
    obtain ⟨left, hleft, hnodup, heq⟩ := @parseFields_of_perm _ [_] _ _ _ _ hnodup hperm hcreated
    rw [heq, if_pos ⟨rfl, hleft.length_eq⟩]
    exact parseTest_of_perm hnodup hleft howner
  | template hperm hcreated hlock hhex hparent =>
    obtain ⟨left, hleft, hnodup, heq⟩ := parseFields_of_perm hnodup hperm hcreated
    rw [heq, if_neg (fun hcase => absurd hcase.1 (by decide)), if_pos rfl]
    exact parseTemplate_of_perm hnodup hleft hlock hhex hparent

end ResourceMetadata

/-! ### What is read, and what is written -/

theorem Denotes.nodup {fields : Fields} {m : ResourceMetadata} (h : Denotes fields m) :
    (fields.map Prod.fst).Nodup := by
  cases h with
  | test hperm =>
    rw [(hperm.map Prod.fst).nodup_iff]
    exact (by decide : ["kind".toList, "project".toList, "created".toList, "owner".toList].Nodup)
  | @template _ _ _ _ parent _ _ _ _ hperm =>
    rw [(hperm.map Prod.fst).nodup_iff]
    cases parent
    · exact (by decide : ["kind".toList, "project".toList, "created".toList, "lock".toList, "fingerprint".toList,
        "state".toList].Nodup)
    · exact (by decide : ["kind".toList, "project".toList, "created".toList, "lock".toList, "fingerprint".toList,
        "parent".toList, "state".toList].Nodup)

/-- The texts that are read: the prefix, and fields in any order that say what the record says. -/
theorem parse_eq_some {s : Text} {m : ResourceMetadata} : ResourceMetadata.parse s = some m ↔
    ∃ fields, s = render fields ∧ Separated fields ∧ Denotes fields m := by
  constructor
  · intro h
    rw [ResourceMetadata.parse] at h
    split at h
    · cases h
    · rename_i first parts hsplit
      rw [Option.ite_none_left_eq_some, not_not, Option.bind_eq_some_iff] at h
      obtain ⟨rfl, fields, hread, hvalues⟩ := h
      obtain ⟨_, rfl, rfl, hkeys, hnodup⟩ := (@readFields_eq_some [] List.nodup_nil _ _).mp hread
      refine ⟨fields, ?_, fun field hfield => ?_, ResourceMetadata.parseFields_denotes hnodup hvalues⟩
      · rw [render_eq, ← hsplit, List.intercalate_splitOn]
      · have hbody : ';' ∉ fieldBody field :=
          not_mem_of_mem_splitOn (hsplit ▸ List.mem_cons_of_mem _ (List.mem_map_of_mem hfield))
        rw [fieldBody, List.mem_append, List.mem_cons, not_or, not_or] at hbody
        exact ⟨hkeys field hfield, hbody.1, hbody.2.2⟩
  · intro hparts
    obtain ⟨fields, rfl, hseparated, hdenotes⟩ := hparts
    have hread : readFields [] (fields.map fieldBody) = some fields :=
      (@readFields_eq_some [] List.nodup_nil _ _).mpr
        ⟨fields, rfl, rfl, fun f hf => (hseparated f hf).1, hdenotes.nodup⟩
    rw [ResourceMetadata.parse, splitOn_render hseparated]
    show (if _ then none else (readFields [] (fields.map fieldBody)).bind _) = _
    rw [if_neg (not_not.mpr rfl), hread, Option.bind_some]
    exact ResourceMetadata.parseFields_of_denotes hdenotes.nodup hdenotes

/-- What a record is written with: none of it looks like a separator. -/
def plainChar (c : Char) : Bool := isNameChar c || c == '-'

theorem plain_separated {s : Text} (h : ∀ c ∈ s, plainChar c = true) : '=' ∉ s ∧ ';' ∉ s :=
  ⟨fun hc => absurd (h _ hc) (by decide), fun hc => absurd (h _ hc) (by decide)⟩

theorem plain_of_digit {c : Char} (h : isAsciiDigit c = true) : plainChar c = true := by
  rw [plainChar, isNameChar, h, Bool.or_true]
  rfl

theorem plain_hex (f : TemplateFingerprint) : ∀ c ∈ f.toHex, plainChar c = true := by
  intro c hc
  rw [plainChar, isLowercaseHex_name (isLowercaseHex_encodeHex hc)]
  rfl

theorem plain_i64 (k : Int64) : ∀ c ∈ displayI64 k, plainChar c = true := by
  intro c hc
  rcases displayI64_mem hc with rfl | hc
  · rfl
  · exact plain_of_digit hc

theorem plain_project (p : ProjectName) : ∀ c ∈ p.value, plainChar c = true := by
  intro c hc
  rw [plainChar, p.chars c hc]
  rfl

theorem plain_u64 (n : UInt64) : ∀ c ∈ displayU64 n, plainChar c = true := fun _ hc =>
  plain_of_digit (displayU64_mem hc)

namespace ResourceMetadata

theorem fields_plain (m : ResourceMetadata) : ∀ f ∈ m.fields, (∀ c ∈ f.1, plainChar c = true) ∧
    ∀ c ∈ f.2, plainChar c = true := by
  have hname : ∀ name : String, name.toList.all plainChar = true → ∀ c ∈ name.toList, plainChar c = true :=
    fun name h => List.all_eq_true.mp h
  intro f hf
  cases m with
  | test project ownerKey createdAt =>
    simp only [fields, List.mem_cons, List.not_mem_nil, or_false] at hf
    rcases hf with rfl | rfl | rfl | rfl
    · exact ⟨hname "kind" (by decide), hname "test" (by decide)⟩
    · exact ⟨hname "project" (by decide), plain_project project⟩
    · exact ⟨hname "owner" (by decide), plain_i64 ownerKey⟩
    · exact ⟨hname "created" (by decide), plain_u64 createdAt⟩
  | template project lockKey fingerprint parent state createdAt =>
    simp only [fields, List.mem_append, List.mem_cons, List.not_mem_nil, or_false, Option.mem_toList,
      Option.map_eq_some_iff] at hf
    rcases hf with ((rfl | rfl | rfl | rfl) | ⟨p, _, rfl⟩) | rfl | rfl
    · exact ⟨hname "kind" (by decide), hname "template" (by decide)⟩
    · exact ⟨hname "project" (by decide), plain_project project⟩
    · exact ⟨hname "lock" (by decide), plain_i64 lockKey⟩
    · exact ⟨hname "fingerprint" (by decide), plain_hex fingerprint⟩
    · exact ⟨hname "parent" (by decide), plain_hex p⟩
    · refine ⟨hname "state" (by decide), ?_⟩
      cases state with
      | initializing => exact hname "initializing" (by decide)
      | ready => exact hname "ready" (by decide)
    · exact ⟨hname "created" (by decide), plain_u64 createdAt⟩

theorem fields_separated (m : ResourceMetadata) : Separated m.fields := fun f hf =>
  have ⟨hkey, hvalue⟩ := m.fields_plain f hf
  ⟨(plain_separated hkey).1, (plain_separated hkey).2, (plain_separated hvalue).2⟩

theorem fields_denotes (m : ResourceMetadata) : Denotes m.fields m := by
  cases m with
  | test project ownerKey createdAt =>
    exact .test ((List.Perm.swap _ _ _).append_left [_, _])
      (parseU64_eq_some.mp (parseU64_display createdAt)) (parseI64_eq_some.mp (parseI64_display ownerKey))
  | template project lockKey fingerprint parent state createdAt =>
    have h : Denotes (fields (.template project lockKey fingerprint parent state createdAt))
        (.template project lockKey fingerprint ((parent.map fun p => (p.toHex, p)).map Prod.snd) state createdAt) := by
      refine .template ?_ (parseU64_eq_some.mp (parseU64_display createdAt))
        (parseI64_eq_some.mp (parseI64_display lockKey)) (denotesHex_toHex fingerprint) fun p hp => ?_
      · -- the time stands last, and is read third
        rw [Option.map_map]
        show (([_, _] ++ [_, _]) ++ _ ++ ([_] ++ [_])).Perm ([_, _] ++ ([_] ++ ([_, _] ++ _ ++ [_])))
        rw [List.append_assoc, List.append_assoc, List.append_assoc]
        refine List.Perm.append_left _ ?_
        rw [← List.append_assoc, ← List.append_assoc _ [_] [_]]
        exact List.perm_append_comm
      · obtain ⟨f, _, rfl⟩ := Option.map_eq_some_iff.mp hp
        exact denotesHex_toHex f
    rw [Option.map_map] at h
    rwa [show (Prod.snd ∘ fun p : TemplateFingerprint => (p.toHex, p)) = id from rfl, Option.map_id_apply] at h

theorem parse_encode (m : ResourceMetadata) : parse m.encode = some m :=
  parse_eq_some.mpr ⟨m.fields, rfl, m.fields_separated, m.fields_denotes⟩

end ResourceMetadata

/-! ### Order and completeness of fields -/

theorem Denotes.of_perm {fields other : Fields} {m : ResourceMetadata} (hperm : other.Perm fields)
    (h : Denotes fields m) : Denotes other m := by
  cases h with
  | test hfields hcreated howner => exact .test (hperm.trans hfields) hcreated howner
  | template hfields hcreated hlock hhex hparent =>
    exact .template (hperm.trans hfields) hcreated hlock hhex hparent

/-- The names of the fields of a kind. -/
def ResourceMetadata.fieldNames : ResourceMetadata → List Text
  | .test .. => ["kind".toList, "project".toList, "created".toList, "owner".toList]
  | .template _ _ _ none _ _ => ["kind".toList, "project".toList, "created".toList, "lock".toList,
      "fingerprint".toList, "state".toList]
  | .template _ _ _ (some _) _ _ => ["kind".toList, "project".toList, "created".toList, "lock".toList,
      "fingerprint".toList, "parent".toList, "state".toList]

theorem Denotes.names {fields : Fields} {m : ResourceMetadata} (h : Denotes fields m) :
    (fields.map Prod.fst).Perm m.fieldNames := by
  cases h with
  | test hperm => exact hperm.map Prod.fst
  | @template _ _ _ _ parent _ _ _ _ hperm =>
    cases parent
    · exact hperm.map Prod.fst
    · exact hperm.map Prod.fst

theorem render_injective {fields other : Fields} (h : Separated fields) (hother : Separated other)
    (heq : render fields = render other) : fields = other := by
  have hsplit := congrArg (List.splitOn ';') heq
  rw [splitOn_render h, splitOn_render hother, List.cons.injEq] at hsplit
  have hbody : ∀ {f : Text × Text}, '=' ∉ f.1 → splitOnce '=' (fieldBody f) = some f := fun hf =>
    splitOnce_eq_some.mpr ⟨rfl, hf⟩
  have hmap : ∀ {l : Fields}, Separated l → (l.map fieldBody).map (splitOnce '=') = l.map some := by
    intro l hl
    rw [List.map_map]
    exact List.map_congr_left fun f hf => hbody (hl f hf).1
  have := congrArg (List.map (splitOnce '=')) hsplit.2
  rw [hmap h, hmap hother] at this
  exact List.map_injective_iff.mpr (fun _ _ h => Option.some.inj h) this

theorem metadata_format :
    (∀ m : ResourceMetadata, ResourceMetadata.parse m.encode = some m) ∧
    (∀ (s : Text) (m : ResourceMetadata), ResourceMetadata.parse s = some m ↔
      ∃ fields, s = render fields ∧ Separated fields ∧ Denotes fields m) ∧
    (∀ fields other : Fields, Separated fields → fields.Perm other →
      ResourceMetadata.parse (render fields) = ResourceMetadata.parse (render other)) ∧
    (∀ (fields : Fields) (m : ResourceMetadata), Separated fields →
      ResourceMetadata.parse (render fields) = some m → (fields.map Prod.fst).Perm m.fieldNames) := by
  have hread : ∀ {fields : Fields} {m : ResourceMetadata}, Separated fields →
      (ResourceMetadata.parse (render fields) = some m ↔ Denotes fields m) := by
    intro fields m hseparated
    rw [parse_eq_some]
    constructor
    · intro hparts
      obtain ⟨other, heq, hother, hdenotes⟩ := hparts
      rwa [render_injective hseparated hother heq]
    · exact fun hdenotes => ⟨fields, rfl, hseparated, hdenotes⟩
  refine ⟨ResourceMetadata.parse_encode, fun s m => parse_eq_some, fun fields other hfields hperm => ?_,
    fun fields m hfields h => ((hread hfields).mp h).names⟩
  have hother : Separated other := fun f hf => hfields f (hperm.mem_iff.mpr hf)
  refine Option.ext fun m => ?_
  rw [hread hfields, hread hother]
  exact ⟨Denotes.of_perm hperm.symm, Denotes.of_perm hperm⟩

end PostgresTestHarness
