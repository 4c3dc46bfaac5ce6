import Mathlib.Data.List.Infix

/-! UTF-8 that may be broken, read as text.

`decode` replaces what is no character by U+FFFD, one for each longest beginning of a
character, as Unicode recommends. Whatever is replaced, the ASCII characters of a text are
the ASCII bytes it is read from, in their places, so that one can look for an ASCII phrase in
either (`infix_iff`). -/
namespace Utf8Lossy

def between (low high : Nat) (b : UInt8) : Bool := decide (low ≤ b.toNat ∧ b.toNat ≤ high)

def isContinuation (b : UInt8) : Bool := between 0x80 0xBF b

/-- What may follow the first byte of a character of three bytes: no overlong form, no surrogate. -/
def secondOfThree (first second : UInt8) : Bool :=
  if first.toNat = 0xE0 then between 0xA0 0xBF second
  else if first.toNat = 0xED then between 0x80 0x9F second
  else isContinuation second

/-- And of four: no overlong form, nothing beyond U+10FFFF. -/
def secondOfFour (first second : UInt8) : Bool :=
  if first.toNat = 0xF0 then between 0x90 0xBF second
  else if first.toNat = 0xF4 then between 0x80 0x8F second
  else isContinuation second

def replacement : Char := '\uFFFD'

def low (b : UInt8) : Nat := b.toNat % 64

/-- The character of two bytes. -/
def scanTwo (a : UInt8) : List UInt8 → Char × List UInt8
  | b :: rest => if isContinuation b then (Char.ofNat ((a.toNat - 0xC0) * 64 + low b), rest) else (replacement, b :: rest)
  | [] => (replacement, [])

def scanThree (a : UInt8) : List UInt8 → Char × List UInt8
  | b :: c :: rest =>
    if secondOfThree a b then
      if isContinuation c then (Char.ofNat ((a.toNat - 0xE0) * 4096 + low b * 64 + low c), rest)
      else (replacement, c :: rest)
    else (replacement, b :: c :: rest)
  | [b] => (replacement, if secondOfThree a b then [] else [b])
  | [] => (replacement, [])

def scanFour (a : UInt8) : List UInt8 → Char × List UInt8
  | b :: c :: d :: rest =>
    if secondOfFour a b then
      if isContinuation c then
        if isContinuation d then
          (Char.ofNat ((a.toNat - 0xF0) * 262144 + low b * 4096 + low c * 64 + low d), rest)
        else (replacement, d :: rest)
      else (replacement, c :: d :: rest)
    else (replacement, b :: c :: d :: rest)
  | [b, c] => (replacement, if secondOfFour a b then if isContinuation c then [] else [c] else [b, c])
  | [b] => (replacement, if secondOfFour a b then [] else [b])
  | [] => (replacement, [])

def isAscii (b : UInt8) : Bool := decide (b.toNat < 0x80)

/-- The first character of a text, and what follows it. -/
def scan (a : UInt8) (rest : List UInt8) : Char × List UInt8 :=
  if isAscii a then (Char.ofNat a.toNat, rest)
  else if between 0xC2 0xDF a then scanTwo a rest
  else if between 0xE0 0xEF a then scanThree a rest
  else if between 0xF0 0xF4 a then scanFour a rest
  else (replacement, rest)

def decodeWith : Nat → List UInt8 → List Char
  | 0, _ => []
  | _, [] => []
  | n + 1, a :: rest => (scan a rest).1 :: decodeWith n (scan a rest).2

def decode (bytes : List UInt8) : List Char := decodeWith bytes.length bytes

example : decode [0x61, 0xE2, 0x82, 0x62, 0xC0, 0xAF, 0xC3, 0xA9] = ['a', replacement, 'b', replacement, replacement, 'é'] := by
  decide

/-! ### What a character is read from -/

/-- A scan that starts behind a byte that is not ASCII: it takes no ASCII byte, and what it
makes of the others is not ASCII. -/
structure Wide (rest : List UInt8) (p : Char × List UInt8) : Prop where
  taken : ∃ block, rest = block ++ p.2 ∧ ∀ b ∈ block, isAscii b = false
  wide : 0x80 ≤ p.1.toNat

theorem wide_replacement (rest : List UInt8) : Wide rest (replacement, rest) :=
  ⟨⟨[], rfl, fun _ h => (by cases h)⟩, (by decide : 0x80 ≤ replacement.toNat)⟩

theorem toNat_ofNat {n : Nat} (h : n < 0xD800 ∨ 0xDFFF < n ∧ n < 0x110000) : (Char.ofNat n).toNat = n := by
  rw [Char.ofNat, dif_pos h]
  rfl

theorem wide_char {n : Nat} (h : 0x80 ≤ n) (hvalid : n < 0xD800 ∨ 0xDFFF < n ∧ n < 0x110000) (rest : List UInt8) :
    Wide rest (Char.ofNat n, rest) := by
  refine ⟨⟨[], rfl, fun _ h => (by cases h)⟩, ?_⟩
  show 0x80 ≤ (Char.ofNat n).toNat
  rw [toNat_ofNat hvalid]
  exact h

theorem Wide.cons {b : UInt8} {rest : List UInt8} {p : Char × List UInt8} (h : Wide rest p) (hb : 0x80 ≤ b.toNat) :
    Wide (b :: rest) p := by
  obtain ⟨block, rfl, hblock⟩ := h.taken
  refine ⟨⟨b :: block, rfl, fun x hx => ?_⟩, h.wide⟩
  obtain rfl | hx := List.mem_cons.mp hx
  · exact decide_eq_false (Nat.not_lt_of_le hb)
  · exact hblock x hx

theorem between_eq {low high : Nat} {b : UInt8} : between low high b = true ↔ low ≤ b.toNat ∧ b.toNat ≤ high :=
  decide_eq_true_iff

theorem secondOfThree_eq {a b : UInt8} (h : secondOfThree a b = true) : 128 ≤ b.toNat ∧ b.toNat ≤ 191 ∧
    (a.toNat = 224 → 160 ≤ b.toNat) ∧ (a.toNat = 237 → b.toNat ≤ 159) := by
  unfold secondOfThree isContinuation at h
  split_ifs at h with hlow hhigh <;> rw [between_eq] at h <;> omega

theorem secondOfFour_eq {a b : UInt8} (h : secondOfFour a b = true) : 128 ≤ b.toNat ∧ b.toNat ≤ 191 ∧
    (a.toNat = 240 → 144 ≤ b.toNat) ∧ (a.toNat = 244 → b.toNat ≤ 143) := by
  unfold secondOfFour isContinuation at h
  split_ifs at h with hlow hhigh <;> rw [between_eq] at h <;> omega

theorem wide_two {a : UInt8} (ha : between 0xC2 0xDF a = true) (rest : List UInt8) : Wide rest (scanTwo a rest) := by
  rw [between_eq] at ha
  cases rest with
  | nil => exact wide_replacement []
  | cons b rest =>
    rw [scanTwo]
    by_cases hb : isContinuation b = true
    · rw [if_pos hb]
      have hb := between_eq.mp hb
      refine (wide_char ?_ ?_ rest).cons hb.1
      all_goals
        unfold low
        omega
    · rw [if_neg hb]
      exact wide_replacement _

theorem wide_three {a : UInt8} (ha : between 0xE0 0xEF a = true) (rest : List UInt8) : Wide rest (scanThree a rest) := by
  rw [between_eq] at ha
  cases rest with
  | nil => exact wide_replacement []
  | cons b rest =>
    by_cases hb : secondOfThree a b = true
    · have hsecond := secondOfThree_eq hb
      cases rest with
      | nil =>
        rw [scanThree, if_pos hb]
        exact (wide_replacement []).cons hsecond.1
      | cons c rest =>
        rw [scanThree, if_pos hb]
        by_cases hc : isContinuation c = true
        · rw [if_pos hc]
          have hc := between_eq.mp hc
          refine ((wide_char ?_ ?_ rest).cons hc.1).cons hsecond.1
          all_goals
            unfold low
            omega
        · rw [if_neg hc]
          exact (wide_replacement _).cons hsecond.1
    · cases rest <;> rw [scanThree, if_neg hb] <;> exact wide_replacement _

theorem wide_four {a : UInt8} (ha : between 0xF0 0xF4 a = true) (rest : List UInt8) : Wide rest (scanFour a rest) := by
  rw [between_eq] at ha
  cases rest with
  | nil => exact wide_replacement []
  | cons b rest =>
    by_cases hb : secondOfFour a b = true
    · have hsecond := secondOfFour_eq hb
      cases rest with
      | nil =>
        rw [scanFour, if_pos hb]
        exact (wide_replacement []).cons hsecond.1
      | cons c rest =>
        by_cases hc : isContinuation c = true
        · have hthird := between_eq.mp hc
          cases rest with
          | nil =>
            rw [scanFour, if_pos hb, if_pos hc]
            exact ((wide_replacement []).cons hthird.1).cons hsecond.1
          | cons d rest =>
            rw [scanFour, if_pos hb, if_pos hc]
            by_cases hd : isContinuation d = true
            · rw [if_pos hd]
              have hd := between_eq.mp hd
              refine (((wide_char ?_ ?_ rest).cons hd.1).cons hthird.1).cons hsecond.1
              all_goals
                unfold low
                omega
            · rw [if_neg hd]
              exact ((wide_replacement _).cons hthird.1).cons hsecond.1
        · cases rest <;> rw [scanFour, if_pos hb, if_neg hc] <;> exact (wide_replacement _).cons hsecond.1
    · cases rest with
      | nil =>
        rw [scanFour, if_neg hb]
        exact wide_replacement _
      | cons c rest => cases rest <;> rw [scanFour, if_neg hb] <;> exact wide_replacement _

theorem wide_scan {a : UInt8} (ha : isAscii a = false) (rest : List UInt8) : Wide rest (scan a rest) := by
  rw [scan, if_neg (by simp [ha])]
  split_ifs with htwo hthree hfour
  · exact wide_two htwo rest
  · exact wide_three hthree rest
  · exact wide_four hfour rest
  · exact wide_replacement rest

/-- A text with the bytes it is read from: an ASCII character from its byte, any other from
bytes that are not ASCII. -/
inductive Reads : List UInt8 → List Char → Prop where
  | nil : Reads [] []
  | ascii {b : UInt8} {bytes : List UInt8} {text : List Char} (plain : isAscii b = true) (rest : Reads bytes text) :
      Reads (b :: bytes) (Char.ofNat b.toNat :: text)
  | wide {a : UInt8} {block bytes : List UInt8} {c : Char} {text : List Char} (high : 0x80 ≤ c.toNat)
      (first : isAscii a = false) (others : ∀ b ∈ block, isAscii b = false) (rest : Reads bytes text) :
      Reads (a :: (block ++ bytes)) (c :: text)

theorem reads_decodeWith {n : Nat} {bytes : List UInt8} (h : bytes.length ≤ n) : Reads bytes (decodeWith n bytes) := by
  induction n generalizing bytes with
  | zero =>
    rw [List.eq_nil_of_length_eq_zero (Nat.le_zero.mp h)]
    exact .nil
  | succ n ih =>
    cases bytes with
    | nil => exact .nil
    | cons a rest =>
      rw [decodeWith]
      have hrest := Nat.le_of_succ_le_succ h
      cases ha : isAscii a with
      | true =>
        rw [scan, if_pos ha]
        exact .ascii ha (ih hrest)
      | false =>
        have hwide := wide_scan ha rest
        obtain ⟨block, hblock, hothers⟩ := hwide.taken
        have hlength := congrArg List.length hblock
        rw [List.length_append] at hlength
        have hread := @ih (scan a rest).2 (by omega)
        have hwhole := Reads.wide hwide.wide ha hothers hread
        rwa [← hblock] at hwhole

theorem reads_decode (bytes : List UInt8) : Reads bytes (decode bytes) := reads_decodeWith (Nat.le_refl _)

/-! ### Phrases -/

/-- The byte of an ASCII character. -/
def byte (c : Char) : UInt8 := UInt8.ofNat c.toNat

def Ascii (phrase : List Char) : Prop := ∀ c ∈ phrase, c.toNat < 0x80

theorem byte_toNat {c : Char} (h : c.toNat < 0x80) : (byte c).toNat = c.toNat :=
  UInt8.toNat_ofNat_of_lt' (Nat.lt_trans h (by decide))

theorem isAscii_byte {c : Char} (h : c.toNat < 0x80) : isAscii (byte c) = true := by
  rw [isAscii, byte_toNat h, decide_eq_true h]

theorem byte_eq_iff {c : Char} (h : c.toNat < 0x80) {b : UInt8} (hb : isAscii b = true) :
    byte c = b ↔ c = Char.ofNat b.toNat := by
  have hb := of_decide_eq_true hb
  have hchar : (Char.ofNat b.toNat).toNat = b.toNat := toNat_ofNat (Or.inl (by omega))
  rw [← UInt8.toNat_inj, byte_toNat h, ← Char.toNat_inj, hchar]

theorem Reads.prefix_iff {bytes : List UInt8} {text phrase : List Char} (hr : Reads bytes text) (h : Ascii phrase) :
    phrase <+: text ↔ phrase.map byte <+: bytes := by
  induction phrase generalizing bytes text with
  | nil => exact iff_of_true (List.nil_prefix) (List.nil_prefix)
  | cons c phrase ih =>
    have hc := h c List.mem_cons_self
    have hphrase : Ascii phrase := fun d hd => h d (List.mem_cons_of_mem c hd)
    rw [List.map_cons]
    cases hr with
    | nil => exact iff_of_false (fun h => by simp at h) fun h => by simp at h
    | ascii plain rest =>
      rw [List.cons_prefix_cons, List.cons_prefix_cons, ih rest hphrase, byte_eq_iff hc plain]
    | wide high first others rest =>
      rw [List.cons_prefix_cons, List.cons_prefix_cons]
      refine iff_of_false (fun hstarts => ?_) fun hstarts => ?_
      · rw [hstarts.1] at hc
        exact Nat.not_lt_of_le high hc
      · rw [← hstarts.1, isAscii_byte hc] at first
        cases first

/-- A phrase does not begin among bytes that are not ASCII. -/
theorem infix_behind {phrase : List Char} (h : Ascii phrase) (hne : phrase ≠ []) {block bytes : List UInt8}
    (hblock : ∀ b ∈ block, isAscii b = false) :
    phrase.map byte <:+: block ++ bytes ↔ phrase.map byte <:+: bytes := by
  induction block with
  | nil => exact Iff.rfl
  | cons b block ih =>
    rw [List.cons_append, List.infix_cons_iff, ih fun x hx => hblock x (List.mem_cons_of_mem b hx)]
    refine or_iff_right fun hstarts => ?_
    obtain ⟨c, rest, rfl⟩ := List.exists_cons_of_ne_nil hne
    rw [List.map_cons, List.cons_prefix_cons] at hstarts
    have hb := hblock b List.mem_cons_self
    rw [← hstarts.1, isAscii_byte (h c List.mem_cons_self)] at hb
    cases hb

/-- An ASCII phrase is in a text where it is in the bytes that the text is read from. -/
theorem Reads.infix_iff {bytes : List UInt8} {text phrase : List Char} (hr : Reads bytes text) (h : Ascii phrase) :
    phrase <:+: text ↔ phrase.map byte <:+: bytes := by
  by_cases hne : phrase = []
  · subst hne
    exact iff_of_true List.nil_infix List.nil_infix
  · induction hr with
    | nil => exact iff_of_false (fun h => hne (by simpa using h)) fun h => hne (by simpa using h)
    | ascii plain rest ih =>
      rw [List.infix_cons_iff, List.infix_cons_iff, ih, (Reads.ascii plain rest).prefix_iff h]
    | @wide a block bytes c text high first others rest ih =>
      have hblock : ∀ b ∈ a :: block, isAscii b = false := by
        intro b hb
        obtain rfl | hb := List.mem_cons.mp hb
        · exact first
        · exact others b hb
      have hbehind : phrase.map byte <:+: (a :: block) ++ bytes ↔ phrase.map byte <:+: bytes :=
        infix_behind h hne hblock
      rw [List.cons_append] at hbehind
      rw [hbehind, ← ih, List.infix_cons_iff]
      refine or_iff_right fun hstarts => ?_
      obtain ⟨d, rest, rfl⟩ := List.exists_cons_of_ne_nil hne
      rw [(List.cons_prefix_cons.mp hstarts).1] at h
      exact Nat.not_lt_of_le high (h c List.mem_cons_self)

/-! ### In lower case -/

def lowerByte (b : UInt8) : UInt8 := if between 0x41 0x5A b then b + 32 else b

theorem isAscii_lowerByte (b : UInt8) : isAscii (lowerByte b) = isAscii b := by
  unfold lowerByte
  split
  · rename_i h
    rw [between_eq] at h
    have hsum : (b + 32).toNat = b.toNat + 32 := by
      rw [UInt8.toNat_add]
      exact Nat.mod_eq_of_lt (by simp only [UInt8.reduceToNat]; omega)
    rw [isAscii, isAscii, hsum, decide_eq_decide]
    omega
  · rfl

theorem toLower_wide {c : Char} (h : 0x80 ≤ c.toNat) : c.toLower = c := by
  refine dif_neg fun hupper => ?_
  have hbound : c.toNat ≤ 90 := hupper.2
  omega

theorem toLower_ascii {b : UInt8} (h : isAscii b = true) :
    (Char.ofNat b.toNat).toLower = Char.ofNat (lowerByte b).toNat := by
  have hall : ∀ n < 0x80, (Char.ofNat n).toLower = Char.ofNat (lowerByte (UInt8.ofNat n)).toNat := by decide +kernel
  have hb := hall b.toNat (of_decide_eq_true h)
  rwa [UInt8.ofNat_toNat] at hb

/-- Lower case in the bytes is lower case in the text. -/
theorem Reads.lower {bytes : List UInt8} {text : List Char} (hr : Reads bytes text) :
    Reads (bytes.map lowerByte) (text.map Char.toLower) := by
  induction hr with
  | nil => exact .nil
  | @ascii b bytes text plain rest ih =>
    rw [List.map_cons, List.map_cons, toLower_ascii plain]
    exact .ascii ((isAscii_lowerByte b).trans plain) ih
  | wide high first others rest ih =>
    rw [List.map_cons, List.map_cons, List.map_append, toLower_wide high]
    refine .wide high ((isAscii_lowerByte _).trans first) (fun b hb => ?_) ih
    obtain ⟨x, hx, rfl⟩ := List.mem_map.mp hb
    exact (isAscii_lowerByte x).trans (others x hx)

/-- A phrase is in the decoded text, in lower case, where it is in the bytes in lower case. -/
theorem contains_iff {phrase : List Char} (h : Ascii phrase) (bytes : List UInt8) :
    phrase <:+: (decode bytes).map Char.toLower ↔ phrase.map byte <:+: bytes.map lowerByte :=
  (reads_decode bytes).lower.infix_iff h

end Utf8Lossy
