import Mathlib.Algebra.Ring.Int.Defs
import Mathlib.Algebra.Ring.Nat
import Mathlib.Data.List.Basic

/-! Rust strings.

A `String` is its sequence of Unicode scalar values. `len()` counts UTF-8 bytes, so it
has its own function; a byte test that only ASCII bytes pass (`bytes().all(..)`) is the
same test on characters, since every byte of a longer encoding fails it. -/
namespace PostgresTestHarness

abbrev Text := List Char

instance : LawfulBEq Text := inferInstance

/-- `str::len`: the length of the UTF-8 encoding. -/
def Text.len (s : Text) : Nat := (s.map Char.utf8Size).sum

/-- `str::as_bytes`. -/
def Text.bytes (s : Text) : List UInt8 := s.flatMap String.utf8EncodeChar

/-- `byte.is_ascii_lowercase()`. -/
def isAsciiLowercase (c : Char) : Bool := decide ('a' ≤ c ∧ c ≤ 'z')

/-- `byte.is_ascii_digit()`. -/
def isAsciiDigit (c : Char) : Bool := decide ('0' ≤ c ∧ c ≤ '9')

/-- `split_once(c)`: what stands before and after the first `c`. -/
def splitOnce (c : Char) : Text → Option (Text × Text)
  | [] => none
  | d :: rest => if d = c then some ([], rest) else (splitOnce c rest).map fun (a, b) => (d :: a, b)

/-- `u64` and `i64` digits: at least one, and nothing else. -/
def parseDigits (s : Text) : Option Nat :=
  if !s.isEmpty && s.all isAsciiDigit then some (Nat.ofDigitChars 10 s 0) else none

/-- `str::parse::<u64>` after its sign. -/
def parseMagnitude (s : Text) : Option UInt64 :=
  (parseDigits s).bind fun n => if n < 2 ^ 64 then some (UInt64.ofNat n) else none

/-- `str::parse::<u64>`. -/
def parseU64 : Text → Option UInt64
  | '+' :: rest => parseMagnitude rest
  | s => parseMagnitude s

/-- The sign that `str::parse::<i64>` reads, and what it leaves. -/
def parseSign : Text → Int × Text
  | '-' :: rest => (-1, rest)
  | '+' :: rest => (1, rest)
  | s => (1, s)

/-- `str::parse::<i64>` after its sign. -/
def parseSigned (sign : Int) (digits : Text) : Option Int64 :=
  (parseDigits digits).bind fun n =>
    if -2 ^ 63 ≤ sign * n ∧ sign * n < 2 ^ 63 then some (Int64.ofInt (sign * n)) else none

/-- `str::parse::<i64>`. -/
def parseI64 (s : Text) : Option Int64 := parseSigned (parseSign s).1 (parseSign s).2

/-- `u64::to_string`. -/
def displayU64 (n : UInt64) : Text := Nat.toDigits 10 n.toNat

/-- `i64::to_string`. -/
def displayI64 (k : Int64) : Text :=
  if k.toInt < 0 then '-' :: Nat.toDigits 10 k.toInt.natAbs else Nat.toDigits 10 k.toInt.natAbs

theorem Text.length_bytes (s : Text) : s.bytes.length = s.len := by
  rw [bytes, List.length_flatMap, len]
  exact congrArg List.sum (List.map_congr_left fun c _ => String.length_utf8EncodeChar c)

theorem Text.bytes_injective : Function.Injective Text.bytes := by
  intro a b h
  have hencoded : a.utf8Encode = b.utf8Encode := congrArg List.toByteArray h
  exact String.ofList_injective (String.toByteArray_inj.mp hencoded)

/-- An ASCII text has one byte for each character. -/
theorem Text.len_of_ascii {s : Text} (h : ∀ c ∈ s, c.val ≤ 0x7f) : s.len = s.length := by
  induction s with
  | nil => rfl
  | cons c rest ih =>
    have hc : c.utf8Size = 1 := if_pos (h c (List.mem_cons_self ..))
    have hrest := ih fun d hd => h d (List.mem_cons_of_mem c hd)
    rw [len] at hrest ⊢
    rw [List.map_cons, List.sum_cons, hc, hrest, List.length_cons, Nat.add_comm]

theorem splitOnce_eq_some {c : Char} {s a b : Text} :
    splitOnce c s = some (a, b) ↔ s = a ++ c :: b ∧ c ∉ a := by
  induction s generalizing a with
  | nil => simp [splitOnce]
  | cons d rest ih =>
    rw [splitOnce]
    split
    · rename_i hdc
      cases a with
      | nil => simp [hdc]
      | cons e tail =>
        simp only [Option.some.injEq, Prod.mk.injEq, List.cons_append, List.cons.injEq, List.mem_cons, not_or]
        constructor
        · intro hparts
          obtain ⟨h, _⟩ := hparts
          cases h
        · intro hparts
          obtain ⟨⟨hde, _⟩, hce, _⟩ := hparts
          exact absurd (hdc.symm.trans hde) hce
    · rename_i hdc
      rw [Option.map_eq_some_iff]
      cases a with
      | nil =>
        simp only [List.nil_append, List.cons.injEq, hdc, false_and, iff_false]
        intro hparts
        obtain ⟨_, _, h⟩ := hparts
        cases h
      | cons e tail =>
        simp only [Prod.mk.injEq, List.cons.injEq, List.cons_append, List.mem_cons, not_or]
        constructor
        · intro hparts
          obtain ⟨⟨x, y⟩, hxy, ⟨rfl, rfl⟩, rfl⟩ := hparts
          obtain ⟨hrest, hmem⟩ := ih.mp hxy
          exact ⟨⟨rfl, hrest⟩, Ne.symm hdc, hmem⟩
        · intro hparts
          obtain ⟨⟨hde, hrest⟩, _, hmem⟩ := hparts
          exact ⟨(tail, b), ih.mpr ⟨hrest, hmem⟩, ⟨hde, rfl⟩, rfl⟩

theorem isAsciiDigit_eq (c : Char) : isAsciiDigit c = c.isDigit := by
  rw [isAsciiDigit, Char.isDigit, Bool.decide_and]
  rfl

/-- Decimal digits, and the number they denote. -/
structure IsDecimal (s : Text) (n : Nat) : Prop where
  nonempty : s ≠ []
  digits : ∀ c ∈ s, isAsciiDigit c = true
  value : Nat.ofDigitChars 10 s 0 = n

theorem parseDigits_eq_some {s : Text} {n : Nat} : parseDigits s = some n ↔ IsDecimal s n := by
  rw [parseDigits, Option.ite_none_right_eq_some, Option.some.injEq, Bool.and_eq_true, Bool.not_eq_true',
    List.isEmpty_eq_false_iff, List.all_eq_true]
  exact ⟨fun ⟨⟨hne, hall⟩, hn⟩ => ⟨hne, hall, hn⟩, fun ⟨hne, hall, hn⟩ => ⟨⟨hne, hall⟩, hn⟩⟩

theorem isDecimal_toDigits (n : Nat) : IsDecimal (Nat.toDigits 10 n) n := by
  refine ⟨Nat.toDigits_ne_nil, fun c hc => ?_, Nat.ofDigitChars_ten_toDigits⟩
  rw [isAsciiDigit_eq]
  exact Nat.isDigit_of_mem_toDigits (by decide) (by decide) hc

/-- A digit is no sign. -/
theorem IsDecimal.unsigned {s : Text} {n : Nat} (h : IsDecimal s n) (c : Char)
    (hc : isAsciiDigit c = false) (rest : Text) : s ≠ c :: rest := by
  intro heq
  obtain rfl := heq
  rw [h.digits c (List.mem_cons_self ..)] at hc
  cases hc

theorem parseMagnitude_eq_some {s : Text} {n : UInt64} :
    parseMagnitude s = some n ↔ IsDecimal s n.toNat := by
  rw [parseMagnitude, Option.bind_eq_some_iff]
  constructor
  · intro hparts
    obtain ⟨m, hm, hn⟩ := hparts
    rw [Option.ite_none_right_eq_some, Option.some.injEq] at hn
    obtain ⟨hlt, rfl⟩ := hn
    rw [UInt64.toNat_ofNat_of_lt' hlt]
    exact parseDigits_eq_some.mp hm
  · intro h
    refine ⟨n.toNat, parseDigits_eq_some.mpr h, ?_⟩
    rw [if_pos n.toNat_lt, UInt64.ofNat_toNat]

/-- What `str::parse::<u64>` reads: decimal digits, after one plus sign at most. -/
theorem parseU64_eq_some {s : Text} {n : UInt64} : parseU64 s = some n ↔
    ∃ sign digits, s = sign ++ digits ∧ (sign = [] ∨ sign = ['+']) ∧ IsDecimal digits n.toNat := by
  rw [parseU64.eq_def]
  split
  · rename_i rest
    rw [parseMagnitude_eq_some]
    constructor
    · exact fun h => ⟨['+'], rest, rfl, Or.inr rfl, h⟩
    · intro hparts
      obtain ⟨sign, digits, hs, rfl | rfl, h⟩ := hparts
      · exact absurd hs.symm (h.unsigned '+' rfl rest)
      · exact List.tail_eq_of_cons_eq hs ▸ h
  · rename_i hs
    rw [parseMagnitude_eq_some]
    constructor
    · exact fun h => ⟨[], s, rfl, Or.inl rfl, h⟩
    · intro hparts
      obtain ⟨sign, digits, rfl, rfl | rfl, h⟩ := hparts
      · exact h
      · exact absurd rfl (hs digits)

/-- What `parseSign` takes off: nothing, or one sign. -/
theorem parseSign_cases (s : Text) : ∃ sign, s = sign ++ (parseSign s).2 ∧
    ((sign = ['-'] ∧ (parseSign s).1 = -1) ∨ ((sign = [] ∨ sign = ['+']) ∧ (parseSign s).1 = 1)) := by
  rw [parseSign.eq_def]
  split
  · exact ⟨['-'], rfl, Or.inl ⟨rfl, rfl⟩⟩
  · exact ⟨['+'], rfl, Or.inr ⟨Or.inr rfl, rfl⟩⟩
  · exact ⟨[], rfl, Or.inr ⟨Or.inl rfl, rfl⟩⟩

theorem parseSign_digits {s : Text} {n : Nat} (h : IsDecimal s n) : parseSign s = (1, s) := by
  rw [parseSign.eq_def]
  split
  · exact absurd rfl (h.unsigned '-' rfl _)
  · exact absurd rfl (h.unsigned '+' rfl _)
  · rfl

theorem parseSigned_eq_some {sign : Int} {digits : Text} {k : Int64} :
    parseSigned sign digits = some k ↔ ∃ n, IsDecimal digits n ∧ k.toInt = sign * n := by
  rw [parseSigned, Option.bind_eq_some_iff]
  refine exists_congr fun n => ?_
  rw [parseDigits_eq_some, Option.ite_none_right_eq_some, Option.some.injEq]
  refine and_congr_right fun _ => ?_
  constructor
  · intro hparts
    obtain ⟨⟨hle, hlt⟩, rfl⟩ := hparts
    exact Int64.toInt_ofInt_of_le hle hlt
  · intro h
    rw [← h]
    exact ⟨⟨Int64.le_toInt k, Int64.toInt_lt k⟩, Int64.ofInt_toInt k⟩

/-- What `str::parse::<i64>` reads: decimal digits, after one sign at most. -/
theorem parseI64_eq_some {s : Text} {k : Int64} : parseI64 s = some k ↔
    ∃ sign digits n, s = sign ++ digits ∧ IsDecimal digits n ∧
      ((sign = ['-'] ∧ k.toInt = -n) ∨ ((sign = [] ∨ sign = ['+']) ∧ k.toInt = n)) := by
  rw [parseI64, parseSigned_eq_some]
  constructor
  · intro hparts
    obtain ⟨n, hn, hk⟩ := hparts
    obtain ⟨sign, hs, hsign⟩ := parseSign_cases s
    refine ⟨sign, _, n, hs, hn, hsign.imp (fun h => ⟨h.1, ?_⟩) fun h => ⟨h.1, ?_⟩⟩
    · rw [hk, h.2, Int.neg_one_mul]
    · rw [hk, h.2, Int.one_mul]
  · intro hparts
    obtain ⟨sign, digits, n, rfl, hn, ⟨rfl, hk⟩ | ⟨rfl | rfl, hk⟩⟩ := hparts
    · exact ⟨n, hn, by rw [hk]; exact (Int.neg_one_mul _).symm⟩
    · rw [List.nil_append, parseSign_digits hn]
      exact ⟨n, hn, by rw [hk, Int.one_mul]⟩
    · exact ⟨n, hn, by rw [hk]; exact (Int.one_mul _).symm⟩

theorem parseU64_display (n : UInt64) : parseU64 (displayU64 n) = some n :=
  parseU64_eq_some.mpr ⟨[], _, rfl, Or.inl rfl, isDecimal_toDigits _⟩

theorem parseI64_display (k : Int64) : parseI64 (displayI64 k) = some k := by
  rw [displayI64, parseI64_eq_some]
  split
  · exact ⟨['-'], _, _, rfl, isDecimal_toDigits _, Or.inl ⟨rfl, by omega⟩⟩
  · exact ⟨[], _, _, rfl, isDecimal_toDigits _, Or.inr ⟨Or.inl rfl, by omega⟩⟩

/-- A number is written without the characters that a record's fields are cut at. -/
theorem displayI64_mem {k : Int64} {c : Char} (h : c ∈ displayI64 k) : c = '-' ∨ isAsciiDigit c = true := by
  rw [displayI64] at h
  split at h
  · exact (List.mem_cons.mp h).imp id ((isDecimal_toDigits _).digits c)
  · exact Or.inr ((isDecimal_toDigits _).digits c h)

theorem displayU64_mem {n : UInt64} {c : Char} (h : c ∈ displayU64 n) : isAsciiDigit c = true :=
  (isDecimal_toDigits _).digits c h

end PostgresTestHarness
