import Mathlib.Algebra.Ring.Nat
import Mathlib.Data.List.TakeDrop

/-! The lexical structure of SQL, as PostgreSQL reads it with `standard_conforming_strings` on.

A text is a list of tokens and a semicolon ends a statement. Between quotes a doubled quote
stands for itself (`scanQuoted`); string constants with nothing but blank space and comments
between them, and a newline among it, are one constant (`continuation`); an identifier loses
what exceeds 63 bytes (`clip`). Outside quotes only words and punctuation are read here:
a text with a comment, a number, an operator, a dollar quote or a prefixed constant there is
refused.

`Part` is the other way: what one writes to get a token. A rendered list of parts is one
statement of exactly their tokens (`statements_render`). -/
namespace Sql

inductive Token where
  /-- A keyword or a plain identifier, in lower case. -/
  | word (name : List Char)
  /-- A delimited identifier. -/
  | identifier (name : List Char)
  /-- A string constant. -/
  | literal (value : List Char)
  | symbol (c : Char)
  deriving DecidableEq

/-! ### Characters -/

def isNewline (c : Char) : Bool := c == '\n' || c == '\r'

def isBlank (c : Char) : Bool := isNewline c || c == ' ' || c == '\t' || c == '\x0b' || c == '\x0c'

def isWordStart (c : Char) : Bool := c.isAlpha || c == '_' || decide (0x80 ≤ c.toNat)

def isWordChar (c : Char) : Bool := isWordStart c || c.isDigit || c == '$'

def isPunctuation (c : Char) : Bool := c == '(' || c == ')' || c == ',' || c == ';' || c == '.'

/-! ### Scanning -/

/-- After an opening quote: what stands between the quotes, and what follows them. -/
def scanQuoted (q : Char) : List Char → Option (List Char × List Char)
  | [] => none
  | [c] => if c = q then some ([], []) else none
  | c :: d :: rest =>
    if c = q then
      if d = q then (scanQuoted q rest).map fun p => (q :: p.1, p.2) else some ([], d :: rest)
    else (scanQuoted q (d :: rest)).map fun p => (c :: p.1, p.2)

/-- After a closing quote: where the string constant goes on, if it does. The flags say that
this is inside a `--` comment, and that a newline has been seen. -/
def continuation : Bool → Bool → List Char → Option (List Char)
  | _, _, [] => none
  | true, newline, c :: rest => continuation (!isNewline c) (newline || isNewline c) rest
  | false, newline, c :: rest =>
    if c = '\'' then if newline then some rest else none
    else if isBlank c then continuation false (newline || isNewline c) rest
    else if c = '-' ∧ rest.head? = some '-' then continuation true newline rest
    else none

/-- A string constant after its opening quote, in at most so many parts. -/
def scanParts : Nat → List Char → Option (List Char × List Char)
  | 0, _ => none
  | n + 1, text => (scanQuoted '\'' text).bind fun p =>
    match continuation false false p.2 with
    | none => some p
    | some next => (scanParts n next).map fun more => (p.1 ++ more.1, more.2)

/-- The string constant that a text begins with, and what follows it. -/
def scanLiteral : List Char → Option (List Char × List Char)
  | '\'' :: text => scanParts (text.length + 1) text
  | _ => none

/-- As much of an identifier as fits in this many bytes. -/
def clip : Nat → List Char → List Char
  | _, [] => []
  | room, c :: rest => if c.utf8Size ≤ room then c :: clip (room - c.utf8Size) rest else []

/-- `truncate_identifier`. -/
def truncateIdentifier (name : List Char) : List Char := clip 63 name

/-- Whether a word may be the prefix of a constant or an identifier that starts here. -/
def opensQuote (after : List Char) : Bool := after.head?.any fun c => c == '\'' || c == '"' || c == '&'

/-- What a text starts with, a token or blank space, and what follows it. -/
def scanToken (c : Char) (rest : List Char) : Option (Option Token × List Char) :=
  if isBlank c then some (none, rest)
  else if c = '\'' then (scanLiteral (c :: rest)).map fun p => (some (.literal p.1), p.2)
  else if c = '"' then (scanQuoted c rest).bind fun p =>
    if p.1 = [] then none else some (some (.identifier (truncateIdentifier p.1)), p.2)
  else if isWordStart c then
    let word := c :: rest.takeWhile isWordChar
    let after := rest.dropWhile isWordChar
    if opensQuote after then none
    else some (some (.word (truncateIdentifier (word.map Char.toLower))), after)
  else if isPunctuation c then some (some (.symbol c), rest)
  else none

def scan : Nat → List Char → Option (List Token)
  | _, [] => some []
  | 0, _ :: _ => none
  | n + 1, c :: rest => (scanToken c rest).bind fun p => (scan n p.2).map fun more => p.1.toList ++ more

def tokens (text : List Char) : Option (List Token) := scan text.length text

/-- The statements of a text, each with its tokens; an empty one is none. -/
def statements (text : List Char) : Option (List (List Token)) :=
  (tokens text).map fun all => (all.splitOn (.symbol ';')).filter fun s => !s.isEmpty

/-! ### Every scan moves forward -/

theorem scanQuoted_length {q : Char} {text : List Char} {p : List Char × List Char}
    (h : scanQuoted q text = some p) : p.2.length < text.length := by
  fun_induction scanQuoted q text generalizing p with
  | case1 => cases h
  | case2 =>
    cases h
    exact Nat.zero_lt_one
  | case3 => cases h
  | case4 rest ih =>
    rw [Option.map_eq_some_iff] at h
    obtain ⟨inner, hinner, rfl⟩ := h
    have hforward := ih hinner
    exact Nat.lt_succ_of_lt (Nat.lt_succ_of_lt hforward)
  | case5 d rest hd =>
    cases h
    exact Nat.lt_succ_self _
  | case6 c d rest hc ih =>
    rw [Option.map_eq_some_iff] at h
    obtain ⟨inner, hinner, rfl⟩ := h
    have hforward := ih hinner
    exact Nat.lt_succ_of_lt hforward

theorem continuation_length {comment newline : Bool} {text next : List Char}
    (h : continuation comment newline text = some next) : next.length < text.length := by
  fun_induction continuation comment newline text with
  | case1 => cases h
  | case2 newline c rest ih => exact Nat.lt_succ_of_lt (ih h)
  | case3 =>
    cases h
    exact Nat.lt_succ_self _
  | case4 => cases h
  | case5 newline c rest hq hblank ih => exact Nat.lt_succ_of_lt (ih h)
  | case6 newline c rest hq hblank hdash ih => exact Nat.lt_succ_of_lt (ih h)
  | case7 => cases h

theorem scanParts_length {n : Nat} {text : List Char} {p : List Char × List Char}
    (h : scanParts n text = some p) : p.2.length < text.length := by
  induction n generalizing text p with
  | zero => cases h
  | succ n ih =>
    rw [scanParts, Option.bind_eq_some_iff] at h
    obtain ⟨part, hpart, h⟩ := h
    have hforward := scanQuoted_length hpart
    cases hnext : continuation false false part.2 with
    | none =>
      rw [hnext, Option.some.injEq] at h
      exact h ▸ hforward
    | some next =>
      rw [hnext, Option.map_eq_some_iff] at h
      obtain ⟨more, hmore, rfl⟩ := h
      have hlater := ih hmore
      exact Nat.lt_trans hlater (Nat.lt_trans (continuation_length hnext) hforward)

theorem scanToken_length {c : Char} {rest : List Char} {p : Option Token × List Char}
    (h : scanToken c rest = some p) : p.2.length ≤ rest.length := by
  unfold scanToken at h
  split_ifs at h with hblank hquote hdelimiter hword
  · cases h
    exact Nat.le_refl _
  · rw [Option.map_eq_some_iff, hquote] at h
    obtain ⟨literal, hliteral, rfl⟩ := h
    exact Nat.le_of_lt (scanParts_length hliteral)
  · rw [Option.bind_eq_some_iff] at h
    obtain ⟨name, hname, h⟩ := h
    split_ifs at h
    cases h
    exact Nat.le_of_lt (scanQuoted_length hname)
  · rw [Option.ite_none_left_eq_some, Option.some.injEq] at h
    obtain ⟨-, rfl⟩ := h
    exact (List.dropWhile_suffix isWordChar).length_le
  · cases h
    exact Nat.le_refl _

/-- More steps than characters change nothing. -/
theorem scan_eq {n : Nat} {text : List Char} (h : text.length ≤ n) : scan n text = tokens text := by
  have step : ∀ m k, ∀ text : List Char, text.length ≤ m → text.length ≤ k → scan m text = scan k text := by
    intro m
    induction m with
    | zero =>
      intro k text hm _
      rw [List.eq_nil_of_length_eq_zero (Nat.le_zero.mp hm), scan, scan]
    | succ m ih =>
      intro k text hm hk
      cases text with
      | nil => rw [scan, scan]
      | cons c rest =>
        cases k with
        | zero => cases hk
        | succ k =>
          rw [scan, scan]
          refine Option.bind_congr fun p hp => ?_
          have hforward := scanToken_length hp
          rw [ih k p.2 (Nat.le_trans hforward (Nat.le_of_succ_le_succ hm))
            (Nat.le_trans hforward (Nat.le_of_succ_le_succ hk))]
  exact step n text.length text h (Nat.le_refl _)

/-- The first token of a text, and then the rest. -/
theorem tokens_cons {c : Char} {rest after : List Char} {t : Option Token}
    (h : scanToken c rest = some (t, after)) :
    tokens (c :: rest) = (tokens after).map fun more => t.toList ++ more := by
  rw [tokens, List.length_cons, scan, h, Option.bind_some, scan_eq (scanToken_length h)]

/-! ### Quoted text -/

/-- A text with every quote doubled. -/
def doubled (q : Char) (v : List Char) : List Char := v.flatMap fun c => if c = q then [q, q] else [c]

theorem doubled_cons (q c : Char) (v : List Char) :
    doubled q (c :: v) = (if c = q then [q, q] else [c]) ++ doubled q v := List.flatMap_cons

theorem doubled_of_not_mem {q : Char} {v : List Char} (h : q ∉ v) : doubled q v = v := by
  induction v with
  | nil => rfl
  | cons c v ih =>
    have hc : c ≠ q := fun hc => h (hc ▸ List.mem_cons_self)
    rw [doubled_cons, if_neg hc, ih fun hmem => h (List.mem_cons_of_mem c hmem)]
    rfl

theorem scanQuoted_other {q c : Char} (hc : c ≠ q) (text : List Char) :
    scanQuoted q (c :: text) = (scanQuoted q text).map fun p => (c :: p.1, p.2) := by
  cases text with
  | nil => rw [scanQuoted, scanQuoted, if_neg hc, Option.map_none]
  | cons d rest => rw [scanQuoted, if_neg hc]

theorem scanQuoted_close {q : Char} {rest : List Char} (h : rest.head? ≠ some q) :
    scanQuoted q (q :: rest) = some ([], rest) := by
  cases rest with
  | nil => rw [scanQuoted, if_pos rfl]
  | cons d rest => rw [scanQuoted, if_pos rfl, if_neg fun hd : d = q => h (hd ▸ rfl)]

/-- What was written with its quotes doubled is read back, up to a quote that is not doubled. -/
theorem scanQuoted_doubled {q : Char} (v : List Char) {rest : List Char} (h : rest.head? ≠ some q) :
    scanQuoted q (doubled q v ++ q :: rest) = some (v, rest) := by
  induction v with
  | nil => exact scanQuoted_close h
  | cons c v ih =>
    rw [doubled_cons, List.append_assoc]
    by_cases hc : c = q
    · subst hc
      rw [if_pos rfl, List.cons_append, List.cons_append, List.nil_append, scanQuoted, if_pos rfl, if_pos rfl,
        ih, Option.map_some]
    · rw [if_neg hc, List.cons_append, List.nil_append, scanQuoted_other hc, ih, Option.map_some]

/-- A constant with its quotes doubled is read back, unless it goes on behind a newline. -/
theorem scanLiteral_doubled (v : List Char) {rest : List Char} (h : rest.head? ≠ some '\'')
    (hend : continuation false false rest = none) :
    scanLiteral ('\'' :: doubled '\'' v ++ '\'' :: rest) = some (v, rest) := by
  rw [List.cons_append, scanLiteral, scanParts, scanQuoted_doubled v h, Option.bind_some]
  simp only [hend]

theorem clip_eq {room : Nat} {name : List Char} (h : (name.map Char.utf8Size).sum ≤ room) :
    clip room name = name := by
  induction name generalizing room with
  | nil => rw [clip]
  | cons c rest ih =>
    rw [List.map_cons, List.sum_cons] at h
    rw [clip, if_pos (Nat.le_trans (Nat.le_add_right _ _) h), ih (Nat.le_sub_of_add_le (by omega))]

/-! ### Writing statements -/

/-- A piece of a statement's text. -/
inductive Part where
  | keyword (word : List Char)
  /-- A name between double quotes. -/
  | delimited (name : List Char)
  /-- A string constant between quotes. -/
  | constant (value : List Char)
  /-- A keyword between parentheses. -/
  | option (word : List Char)

namespace Part

def text : Part → List Char
  | keyword word => word
  | delimited name => '"' :: doubled '"' name ++ ['"']
  | constant value => '\'' :: doubled '\'' value ++ ['\'']
  | option word => '(' :: word ++ [')']

def tokens : Part → List Token
  | keyword word => [.word (word.map Char.toLower)]
  | delimited name => [.identifier name]
  | constant value => [.literal value]
  | option word => [.symbol '(', .word (word.map Char.toLower), .symbol ')']

end Part

/-- A word that `scanToken` reads whole. -/
def isWord : List Char → Bool
  | [] => false
  | c :: rest => isWordStart c && rest.all isWordChar &&
      decide ((((c :: rest).map Char.toLower).map Char.utf8Size).sum ≤ 63)

/-- A name that an identifier can have. -/
def isName (name : List Char) : Bool := !name.isEmpty && decide ((name.map Char.utf8Size).sum ≤ 63)

def Part.sound : Part → Bool
  | keyword word | option word => isWord word
  | delimited name => isName name
  | constant _ => true

/-- Parts, with a blank before each. -/
def spaced (parts : List Part) : List Char := parts.flatMap fun p => ' ' :: p.text

/-- Parts with a blank between them. -/
def render : List Part → List Char
  | [] => []
  | p :: rest => p.text ++ spaced rest

theorem render_append {before : List Part} (hne : before ≠ []) (after : List Part) :
    render (before ++ after) = render before ++ spaced after := by
  obtain ⟨p, rest, rfl⟩ := List.exists_cons_of_ne_nil hne
  rw [List.cons_append, render, render, spaced, List.flatMap_append, ← List.append_assoc]
  rfl

theorem isWordStart_separate {c : Char} (h : isWordStart c = true) :
    isBlank c = false ∧ c ≠ '\'' ∧ c ≠ '"' ∧ c ≠ '-' := by
  refine ⟨?_, ?_, ?_, ?_⟩
  · rw [Bool.eq_false_iff]
    intro hblank
    simp only [isBlank, isNewline, Bool.or_eq_true, beq_iff_eq] at hblank
    rcases hblank with ((((rfl | rfl) | rfl) | rfl) | rfl) | rfl <;> exact absurd h (by decide)
  all_goals
    intro heq
    obtain rfl := heq
    exact absurd h (by decide)

/-- What can stand right behind a word: no character of a word, and no quote it may be the
prefix of. -/
def stopsWord (rest : List Char) : Bool := rest.head?.all fun c => !isWordChar c && !opensQuote [c]

theorem scanToken_word {c : Char} {w rest : List Char} (hw : isWord (c :: w) = true)
    (hrest : stopsWord rest = true) :
    scanToken c (w ++ rest) = some (some (.word ((c :: w).map Char.toLower)), rest) := by
  simp only [isWord, Bool.and_eq_true, List.all_eq_true, decide_eq_true_eq] at hw
  obtain ⟨⟨hstart, hchars⟩, hlength⟩ := hw
  obtain ⟨hblank, hquote, hdelimiter, -⟩ := isWordStart_separate hstart
  have hstop : rest.takeWhile isWordChar = [] ∧ rest.dropWhile isWordChar = rest ∧ opensQuote rest = false := by
    cases rest with
    | nil => exact ⟨rfl, rfl, rfl⟩
    | cons d more =>
      simp only [stopsWord, List.head?_cons, Option.all_some, Bool.and_eq_true, Bool.not_eq_true'] at hrest
      exact ⟨List.takeWhile_cons_of_neg (by simp [hrest.1]), List.dropWhile_cons_of_neg (by simp [hrest.1]), hrest.2⟩
  unfold scanToken
  rw [if_neg (by simp [hblank]), if_neg hquote, if_neg hdelimiter, if_pos hstart,
    List.takeWhile_append_of_pos hchars, List.dropWhile_append_of_pos hchars, hstop.1, hstop.2.1, List.append_nil]
  show (if opensQuote rest = true then none
    else some (some (Token.word (truncateIdentifier ((c :: w).map Char.toLower))), rest)) = _
  rw [if_neg (by simp [hstop.2.2]), truncateIdentifier, clip_eq hlength]

theorem scanToken_delimited {name rest : List Char} (hname : isName name = true)
    (hrest : rest.head? ≠ some '"') :
    scanToken '"' (doubled '"' name ++ '"' :: rest) = some (some (.identifier name), rest) := by
  simp only [isName, Bool.and_eq_true, Bool.not_eq_true', decide_eq_true_eq] at hname
  have hne : name ≠ [] := fun h => by simp [h] at hname
  unfold scanToken
  rw [if_neg (by decide), if_neg (by decide), if_pos rfl, scanQuoted_doubled name hrest, Option.bind_some,
    if_neg hne, truncateIdentifier, clip_eq hname.2]

theorem scanToken_constant (v : List Char) {rest : List Char} (hrest : rest.head? ≠ some '\'')
    (hend : continuation false false rest = none) :
    scanToken '\'' (doubled '\'' v ++ '\'' :: rest) = some (some (.literal v), rest) := by
  unfold scanToken
  rw [if_neg (by decide), if_pos rfl]
  have h := scanLiteral_doubled v hrest hend
  rw [List.cons_append] at h
  rw [h, Option.map_some]

/-- What can stand behind a part: nothing, or a blank and no more of a string constant. -/
structure Separate (rest : List Char) : Prop where
  blank : rest = [] ∨ ∃ more, rest = ' ' :: more
  ends : continuation false false rest = none

namespace Separate
variable {rest : List Char}

theorem stopsWord (h : Separate rest) : stopsWord rest = true := by
  rcases h.blank with rfl | ⟨more, rfl⟩ <;> rfl

theorem head_ne (h : Separate rest) {q : Char} (hq : q ≠ ' ') : rest.head? ≠ some q := by
  rcases h.blank with rfl | ⟨more, rfl⟩
  · exact fun h => by cases h
  · exact fun h => hq (Option.some.inj h).symm

end Separate

/-- A text that begins with a token's first character continues no string constant. -/
theorem Part.text_separate {p : Part} (hp : p.sound = true) (rest : List Char) :
    Separate (' ' :: (p.text ++ rest)) := by
  refine ⟨.inr ⟨_, rfl⟩, ?_⟩
  have plain : ∀ c more, isBlank c = false → c ≠ '-' → continuation false false (' ' :: c :: more) = none := by
    intro c more hblank hdash
    rw [continuation, if_neg (by decide), if_pos (by decide), continuation]
    by_cases hq : c = '\''
    · rw [if_pos hq]
      rfl
    · rw [if_neg hq, if_neg (by simp [hblank]), if_neg fun h => hdash h.1]
  cases p with
  | keyword word =>
    cases word with
    | nil => cases hp
    | cons c w =>
      simp only [sound, isWord, Bool.and_eq_true] at hp
      obtain ⟨hblank, -, -, hdash⟩ := isWordStart_separate hp.1.1
      exact plain c _ hblank hdash
  | delimited name => exact plain '"' _ (by decide) (by decide)
  | constant value => exact plain '\'' _ (by decide) (by decide)
  | option word => exact plain '(' _ (by decide) (by decide)

theorem tokens_blank (rest : List Char) : tokens (' ' :: rest) = tokens rest := by
  rw [tokens_cons (show scanToken ' ' rest = some (none, rest) from rfl)]
  exact Option.map_id'

/-- A part is read back as its tokens. -/
theorem Part.tokens_text {p : Part} (hp : p.sound = true) {rest : List Char} (hrest : Separate rest) :
    Sql.tokens (p.text ++ rest) = (Sql.tokens rest).map fun more => p.tokens ++ more := by
  cases p with
  | keyword word =>
    cases word with
    | nil => cases hp
    | cons c w =>
      exact tokens_cons (scanToken_word hp hrest.stopsWord)
  | delimited name =>
    rw [text, List.append_assoc, List.cons_append]
    exact tokens_cons (scanToken_delimited hp (hrest.head_ne (by decide)))
  | constant value =>
    rw [text, List.append_assoc, List.cons_append]
    exact tokens_cons (scanToken_constant value (hrest.head_ne (by decide)) hrest.ends)
  | option word =>
    cases word with
    | nil => cases hp
    | cons c w =>
      have hopen : scanToken '(' (c :: w ++ [')'] ++ rest) = some (some (.symbol '('), c :: (w ++ ')' :: rest)) := by
        rw [List.append_assoc]
        rfl
      have hclose : scanToken ')' rest = some (some (.symbol ')'), rest) := rfl
      show Sql.tokens ('(' :: (c :: w ++ [')'] ++ rest)) = _
      rw [tokens_cons hopen, tokens_cons (scanToken_word hp rfl), tokens_cons hclose, Option.map_map, Option.map_map]
      rfl

theorem tokens_spaced {parts : List Part} (h : ∀ p ∈ parts, p.sound = true) :
    Separate (spaced parts) ∧ tokens (spaced parts) = some (parts.flatMap Part.tokens) := by
  induction parts with
  | nil => exact ⟨⟨.inl rfl, rfl⟩, rfl⟩
  | cons p parts ih =>
    have hp := h p List.mem_cons_self
    obtain ⟨hseparate, htokens⟩ := ih fun q hq => h q (List.mem_cons_of_mem p hq)
    rw [show spaced (p :: parts) = ' ' :: (p.text ++ spaced parts) from List.flatMap_cons]
    refine ⟨Part.text_separate hp _, ?_⟩
    rw [tokens_blank, Part.tokens_text hp hseparate, htokens]
    rfl

/-- What is rendered is read back. -/
theorem tokens_render {parts : List Part} (h : ∀ p ∈ parts, p.sound = true) :
    tokens (render parts) = some (parts.flatMap Part.tokens) := by
  cases parts with
  | nil => rfl
  | cons p parts =>
    obtain ⟨hseparate, htokens⟩ := tokens_spaced fun q hq => h q (List.mem_cons_of_mem p hq)
    rw [render, Part.tokens_text (h p List.mem_cons_self) hseparate, htokens]
    rfl

theorem Part.tokens_ne_nil (p : Part) : p.tokens ≠ [] := by
  cases p <;> exact List.cons_ne_nil _ _

theorem Part.semicolon_not_mem (p : Part) : Token.symbol ';' ∉ p.tokens := by
  cases p <;> simp [tokens]

/-- And it is one statement: no part contributes a semicolon outside its quotes. -/
theorem statements_render {parts : List Part} (h : ∀ p ∈ parts, p.sound = true) (hne : parts ≠ []) :
    statements (render parts) = some [parts.flatMap Part.tokens] := by
  have hsplit : (parts.flatMap Part.tokens).splitOn (.symbol ';') = [parts.flatMap Part.tokens] := by
    apply List.splitOnP_eq_singleton
    intro t ht
    obtain ⟨p, -, htp⟩ := List.mem_flatMap.mp ht
    rw [beq_eq_false_iff_ne]
    intro heq
    obtain rfl := heq
    exact p.semicolon_not_mem htp
  have htokens : parts.flatMap Part.tokens ≠ [] := by
    obtain ⟨p, rest, rfl⟩ := List.exists_cons_of_ne_nil hne
    rw [List.flatMap_cons]
    exact List.append_ne_nil_of_left_ne_nil p.tokens_ne_nil _
  rw [statements, tokens_render h, Option.map_some, hsplit]
  simp [htokens]

end Sql
