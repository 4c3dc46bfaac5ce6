import PostgresTestHarness.Library.Sql

/-! Scripts of `SET` and `DISCARD ALL`, as PostgreSQL reads them.

A script is a text of commands with semicolons between them. Its items are the tokens of
`Sql.scanToken`, unsigned integers and the equals sign; `commands` reads a text and `render`
writes one. What is written is read back, with or without a semicolon at the end
(`commands_render`). -/
namespace Sql.Script

inductive Value where
  | number (n : Nat)
  | literal (value : List Char)
  deriving DecidableEq, Repr

inductive Command where
  | set (name : List Char) (value : Value)
  | discardAll
  deriving DecidableEq, Repr

inductive Item where
  | token (t : Token)
  | number (n : Nat)
  | equals
  deriving DecidableEq

/-! ### Reading -/

/-- The characters of PostgreSQL's operators. -/
def isOperatorChar (c : Char) : Bool := "+-*/<>=~!@#%^&|?".toList.contains c

/-- What a script starts with, an item or blank space, and what follows it. -/
def scanItem (c : Char) (rest : List Char) : Option (Option Item × List Char) :=
  if c = '=' then if rest.head?.any isOperatorChar then none else some (some .equals, rest)
  else if c.isDigit then
    let after := rest.dropWhile Char.isDigit
    if after.head?.any fun d => isWordChar d || d == '.' then none
    else some (some (.number (Nat.ofDigitChars 10 (c :: rest.takeWhile Char.isDigit) 0)), after)
  else (scanToken c rest).map fun p => (p.1.map .token, p.2)

def scan : Nat → List Char → Option (List Item)
  | _, [] => some []
  | 0, _ :: _ => none
  | n + 1, c :: rest => (scanItem c rest).bind fun p => (scan n p.2).map fun more => p.1.toList ++ more

def items (text : List Char) : Option (List Item) := scan text.length text

def word (w : String) : Item := .token (.word w.toList)

def semicolon : Item := .token (.symbol ';')

def readCommand : List Item → Option Command
  | [first, .token (.word name), .equals, .number n] =>
    if first = word "set" then some (.set name (.number n)) else none
  | [first, .token (.word name), .equals, .token (.literal v)] =>
    if first = word "set" then some (.set name (.literal v)) else none
  | [first, second] => if first = word "discard" ∧ second = word "all" then some .discardAll else none
  | _ => none

/-- The commands of a text; nothing between two semicolons is no command. -/
def commands (text : List Char) : Option (List Command) :=
  (items text).bind fun all => ((all.splitOn semicolon).filter fun s => !s.isEmpty).mapM readCommand

theorem scanItem_length {c : Char} {rest : List Char} {p : Option Item × List Char}
    (h : scanItem c rest = some p) : p.2.length ≤ rest.length := by
  unfold scanItem at h
  split_ifs at h with hequals hoperator hdigit
  · cases h
    exact Nat.le_refl _
  · rw [Option.ite_none_left_eq_some, Option.some.injEq] at h
    obtain ⟨-, rfl⟩ := h
    exact (List.dropWhile_suffix Char.isDigit).length_le
  · obtain ⟨q, hq, rfl⟩ := Option.map_eq_some_iff.mp h
    exact scanToken_length hq

theorem scan_eq {n : Nat} {text : List Char} (h : text.length ≤ n) : scan n text = items text := by
  suffices ∀ m k, ∀ text : List Char, text.length ≤ m → text.length ≤ k → scan m text = scan k text from
    this n text.length text h (Nat.le_refl _)
  intro m
  induction m with
  | zero =>
    intro k text hm _
    rw [List.eq_nil_of_length_eq_zero (Nat.le_zero.mp hm), scan, scan]
  | succ m ih =>
    intro k text hm hk
    cases text with
    | nil => rw [scan, scan]
    | cons c rest =>
      cases k with
      | zero => cases hk
      | succ k =>
        rw [scan, scan]
        refine Option.bind_congr fun p hp => ?_
        have hforward := scanItem_length hp
        rw [ih k p.2 (Nat.le_trans hforward (Nat.le_of_succ_le_succ hm))
          (Nat.le_trans hforward (Nat.le_of_succ_le_succ hk))]

/-- The first item of a script, and then the rest. -/
theorem items_cons {c : Char} {rest after : List Char} {t : Option Item}
    (h : scanItem c rest = some (t, after)) : items (c :: rest) = (items after).map fun more => t.toList ++ more := by
  rw [items, List.length_cons, scan, h, Option.bind_some, scan_eq (scanItem_length h)]

/-! ### Writing -/

def Value.text : Value → List Char
  | .number n => Nat.toDigits 10 n
  | .literal value => '\'' :: (doubled '\'' value ++ ['\''])

def Value.item : Value → Item
  | .number n => .number n
  | .literal value => .token (.literal value)

def Command.text : Command → List Char
  | .set name value => "SET ".toList ++ name ++ " = ".toList ++ value.text
  | .discardAll => "DISCARD ALL".toList

def Command.items : Command → List Item
  | .set name value => [word "set", .token (.word name), .equals, value.item]
  | .discardAll => [word "discard", word "all"]

/-- Commands with a semicolon and a blank between them. -/
def render : List Command → List Char
  | [] => []
  | [c] => c.text
  | c :: d :: rest => c.text ++ "; ".toList ++ render (d :: rest)

/-- A name that is read as it is written. -/
def Command.sound : Command → Bool
  | .set name _ => isWord name && name.map Char.toLower == name
  | .discardAll => true

/-- What stands behind a command. -/
def Ends (rest : List Char) : Prop := rest = [] ∨ ∃ more, rest = ';' :: more

theorem Ends.stopsWord {rest : List Char} (h : Ends rest) : stopsWord rest = true := by
  obtain rfl | ⟨more, rfl⟩ := h <;> rfl

theorem Ends.literal {rest : List Char} (h : Ends rest) :
    rest.head? ≠ some '\'' ∧ continuation false false rest = none := by
  obtain rfl | ⟨more, rfl⟩ := h
  · exact ⟨fun h => (by cases h), rfl⟩
  · refine ⟨fun hquote => absurd hquote (by simp), ?_⟩
    unfold continuation
    simp [isBlank, isNewline]

theorem Ends.number {rest : List Char} (h : Ends rest) : rest.takeWhile Char.isDigit = [] ∧
    rest.dropWhile Char.isDigit = rest ∧ rest.head?.any (fun d => isWordChar d || d == '.') = false := by
  obtain rfl | ⟨more, rfl⟩ := h <;> exact ⟨rfl, rfl, rfl⟩

theorem items_blank (rest : List Char) : items (' ' :: rest) = items rest := by
  rw [items_cons (show scanItem ' ' rest = some (none, rest) from rfl)]
  exact Option.map_id'

theorem isWordStart_plain {c : Char} (h : isWordStart c = true) : c ≠ '=' ∧ c.isDigit = false := by
  delta isWordStart Char.isAlpha Char.isUpper Char.isLower at h
  simp only [Bool.or_eq_true, Bool.and_eq_true, decide_eq_true_eq, beq_iff_eq, Char.isDigit, Bool.and_eq_false_iff,
    decide_eq_false_iff_not] at h ⊢
  constructor
  · intro heq
    subst heq
    revert h
    decide
  · have hzero : '0'.val.toNat = 48 := rfl
    have hnine : '9'.val.toNat = 57 := rfl
    have hupper : 'A'.val.toNat = 65 := rfl
    have hlower : 'a'.val.toNat = 97 := rfl
    obtain (hletter | rfl) | hwide := h
    · simp only [UInt32.le_iff_toNat_le, ge_iff_le] at hletter ⊢
      omega
    · decide
    · simp only [UInt32.le_iff_toNat_le, ge_iff_le, Char.toNat] at hwide ⊢
      omega

theorem items_word {w rest : List Char} (hw : isWord w = true) (hrest : Sql.stopsWord rest = true) :
    items (w ++ rest) = (items rest).map fun more => .token (.word (w.map Char.toLower)) :: more := by
  cases w with
  | nil => cases hw
  | cons c w =>
    have hstart : isWordStart c = true := by
      simp only [isWord, Bool.and_eq_true] at hw
      exact hw.1.1
    obtain ⟨hequals, hdigit⟩ := isWordStart_plain hstart
    refine items_cons (t := some (.token (.word ((c :: w).map Char.toLower)))) ?_
    rw [scanItem, if_neg hequals, if_neg (by simp [hdigit])]
    exact (congrArg _ (scanToken_word hw hrest)).trans rfl

/-- A value is read back as its item. -/
theorem items_value (value : Value) {rest : List Char} (hrest : Ends rest) :
    items (value.text ++ rest) = (items rest).map fun more => value.item :: more := by
  cases value with
  | number n =>
    obtain ⟨hnone, hall, hjunk⟩ := hrest.number
    obtain ⟨c, digits, hdigits⟩ := List.exists_cons_of_ne_nil (Nat.toDigits_ne_nil (n := n) (b := 10))
    have hdigit : ∀ d ∈ c :: digits, d.isDigit = true := by
      rw [← hdigits]
      exact fun d hd => Nat.isDigit_of_mem_toDigits (by decide) (by decide) hd
    have hc := hdigit c List.mem_cons_self
    have hequals : c ≠ '=' := by
      intro heq
      subst heq
      cases hc
    have hdigits' : ∀ d ∈ digits, d.isDigit = true := fun d hd => hdigit d (List.mem_cons_of_mem c hd)
    rw [Value.text, hdigits]
    refine items_cons (t := some (.number n)) ?_
    rw [scanItem, if_neg hequals, if_pos hc]
    have hvalue : Nat.ofDigitChars 10 (c :: digits) 0 = n := by rw [← hdigits, Nat.ofDigitChars_ten_toDigits]
    simp only [List.append_eq, List.takeWhile_append_of_pos hdigits', List.dropWhile_append_of_pos hdigits', hnone,
      hall, hjunk, List.append_nil, hvalue, Bool.false_eq_true, if_false]
  | literal value =>
    obtain ⟨hquote, hcontinues⟩ := hrest.literal
    rw [Value.text, List.cons_append, List.append_assoc]
    refine items_cons (t := some (.token (.literal value))) ?_
    rw [scanItem, if_neg (by decide), if_neg (by decide)]
    exact (congrArg _ (scanToken_constant value hquote hcontinues)).trans rfl

/-- And a command as its items. -/
theorem items_command {c : Command} (hc : c.sound = true) {rest : List Char} (hrest : Ends rest) :
    items (c.text ++ rest) = (items rest).map fun more => c.items ++ more := by
  cases c with
  | set name value =>
    obtain ⟨hname, hlower⟩ := Bool.and_eq_true_iff.mp hc
    have hset : isWord "SET".toList = true := by decide
    have hequals : scanItem '=' (' ' :: (value.text ++ rest)) = some (some .equals, ' ' :: (value.text ++ rest)) := by
      rw [scanItem, if_pos rfl]
      exact if_neg (by simp [isOperatorChar])
    have htext : (Command.set name value).text ++ rest =
        "SET".toList ++ (' ' :: (name ++ (' ' :: '=' :: ' ' :: (value.text ++ rest)))) := by
      show "SET ".toList ++ name ++ " = ".toList ++ value.text ++ rest = _
      rw [show "SET ".toList = "SET".toList ++ [' '] by decide, show " = ".toList = [' ', '=', ' '] by decide]
      simp only [List.append_assoc, List.cons_append, List.nil_append]
    have hassigned : items ('=' :: ' ' :: (value.text ++ rest)) =
        (items rest).map fun more => .equals :: value.item :: more := by
      rw [items_cons hequals, items_blank, items_value value hrest, Option.map_map]
      rfl
    have hnamed : items (name ++ (' ' :: '=' :: ' ' :: (value.text ++ rest))) =
        (items rest).map fun more => .token (.word name) :: .equals :: value.item :: more := by
      rw [items_word hname rfl, items_blank, hassigned, beq_iff_eq.mp hlower, Option.map_map]
      rfl
    rw [htext, items_word hset rfl, items_blank, hnamed, Option.map_map]
    rfl
  | discardAll =>
    have htext : Command.discardAll.text ++ rest = "DISCARD".toList ++ (' ' :: ("ALL".toList ++ rest)) := by
      show "DISCARD ALL".toList ++ rest = _
      rw [show "DISCARD ALL".toList = "DISCARD".toList ++ (' ' :: "ALL".toList) by decide, List.append_assoc,
        List.cons_append]
    rw [htext, items_word (by decide) rfl, items_blank, items_word (by decide) hrest.stopsWord, Option.map_map]
    rfl

theorem readCommand_items (c : Command) : readCommand c.items = some c := by
  cases c with
  | set name value => cases value <;> simp [Command.items, Value.item, readCommand]
  | discardAll => rfl

theorem mapM_items (cs : List Command) : (cs.map Command.items).mapM readCommand = some cs := by
  induction cs with
  | nil => rfl
  | cons c rest ih =>
    rw [List.map_cons, List.mapM_cons, readCommand_items, ih]
    rfl

theorem semicolon_not_mem (c : Command) : semicolon ∉ c.items := by
  cases c with
  | set name value => cases value <;> simp [Command.items, semicolon, word, Value.item]
  | discardAll => decide

theorem intercalate_semicolon (first : List Item) (rest : List (List Item)) :
    [semicolon].intercalate (first :: rest) = first ++ rest.flatMap (semicolon :: ·) := by
  induction rest generalizing first with
  | nil => simp
  | cons second rest ih => rw [List.intercalate_cons_cons, ih, List.flatMap_cons, List.append_assoc]; rfl

theorem items_semicolon (rest : List Char) : items (';' :: rest) = (items rest).map (semicolon :: ·) := by
  refine items_cons (t := some semicolon) ?_
  rw [scanItem, if_neg (by decide), if_neg (by decide)]
  rfl

/-- A script, with what may stand behind it. -/
theorem items_render {cs : List Command} (hcs : ∀ c ∈ cs, c.sound = true) (hne : cs ≠ []) {tail : List Char}
    {more : List (List Item)} (hends : Ends tail) (htail : items tail = some (more.flatMap (semicolon :: ·))) :
    items (render cs ++ tail) = some ([semicolon].intercalate (cs.map Command.items ++ more)) := by
  induction cs with
  | nil => exact absurd rfl hne
  | cons c rest ih =>
    have hc := hcs c List.mem_cons_self
    cases rest with
    | nil =>
      rw [render, items_command hc hends, htail, Option.map_some, List.map_cons, List.map_nil, List.cons_append,
        List.nil_append, intercalate_semicolon]
    | cons d rest =>
      have hrest := ih (fun e he => hcs e (List.mem_cons_of_mem c he)) (List.cons_ne_nil d rest)
      have htext : render (c :: d :: rest) ++ tail = c.text ++ (';' :: ' ' :: (render (d :: rest) ++ tail)) := by
        rw [render, List.append_assoc, List.append_assoc]
        rfl
      rw [htext, items_command hc (Or.inr ⟨_, rfl⟩), items_semicolon, items_blank, hrest]
      simp only [Option.map_some, List.map_cons, List.cons_append, intercalate_semicolon, List.flatMap_cons]

/-- What is written is read back. -/
theorem commands_render {cs : List Command} (hcs : ∀ c ∈ cs, c.sound = true) (hne : cs ≠ []) :
    commands (render cs) = some cs ∧ commands (render cs ++ [';']) = some cs := by
  have hread : ∀ more : List (List Item), (∀ l ∈ more, l = []) →
      ((([semicolon].intercalate (cs.map Command.items ++ more)).splitOn semicolon).filter
        fun s => !s.isEmpty).mapM readCommand = some cs := by
    intro more hmore
    have hplain : ∀ l ∈ cs.map Command.items ++ more, semicolon ∉ l := by
      intro l hl
      obtain hl | hl := List.mem_append.mp hl
      · obtain ⟨c, _, rfl⟩ := List.mem_map.mp hl
        exact semicolon_not_mem c
      · rw [hmore l hl]
        exact List.not_mem_nil
    rw [List.splitOn_intercalate semicolon hplain (by simp [hne]), List.filter_append]
    have hfull : (cs.map Command.items).filter (fun s => !s.isEmpty) = cs.map Command.items := by
      refine List.filter_eq_self.mpr fun l hl => ?_
      obtain ⟨c, _, rfl⟩ := List.mem_map.mp hl
      cases c <;> rfl
    have hempty : more.filter (fun s => !s.isEmpty) = [] := by
      refine List.filter_eq_nil_iff.mpr fun l hl => ?_
      rw [hmore l hl]
      decide
    rw [hfull, hempty, List.append_nil, mapM_items]
  constructor
  · have hitems : items (render cs ++ []) = some ([semicolon].intercalate (cs.map Command.items ++ [])) :=
      items_render hcs hne (Or.inl rfl) rfl
    rw [List.append_nil] at hitems
    rw [commands, hitems, Option.bind_some]
    exact hread [] fun l hl => by cases hl
  · have hitems : items (render cs ++ [';']) = some ([semicolon].intercalate (cs.map Command.items ++ [[]])) :=
      items_render hcs hne (Or.inr ⟨[], rfl⟩) (items_semicolon [])
    rw [commands, hitems, Option.bind_some]
    exact hread [[]] fun l hl => List.mem_singleton.mp hl

end Sql.Script
