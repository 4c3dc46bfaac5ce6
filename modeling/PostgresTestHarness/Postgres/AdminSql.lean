import PostgresTestHarness.Library.Sql
import PostgresTestHarness.Postgres.Server

/-! The administrative statements as texts, and what a server reads in them.

Names and the metadata comment are put into the texts by `quote_identifier`, by
`DatabaseName::quoted` and by `quote_literal`. Each text is one statement, and it is the one
that the server model executes (`Statement.tokens`). -/
namespace PostgresTestHarness

/-- `DatabaseName::quoted`. -/
def DatabaseName.quoted (name : DatabaseName) : Text := "\"".toList ++ name.value ++ "\"".toList

namespace Postgres

/-- `quote_identifier`. -/
def quoteIdentifier (identifier : Text) : Except Error Text :=
  if identifier = "template0".toList ∨
      (!identifier.isEmpty && decide (identifier.len ≤ 63) && identifier.all isNameChar) = true then
    .ok ("\"".toList ++ identifier ++ "\"".toList)
  else .error (.invalidDatabaseName identifier)

/-- `quote_literal`. -/
def quoteLiteral (value : Text) : Text :=
  "'".toList ++ value.flatMap (fun c => if c = '\'' then "''".toList else [c]) ++ "'".toList

/-- `TemplateSource`: what a database is copied from. -/
inductive TemplateSource where
  | empty
  | template (name : DatabaseName)

/-- `TemplateSource::name`. -/
def TemplateSource.name : TemplateSource → Text
  | .empty => "template0".toList
  | .template name => name.value

/-- The text of `create_database`. -/
def createDatabaseText (name : DatabaseName) (templateName : Text) : Except Error Text := do
  let template ← quoteIdentifier templateName
  .ok ("CREATE DATABASE ".toList ++ name.quoted ++ " TEMPLATE ".toList ++ template)

/-- The text of `drop_database`. -/
def dropDatabaseText (name : DatabaseName) : Text :=
  "DROP DATABASE IF EXISTS ".toList ++ name.quoted ++ " WITH (FORCE)".toList

/-- The text of `set_database_metadata`. -/
def setDatabaseMetadataText (name : DatabaseName) (metadata : ResourceMetadata) : Text :=
  "COMMENT ON DATABASE ".toList ++ name.quoted ++ " IS ".toList ++ quoteLiteral metadata.encode

/-- The text of `disable_database_connections`. -/
def disableDatabaseConnectionsText (name : DatabaseName) : Text :=
  "ALTER DATABASE ".toList ++ name.quoted ++ " ALLOW_CONNECTIONS false".toList

/-! ### What a server reads -/

/-- The tokens of the statements that are sent as texts. -/
def Statement.tokens {α : Type} : Statement α → Option (List Sql.Token)
  | .create name source => some [.word "create".toList, .word "database".toList, .identifier name,
      .word "template".toList, .identifier source]
  | .drop name => some [.word "drop".toList, .word "database".toList, .word "if".toList, .word "exists".toList,
      .identifier name, .word "with".toList, .symbol '(', .word "force".toList, .symbol ')']
  | .comment name text => some [.word "comment".toList, .word "on".toList, .word "database".toList,
      .identifier name, .word "is".toList, .literal text]
  | .disableConnections name => some [.word "alter".toList, .word "database".toList, .identifier name,
      .word "allow_connections".toList, .word "false".toList]
  | _ => none

/-- A text is this statement and nothing else. -/
def Says (text : Text) (stmt : Statement Unit) : Prop :=
  ∃ tokens, stmt.tokens = some tokens ∧ Sql.statements text = some [tokens]

/-- The tokens tell the statement, its database and its source or comment. -/
theorem Statement.tokens_injective {α β : Type} {stmt : Statement α} {other : Statement β}
    (h : stmt.tokens = other.tokens) (hsome : stmt.tokens ≠ none) : HEq stmt other := by
  cases stmt <;> cases other <;> simp_all [Statement.tokens]

theorem Says.unique {text : Text} {stmt other : Statement Unit} (h : Says text stmt)
    (hother : Says text other) : stmt = other := by
  obtain ⟨tokens, hstmt, htext⟩ := h
  obtain ⟨tokens', hother, htext'⟩ := hother
  obtain rfl : tokens = tokens' := by simpa using htext.symm.trans htext'
  refine eq_of_heq (Statement.tokens_injective (hstmt.trans hother.symm) ?_)
  rw [hstmt]
  exact Option.some_ne_none tokens

theorem quoteLiteral_eq (value : Text) : quoteLiteral value = (Sql.Part.constant value).text := rfl

/-- A name of these characters has no quote to double, and fits. -/
theorem delimited_text {name : Text} (h : '"' ∉ name) :
    (Sql.Part.delimited name).text = "\"".toList ++ name ++ "\"".toList := by
  rw [Sql.Part.text, Sql.doubled_of_not_mem h]
  rfl

theorem delimited_name (name : DatabaseName) :
    (Sql.Part.delimited name.value).sound = true ∧ '"' ∉ name.value := by
  have h := name.valid
  simp only [validDatabaseName, Bool.and_eq_true, Bool.not_eq_true', decide_eq_true_eq, List.all_eq_true] at h
  refine ⟨?_, fun hquote => absurd (h.2 '"' hquote) (by decide)⟩
  simp only [Sql.Part.sound, Sql.isName, Bool.and_eq_true, Bool.not_eq_true', decide_eq_true_eq]
  exact h.1

theorem delimited_source (source : TemplateSource) :
    (Sql.Part.delimited source.name).sound = true ∧ '"' ∉ source.name := by
  cases source with
  | empty => exact ⟨by decide, by decide⟩
  | template name => exact delimited_name name

/-- The two checks agree: a name that a `DatabaseName` has is one that `quote_identifier` takes. -/
theorem quoteIdentifier_source (source : TemplateSource) :
    quoteIdentifier source.name = .ok (Sql.Part.delimited source.name).text := by
  rw [delimited_text (delimited_source source).2]
  refine if_pos ?_
  cases source with
  | empty => exact .inl rfl
  | template name => exact .inr name.valid

section Texts
variable (name : DatabaseName)

/-- The texts put the name between parts that are written out. -/
theorem says_of_parts (before after : List Sql.Part) {lead tail : Text} {stmt : Statement Unit}
    (hlead : lead = Sql.render before ++ [' ']) (hne : before ≠ []) (htail : tail = Sql.spaced after)
    (hbefore : before.all Sql.Part.sound = true) (hafter : after.all Sql.Part.sound = true)
    (hstmt : stmt.tokens =
      some (before.flatMap Sql.Part.tokens ++ .identifier name.value :: after.flatMap Sql.Part.tokens)) :
    Says (lead ++ name.quoted ++ tail) stmt := by
  obtain ⟨hname, hquote⟩ := delimited_name name
  have htext : lead ++ name.quoted ++ tail = Sql.render (before ++ .delimited name.value :: after) := by
    rw [Sql.render_append hne, Sql.spaced, List.flatMap_cons, delimited_text hquote, hlead, htail]
    simp only [DatabaseName.quoted, Sql.spaced, List.append_assoc, List.cons_append, List.nil_append]
  refine ⟨_, hstmt, ?_⟩
  rw [htext, Sql.statements_render _ (List.append_ne_nil_of_left_ne_nil hne _), List.flatMap_append,
    List.flatMap_cons]
  · rfl
  · intro p hp
    rcases List.mem_append.mp hp with hp | hp
    · exact List.all_eq_true.mp hbefore p hp
    · rcases List.mem_cons.mp hp with rfl | hp
      · exact hname
      · exact List.all_eq_true.mp hafter p hp

/-- A keyword and one more part, at the end of a text. -/
theorem spaced_pair (word : Text) (last : Sql.Part) :
    Sql.spaced [.keyword word, last] = ' ' :: word ++ [' '] ++ last.text := by
  simp only [Sql.spaced, Sql.Part.text, List.flatMap_cons, List.flatMap_nil, List.append_assoc, List.cons_append,
    List.nil_append, List.append_nil]

theorem says_create (source : TemplateSource) : ∃ quoted text, quoteIdentifier source.name = .ok quoted ∧
    createDatabaseText name source.name = .ok text ∧ Says text (.create name.value source.name) := by
  have hquoted := quoteIdentifier_source source
  have htext : createDatabaseText name source.name = .ok ("CREATE DATABASE ".toList ++ name.quoted ++
      Sql.spaced [.keyword "TEMPLATE".toList, .delimited source.name]) := by
    rw [createDatabaseText, hquoted, spaced_pair, ← List.append_assoc,
      show ' ' :: "TEMPLATE".toList ++ [' '] = " TEMPLATE ".toList by decide]
    rfl
  refine ⟨_, _, hquoted, htext, ?_⟩
  refine says_of_parts name [.keyword "CREATE".toList, .keyword "DATABASE".toList] _ (by decide)
    (List.cons_ne_nil _ _) rfl (by decide) ?_ ?_
  · rw [List.all_cons, List.all_cons, (delimited_source source).1]
    decide
  · simp [Statement.tokens, Sql.Part.tokens]

theorem says_comment (metadata : ResourceMetadata) :
    Says (setDatabaseMetadataText name metadata) (.comment name.value metadata.encode) := by
  have htext : setDatabaseMetadataText name metadata = "COMMENT ON DATABASE ".toList ++ name.quoted ++
      Sql.spaced [.keyword "IS".toList, .constant metadata.encode] := by
    rw [spaced_pair, ← List.append_assoc, show ' ' :: "IS".toList ++ [' '] = " IS ".toList by decide]
    rfl
  rw [htext]
  refine says_of_parts name [.keyword "COMMENT".toList, .keyword "ON".toList, .keyword "DATABASE".toList] _
    (by decide) (List.cons_ne_nil _ _) rfl (by decide) ?_ ?_
  · rw [List.all_cons, List.all_cons, show (Sql.Part.constant metadata.encode).sound = true from rfl]
    decide
  · simp [Statement.tokens, Sql.Part.tokens]

theorem says_disable : Says (disableDatabaseConnectionsText name) (.disableConnections name.value) := by
  refine says_of_parts name [.keyword "ALTER".toList, .keyword "DATABASE".toList]
    [.keyword "ALLOW_CONNECTIONS".toList, .keyword "false".toList] (by decide) (List.cons_ne_nil _ _) (by decide)
    (by decide) (by decide) ?_
  simp [Statement.tokens, Sql.Part.tokens]

theorem says_drop : Says (dropDatabaseText name) (.drop name.value) := by
  refine says_of_parts name
    [.keyword "DROP".toList, .keyword "DATABASE".toList, .keyword "IF".toList, .keyword "EXISTS".toList]
    [.keyword "WITH".toList, .option "FORCE".toList] (by decide) (List.cons_ne_nil _ _) (by decide) (by decide)
    (by decide) ?_
  simp [Statement.tokens, Sql.Part.tokens]

end Texts

/-- A quoted value is read back with what follows it left alone, unless what follows is more of
the same constant; and every administrative text is its one statement, on its own name. -/
theorem administrative_sql_scans :
    (∀ v rest : Text, rest.head? ≠ some '\'' → Sql.continuation false false rest = none →
      Sql.scanLiteral (quoteLiteral v ++ rest) = some (v, rest)) ∧
    ∀ name : DatabaseName,
      (∀ source : TemplateSource, ∃ quoted text, quoteIdentifier source.name = .ok quoted ∧
        createDatabaseText name source.name = .ok text ∧ Says text (.create name.value source.name)) ∧
      (∀ metadata : ResourceMetadata,
        Says (setDatabaseMetadataText name metadata) (.comment name.value metadata.encode)) ∧
      Says (disableDatabaseConnectionsText name) (.disableConnections name.value) ∧
      Says (dropDatabaseText name) (.drop name.value) := by
  refine ⟨fun v rest hrest hend => ?_, fun name =>
    ⟨says_create name, says_comment name, says_disable name, says_drop name⟩⟩
  rw [quoteLiteral_eq, Sql.Part.text, List.append_assoc]
  exact Sql.scanLiteral_doubled v hrest hend

theorem administrative_sql_scans_quoted :
    Sql.scanLiteral (quoteLiteral "it's".toList ++ "; SELECT 1".toList) = some ("it's".toList, "; SELECT 1".toList) :=
  administrative_sql_scans.1 _ _ (by decide) (by decide)

/-- Two constants with a newline between them are one. -/
theorem literal_continues : ¬ ∀ v rest : Text, rest.head? ≠ some '\'' →
    Sql.scanLiteral (quoteLiteral v ++ rest) = some (v, rest) := by
  intro h
  exact absurd (h "a".toList "\n'b'".toList (by decide)) (by decide)

end Postgres

end PostgresTestHarness
