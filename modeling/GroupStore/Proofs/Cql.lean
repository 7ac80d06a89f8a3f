import GroupStore.Statement.Cql
import GroupStore.Statement.Repertoire
import GroupStore.Proofs.Bindings
import GroupStore.Proofs.Placements

/-!
# What the statement text says

The text of a template is read back.  Each question mark stands for one parameter column: in an
insert for the column in the same place of the list, elsewhere for the column before its equality
sign.  And the five texts of a schema tell where it keeps its rows, since no name has a separator
in it.

* `TableName.lexemes_text`, `Template.compares_whereText` and the like — the parts of a text;
* `Template.reads_cql` — the column of each question mark;
* `Schema.of_insert_cql` — what an insert tells about its schema;
* `Template.cql_faithful` — both, for all templates and all schemas.
-/

namespace GroupStore

open Lexeme

/-! ### Parts of a text -/

/-- The words of a table, with a dot behind its keyspace. -/
def TableName.pieces (table : TableName) : List Lexeme :=
  match table.keyspace with
  | none => [.word table.name.text]
  | some keyspace => [.word keyspace.text, .sign '.', .word table.name.text]

namespace TableName

theorem lexemes_text (table : TableName) : lexemes table.text = table.pieces := by
  unfold text pieces
  cases table.keyspace with
  | none => exact lexemes_identifier table.name
  | some keyspace =>
    have dot : Cuts "." [.sign '.'] := ⟨by decide, by decide, rfl⟩
    simp only [dot.append, lexemes_identifier, List.singleton_append]

/-- The only sign of a table is its dot. -/
theorem sign_not_mem_pieces (table : TableName) {c : Char} (other : c ≠ '.') :
    Lexeme.sign c ∉ table.pieces := by
  unfold pieces
  cases table.keyspace <;> simp [other]

theorem sign_not_mem_target (table : TableName) {c : Char} (other : c ≠ '.') :
    Lexeme.sign c ∉ .word "INTO" :: table.pieces := by
  simp [table.sign_not_mem_pieces other]

theorem placeholders_pieces (table : TableName) : placeholders table.pieces = [] := by
  unfold pieces
  cases table.keyspace <;> simp [placeholders_unmarked]

theorem pieces_injective : Function.Injective pieces := by
  rintro ⟨keyspace, name⟩ ⟨keyspace', name'⟩ piecesEq
  cases keyspace <;> cases keyspace' <;>
    simp only [pieces, List.cons.injEq, Lexeme.word.injEq, reduceCtorEq, and_false, and_true,
      true_and] at piecesEq
  · rw [Identifier.eq_of_text piecesEq]
  · rw [Identifier.eq_of_text piecesEq.1, Identifier.eq_of_text piecesEq.2]

end TableName

theorem lexemes_names (names : List Identifier) :
    lexemes (Template.joinNames "," names) = listing (names.map Identifier.text) := by
  have comma : Cuts "," [.sign ','] := ⟨by decide, by decide, rfl⟩
  exact lexemes_listing comma fun name _ => lexemes_identifier name

/-- A column with a question mark. -/
theorem compares_equality (column : Identifier) :
    Compares (lexemes (column.text ++ "=?")) [(.compared column.text '=', "?")] := by
  have mark : lexemes "=?" = [.sign '=', .word "?"] := by decide
  rw [lexemes_append_of_opens _ (by decide), lexemes_identifier, mark]
  exact .comparing column.not_isPlaceholder (by decide) '='

namespace Template

variable (t : Template)

/-! ### Clauses -/

theorem opens_whereText : t.whereText = "" ∨ Opens t.whereText := by
  unfold whereText
  split
  · exact .inl rfl
  · exact .inr (Opens.append (by decide) _)

theorem opens_conditionText : t.conditionText = "" ∨ Opens t.conditionText := by
  unfold conditionText
  split
  · exact .inl rfl
  · rw [String.append_assoc]
    exact .inr (Opens.append (by decide) _)

theorem lexemes_ttlText : lexemes t.ttlText =
    t.ttlSeconds.elim [] fun seconds => [.word "USING", .word "TTL", .word (toString seconds)] := by
  have verb : lexemes " USING TTL " = [.word "USING", .word "TTL"] := by decide
  unfold ttlText
  cases t.ttlSeconds with
  | none => rfl
  | some seconds =>
    simp only [lexemes_append_of_closes (a := " USING TTL ") (by decide), verb,
      lexemes_numeral, Option.elim_some, List.cons_append, List.nil_append]

/-- The time to live is read off from its clause. -/
theorem ttlSeconds_of_ttlText {t t' : Template}
    (lexemesEq : lexemes t.ttlText = lexemes t'.ttlText) :
    t.ttlSeconds = t'.ttlSeconds := by
  rw [lexemes_ttlText, lexemes_ttlText] at lexemesEq
  cases ttl : t.ttlSeconds <;> cases ttl' : t'.ttlSeconds <;>
    simp only [ttl, ttl', Option.elim_none, Option.elim_some, List.cons.injEq, Lexeme.word.injEq,
      reduceCtorEq, and_true, true_and] at lexemesEq
  · rfl
  · rw [numeral_injective lexemesEq]

theorem opens_ttlText : t.ttlText = "" ∨ Opens t.ttlText := by
  unfold ttlText
  split
  · exact .inl rfl
  · exact .inr (Opens.append (by decide) _)

/-! ### Inserts -/

theorem lexemes_insert (insert : t.kind = .insert) : lexemes t.cql =
    inserting (.word "INTO" :: t.layout.table.pieces) (t.projection.map Identifier.text)
      (t.projection.map fun _ => "?") (lexemes t.ttlText) := by
  have verb : lexemes "INSERT INTO " = [.word "INSERT", .word "INTO"] := by decide
  have front : lexemes ("INSERT INTO " ++ t.layout.table.text) =
      .word "INSERT" :: .word "INTO" :: t.layout.table.pieces := by
    rw [lexemes_append_of_closes (by decide), verb, TableName.lexemes_text]
    rfl
  have marks : lexemes (",".intercalate (t.projection.map fun _ => "?")) =
      listing (t.projection.map fun _ => "?") := by
    have comma : Cuts "," [.sign ','] := ⟨by decide, by decide, rfl⟩
    exact lexemes_listing comma fun _ _ => rfl
  have bracket : Cuts "(" [.sign '('] := ⟨by decide, by decide, rfl⟩
  unfold cql
  simp only [insert]
  rw [lexemes_clause _ t.opens_ttlText,
    lexemes_inserting front bracket (lexemes_names t.projection) marks]
  simp [inserting]

theorem placeholders_ttlText : placeholders (lexemes t.ttlText) = [] := by
  rw [lexemes_ttlText]
  cases t.ttlSeconds with
  | none => rfl
  | some seconds =>
    rw [Option.elim_some, placeholders_unmarked (by decide), placeholders_unmarked (by decide),
      placeholders_unmarked (isPlaceholder_numeral seconds)]
    rfl

/-! ### Conditions -/

/-- What a statement does to its table, before its conditions. -/
def front : String :=
  if t.kind.isRead then "SELECT " ++ joinNames "," t.projection ++ " FROM " ++ t.layout.table.text
  else "DELETE FROM " ++ t.layout.table.text

theorem cql_eq (other : t.kind ≠ .insert) : t.cql = t.front ++ t.whereText ++ t.conditionText := by
  unfold cql front
  cases kind : t.kind with
  | insert => exact absurd kind other
  | selectByKey | deleteByKey | selectKeyAndId | conditionalDelete => rfl

/-- Nothing before the conditions is a parameter. -/
theorem lexemes_front : ∃ verb rest, lexemes t.front = .word verb :: rest ∧ verb ≠ "INSERT" ∧
    placeholders (lexemes t.front) = [] := by
  unfold front
  split
  · have verb : lexemes "SELECT " = [.word "SELECT"] := by decide
    have source : Cuts " FROM " [.word "FROM"] := ⟨by decide, by decide, rfl⟩
    have names : (t.projection.map Identifier.text).filter isPlaceholder = [] := by simp
    rw [source.append, lexemes_append_of_closes (by decide), verb, lexemes_names,
      TableName.lexemes_text]
    refine ⟨"SELECT", _, rfl, by decide, ?_⟩
    rw [placeholders_append, placeholders_append, placeholders_append, placeholders_listing, names,
      TableName.placeholders_pieces]
    decide
  · have verb : lexemes "DELETE FROM " = [.word "DELETE", .word "FROM"] := by decide
    rw [lexemes_append_of_closes (by decide), verb, TableName.lexemes_text]
    refine ⟨"DELETE", _, rfl, by decide, ?_⟩
    rw [placeholders_append, TableName.placeholders_pieces]
    decide

theorem compares_whereText : Compares (lexemes t.whereText)
    (t.filter.map fun column => (.compared column.text '=', "?")) := by
  unfold whereText
  split
  case isTrue empty =>
    rw [List.isEmpty_iff.mp empty]
    exact .silent rfl
  case isFalse =>
    have verb : lexemes " WHERE " = [.word "WHERE"] := by decide
    have begins : Compares [.word "WHERE"] [] := .silent (by decide)
    have each := Compares.conditions fun column (_ : column ∈ t.filter) => compares_equality column
    rw [← List.map_eq_flatMap] at each
    rw [lexemes_append_of_closes (by decide), verb]
    exact begins.append each

theorem compares_conditionText : Compares (lexemes t.conditionText)
    (t.condition.toList.map fun column => (.compared column.text '=', "?")) := by
  unfold conditionText
  cases t.condition with
  | none => exact .silent rfl
  | some column =>
    have verb : lexemes " IF " = [.word "IF"] := by decide
    have begins : Compares [.word "IF"] [] := .silent (by decide)
    simp only [String.append_assoc, lexemes_append_of_closes (a := " IF ") (by decide), verb]
    exact begins.append (compares_equality column)

/-! ### All templates -/

/-- What the value of a parameter column is for. -/
def role (column : Identifier) : Role :=
  if t.kind = .insert then .stored column.text else .compared column.text '='

theorem role_insert (insert : t.kind = .insert) : t.role = fun column => .stored column.text := by
  funext column
  rw [role, if_pos insert]

theorem role_conditional (other : t.kind ≠ .insert) :
    t.role = fun column => .compared column.text '=' := by
  funext column
  rw [role, if_neg other]

theorem reads_insert (insert : t.kind = .insert) : Reads (lexemes t.cql)
    (t.projection.map fun column => (.stored column.text, "?")) := by
  have opens := t.layout.table.sign_not_mem_target (c := '(') (by decide)
  have closes := t.layout.table.sign_not_mem_target (c := ')') (by decide)
  have silent : placeholders (.word "INTO" :: t.layout.table.pieces) = [] := by
    rw [placeholders_unmarked (by decide), TableName.placeholders_pieces]
  have marks : ∀ mark ∈ t.projection.map fun _ => "?", isPlaceholder mark = true := by
    intro mark member
    obtain ⟨column, -, rfl⟩ := List.mem_map.mp member
    decide
  have names : ∀ column ∈ t.projection.map Identifier.text, isPlaceholder column = false := by
    simp
  have read := reads_inserting opens closes silent (by simp) names marks t.placeholders_ttlText
  rw [List.map_map, List.zip_map'] at read
  rw [t.lexemes_insert insert]
  exact read

theorem reads_conditional (other : t.kind ≠ .insert) : Reads (lexemes t.cql)
    ((t.filter ++ t.condition.toList).map fun column => (.compared column.text '=', "?")) := by
  obtain ⟨verb, rest, front, different, silent⟩ := t.lexemes_front
  have whole : lexemes t.cql =
      lexemes t.front ++ (lexemes t.whereText ++ lexemes t.conditionText) := by
    rw [t.cql_eq other, lexemes_clause _ t.opens_conditionText, lexemes_clause _ t.opens_whereText,
      List.append_assoc]
  have begins : (lexemes t.cql).head? ≠ some (.word "INSERT") := by
    simpa [whole, front] using different
  have compares := (Compares.silent silent).append
    (t.compares_whereText.append t.compares_conditionText)
  rw [← whole, List.nil_append, ← List.map_append] at compares
  exact compares.reads begins

/-- Each question mark stands for the parameter column in its place. -/
theorem reads_cql : Reads (lexemes t.cql)
    (t.parameterColumns.map fun column => (t.role column, "?")) := by
  by_cases insert : t.kind = .insert
  · rw [t.parameterColumns_insert insert, t.role_insert insert]
    exact t.reads_insert insert
  · rw [t.parameterColumns_conditional insert, t.role_conditional insert]
    exact t.reads_conditional insert

/-- What the marks of a text stand for can be seen from the text alone. -/
example : placements (lexemes "DELETE FROM t WHERE a=? AND b=? IF c=?") =
    [(.compared "a" '=', "?"), (.compared "b" '=', "?"), (.compared "c" '=', "?")] := by
  decide +kernel

theorem placeholders_cql :
    placeholders (lexemes t.cql) = List.replicate t.parameterColumns.length "?" := by
  rw [t.reads_cql.placeholders, List.map_map]
  exact List.map_const' ..

/-- There is a question mark for each parameter column. -/
theorem count_cql : t.cql.toList.count '?' = t.parameterColumns.length := by
  have one : "?".toList = ['?'] := by decide
  rw [← count_placeholders, placeholders_cql, List.flatMap_replicate, one]
  simp

end Template

/-! ### The texts of a schema -/

/-- The insert tells the table, the columns and the time to live. -/
theorem Schema.of_insert_cql {s s' : Schema}
    (cqlEq : (s.template .insert).cql = (s'.template .insert).cql) :
    s.settings.table = s'.settings.table ∧ s.columns = s'.columns ∧
      s.settings.ttlSeconds = s'.settings.ttlSeconds := by
  have read := congrArg lexemes cqlEq
  rw [Template.lexemes_insert _ rfl, Template.lexemes_insert _ rfl] at read
  obtain ⟨target, columns, tail⟩ := inserting_injective
    (TableName.sign_not_mem_target _ (by decide)) (TableName.sign_not_mem_target _ (by decide))
    (TableName.sign_not_mem_target _ (by decide)) (TableName.sign_not_mem_target _ (by decide)) read
  exact ⟨TableName.pieces_injective (List.cons.inj target).2,
    Identifier.text_injective.list_map columns, Template.ttlSeconds_of_ttlText tail⟩

/-- The columns of a schema are its prefix and three more. -/
theorem Schema.columns_eq_iff {s s' : Schema} : s.columns = s'.columns ↔
    s.prefixColumns = s'.prefixColumns ∧ s.keyColumn = s'.keyColumn ∧
      s.exchangeIdColumn = s'.exchangeIdColumn ∧ s.payloadColumn = s'.payloadColumn := by
  simp only [Schema.columns, Schema.primaryKey, List.append_assoc, List.singleton_append]
  constructor
  · intro columnsEq
    obtain ⟨fixed, own⟩ := List.append_inj' columnsEq rfl
    simp only [List.cons.injEq, and_true] at own
    exact ⟨fixed, own⟩
  · rintro ⟨fixed, key, id, payload⟩
    rw [fixed, key, id, payload]

/-- What the text of a template depends on. -/
theorem Template.cql_congr {t t' : Template} (kind : t.kind = t'.kind)
    (table : t.layout.table = t'.layout.table) (projection : t.projection = t'.projection)
    (filter : t.filter = t'.filter) (condition : t.condition = t'.condition)
    (ttl : t.ttlSeconds = t'.ttlSeconds) : t.cql = t'.cql := by
  unfold cql whereText conditionText ttlText
  rw [kind, table, projection, filter, condition, ttl]

/-- **The statement text is faithful.**  In the text of any template there is a question mark for
each parameter column, and each of them stands for the column in its place.  The five texts of two
schemas are the same just if the schemas keep their rows in one table, under the same prefix
columns, in the same three columns and for the same time. -/
theorem Template.cql_faithful :
    (∀ t : Template, t.cql.toList.count '?' = t.parameterColumns.length ∧
      placeholders (lexemes t.cql) = List.replicate t.parameterColumns.length "?" ∧
      placements (lexemes t.cql) = t.parameterColumns.map fun column => (t.role column, "?")) ∧
    ∀ s s' : Schema, (∀ kind, (s.template kind).cql = (s'.template kind).cql) ↔
      s.settings.table = s'.settings.table ∧ s.prefixColumns = s'.prefixColumns ∧
        s.keyColumn = s'.keyColumn ∧ s.exchangeIdColumn = s'.exchangeIdColumn ∧
        s.payloadColumn = s'.payloadColumn ∧ s.settings.ttlSeconds = s'.settings.ttlSeconds := by
  refine ⟨fun t => ⟨t.count_cql, t.placeholders_cql, t.reads_cql.placements⟩, fun s s' => ⟨?_, ?_⟩⟩
  · intro cqlEq
    obtain ⟨table, columns, ttl⟩ := Schema.of_insert_cql (cqlEq .insert)
    obtain ⟨fixed, key, id, payload⟩ := Schema.columns_eq_iff.mp columns
    exact ⟨table, fixed, key, id, payload, ttl⟩
  · rintro ⟨table, fixed, key, id, payload, ttl⟩ kind
    have columns : s.columns = s'.columns := Schema.columns_eq_iff.mpr ⟨fixed, key, id, payload⟩
    have primary : s.primaryKey = s'.primaryKey := by
      rw [Schema.primaryKey, Schema.primaryKey, fixed, key]
    have both : [s.keyColumn, s.exchangeIdColumn] = [s'.keyColumn, s'.exchangeIdColumn] := by
      rw [key, id]
    cases kind with
    | insert => exact cql_congr rfl table columns rfl rfl ttl
    | selectByKey => exact cql_congr rfl table columns primary rfl rfl
    | deleteByKey => exact cql_congr rfl table rfl primary rfl rfl
    | selectKeyAndId => exact cql_congr rfl table both fixed rfl rfl
    | conditionalDelete => exact cql_congr rfl table rfl primary (congrArg some id) rfl

end GroupStore
