import GroupStore.Proofs.Bindings
import GroupStore.Proofs.Cql
import GroupStore.Proofs.Sqlite.Names
import GroupStore.Proofs.Start

/-!
# The parameters of SQL and the values that are passed

The SQL of a template numbers its parameters, and an execution passes a list of values.  The text
is read back: its placeholders are the numbers from one on, as many as there are values, and each
stands for the column that its value belongs to.

* `Sql.roles` — what each parameter of a statement is for;
* `Sql.reads_text` — the text numbers them in this order;
* `uses` — what each value that is passed for a template is for;
* `parameters_line_up` — the SQL of a template asks for just these values.
-/

namespace GroupStore.Sqlite

open Lexeme

/-! ### Names and markers -/

/-- A name that is one word, and no placeholder. -/
structure Plain (name : String) : Prop where
  word : lexemes name = [.word name]
  unmarked : isPlaceholder name = false

theorem plain_identifier (name : Identifier) : Plain name.text :=
  ⟨lexemes_identifier name, name.not_isPlaceholder⟩

theorem plain_expiryColumn : Plain expiryColumn := ⟨by decide, by decide⟩

theorem isPlaceholder_marker (n : Nat) : isPlaceholder (marker n) = true := by
  simp [isPlaceholder, marker, String.toList_append]

theorem lexemes_marker (n : Nat) : lexemes (marker n) = [.word (marker n)] := by
  refine lexemes_word ?_ fun c member => ?_
  · simp [marker]
  · rw [marker, String.toList_append, List.mem_append] at member
    rcases member with mark | digit
    · rw [List.mem_singleton.mp mark]
      decide
    · exact joins_of_isDigit (isDigit_of_mem_numeral n c digit)

theorem markers_eq (first : Nat) (columns : List String) :
    markers first columns = (List.range' first columns.length).map marker := by
  induction columns generalizing first with
  | nil => rfl
  | cons column rest ih => rw [markers, ih, List.length_cons, List.range'_succ, List.map_cons]

theorem equalityTexts_eq (first : Nat) (columns : List String) :
    equalityTexts first columns =
      (columns.zipIdx first).map fun entry => quote entry.1 ++ " = " ++ marker entry.2 := by
  induction columns generalizing first with
  | nil => rfl
  | cons column rest ih => rw [equalityTexts, ih, List.zipIdx_cons, List.map_cons]

/-- What parameters are for, each with the marker of its place. -/
def numbered (roles : List Role) : List (Role × String) :=
  (roles.zipIdx 1).map fun entry => (entry.1, marker entry.2)

theorem numbered_eq_zip (roles : List Role) :
    numbered roles = roles.zip ((List.range' 1 roles.length).map marker) := by
  rw [numbered, List.zipIdx_eq_zip_range', List.zip_map_right]
  rfl

theorem numbered_markers (roles : List Role) :
    (numbered roles).map Prod.snd = (List.range' 1 roles.length).map marker := by
  rw [numbered_eq_zip, List.map_snd_zip (by simp)]

/-! ### Parts of a text -/

theorem lexemes_quote {name : String} (plain : Plain name) :
    lexemes (quote name) = [.word name] := by
  have mark : lexemes "\"" = [] := by decide
  rw [quote, lexemes_append_of_opens _ (by decide),
    lexemes_append_of_closes (by decide), mark, plain.word]
  rfl

theorem lexemes_quoteAll {names : List String} (plain : ∀ name ∈ names, Plain name) :
    lexemes (quoteAll names) = listing names := by
  have comma : Cuts ", " [.sign ','] := ⟨by decide, by decide, rfl⟩
  have each := lexemes_listing comma fun name member => lexemes_quote (plain name member)
  rwa [List.map_id'] at each

theorem lexemes_markers (columns : List String) :
    lexemes (", ".intercalate (markers 1 columns)) = listing (markers 1 columns) := by
  have comma : Cuts ", " [.sign ','] := ⟨by decide, by decide, rfl⟩
  rw [markers_eq]
  exact lexemes_listing comma fun n _ => lexemes_marker n

/-! ### Guards -/

theorem lexemes_equality {name : String} (plain : Plain name) (n : Nat) :
    lexemes (quote name ++ " = " ++ marker n) = comparing name '=' (marker n) := by
  have equals : Cuts " = " [.sign '='] := ⟨by decide, by decide, rfl⟩
  rw [equals.append, lexemes_quote plain, lexemes_marker]
  rfl

/-- Only the second comparison with the expiry is one with a parameter. -/
theorem compares_liveText (n : Nat) :
    Compares (lexemes (liveText n)) [(.compared expiryColumn '>', marker n)] := by
  have missing : Cuts " IS NULL OR " [.word "IS", .word "NULL", .word "OR"] :=
    ⟨by decide, by decide, rfl⟩
  have greater : Cuts " > " [.sign '>'] := ⟨by decide, by decide, rfl⟩
  have opening : lexemes "(" = [.sign '('] := by decide
  have closing : lexemes ")" = [.sign ')'] := by decide
  have text : lexemes (liveText n) =
      [.sign '(', .word expiryColumn, .word "IS", .word "NULL", .word "OR"] ++
        (comparing expiryColumn '>' (marker n) ++ [.sign ')']) := by
    rw [liveText, lexemes_append_of_opens _ (by decide), greater.append, missing.append,
      lexemes_append_of_closes (by decide), lexemes_quote plain_expiryColumn,
      lexemes_marker, opening, closing]
    rfl
  have compares : Compares (comparing expiryColumn '>' (marker n))
      [(.compared expiryColumn '>', marker n)] :=
    .comparing plain_expiryColumn.unmarked (isPlaceholder_marker n) '>'
  rw [text]
  exact (Compares.silent (by decide)).append (compares.append (.silent (by decide)))

/-- What the parameters of a guard are for. -/
def Guard.roles (g : Guard) : List Role :=
  g.equals.map (.compared · '=') ++ if g.live then [.compared expiryColumn '>'] else []

namespace Guard

variable {g : Guard}

/-- The conditions of a guard, each with the comparison that is read off from it. -/
def conditions (g : Guard) : List (String × Role × String) :=
  ((g.equals.zipIdx 1).map fun entry =>
    (quote entry.1 ++ " = " ++ marker entry.2, .compared entry.1 '=', marker entry.2)) ++
  if g.live then
    [(liveText (g.equals.length + 1), .compared expiryColumn '>', marker (g.equals.length + 1))]
  else []

theorem conditions_texts (g : Guard) : g.conditions.map Prod.fst = g.texts := by
  rw [conditions, texts, equalityTexts_eq, List.map_append, List.map_map]
  cases g.live <;> rfl

theorem conditions_found (g : Guard) : g.conditions.map Prod.snd = numbered g.roles := by
  rw [conditions, numbered, roles, List.map_append, List.zipIdx_append, List.map_append,
    List.zipIdx_map, List.map_map, List.map_map]
  cases g.live with
  | false => rfl
  | true => simp [Function.comp_def, Nat.add_comm]

theorem compares_condition (plain : ∀ name ∈ g.equals, Plain name) :
    ∀ entry ∈ g.conditions, Compares (lexemes entry.1) [entry.2] := by
  intro entry member
  rcases List.mem_append.mp member with equality | last
  · obtain ⟨⟨column, n⟩, numbered, rfl⟩ := List.mem_map.mp equality
    have name := plain column (List.fst_mem_of_mem_zipIdx numbered)
    simp only [lexemes_equality name]
    exact .comparing name.unmarked (isPlaceholder_marker n) '='
  · split at last
    · rw [List.mem_singleton.mp last]
      exact compares_liveText _
    · cases last

/-- A guard compares its columns with the first parameters, and the expiry with the one behind. -/
theorem compares_text (plain : ∀ name ∈ g.equals, Plain name) :
    Compares (lexemes g.text) (numbered g.roles) := by
  have all := Compares.conditions (compares_condition plain)
  rwa [← List.map_eq_flatMap, conditions_found, conditions_texts] at all

end Guard

/-! ### Statements -/

namespace Sql

/-- What the parameters of a statement are for. -/
def roles : Sql → List Role
  | upsert _ columns => columns.map .stored
  | select _ _ rows => rows.roles
  | delete _ rows => rows.roles

/-- A statement whose parameters are those of its guard. -/
theorem reads_guarded {front verb : String} {rest : List Lexeme} {rows : Guard}
    (begins : lexemes front = .word verb :: rest) (other : verb ≠ "INSERT")
    (silent : placeholders (lexemes front) = []) (plain : ∀ name ∈ rows.equals, Plain name) :
    Reads (lexemes (front ++ " WHERE " ++ rows.text)) (numbered rows.roles) := by
  have verb : Compares [.word "WHERE"] [] := .silent (by decide)
  have clause : Cuts " WHERE " [.word "WHERE"] := ⟨by decide, by decide, rfl⟩
  have compares := (Compares.silent silent).append (verb.append (Guard.compares_text plain))
  rw [clause.append]
  refine compares.reads ?_
  rw [begins]
  simpa using other

theorem reads_upsert {table : String} {columns : List String} (known : Plain table)
    (plain : ∀ name ∈ columns, Plain name) :
    Reads (lexemes (upsert table columns).text) (numbered (columns.map .stored)) := by
  have verb : lexemes "INSERT OR REPLACE INTO " =
      [.word "INSERT", .word "OR", .word "REPLACE", .word "INTO"] := by decide
  have front : lexemes ("INSERT OR REPLACE INTO " ++ quote table) =
      .word "INSERT" :: [.word "OR", .word "REPLACE", .word "INTO", .word table] := by
    rw [lexemes_append_of_closes (by decide), verb, lexemes_quote known]
    rfl
  have silent :
      placeholders [.word "OR", .word "REPLACE", .word "INTO", .word table] = [] := by
    rw [placeholders_unmarked (by decide), placeholders_unmarked (by decide),
      placeholders_unmarked (by decide), placeholders_unmarked known.unmarked]
    rfl
  have marks : ∀ mark ∈ markers 1 columns, isPlaceholder mark = true := by
    intro mark member
    rw [markers_eq] at member
    obtain ⟨n, -, rfl⟩ := List.mem_map.mp member
    exact isPlaceholder_marker n
  have whole : lexemes (upsert table columns).text =
      inserting [.word "OR", .word "REPLACE", .word "INTO", .word table] columns
        (markers 1 columns) [] := by
    have bracket : Cuts " (" [.sign '('] := ⟨by decide, by decide, rfl⟩
    exact lexemes_inserting front bracket (lexemes_quoteAll plain) (lexemes_markers columns)
  rw [whole, numbered_eq_zip, List.length_map, ← markers_eq]
  exact reads_inserting (by simp) (by simp) silent (by simp [markers_eq])
    (fun column member => (plain column member).unmarked) marks rfl

theorem reads_select {table : String} {columns : List String} {rows : Guard} (known : Plain table)
    (returned : ∀ column ∈ columns, Plain column) (plain : ∀ name ∈ rows.equals, Plain name) :
    Reads (lexemes (select table columns rows).text) (numbered rows.roles) := by
  have verb : lexemes "SELECT " = [.word "SELECT"] := by decide
  have source : Cuts " FROM " [.word "FROM"] := ⟨by decide, by decide, rfl⟩
  have front : lexemes ("SELECT " ++ quoteAll columns ++ " FROM " ++ quote table) =
      .word "SELECT" :: (listing columns ++ [.word "FROM", .word table]) := by
    rw [source.append, lexemes_append_of_closes (by decide), verb,
      lexemes_quoteAll returned, lexemes_quote known]
    rfl
  have unmarked : columns.filter isPlaceholder = [] :=
    List.filter_eq_nil_iff.mpr fun column member => by simp [(returned column member).unmarked]
  refine reads_guarded front (by decide) ?_ plain
  rw [front, placeholders_unmarked (by decide), placeholders_append, placeholders_listing, unmarked,
    placeholders_unmarked (by decide), placeholders_unmarked known.unmarked]
  rfl

theorem reads_delete {table : String} {rows : Guard} (known : Plain table)
    (plain : ∀ name ∈ rows.equals, Plain name) :
    Reads (lexemes (delete table rows).text) (numbered rows.roles) := by
  have verb : lexemes "DELETE FROM " = [.word "DELETE", .word "FROM"] := by decide
  have front : lexemes ("DELETE FROM " ++ quote table) =
      [.word "DELETE", .word "FROM", .word table] := by
    rw [lexemes_append_of_closes (by decide), verb, lexemes_quote known]
    rfl
  refine reads_guarded front (by decide) ?_ plain
  rw [front, placeholders_unmarked (by decide), placeholders_unmarked (by decide),
    placeholders_unmarked known.unmarked]
  rfl

/-- The text of a statement numbers its parameters in their order. -/
theorem reads_text {sql : Sql} (table : Plain sql.table) (plain : ∀ name ∈ sql.names, Plain name) :
    Reads (lexemes sql.text) (numbered sql.roles) := by
  cases sql with
  | upsert _ columns => exact reads_upsert table plain
  | select _ columns rows =>
    exact reads_select table (fun column member => plain column (List.mem_append_left _ member))
      fun column member => plain column (List.mem_append_right _ (List.mem_append_left _ member))
  | delete _ rows =>
    exact reads_delete table fun column member => plain column (List.mem_append_left _ member)

end Sql

/-! ### The parameters of a template -/

/-- What the values that an execution passes are for: the bound ones for the parameter columns, and
the one that the session adds for the expiry. -/
def uses (t : Template) : List Role :=
  t.parameterColumns.map t.role ++
    match t.kind with
    | .insert => [.stored expiryColumn]
    | .deleteByKey => []
    | _ => [.compared expiryColumn '>']

theorem length_uses (t : Template) :
    (uses t).length = t.parameterColumns.length + if t.kind = .deleteByKey then 0 else 1 := by
  rw [uses, List.length_append, List.length_map]
  cases t.kind <;> rfl

/-- As many values are passed as have a use. -/
theorem length_parameters (b : Bound) (now : Nat) :
    (parameters b now).length = (uses b.template).length := by
  rw [parameters, List.length_append, List.length_map, ← b.length_values, length_uses]
  congr 1
  unfold addedParameters
  cases b.template.kind <;> rfl

theorem uses_insert {t : Template} (insert : t.kind = .insert) :
    uses t = (t.projection.map Identifier.text ++ [expiryColumn]).map .stored := by
  rw [uses, t.role_insert insert, t.parameterColumns_insert insert, insert, List.map_append,
    List.map_map]
  rfl

theorem uses_conditional {t : Template} (other : t.kind ≠ .insert) :
    uses t = Guard.roles ⟨t.parameterColumns.map Identifier.text, t.kind ≠ .deleteByKey⟩ := by
  rw [uses, t.role_conditional other, Guard.roles, List.map_map]
  cases kind : t.kind with
  | insert => exact absurd kind other
  | selectByKey | deleteByKey | selectKeyAndId | conditionalDelete => rfl

theorem plain_identifiers (names : List Identifier) :
    ∀ name ∈ names.map Identifier.text, Plain name := by
  intro name member
  obtain ⟨column, -, rfl⟩ := List.mem_map.mp member
  exact plain_identifier column

theorem plain_guard {names : List Identifier} {live : Bool} :
    ∀ name ∈ (⟨names.map Identifier.text, live⟩ : Guard).names, Plain name := by
  intro name member
  rcases List.mem_append.mp member with own | last
  · exact plain_identifiers names name own
  · cases live with
    | true =>
      rw [List.mem_singleton.mp last]
      exact plain_expiryColumn
    | false => cases last

/-- The SQL of a template has a parameter for each value that is passed, and names nothing but the
columns of the template and the expiry. -/
theorem translate_uses {t : Template} (condition : t.condition ≠ none ↔ t.kind = .conditionalDelete)
    (filtered : t.kind = .deleteByKey → t.filter ≠ []) :
    ∃ sql, translate t = .ok sql ∧ sql.roles = uses t ∧ Plain sql.table ∧
      ∀ name ∈ sql.names, Plain name := by
  have table : Plain t.layout.table.name.text := plain_identifier _
  have returned := plain_identifiers t.projection
  -- a condition of another statement would be bound and not compared
  have columns (other : t.kind ≠ .insert) (unconditional : t.kind ≠ .conditionalDelete) :
      t.parameterColumns = t.filter := by
    have absent : t.condition = none := not_not.mp fun set => unconditional (condition.mp set)
    rw [t.parameterColumns_conditional other, absent]
    exact List.append_nil _
  cases kind : t.kind with
  | insert =>
    refine ⟨.upsert t.layout.table.name.text (t.projection.map Identifier.text ++ [expiryColumn]),
      by rw [translate, kind], (uses_insert kind).symm, table, fun name member => ?_⟩
    rcases List.mem_append.mp member with own | last
    · exact returned name own
    · rw [List.mem_singleton.mp last]
      exact plain_expiryColumn
  | selectByKey | selectKeyAndId =>
    refine ⟨.select t.layout.table.name.text (t.projection.map Identifier.text)
      ⟨t.filter.map Identifier.text, true⟩, by rw [translate, kind], ?_, table, ?_⟩
    · rw [uses_conditional (by simp [kind]), columns (by simp [kind]) (by simp [kind]), kind]
      rfl
    · exact fun name member => (List.mem_append.mp member).elim (returned name) (plain_guard name)
  | deleteByKey =>
    have compared : t.filter.map Identifier.text ≠ [] := by simpa using filtered kind
    refine ⟨.delete t.layout.table.name.text ⟨t.filter.map Identifier.text, false⟩, ?_, ?_, table,
      plain_guard⟩
    · rw [translate, kind]
      exact if_neg compared
    · rw [uses_conditional (by simp [kind]), columns (by simp [kind]) (by simp [kind]), kind]
      rfl
  | conditionalDelete =>
    obtain ⟨column, set⟩ := Option.ne_none_iff_exists'.mp (condition.mpr kind)
    have all : t.filter.map Identifier.text ++ [column.text] =
        (t.filter ++ [column]).map Identifier.text := by rw [List.map_append]; rfl
    refine ⟨.delete t.layout.table.name.text
      ⟨t.filter.map Identifier.text ++ [column.text], true⟩, ?_, ?_, table, all ▸ plain_guard⟩
    · rw [translate, kind, set]
    · rw [uses_conditional (by simp [kind]), t.parameterColumns_conditional (by simp [kind]), set,
        kind, List.map_append]
      rfl

/-- **The parameters line up with the values.**  A template is translated if it has a condition just
when it is a conditional delete, and a point delete has a filter.  The placeholders of its SQL are
the numbers from one on, each once and in their order, as many as an execution of the statement
passes values.  Each is for what its value is for: the bound values for the parameter columns, in
their order, and the last one, except in a point delete, for the expiry column. -/
theorem parameters_line_up {t : Template}
    (condition : t.condition ≠ none ↔ t.kind = .conditionalDelete)
    (filtered : t.kind = .deleteByKey → t.filter ≠ []) :
    ∃ sql, translate t = .ok sql ∧
      placeholders (lexemes sql.text) = (List.range' 1 (uses t).length).map marker ∧
      placements (lexemes sql.text) = (uses t).zip ((List.range' 1 (uses t).length).map marker) ∧
      (uses t).length = t.parameterColumns.length + (if t.kind = .deleteByKey then 0 else 1) ∧
      ∀ (b : Bound) (now : Nat), b.statement = ⟨t, sql.text⟩ →
        sqlOf b.statement = .ok sql ∧
        parameters b now = b.values.map Cell.ofValue ++ addedParameters t now ∧
        b.values.length = t.parameterColumns.length ∧
        (parameters b now).length = (uses t).length := by
  obtain ⟨sql, translated, roles, table, named⟩ := translate_uses condition filtered
  have reads := Sql.reads_text table named
  rw [roles] at reads
  refine ⟨sql, translated, ?_, ?_, length_uses t, fun b now prepared => ?_⟩
  · rw [reads.placeholders, numbered_markers]
  · rw [reads.placements, numbered_eq_zip]
  · have template : b.template = t := by rw [Bound.template, prepared]
    refine ⟨?_, ?_, ?_, ?_⟩
    · rw [sqlOf, prepared, translated]
      exact if_pos rfl
    · rw [parameters, template]
    · rw [← b.length_values, template]
    · rw [length_parameters, template]

/-- The conditional delete of a tenant of a table. -/
def tenantRemoval : Template :=
  (Schema.mk { table := Repository.resultsTable, fixedPrefix := Repository.tenantPrefix "eu" }
    rfl).template .conditionalDelete

/-- The conditional delete compares the columns of the key, the exchange id and the expiry. -/
theorem tenantRemoval_parameters : (tenantRemoval.condition ≠ none ∧
      tenantRemoval.kind = .conditionalDelete) ∧
    ∃ sql, translate tenantRemoval = .ok sql ∧
      sql.text = "DELETE FROM \"results\" WHERE \"tenant\" = ?1 AND \"aggregation_key\" = ?2 " ++
        "AND \"exchange_id\" = ?3 AND (\"__expires_at_ms\" IS NULL OR \"__expires_at_ms\" > ?4)" ∧
      placeholders (lexemes sql.text) = ["?1", "?2", "?3", "?4"] ∧
      placements (lexemes sql.text) =
        [(.compared "tenant" '=', "?1"), (.compared "aggregation_key" '=', "?2"),
          (.compared "exchange_id" '=', "?3"), (.compared expiryColumn '>', "?4")] := by
  obtain ⟨sql, translated, marks, places, -⟩ :=
    parameters_line_up (t := tenantRemoval) (by decide) (by decide)
  have known : translate tenantRemoval = .ok (.delete "results"
      ⟨["tenant", "aggregation_key", "exchange_id"], true⟩) := rfl
  obtain rfl := Except.ok.inj (known.symm.trans translated)
  exact ⟨⟨by decide, rfl⟩, _, known, by decide +kernel, marks.trans (by decide +kernel),
    places.trans (by decide +kernel)⟩

end GroupStore.Sqlite
