import GroupStore.Schema
import GroupStore.Statement

/-!
# The five statements of a repository

Every operation of a repository is made of five statements over one layout: the insert of a whole
row, the point read, the point delete, the scan of keys and exchange ids under the prefix, and
the delete that compares the exchange id.
-/

namespace GroupStore.Schema

/-- The template of one kind. -/
def template (s : Schema) (kind : StatementKind) : Template :=
  match kind with
  | .insert =>
    ⟨.insert, s.layout, s.columns, [], none, s.settings.ttlSeconds, s.settings.writeConsistency⟩
  | .selectByKey =>
    ⟨.selectByKey, s.layout, s.columns, s.primaryKey, none, none, s.settings.readConsistency⟩
  | .deleteByKey =>
    ⟨.deleteByKey, s.layout, [], s.primaryKey, none, none, s.settings.writeConsistency⟩
  | .selectKeyAndId =>
    ⟨.selectKeyAndId, s.layout, [s.keyColumn, s.exchangeIdColumn], s.prefixColumns, none, none,
      s.settings.readConsistency⟩
  | .conditionalDelete =>
    ⟨.conditionalDelete, s.layout, [], s.primaryKey, some s.exchangeIdColumn, none,
      s.settings.writeConsistency⟩

/-- All five templates in the order in which they are prepared. -/
def templates (s : Schema) : List Template := StatementKind.all.map s.template

end GroupStore.Schema
