import AdhocReport.Sql.Lexer
import AdhocReport.Failure
set_option autoImplicit false

/-!
# Queries: the single statement guard

A text is sent to the warehouse only if it is one statement and that statement is a query.
-/

namespace AdhocReport.Query

/-- The fault of a text that is not exactly one query. -/
def statementFault (text : String) : Option Fault :=
  match Sql.statements text with
  | [ls] => if Sql.isSelect ls then none else some .notSelect
  | many => some (.statementCount many.length)

/-- The text, if it is exactly one query. -/
def singleSelect (text : String) : Except Failure String :=
  match statementFault text with
  | none => .ok text
  | some f => .error (.report (.query f))

end AdhocReport.Query
