import AdhocReport.Sql.Quoting
import AdhocReport.Text.LetterCase
set_option autoImplicit false

/-!
# SQL: names

A name is written bare when the dialect reads it back unchanged: lower case, word characters only,
no digit or dollar sign in front, and not reserved.  Any other name stands in double quotes.
-/

namespace AdhocReport.Sql

/-- The words that SQLite reserves. -/
def sqliteReserved : List String :=
  ["add", "after", "all", "alter", "analyze", "and", "as", "asc", "attach", "autoincrement", "before",
   "begin", "between", "by", "cascade", "case", "cast", "check", "collate", "column", "commit",
   "conflict", "constraint", "create", "cross", "current_date", "current_time", "current_timestamp",
   "database", "default", "deferrable", "deferred", "delete", "desc", "detach", "distinct", "drop",
   "each", "else", "end", "escape", "except", "exclusive", "exists", "explain", "fail", "false", "for",
   "foreign", "from", "full", "glob", "group", "having", "if", "ignore", "immediate", "in", "index",
   "indexed", "initially", "inner", "insert", "instead", "intersect", "into", "is", "isnull", "join",
   "key", "left", "like", "limit", "match", "natural", "not", "notnull", "null", "of", "offset", "on",
   "or", "order", "outer", "plan", "pragma", "primary", "query", "raise", "references", "reindex",
   "rename", "replace", "restrict", "right", "rollback", "row", "select", "set", "table", "temp",
   "temporary", "then", "to", "transaction", "trigger", "true", "union", "unique", "update", "using",
   "vacuum", "values", "view", "virtual", "when", "where"]

/-- The words that PostgreSQL reserves. -/
def postgresqlReserved : List String :=
  ["all", "analyse", "analyze", "and", "any", "array", "as", "asc", "asymmetric", "authorization",
   "between", "binary", "both", "case", "cast", "check", "collate", "column", "constraint", "create",
   "cross", "current_catalog", "current_date", "current_role", "current_schema", "current_time",
   "current_timestamp", "current_user", "default", "deferrable", "desc", "distinct", "do", "else",
   "end", "except", "false", "fetch", "for", "foreign", "freeze", "from", "full", "grant", "group",
   "having", "ilike", "in", "initially", "inner", "intersect", "into", "is", "isnull", "join",
   "leading", "left", "like", "limit", "localtime", "localtimestamp", "natural", "new", "not",
   "notnull", "null", "of", "off", "offset", "old", "on", "only", "or", "order", "outer", "over",
   "overlaps", "placing", "primary", "references", "returning", "right", "select", "session_user",
   "similar", "some", "symmetric", "table", "then", "to", "trailing", "true", "union", "unique",
   "user", "using", "variadic", "verbose", "when", "where", "window", "with"]

/-- The words that a dialect reserves. -/
def Dialect.reserved : Dialect → List String
  | .sqlite => sqliteReserved
  | .postgresql => postgresqlReserved

/-- A character of bare names: an ASCII letter or digit, an underscore, a dollar sign, and the two
letters beyond ASCII that have an ASCII capital. -/
def isBareChar (c : Char) : Bool :=
  c.isAlphanum || c == '_' || c == '$' || c == Char.ofNat 0x131 || c == Char.ofNat 0x17F

/-- All characters may stand in a bare name; one line feed may follow. -/
def isBareText (cs : List Char) : Bool :=
  let body := match cs.reverse with
    | '\n' :: r => r
    | r => r
  !body.isEmpty && body.all isBareChar

/-- A name that is written without quotes. -/
def isBareName (d : Dialect) (name : String) : Bool :=
  Text.lower name == name && isBareText name.toList
    && !(name.toList.head?.any fun c => c.isDigit || c == '$') && !d.reserved.contains name

/-- Percent signs are doubled where the driver reads them as placeholders. -/
def driverText (d : Dialect) (s : String) : String :=
  match d with
  | .sqlite => s
  | .postgresql => String.ofList (doubled '%' s.toList)

/-- A name as a statement writes it. -/
def nameText (d : Dialect) (name : String) : String :=
  if isBareName d name then name else driverText d (quotedName name)

end AdhocReport.Sql
