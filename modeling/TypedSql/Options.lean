import TypedSql.Dialect.Basic

namespace TypedSql

/-- Placeholders bear their parameter's name, or its number in the order of first use. -/
inductive PlaceholderStyle where
  | named | numbered
  deriving DecidableEq, Repr

structure RenderOptions where
  dialect : Dialect := .postgres
  maxSubqueryDepth : UInt64 := 3
  placeholders : PlaceholderStyle := .named
  deriving DecidableEq, Repr

end TypedSql
