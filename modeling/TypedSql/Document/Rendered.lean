import TypedSql.Json.Printer
import TypedSql.Render.Statement

namespace TypedSql

def Rendered.toJson (r : Rendered) : Json :=
  .obj [("sql", .str r.sql), ("params", .ofStrings r.params)]

end TypedSql
