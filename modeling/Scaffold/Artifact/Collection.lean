import Scaffold.Artifact.Code

/-!
# The collection file

The module through which a client reaches the records of a resource.  Records that are served as
JSON get a collection over the REST interface (`apiCollection`), records in a parquet file get hooks
that query the file (`parquetCollection`).
-/

namespace Scaffold

namespace Artifact

open Code

/-- The address of one record below a path, as a template literal. -/
def recordAddress (path : Text) : Text := "\x60" ++ path ++ "/$\x7bm.key\x7d\x60"

/-- The collection of a resource whose records are served as JSON. -/
def apiCollection (r : Resource) : List Text :=
  let path := r.apiBasePath
  let syncMode : List Text :=
    match r.config.get? "syncMode" with
    | some (.text mode) => ["    syncMode: " ++ mode.literal ++ ","]
    | _ => []
  List.flatten [
    [header,
      importLine "createCollection" "@tanstack/react-db",
      importLine "queryCollectionOptions" "@tanstack/query-db-collection",
      importLine "apiClient" "@/api/client",
      importLine "queryClient" "@/lib/query-client",
      importLine r.varName (schemaModule r),
      "",
      "export type " ++ r.typeName ++ " = typeof " ++ r.varName ++ ".type",
      "",
      "export const " ++ r.collectionName ++ " = createCollection(",
      "  queryCollectionOptions(\x7b",
      "    id: " ++ r.pluralName.literal ++ ",",
      "    queryKey: [" ++ r.pluralName.literal ++ "],",
      "    queryClient,",
      "    schema: " ++ r.varName ++ ".schema,",
      "    getKey: (item: " ++ r.typeName ++ ") => item." ++ r.primaryKey ++ ","],
    syncMode,
    ["    queryFn: async () => \x7b",
      "      const res = await apiClient.get<" ++ r.typeName ++ "[]>(" ++ path.literal ++ ")",
      "      return res.data",
      "    \x7d,",
      "    onInsert: async (\x7b transaction \x7d) => \x7b",
      "      await Promise.all(",
      "        transaction.mutations.map((m) => apiClient.post(" ++ path.literal
        ++ ", m.modified))",
      "      )",
      "    \x7d,",
      "    onUpdate: async (\x7b transaction \x7d) => \x7b",
      "      await Promise.all(",
      "        transaction.mutations.map((m) =>",
      "          apiClient.patch(" ++ recordAddress path ++ ", m.changes)",
      "        )",
      "      )",
      "    \x7d,",
      "    onDelete: async (\x7b transaction \x7d) => \x7b",
      "      await Promise.all(",
      "        transaction.mutations.map((m) => apiClient.delete(" ++ recordAddress path ++ "))",
      "      )",
      "    \x7d,",
      "  \x7d)",
      ")"]]

/-- The query hooks of a resource whose records are in a parquet file. -/
def parquetCollection (r : Resource) : List Text :=
  [header,
    importLine "useDuckDBQuery, useWindowedQuery" "@/hooks/use-duckdb-query",
    importLine r.varName (schemaModule r),
    "",
    "export type " ++ r.typeName ++ " = typeof " ++ r.varName ++ ".type",
    "",
    "export const " ++ r.pluralName ++ "ParquetUrl =",
    "  import.meta.env.VITE_" ++ r.pluralName.toUpper ++ "_PARQUET_URL ?? "
      ++ Text.literal ("/data/" ++ r.pluralName ++ ".parquet"),
    "",
    "export function use" ++ r.displayName ++ "(sql?: string) \x7b",
    "  return useDuckDBQuery<" ++ r.typeName ++ ">(\x7b",
    "    url: " ++ r.pluralName ++ "ParquetUrl,",
    "    sql: sql ?? \x60SELECT * FROM " ++ r.pluralName ++ "\x60,",
    "    table: " ++ r.pluralName.literal ++ ",",
    "  \x7d)",
    "\x7d",
    "",
    "export function use" ++ r.displayName ++ "Window(pageSize = 100) \x7b",
    "  return useWindowedQuery<" ++ r.typeName ++ ">(\x7b",
    "    url: " ++ r.pluralName ++ "ParquetUrl,",
    "    table: " ++ r.pluralName.literal ++ ",",
    "    pageSize,",
    "  \x7d)",
    "\x7d"]

/-- The collection file of a resource. -/
def collection (r : Resource) : Text :=
  Text.unlines (if r.isParquet then parquetCollection r else apiCollection r)

end Artifact

end Scaffold
