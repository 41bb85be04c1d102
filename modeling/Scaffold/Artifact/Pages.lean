import Scaffold.Artifact.Code

/-!
# The page files

The pages of a resource: the list of records (`listPage`), a page to create a record (`newPage`) and
one to change it (`editPage`).  The list of records in a parquet file has no button for a new one.
-/

namespace Scaffold

namespace Artifact

open Code

/-- The import of the collection object of a resource. -/
def collectionImport (r : Resource) : Text := importLine r.collectionName "@/collections"

/-- The line that declares the route of a page below the path of its resource. -/
def routeLine (r : Resource) (page : Text) : Text :=
  "export const Route = createFileRoute('/_app/" ++ r.pluralName ++ "/" ++ page ++ "')(\x7b"

/-- The import of the page header. -/
def pageHeaderImport : Text := importLine "PageHeader" "@/components/shared/page-header"

/-- The page that lists the records. -/
def listPage (r : Resource) : Text :=
  let table : Text := if r.isParquet then "DataTableVirtual" else "DataTableFull"
  let tableModule : Text :=
    if r.isParquet then "@/components/shared/data-table-virtual"
    else "@/components/shared/data-table-full"
  let dataImport : List Text :=
    if r.isParquet then [importLine ("use" ++ r.displayName) (collectionModule r)]
    else [importLine "useLiveQuery" "@tanstack/react-db", collectionImport r]
  let dataHook : Text :=
    if r.isParquet then "use" ++ r.displayName ++ "()"
    else "useLiveQuery((q) => q.from(" ++ spaced ("item: " ++ r.collectionName) ++ "))"
  let newButton : List Text :=
    if r.isParquet then []
    else ["        <Link to=\"/" ++ r.pluralName ++ "/new\" className=\"btn btn-primary\">New "
      ++ r.name.markup ++ "</Link>"]
  Text.unlines <| List.flatten [
    [header,
      importLine "createFileRoute, Link" "@tanstack/react-router"],
    dataImport,
    [importLine table tableModule,
      pageHeaderImport,
      importLine (r.name ++ "Columns as columns") (columnsModule r),
      "",
      routeLine r "",
      "  component: " ++ r.displayName ++ "Page,",
      "\x7d)",
      "",
      "function " ++ r.displayName ++ "Page() \x7b",
      "  const \x7b data, isLoading \x7d = " ++ dataHook,
      "  return (",
      "    <div className=\"flex flex-col gap-4\">",
      "      <PageHeader title=\"" ++ r.displayName.markup ++ "\" description=\""
        ++ r.describe.markup ++ "\">"],
    newButton,
    ["      </PageHeader>",
      "      <" ++ table ++ " columns=\x7bcolumns\x7d data=\x7bdata ?? []\x7d"
        ++ " loading=\x7bisLoading\x7d />",
      "    </div>",
      "  )",
      "\x7d"]]

/-- The imports of a page with a form. -/
def formPageImports (r : Resource) : List Text :=
  [collectionImport r,
    importLine (r.typeName ++ "Form") (formModule r),
    pageHeaderImport,
    ""]

/-- The line that leads back to the list. -/
def navigateLine (r : Resource) : Text :=
  "          navigate(" ++ spaced ("to: '/" ++ r.pluralName ++ "'") ++ ")"

/-- The page that creates a record. -/
def newPage (r : Resource) : Text :=
  Text.unlines <| List.flatten [
    [header,
      importLine "createFileRoute, useNavigate" "@tanstack/react-router"],
    formPageImports r,
    [routeLine r "new",
      "  component: New" ++ r.typeName ++ "Page,",
      "\x7d)",
      "",
      "function New" ++ r.typeName ++ "Page() \x7b",
      "  const navigate = useNavigate()",
      "  return (",
      "    <div className=\"flex flex-col gap-4\">",
      "      <PageHeader title=\"New " ++ r.name.markup ++ "\" />",
      "      <" ++ r.typeName ++ "Form",
      "        onSubmit=\x7b(values) => \x7b",
      "          " ++ r.collectionName ++ ".insert("
        ++ spaced ("...values, " ++ r.primaryKey ++ ": crypto.randomUUID()") ++ ")",
      navigateLine r,
      "        \x7d\x7d",
      "      />",
      "    </div>",
      "  )",
      "\x7d"]]

/-- The route parameter that names a record. -/
def recordParameter (r : Resource) : Text := r.name ++ "Id"

/-- The page that changes a record. -/
def editPage (r : Resource) : Text :=
  let parameter := recordParameter r
  Text.unlines <| List.flatten [
    [header,
      importLine "createFileRoute, useNavigate" "@tanstack/react-router",
      importLine "eq, useLiveQuery" "@tanstack/react-db"],
    formPageImports r,
    [routeLine r ("$" ++ parameter),
      "  component: Edit" ++ r.typeName ++ "Page,",
      "\x7d)",
      "",
      "function Edit" ++ r.typeName ++ "Page() \x7b",
      "  const " ++ spaced parameter ++ " = Route.useParams()",
      "  const navigate = useNavigate()",
      "  const \x7b data \x7d = useLiveQuery((q) =>",
      "    q",
      "      .from(" ++ spaced ("item: " ++ r.collectionName) ++ ")",
      "      .where((\x7b item \x7d) => eq(item." ++ r.primaryKey ++ ", " ++ parameter ++ "))",
      "  )",
      "  const record = data?.[0]",
      "  if (!record) \x7b",
      "    return <div className=\"text-muted-foreground\">" ++ r.typeName.markup
        ++ " not found</div>",
      "  \x7d",
      "  return (",
      "    <div className=\"flex flex-col gap-4\">",
      "      <PageHeader title=\"Edit " ++ r.name.markup ++ "\" />",
      "      <" ++ r.typeName ++ "Form",
      "        defaultValues=\x7brecord\x7d",
      "        onSubmit=\x7b(values) => \x7b",
      "          " ++ r.collectionName ++ ".update(" ++ parameter
        ++ ", (draft) => Object.assign(draft, values))",
      navigateLine r,
      "        \x7d\x7d",
      "      />",
      "    </div>",
      "  )",
      "\x7d"]]

end Artifact

end Scaffold
