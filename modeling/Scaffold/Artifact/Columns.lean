import Scaffold.Artifact.Code
import Scaffold.Value.Display

/-!
# The table columns file

The columns of the list of records: the fields that the configuration names under
`table.columns`, or all visible ones.  `cellHelper?` chooses how the cells of a column are shown;
the helpers in use are imported.
-/

namespace Scaffold

namespace Artifact

open Code

/-- The fields of these names, in the order of the names; names of no field are left out. -/
def namedFields (r : Resource) (names : List Value) : List Field :=
  (names.filterMap Value.text?).filterMap r.field?

/-- The fields that have a column. -/
def columnFields (r : Resource) : List Field :=
  let names := ((r.config.get? "table").getD .null).members.get? "columns"
  match names with
  | some (.list (v :: vs)) => namedFields r (v :: vs)
  | _ => r.visibleFields

/-- The helper that shows the cells of a column. -/
def cellHelper? (f : Field) : Option Text :=
  let input := f.inputType
  if input = "currency" then some "currencyCell"
  else if input = "date" then some "dateCell"
  else if input = "datetime" then some "dateTimeCell"
  else if input = "checkbox" then some "booleanCell"
  else if input = "select" then some "badgeCell"
  else none

/-- The cell helpers of some fields, each once and in alphabetical order. -/
def cellHelpers (fields : List Field) : List Text :=
  (fields.filterMap cellHelper?).eraseDups.mergeSort Text.le

/-- The width of a column, if it is a number. -/
def columnWidth? (f : Field) : Option Number :=
  match f.metadata.get? "columnWidth" with
  | some (.number n) => some n
  | _ => none

/-- The definition of one column. -/
def column (f : Field) : List Text :=
  let cell : List Text :=
    match cellHelper? f with
    | some helper => ["    cell: " ++ helper ++ "(" ++ f.name.literal ++ "),"]
    | none => []
  let size : List Text :=
    match columnWidth? f with
    | some n => ["    size: " ++ n.display ++ ","]
    | none => []
  let sorting : List Text :=
    if f.metadata.holds "sortable" false then ["    enableSorting: false,"] else []
  let filtering : List Text :=
    if f.metadata.holds "filterable" true then ["    enableColumnFilter: true,"] else []
  List.flatten [
    ["  \x7b",
      "    accessorKey: " ++ f.name.literal ++ ",",
      "    header: (\x7b column \x7d) => <SortableHeader column=\x7bcolumn\x7d title="
        ++ f.label.literal ++ " />,"],
    cell, size, sorting, filtering, ["  \x7d,"]]

/-- The columns file of a resource. -/
def columns (r : Resource) : Text :=
  let fields := columnFields r
  Text.unlines <| List.flatten [
    [header,
      importTypeLine "ColumnDef" "@tanstack/react-table",
      importLine (Text.join ", " ("SortableHeader" :: cellHelpers fields))
        "@/components/tables/_column-helpers",
      importTypeLine r.typeName (collectionModule r),
      "",
      "export const " ++ r.name ++ "Columns: ColumnDef<" ++ r.typeName ++ ">[] = ["],
    fields.flatMap column, ["]"]]

/-- The values whose decimal text the columns file shows. -/
def columnsShown (r : Resource) : List Value :=
  (columnFields r).filterMap fun f => (columnWidth? f).map Value.number

end Artifact

end Scaffold
