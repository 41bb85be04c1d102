import Scaffold.Artifact.Analytics
import Scaffold.Artifact.Collection
import Scaffold.Artifact.Form
import Scaffold.Artifact.Pages
import Scaffold.Proofs.Artifact.Module

/-!
# What the files of a resource import and export

For a resource whose names are identifiers (`Resource.HasNames`), the imports of each of its files
are known, whatever its configuration and its fields are (`Resource.HasNames.imports_listPage` and
its kin), and so are the names that its collection, its form and its columns export.
-/

namespace Scaffold

open Code Text

/-- The module through which all collections are reached. -/
def Code.allCollections : Text := "@/collections"

/-- The names of the resource are identifiers. -/
structure Resource.HasNames (r : Resource) : Prop where
  /-- Its name is one. -/
  name : r.name.IsName
  /-- The name of several is one. -/
  pluralName : r.pluralName.IsName
  /-- The name of the variable is one. -/
  varName : r.varName.IsName

namespace Resource.HasNames

variable {r : Resource}

theorem typeName (h : r.HasNames) : r.typeName.IsName := h.name.capitalize

theorem displayName (h : r.HasNames) : r.displayName.IsName := h.pluralName.capitalize

theorem collectionName (h : r.HasNames) : r.collectionName.IsName :=
  h.pluralName.append (by decide)

theorem isBare_collectionModule (h : r.HasNames) : IsBare (collectionModule r) :=
  isBare_around (by decide) h.pluralName (by decide)

theorem isBare_schemaModule (h : r.HasNames) : IsBare (schemaModule r) :=
  isBare_around (by decide) h.name (by decide)

theorem isBare_formModule (h : r.HasNames) : IsBare (formModule r) :=
  isBare_around (by decide) h.name (by decide)

theorem isBare_columnsModule (h : r.HasNames) : IsBare (columnsModule r) :=
  isBare_around (by decide) h.name (by decide)

end Resource.HasNames

variable {r : Resource} {x t : Text}

/-! ### What the files export -/

/-- A file exports what one of its lines declares. -/
theorem mem_exports_of_line (line kind rest : Text) {ls : List Text}
    (hkind : kind ∈ declarationKinds) (hx : x.IsName)
    (hrest : ∀ c ∈ rest.head?, c.isNamePart = false) (hline : rest.IsInline) (hmem : line ∈ ls)
    (heq : line = Text.ofString "export " ++ kind ++ (x ++ rest)) : x ∈ exports (unlines ls) :=
  mem_exports_unlines hkind hx hrest hline (heq ▸ hmem)

namespace Resource.HasNames

variable (hr : r.HasNames)

include hr

/-- The line that exports the type of a record. -/
theorem mem_exports_typeLine {ls : List Text}
    (h : Text.ofString "export type " ++ r.typeName ++ " = typeof " ++ r.varName ++ ".type" ∈ ls) :
    r.typeName ∈ exports (unlines ls) := by
  refine mem_exports_of_line _ "type " (" = typeof " ++ r.varName ++ ".type")
    (by decide) hr.typeName (by rintro c ⟨⟩; rfl) ?_ h (by simp [ofString])
  simp only [isInline_append]
  exact ⟨⟨by decide, hr.varName.isInline⟩, by decide⟩

theorem typeName_mem_collection : r.typeName ∈ exports (Artifact.collection r) := by
  rw [Artifact.collection]
  cases h : r.isParquet
  · exact hr.mem_exports_typeLine (by simp [Artifact.apiCollection])
  · exact hr.mem_exports_typeLine (by simp [Artifact.parquetCollection])

theorem collectionName_mem_collection (h : r.isParquet = false) :
    r.collectionName ∈ exports (Artifact.collection r) := by
  rw [Artifact.collection, h, if_neg Bool.false_ne_true]
  refine mem_exports_of_line ("export const " ++ r.collectionName ++ " = createCollection(")
    "const " " = createCollection(" (by decide) hr.collectionName (by rintro c ⟨⟩; rfl) (by decide)
    ?_ (by simp [ofString])
  simp [Artifact.apiCollection]

theorem url_mem_collection (h : r.isParquet = true) :
    r.pluralName ++ "ParquetUrl" ∈ exports (Artifact.collection r) := by
  rw [Artifact.collection, h, if_pos rfl]
  refine mem_exports_of_line ("export const " ++ r.pluralName ++ "ParquetUrl =") "const " " ="
    (by decide) (hr.pluralName.append (by decide)) (by rintro c ⟨⟩; rfl) (by decide) ?_
    (by simp [ofString])
  simp [Artifact.parquetCollection]

theorem hook_mem_collection (h : r.isParquet = true) :
    Text.ofString "use" ++ r.displayName ∈ exports (Artifact.collection r) := by
  rw [Artifact.collection, h, if_pos rfl]
  refine mem_exports_of_line ("export function use" ++ r.displayName ++ "(sql?: string) \x7b")
    "function " "(sql?: string) \x7b" (by decide) (.append (by decide) hr.displayName)
    (by rintro c ⟨⟩; rfl) (by decide) ?_
    (by simp [ofString])
  simp [Artifact.parquetCollection]

theorem form_mem_form : r.typeName ++ "Form" ∈ exports (Artifact.form r) := by
  rw [Artifact.form]
  refine mem_exports_of_line
    ("export function " ++ r.typeName ++ "Form(\x7b defaultValues, onSubmit \x7d: "
      ++ r.typeName ++ "FormProps) \x7b")
    "function " ("(\x7b defaultValues, onSubmit \x7d: " ++ r.typeName ++ "FormProps) \x7b")
    (by decide) (hr.typeName.append (by decide)) (by rintro c ⟨⟩; rfl) ?_ ?_ (by simp [ofString])
  · simp only [isInline_append]
    exact ⟨⟨by decide, hr.typeName.isInline⟩, by decide⟩
  · simp

theorem columns_mem_columns : r.name ++ "Columns" ∈ exports (Artifact.columns r) := by
  rw [Artifact.columns]
  refine mem_exports_of_line
    ("export const " ++ r.name ++ "Columns: ColumnDef<" ++ r.typeName ++ ">[] = [")
    "const " (": ColumnDef<" ++ r.typeName ++ ">[] = [") (by decide) (hr.name.append (by decide))
    (by rintro c ⟨⟩; rfl) ?_ ?_ (by simp [ofString])
  · simp only [isInline_append]
    exact ⟨⟨by decide, hr.typeName.isInline⟩, by decide⟩
  · simp

end Resource.HasNames

/-! ### What the files import -/

theorem isBare_join {between : Text} (hbetween : IsBare between) {ts : List Text}
    (h : ∀ t ∈ ts, IsBare t) : IsBare (Text.join between ts) := by
  induction ts using Text.join.induct with
  | case1 => exact ⟨List.not_mem_nil, isInline_nil⟩
  | case2 t => exact h t (List.mem_singleton_self t)
  | case3 t u ts ih =>
    rw [List.forall_mem_cons] at h
    exact isBare_append.2 ⟨isBare_append.2 ⟨h.1, hbetween⟩, ih h.2⟩

namespace Artifact

/-- What holds of each helper, by looking at all of them. -/
theorem of_cellHelper? {P : Text → Prop} {f : Field} {helper : Text}
    (hall : ∀ x ∈ (["currencyCell", "dateCell", "dateTimeCell", "booleanCell", "badgeCell"] :
      List Text), P x) (h : cellHelper? f = some helper) : P helper := by
  rw [cellHelper?] at h
  split_ifs at h <;> exact hall _ (Option.some.inj h ▸ by decide)

theorem mem_cellHelpers {fields : List Field} {helper : Text} :
    helper ∈ cellHelpers fields ↔ helper ∈ fields.filterMap cellHelper? := by
  rw [cellHelpers, List.mem_mergeSort, List.mem_eraseDups]

theorem isName_cellHelpers (fields : List Field) : ∀ x ∈ cellHelpers fields, x.IsName := by
  intro x hx
  obtain ⟨f, -, hf⟩ := List.mem_filterMap.1 (mem_cellHelpers.1 hx)
  exact of_cellHelper? (by decide) hf

/-- What holds of each icon component, by looking at all of them. -/
theorem of_namedIcon? {P : Text → Prop} {m : Members} {icon : Text}
    (hall : ∀ e ∈ iconComponents, P e.2) (h : namedIcon? m = some icon) : P icon := by
  obtain ⟨e, he, rfl⟩ := Option.map_eq_some_iff.1 h
  exact hall e (List.mem_of_find?_eq_some he)

theorem mem_iconImports {figures : List Members} {icon : Text} : icon ∈ iconImports figures ↔
    icon = defaultIcon ∨ ∃ m ∈ figures, namedIcon? m = some icon := by
  rw [iconImports, List.mem_cons, List.mem_mergeSort, List.mem_eraseDups, List.mem_filter,
    List.mem_filterMap, decide_eq_true_iff]
  constructor
  · rintro (h | ⟨h, -⟩)
    · exact .inl h
    · exact .inr h
  · intro h
    by_cases hdefault : icon = defaultIcon
    · exact .inl hdefault
    · exact .inr ⟨h.resolve_left hdefault, hdefault⟩

theorem isName_iconImports (figures : List Members) : ∀ x ∈ iconImports figures, x.IsName := by
  intro x hx
  rcases mem_iconImports.1 hx with rfl | ⟨m, -, hm⟩
  · decide
  · exact of_namedIcon? (P := Text.IsName) (by decide) hm

end Artifact

theorem isBare_cellHelpers (fields : List Field) : ∀ t ∈ Artifact.cellHelpers fields, IsBare t :=
  fun t ht => isBare_of_isName (Artifact.isName_cellHelpers fields t ht)

theorem isBare_iconImports (figures : List Members) :
    ∀ t ∈ Artifact.iconImports figures, IsBare t :=
  fun t ht => isBare_of_isName (Artifact.isName_iconImports figures t ht)

theorem imports_analyticsHooks (ls : List Text) :
    imports (unlines (Text.ofString "import \x7b" :: Text.ofString "  useGroupedAnalytics," ::
      Text.ofString "  useKPIMetrics," :: Text.ofString "  useTimeSeriesAnalytics," ::
      Text.ofString "\x7d from '@/hooks/use-analytics-query'" :: ls)) =
    ⟨[Text.ofString "useGroupedAnalytics", Text.ofString "useKPIMetrics",
      Text.ofString "useTimeSeriesAnalytics"], Text.ofString "@/hooks/use-analytics-query"⟩ ::
      imports (unlines ls) := by
  -- the import goes over five lines, and only the last one completes it
  simp only [imports, unlines_cons]
  rw [lines_inline_append (by decide), lines_inline_append (by decide),
    lines_inline_append (by decide), lines_inline_append (by decide),
    lines_inline_append (by decide)]
  rw [importsFrom_of_none (by decide +kernel) (by decide +kernel) (by decide +kernel),
    importsFrom_of_none (by decide +kernel) (by decide +kernel) (by decide +kernel),
    importsFrom_of_none (by decide +kernel) (by decide +kernel) (by decide +kernel),
    importsFrom_of_none (by decide +kernel) (by decide +kernel) (by decide +kernel)]
  exact importsFrom_of_some (by decide +kernel) (by decide +kernel) (by decide +kernel) _

/-- The first imports of an analytics page, whose icons are those of a clause. -/
theorem imports_analyticsLines {icons : Text} (hicons : IsBare icons) (ls : List Text) :
    imports (unlines (header :: importLine "createFileRoute" "@tanstack/react-router" ::
      importLine icons "@tabler/icons-react" :: Text.ofString "import \x7b" ::
      Text.ofString "  useGroupedAnalytics," :: Text.ofString "  useKPIMetrics," ::
      Text.ofString "  useTimeSeriesAnalytics," ::
      Text.ofString "\x7d from '@/hooks/use-analytics-query'" ::
      importLine "Card, CardContent, CardHeader, CardTitle" "@/components/ui/card" ::
      importLine "AnalyticsChart" "@/components/charts/analytics-chart" ::
      importLine "formatCurrency, formatNumber" "@/lib/utils" :: ls)) =
    ⟨["createFileRoute"], "@tanstack/react-router"⟩ ::
      ⟨clauseNames (spaced icons), "@tabler/icons-react"⟩ ::
      ⟨["useGroupedAnalytics", "useKPIMetrics", "useTimeSeriesAnalytics"],
        "@/hooks/use-analytics-query"⟩ ::
      ⟨["Card", "CardContent", "CardHeader", "CardTitle"], "@/components/ui/card"⟩ ::
      ⟨["AnalyticsChart"], "@/components/charts/analytics-chart"⟩ ::
      ⟨["formatCurrency", "formatNumber"], "@/lib/utils"⟩ :: imports (unlines ls) := by
  have hcard : clauseNames (spaced "Card, CardContent, CardHeader, CardTitle") =
      (["Card", "CardContent", "CardHeader", "CardTitle"] : List Text) :=
    clauseNames_fixed (by decide)
  have hformat : clauseNames (spaced "formatCurrency, formatNumber") =
      (["formatCurrency", "formatNumber"] : List Text) :=
    clauseNames_fixed (by decide)
  rw [imports_header, imports_fixed (by decide) (by decide),
    imports_importLine hicons (isBare_fixed (by decide)), imports_analyticsHooks,
    imports_importLine (isBare_fixed (by decide)) (isBare_fixed (by decide)),
    imports_fixed (by decide) (by decide),
    imports_importLine (isBare_fixed (by decide)) (isBare_fixed (by decide)), hcard, hformat]

namespace Resource.HasNames

variable (hr : r.HasNames)

include hr

theorem imports_form : imports (Artifact.form r) =
    [⟨["useForm"], "@tanstack/react-form"⟩,
      ⟨["FormField"], "@/components/forms/_form-field"⟩,
      ⟨["RelationCombobox"], "@/components/forms/_relation-combobox"⟩,
      ⟨["Button"], "@/components/ui/button"⟩,
      ⟨[r.varName], schemaModule r⟩,
      ⟨[r.typeName], collectionModule r⟩] := by
  rw [Artifact.form]
  simp only [List.flatten_cons, List.cons_append, ofString_empty]
  rw [imports_header, imports_fixed (by decide) (by decide), imports_fixed (by decide) (by decide),
    imports_fixed (by decide) (by decide), imports_fixed (by decide) (by decide),
    imports_importLine (isBare_of_isName hr.varName) hr.isBare_schemaModule,
    imports_importTypeLine (isBare_of_isName hr.typeName) hr.isBare_collectionModule,
    imports_empty_line, clauseNames_name hr.varName, clauseNames_type hr.typeName]

theorem imports_columns : imports (Artifact.columns r) =
    [⟨["ColumnDef"], "@tanstack/react-table"⟩,
      ⟨clauseNames (spaced (Text.join ", "
        ("SortableHeader" :: Artifact.cellHelpers (Artifact.columnFields r)))),
        "@/components/tables/_column-helpers"⟩,
      ⟨[r.typeName], collectionModule r⟩] := by
  have hhelpers : IsBare (Text.join ", "
      ("SortableHeader" :: Artifact.cellHelpers (Artifact.columnFields r))) :=
    isBare_join (by decide) (List.forall_mem_cons.2 ⟨by decide, isBare_cellHelpers _⟩)
  rw [Artifact.columns]
  simp only [List.flatten_cons, List.cons_append, ofString_empty]
  rw [imports_header, imports_importTypeLine (isBare_fixed (by decide)) (isBare_fixed (by decide)),
    imports_importLine hhelpers (isBare_fixed (by decide)),
    imports_importTypeLine (isBare_of_isName hr.typeName) hr.isBare_collectionModule,
    imports_empty_line, clauseNames_type hr.typeName,
    clauseNames_type (of_ofList IsName (by decide))]

theorem clauseNames_columns :
    clauseNames (spaced (r.name ++ "Columns as columns")) = [r.name ++ "Columns"] := by
  have hsplit : r.name ++ Text.ofString "Columns as columns" =
      r.name ++ "Columns" ++ " as " ++ "columns" := by
    simp [ofString]
  have htype : ¬ Text.ofString "Columns" <:+ Text.ofString "type" := by decide
  rw [hsplit]
  exact clauseNames_renamed (hr.name.append (by decide)) (fun h => htype ⟨_, h⟩) (by decide)

theorem clauseNames_url : clauseNames (spaced (r.pluralName ++ "ParquetUrl as DATA_URL")) =
    [r.pluralName ++ "ParquetUrl"] := by
  have hsplit : r.pluralName ++ Text.ofString "ParquetUrl as DATA_URL" =
      r.pluralName ++ "ParquetUrl" ++ " as " ++ "DATA_URL" := by
    simp [ofString]
  have htype : ¬ Text.ofString "ParquetUrl" <:+ Text.ofString "type" := by decide
  rw [hsplit]
  exact clauseNames_renamed (hr.pluralName.append (by decide)) (fun h => htype ⟨_, h⟩) (by decide)

theorem imports_listPage : imports (Artifact.listPage r) =
    ⟨["createFileRoute", "Link"], "@tanstack/react-router"⟩ ::
    ((if r.isParquet then
      [⟨["use" ++ r.displayName], collectionModule r⟩,
        ⟨["DataTableVirtual"], "@/components/shared/data-table-virtual"⟩]
    else
      [⟨["useLiveQuery"], "@tanstack/react-db"⟩, ⟨[r.collectionName], allCollections⟩,
        ⟨["DataTableFull"], "@/components/shared/data-table-full"⟩]) ++
    [⟨["PageHeader"], "@/components/shared/page-header"⟩,
      ⟨[r.name ++ "Columns"], columnsModule r⟩]) := by
  have hcolumns : IsBare (r.name ++ "Columns as columns") :=
    isBare_append.2 ⟨isBare_of_isName hr.name, by decide⟩
  have hhook : (Text.ofString "use" ++ r.displayName).IsName := .append (by decide) hr.displayName
  have hroute : clauseNames (spaced "createFileRoute, Link") =
      (["createFileRoute", "Link"] : List Text) :=
    clauseNames_fixed (by decide)
  rw [Artifact.listPage]
  cases h : r.isParquet
  · simp only [List.flatten_cons, List.cons_append, List.nil_append, ofString_empty,
      Bool.false_eq_true, if_false, Artifact.collectionImport, Artifact.pageHeaderImport]
    rw [imports_header, imports_importLine (isBare_fixed (by decide)) (isBare_fixed (by decide)),
      imports_fixed (by decide) (by decide),
      imports_importLine (isBare_of_isName hr.collectionName) (isBare_fixed (by decide)),
      imports_fixed (by decide) (by decide), imports_fixed (by decide) (by decide),
      imports_importLine hcolumns hr.isBare_columnsModule, imports_empty_line, hroute,
      hr.clauseNames_columns, clauseNames_name hr.collectionName, allCollections]
  · simp only [List.flatten_cons, List.cons_append, List.nil_append, ofString_empty,
      if_true, Artifact.pageHeaderImport]
    rw [imports_header, imports_importLine (isBare_fixed (by decide)) (isBare_fixed (by decide)),
      imports_importLine (isBare_of_isName hhook) hr.isBare_collectionModule,
      imports_fixed (by decide) (by decide), imports_fixed (by decide) (by decide),
      imports_importLine hcolumns hr.isBare_columnsModule, imports_empty_line, hroute,
      hr.clauseNames_columns, clauseNames_name hhook]

theorem imports_formPageImports (ls : List Text) :
    imports (unlines (Artifact.formPageImports r ++ ls)) =
      [⟨[r.collectionName], allCollections⟩, ⟨[r.typeName ++ "Form"], formModule r⟩,
        ⟨["PageHeader"], "@/components/shared/page-header"⟩] := by
  have hform : (r.typeName ++ "Form").IsName := hr.typeName.append (by decide)
  simp only [Artifact.formPageImports, Artifact.collectionImport, Artifact.pageHeaderImport,
    List.cons_append, ofString_empty]
  rw [imports_importLine (isBare_of_isName hr.collectionName) (isBare_fixed (by decide)),
    imports_importLine (isBare_of_isName hform) hr.isBare_formModule,
    imports_fixed (by decide) (by decide), imports_empty_line,
    clauseNames_name hr.collectionName, clauseNames_name hform, allCollections]

theorem imports_newPage : imports (Artifact.newPage r) =
    [⟨["createFileRoute", "useNavigate"], "@tanstack/react-router"⟩,
      ⟨[r.collectionName], allCollections⟩, ⟨[r.typeName ++ "Form"], formModule r⟩,
      ⟨["PageHeader"], "@/components/shared/page-header"⟩] := by
  have hroute : clauseNames (spaced "createFileRoute, useNavigate") =
      (["createFileRoute", "useNavigate"] : List Text) :=
    clauseNames_fixed (by decide)
  rw [Artifact.newPage, List.flatten_cons, List.flatten_cons, List.cons_append, List.cons_append,
    List.nil_append, imports_header,
    imports_importLine (isBare_fixed (by decide)) (isBare_fixed (by decide)), hroute,
    hr.imports_formPageImports]

theorem imports_editPage : imports (Artifact.editPage r) =
    [⟨["createFileRoute", "useNavigate"], "@tanstack/react-router"⟩,
      ⟨["eq", "useLiveQuery"], "@tanstack/react-db"⟩,
      ⟨[r.collectionName], allCollections⟩, ⟨[r.typeName ++ "Form"], formModule r⟩,
      ⟨["PageHeader"], "@/components/shared/page-header"⟩] := by
  have hroute : clauseNames (spaced "createFileRoute, useNavigate") =
      (["createFileRoute", "useNavigate"] : List Text) :=
    clauseNames_fixed (by decide)
  have hquery : clauseNames (spaced "eq, useLiveQuery") =
      (["eq", "useLiveQuery"] : List Text) :=
    clauseNames_fixed (by decide)
  rw [Artifact.editPage, List.flatten_cons, List.flatten_cons, List.cons_append, List.cons_append,
    List.cons_append, List.nil_append, imports_header,
    imports_importLine (isBare_fixed (by decide)) (isBare_fixed (by decide)),
    imports_importLine (isBare_fixed (by decide)) (isBare_fixed (by decide)), hroute, hquery,
    hr.imports_formPageImports]

theorem imports_analyticsPage (h : Artifact.analyticsPage? r = some t) : imports t =
    [⟨["createFileRoute"], "@tanstack/react-router"⟩,
      ⟨clauseNames (spaced (Text.join ", " (Artifact.iconImports (Artifact.keyFigures r)))),
        "@tabler/icons-react"⟩,
      ⟨["useGroupedAnalytics", "useKPIMetrics", "useTimeSeriesAnalytics"],
        "@/hooks/use-analytics-query"⟩,
      ⟨["Card", "CardContent", "CardHeader", "CardTitle"], "@/components/ui/card"⟩,
      ⟨["AnalyticsChart"], "@/components/charts/analytics-chart"⟩,
      ⟨["formatCurrency", "formatNumber"], "@/lib/utils"⟩,
      ⟨[r.pluralName ++ "ParquetUrl"], collectionModule r⟩] := by
  have hicons : IsBare (Text.join ", " (Artifact.iconImports (Artifact.keyFigures r))) :=
    isBare_join (by decide) (isBare_iconImports _)
  have hurl : IsBare (r.pluralName ++ "ParquetUrl as DATA_URL") :=
    isBare_append.2 ⟨isBare_of_isName hr.pluralName, by decide⟩
  rw [Artifact.analyticsPage?] at h
  split at h
  · obtain rfl := Option.some.inj h
    simp only [List.flatten_cons, List.cons_append, List.nil_append, ofString_empty]
    rw [imports_analyticsLines hicons, imports_importLine hurl hr.isBare_collectionModule,
      imports_empty_line, hr.clauseNames_url]
  · cases h

theorem imports_collection : imports (Artifact.collection r) =
    (if r.isParquet then [⟨["useDuckDBQuery", "useWindowedQuery"], "@/hooks/use-duckdb-query"⟩]
    else
      [⟨["createCollection"], "@tanstack/react-db"⟩,
        ⟨["queryCollectionOptions"], "@tanstack/query-db-collection"⟩,
        ⟨["apiClient"], "@/api/client"⟩, ⟨["queryClient"], "@/lib/query-client"⟩]) ++
    [⟨[r.varName], schemaModule r⟩] := by
  have hhooks : clauseNames (spaced "useDuckDBQuery, useWindowedQuery") =
      (["useDuckDBQuery", "useWindowedQuery"] : List Text) :=
    clauseNames_fixed (by decide)
  rw [Artifact.collection]
  cases h : r.isParquet
  · simp only [Bool.false_eq_true, if_false, Artifact.apiCollection, List.flatten_cons,
      List.cons_append, List.nil_append, ofString_empty]
    rw [imports_header, imports_fixed (by decide) (by decide),
      imports_fixed (by decide) (by decide), imports_fixed (by decide) (by decide),
      imports_fixed (by decide) (by decide),
      imports_importLine (isBare_of_isName hr.varName) hr.isBare_schemaModule, imports_empty_line,
      clauseNames_name hr.varName]
  · simp only [if_true, Artifact.parquetCollection, List.cons_append, List.nil_append,
      ofString_empty]
    rw [imports_header, imports_importLine (isBare_fixed (by decide)) (isBare_fixed (by decide)),
      imports_importLine (isBare_of_isName hr.varName) hr.isBare_schemaModule, imports_empty_line,
      clauseNames_name hr.varName, hhooks]

end Resource.HasNames

end Scaffold
