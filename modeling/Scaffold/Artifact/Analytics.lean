import Scaffold.Artifact.Code
import Scaffold.Value.Display

/-!
# The analytics page

A page of key figures and charts for a resource whose records are in a parquet file.  The
configuration lists key figures, grouped charts and time series under `analytics`; items of these
lists that are no objects are left out.  Each figure and chart is an object whose missing settings
have defaults (`textOr`), and the hooks, metrics and cards are made from the same lists in the same
order.
-/

namespace Scaffold

namespace Artifact

open Code

/-- The objects among the items of a list; any other value has none. -/
def objectsOf (v : Option Value) : List Members :=
  (v.getD .null).items.filterMap fun
    | .object m => some m
    | _ => none

/-- The key figures. -/
def keyFigures (r : Resource) : List Members := objectsOf (r.analytics.get? "kpis")

/-- The charts of groups. -/
def groupedCharts (r : Resource) : List Members := objectsOf (r.analytics.get? "groupedCharts")

/-- The charts over time. -/
def timeSeriesCharts (r : Resource) : List Members :=
  objectsOf (r.analytics.get? "timeSeriesCharts")

/-- The setting of a key as a value, or the text `default` if it is not there. -/
def valueOr (m : Members) (key default : Text) : Value := (m.get? key).getD (.text default)

/-- The setting of a key as displayed text, or `default` if it is not there. -/
def textOr (m : Members) (key default : Text) : Text := (valueOr m key default).display

/-- The setting of a key as a string literal. -/
def literalOr (m : Members) (key default : Text) : Text := (textOr m key default).literal

/-- The setting of a key if it is an integer, and `default` otherwise. -/
def integerOr (m : Members) (key : Text) (default : Int) : Int :=
  match m.get? key with
  | some (.number (.integer i)) => i
  | _ => default

/-- Pairs each item with its position. -/
def numbered {α : Type} (items : List α) : List (Nat × α) := items.zipIdx.map fun (x, i) => (i, x)

/-- The icon components by the names that configurations use. -/
def iconComponents : List (Text × Text) :=
  [("DollarSign", "IconCurrencyDollar"), ("ShoppingCart", "IconShoppingCart"),
    ("TrendingUp", "IconTrendingUp"), ("Clock", "IconClock"), ("Users", "IconUsers"),
    ("Package", "IconPackage"), ("FileText", "IconFileText"), ("Activity", "IconActivity"),
    ("BarChart", "IconChartBar"), ("PieChart", "IconChartPie"), ("Hash", "IconHash"),
    ("Percent", "IconPercentage")]

/-- The icon component that a key figure names. -/
def namedIcon? (m : Members) : Option Text :=
  let name := ((m.get? "icon").getD .null).display
  (iconComponents.find? (·.1 = name)).map (·.2)

/-- The icon component of figures that name none. -/
def defaultIcon : Text := "IconActivity"

/-- The icon components to import: the default one, then the others in alphabetical order. -/
def iconImports (figures : List Members) : List Text :=
  defaultIcon ::
    (((figures.filterMap namedIcon?).filter (· ≠ defaultIcon)).eraseDups.mergeSort Text.le)

/-- The metric of the key figure at position `i`. -/
def metric (i : Nat) (m : Members) : Text :=
  "    " ++ spaced
    ("name: " ++ literalOr m "name" ("kpi" ++ Text.ofNat i) ++ ", sql: "
      ++ literalOr m "sql" "COUNT(*)" ++ ", label: " ++ literalOr m "label" "" ++ ", format: "
      ++ literalOr m "format" "number")

/-- The metrics of all key figures, divided by commas. -/
def metrics (figures : List Members) : List Text :=
  match figures with
  | [] => []
  | _ => [Text.join ",\n" ((numbered figures).map fun (i, m) => metric i m)]

/-- The variable that holds the data of the chart at position `i` of its list. -/
def chartData (list : Text) (i : Nat) : Text := list ++ Text.ofNat i ++ "Data"

/-- The variable that tells whether the chart at position `i` of its list is being loaded. -/
def chartLoading (list : Text) (i : Nat) : Text := list ++ Text.ofNat i ++ "Loading"

/-- The first line of the hook of a chart. -/
def hookLine (list hook : Text) (i : Nat) : Text :=
  "  const " ++ spaced ("data: " ++ chartData list i ++ ", isLoading: " ++ chartLoading list i)
    ++ " = " ++ hook ++ "(\x7b"

/-- The name of the list of grouped charts in variables. -/
def groupedName : Text := "grouped"

/-- The name of the list of time series in variables. -/
def timeSeriesName : Text := "timeSeries"

/-- The hook of the grouped chart at position `i`. -/
def groupedHook (i : Nat) (m : Members) : List Text :=
  [hookLine groupedName "useGroupedAnalytics" i,
    "    baseUrl: DATA_URL,",
    "    groupBy: " ++ literalOr m "groupBy" "" ++ ",",
    "    metric: " ++ literalOr m "metric" "count" ++ ",",
    "    metricSql: " ++ literalOr m "metricSql" "COUNT(*)" ++ ",",
    "    limit: " ++ Text.ofInt (integerOr m "limit" 10) ++ ",",
    "  \x7d)"]

/-- The hook of the time series at position `i`. -/
def timeSeriesHook (i : Nat) (m : Members) : List Text :=
  [hookLine timeSeriesName "useTimeSeriesAnalytics" i,
    "    baseUrl: DATA_URL,",
    "    dateField: " ++ literalOr m "dateField" "created_at" ++ ",",
    "    metric: " ++ literalOr m "metric" "count" ++ ",",
    "    metricSql: " ++ literalOr m "metricSql" "COUNT(*)" ++ ",",
    "    granularity: " ++ literalOr m "granularity" "month" ++ ",",
    "  \x7d)"]

/-- The function that formats a key figure. -/
def formatter (m : Members) : Text :=
  match m.get? "format" with
  | some (.text t) => if t = "currency" then "formatCurrency" else "formatNumber"
  | _ => "formatNumber"

/-- The card of the key figure at position `i`. -/
def figureCard (i : Nat) (m : Members) : List Text :=
  ["        <Card>",
    "          <CardHeader><CardTitle>" ++ (textOr m "label" "").markup ++ "</CardTitle><"
      ++ (namedIcon? m).getD defaultIcon ++ " className=\"h-4 w-4\" /></CardHeader>",
    "          <CardContent>" ++ braced ("kpisLoading ? '...' : " ++ formatter m
      ++ "(Number(kpis[" ++ Text.ofNat i ++ "]?.value ?? 0))") ++ "</CardContent>",
    "        </Card>"]

/-- The card of the chart at position `i` of its list. -/
def chartCard (list : Text) (i : Nat) (m : Members) : List Text :=
  ["        <Card>",
    "          <CardHeader><CardTitle>" ++ (textOr m "title" "").markup
      ++ "</CardTitle></CardHeader>",
    "          <CardContent>",
    "            <AnalyticsChart type=" ++ literalOr m "type" "bar" ++ " data="
      ++ braced (chartData list i ++ " ?? []") ++ " loading=" ++ braced (chartLoading list i)
      ++ " />",
    "          </CardContent>",
    "        </Card>"]

/-- The analytics page of a resource, if it wants one. -/
def analyticsPage? (r : Resource) : Option Text :=
  if r.analyticsEnabled then
    let figures := keyFigures r
    let grouped := numbered (groupedCharts r)
    let series := numbered (timeSeriesCharts r)
    some <| Text.unlines <| List.flatten [
      [header,
        importLine "createFileRoute" "@tanstack/react-router",
        importLine (Text.join ", " (iconImports figures)) "@tabler/icons-react",
        "import \x7b",
        "  useGroupedAnalytics,",
        "  useKPIMetrics,",
        "  useTimeSeriesAnalytics,",
        "\x7d from '@/hooks/use-analytics-query'",
        importLine "Card, CardContent, CardHeader, CardTitle" "@/components/ui/card",
        importLine "AnalyticsChart" "@/components/charts/analytics-chart",
        importLine "formatCurrency, formatNumber" "@/lib/utils",
        importLine (r.pluralName ++ "ParquetUrl as DATA_URL") (collectionModule r),
        "",
        "export const Route = createFileRoute('/_app/" ++ r.pluralName ++ "/analytics')(\x7b",
        "  component: " ++ r.displayName ++ "AnalyticsPage,",
        "\x7d)",
        "",
        "function " ++ r.displayName ++ "AnalyticsPage() \x7b",
        "  const \x7b data: kpis, isLoading: kpisLoading \x7d = useKPIMetrics(\x7b",
        "    baseUrl: DATA_URL,",
        "    metrics: ["],
      metrics figures,
      ["    ],",
        "  \x7d)"],
      grouped.flatMap fun (i, m) => groupedHook i m,
      series.flatMap fun (i, m) => timeSeriesHook i m,
      ["",
        "  return (",
        "    <div className=\"flex flex-col gap-4\">",
        "      <div className=\"grid gap-4 md:grid-cols-4\">"],
      (numbered figures).flatMap fun (i, m) => figureCard i m,
      ["      </div>",
        "      <div className=\"grid gap-4 md:grid-cols-2\">"],
      grouped.flatMap fun (i, m) => chartCard groupedName i m,
      series.flatMap fun (i, m) => chartCard timeSeriesName i m,
      ["      </div>",
        "    </div>",
        "  )",
        "\x7d"]]
  else none

/-- The values of an analytics page that are shown as text. -/
def analyticsShown (r : Resource) : List Value :=
  if r.analyticsEnabled then
    List.flatten [
      (keyFigures r).flatMap fun m =>
        [(m.get? "icon").getD .null, valueOr m "name" "", valueOr m "sql" "",
          valueOr m "label" "", valueOr m "format" ""],
      (groupedCharts r).flatMap fun m =>
        [valueOr m "groupBy" "", valueOr m "metric" "", valueOr m "metricSql" "",
          .number (.integer (integerOr m "limit" 10)), valueOr m "title" "",
          valueOr m "type" ""],
      (timeSeriesCharts r).flatMap fun m =>
        [valueOr m "dateField" "", valueOr m "metric" "", valueOr m "metricSql" "",
          valueOr m "granularity" "", valueOr m "title" "", valueOr m "type" ""]]
  else []

end Artifact

end Scaffold
