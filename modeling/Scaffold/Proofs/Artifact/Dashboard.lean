import Mathlib.Data.List.Nodup
import Scaffold.Proofs.Artifact.Cards

/-!
# What the analytics page imports and declares

A page consists of a beginning that depends on the names of the resource and on the icons
(`Artifact.pageHead`), and of the parts that are made from figures and charts
(`Artifact.Dashboard`).  These are linked (`Artifact.Dashboard.IsLinked`): the icons that are
imported are those of the cards, the card of a figure reads the metric of this figure, and the card
of a chart uses the variables that the hook of this chart declares, and no other hook does.
`Artifact.uses_linked` says so of every page, together with what the columns file imports.
-/

namespace Scaffold

open CodePoint

namespace Artifact

open Code Text

/-! ### No variable is declared twice -/

/-- The variables that a hook declares. -/
def Hook.variables (h : Hook) : List Text := [h.data, h.loading]

/-- The variables that the card of a chart uses. -/
def ChartCard.variables (c : ChartCard) : List Text := [c.data, c.loading]

/-- A variable tells the kind of its chart and the position, whatever ends it. -/
theorem eq_of_variable_eq {k l : ChartKind} {i j : Nat} {s t : Text}
    (hs : ∀ c ∈ s.head?, c.isAsciiDigit = false) (ht : ∀ c ∈ t.head?, c.isAsciiDigit = false)
    (h : k.name ++ (Text.ofNat i ++ s) = l.name ++ (Text.ofNat j ++ t)) : k = l ∧ i = j := by
  -- the digits begin where the name ends, and end where the ending begins
  have hname (k : ChartKind) (n : Nat) (s : Text) :
      spanWhile (fun c => !c.isAsciiDigit) (k.name ++ (Text.ofNat n ++ s)) =
        (k.name, Text.ofNat n ++ s) := by
    refine spanWhile_append (by cases k <;> decide) fun c hc => ?_
    have hne : Text.ofNat n ≠ [] := by simp [Text.ofNat, Nat.toDigits_ne_nil]
    rw [List.head?_append_of_ne_nil _ hne] at hc
    simp [isAsciiDigit_of_mem_ofNat (List.mem_of_mem_head? hc)]
  have hdigits {n : Nat} {s : Text} (hs : ∀ c ∈ s.head?, c.isAsciiDigit = false) :
      spanWhile isAsciiDigit (Text.ofNat n ++ s) = (Text.ofNat n, s) :=
    spanWhile_append (fun c hc => isAsciiDigit_of_mem_ofNat hc) hs
  have hsplit := congrArg (spanWhile fun c => !c.isAsciiDigit) h
  rw [hname, hname, Prod.mk.injEq] at hsplit
  have hnumber := congrArg (spanWhile isAsciiDigit) hsplit.2
  rw [hdigits hs, hdigits ht, Prod.mk.injEq] at hnumber
  refine ⟨?_, ofNat_inj hnumber.1⟩
  have hnames : ∀ k l : ChartKind, k.name = l.name → k = l := by
    rintro (_ | _) (_ | _) heq
    · rfl
    · exact absurd heq (by decide)
    · exact absurd heq (by decide)
    · rfl
  exact hnames k l hsplit.1

theorem Chart.exists_of_mem_variables {c : Chart} {v : Text} (h : v ∈ c.hook.variables) :
    ∃ ending : Text, (∀ d ∈ ending.head?, d.isAsciiDigit = false) ∧
      v = c.kind.name ++ (Text.ofNat c.position ++ ending) := by
  rw [Hook.variables, List.mem_cons, List.mem_singleton] at h
  rcases h with rfl | rfl
  · exact ⟨"Data", by decide, List.append_assoc _ _ _⟩
  · exact ⟨"Loading", by decide, List.append_assoc _ _ _⟩

/-- The charts of a resource, in the order of their cards. -/
def charts (r : Resource) : List Chart :=
  ((numbered (groupedCharts r)).map fun (i, m) => ⟨.grouped, i, m⟩) ++
    (numbered (timeSeriesCharts r)).map fun (i, m) => ⟨.timeSeries, i, m⟩

/-- No two charts have the same kind and the same position. -/
theorem nodup_places (r : Resource) : ((charts r).map fun c => (c.kind, c.position)).Nodup := by
  have hplaces (k : ChartKind) (ms : List Members) :
      ((numbered ms).map fun (i, m) => (⟨k, i, m⟩ : Chart)).map (fun c => (c.kind, c.position)) =
        (List.range ms.length).map fun i => (k, i) := by
    simp only [numbered, List.map_map]
    rw [List.range_eq_range', ← List.zipIdx_map_snd 0 ms, List.map_map]
    rfl
  rw [charts, List.map_append, hplaces, hplaces, List.nodup_append]
  have hkind (k : ChartKind) (n : Nat) : ((List.range n).map fun i => (k, i)).Nodup :=
    List.Nodup.map (fun _ _ h => (Prod.mk.inj h).2) List.nodup_range
  refine ⟨hkind _ _, hkind _ _, fun a ha b hb => ?_⟩
  obtain ⟨i, -, rfl⟩ := List.mem_map.1 ha
  obtain ⟨j, -, rfl⟩ := List.mem_map.1 hb
  exact fun h => ChartKind.noConfusion (Prod.mk.inj h).1

/-- The variables that the card of a chart uses are declared by the hook of this chart, and by no
other hook. -/
theorem variables_iff {r : Resource} {i j : Nat} {a b : Chart} (ha : (charts r)[i]? = some a)
    (hb : (charts r)[j]? = some b) {v : Text} (hv : v ∈ a.card.variables) :
    v ∈ b.hook.variables ↔ i = j := by
  constructor
  · intro hv'
    obtain ⟨s, hs, rfl⟩ := Chart.exists_of_mem_variables (c := a) hv
    obtain ⟨t, ht, heq⟩ := Chart.exists_of_mem_variables hv'
    obtain ⟨hkind, hposition⟩ := eq_of_variable_eq hs ht heq
    -- charts of one kind and one position are one chart
    have hi : i < ((charts r).map fun c => (c.kind, c.position)).length := by
      rw [List.length_map]
      exact (List.getElem?_eq_some_iff.1 ha).1
    refine (List.getElem?_inj hi (nodup_places r)).1 ?_
    rw [List.getElem?_map, List.getElem?_map, ha, hb, Option.map_some, Option.map_some, hkind,
      hposition]
  · rintro rfl
    rw [ha] at hb
    obtain rfl := Option.some.inj hb
    exact hv

/-! ### The page -/

/-- The parts of an analytics page that are made from its figures and charts. -/
structure Dashboard where
  /-- The lines of the metrics. -/
  metrics : Text
  /-- The hooks of the charts. -/
  hooks : List Text
  /-- The cards of the figures. -/
  figureCards : List Text
  /-- The cards of the charts. -/
  chartCards : List Text

/-- The parts in their places. -/
def Dashboard.text (d : Dashboard) : Text :=
  unlines ["    metrics: ["] ++ d.metrics ++ unlines ["    ],", "  \x7d)"] ++ d.hooks.flatten ++
    unlines ["", "  return (", "    <div className=\"flex flex-col gap-4\">",
      "      <div className=\"grid gap-4 md:grid-cols-4\">"] ++ d.figureCards.flatten ++
    unlines ["      </div>", "      <div className=\"grid gap-4 md:grid-cols-2\">"] ++
    d.chartCards.flatten ++ unlines ["      </div>", "    </div>", "  )", "\x7d"]

theorem Dashboard.isClosed_text (d : Dashboard) : d.text.IsClosed :=
  isClosed_append (isClosed_unlines _) fun h => by cases h

/-- The lines of the page in front of these parts. -/
def pageHead (r : Resource) (icons : List Text) : List Text :=
  [header,
    importLine "createFileRoute" "@tanstack/react-router",
    importLine (Text.join ", " icons) "@tabler/icons-react",
    "import \x7b",
    "  useGroupedAnalytics,",
    "  useKPIMetrics,",
    "  useTimeSeriesAnalytics,",
    "\x7d from '@/hooks/use-analytics-query'",
    importLine "Card, CardContent, CardHeader, CardTitle" "@/components/ui/card",
    importLine "AnalyticsChart" "@/components/charts/analytics-chart",
    importLine "formatCurrency, formatNumber" "@/lib/utils",
    importLine (r.pluralName ++ "ParquetUrl as DATA_URL") (collectionModule r),
    "",
    "export const Route = createFileRoute('/_app/" ++ r.pluralName ++ "/analytics')(\x7b",
    "  component: " ++ r.displayName ++ "AnalyticsPage,",
    "\x7d)",
    "",
    "function " ++ r.displayName ++ "AnalyticsPage() \x7b",
    "  const \x7b data: kpis, isLoading: kpisLoading \x7d = useKPIMetrics(\x7b",
    "    baseUrl: DATA_URL,"]

/-- The first imports of the page. -/
def pageImports (icons : List Text) : List Import :=
  [⟨["createFileRoute"], "@tanstack/react-router"⟩,
    ⟨icons, "@tabler/icons-react"⟩,
    ⟨["useGroupedAnalytics", "useKPIMetrics", "useTimeSeriesAnalytics"],
      "@/hooks/use-analytics-query"⟩,
    ⟨cardComponents, "@/components/ui/card"⟩,
    ⟨["AnalyticsChart"], "@/components/charts/analytics-chart"⟩,
    ⟨["formatCurrency", "formatNumber"], "@/lib/utils"⟩]

/-- The parts that are made from the figures and charts of a resource. -/
def dashboard (r : Resource) : Dashboard where
  metrics := unlines (metrics (keyFigures r))
  hooks := (charts r).map Chart.hookText
  figureCards := (numbered (keyFigures r)).map fun (i, m) => unlines (figureCard i m)
  chartCards := (charts r).map Chart.cardText

theorem unlines_flatMap {α : Type} (f : α → List Text) (xs : List α) :
    unlines (xs.flatMap f) = (xs.map fun x => unlines (f x)).flatten := by
  induction xs with
  | nil => rfl
  | cons x xs ih => rw [List.flatMap_cons, unlines_append, ih, List.map_cons, List.flatten_cons]

theorem analyticsPage?_eq (r : Resource) : analyticsPage? r =
    if r.analyticsEnabled then
      some (unlines (pageHead r (iconImports (keyFigures r))) ++ (dashboard r).text)
    else none := by
  rw [analyticsPage?]
  split_ifs
  · refine congrArg some ?_
    -- the line that opens the list of metrics belongs to the parts
    change unlines (List.flatten ((pageHead r (iconImports (keyFigures r)) ++
      [Text.ofString "    metrics: ["]) :: _)) = _
    simp only [List.flatten_cons, unlines_append, unlines_flatMap, dashboard, Dashboard.text,
      charts, List.map_append, List.map_map, List.flatten_append, List.append_assoc,
      List.flatten_nil, List.append_nil]
    rfl
  · rfl

theorem imports_pageHead (r : Resource) (icons : List Text) (hne : icons ≠ [])
    (h : ∀ x ∈ icons, x.IsName) (ls : List Text) :
    ∃ rest, imports (unlines (pageHead r icons ++ ls)) = pageImports icons ++ rest := by
  have hicons : IsBare (Text.join ", " icons) :=
    isBare_join (by decide) fun x hx => isBare_of_isName (h x hx)
  simp only [pageHead, List.cons_append]
  rw [imports_analyticsLines hicons, clauseNames_join hne h]
  exact ⟨_, rfl⟩

/-- What the parts of a page use is there, and is there once: the icons that are imported, the
metrics of the figures, and the hooks of the charts. -/
structure Dashboard.IsLinked (d : Dashboard) (icons : List Text) (figures : List Members)
    (charts : List Chart) : Prop where
  /-- No icon is imported twice. -/
  nodup_icons : icons.Nodup
  /-- The icons of the cards are imported, and besides them one icon at most. -/
  mem_icons : ∀ icon, icon ∈ icons ↔ icon = "IconActivity" ∨
    ∃ card ∈ d.figureCards, icon ∈ components card ∧ icon ∉ cardComponents
  /-- The metric at a position is that of the figure at this position. -/
  metrics : d.metrics.lines.map Metric.read? =
    (numbered figures).map fun (i, m) => some (.ofFigure i m)
  /-- The card at a position is that of the figure at this position, and reads this metric. -/
  figureCards : d.figureCards.map FigureCard.read? =
    (numbered figures).map fun (i, m) => some (.ofFigure i m)
  /-- The hooks are those of the charts. -/
  hooks : d.hooks.map Hook.read? = charts.map fun c => some c.hook
  /-- The cards are those of the charts, in the same order. -/
  chartCards : d.chartCards.map ChartCard.read? = charts.map fun c => some c.card
  /-- A variable that the card of a chart uses is declared by the hook of this chart, and by no
  other. -/
  declares_iff : ∀ (i j : Nat) (a b : Chart), charts[i]? = some a → charts[j]? = some b →
    ∀ v ∈ a.card.variables, v ∈ b.hook.variables ↔ i = j

theorem dashboard_isLinked (r : Resource) :
    (dashboard r).IsLinked (iconImports (keyFigures r)) (keyFigures r) (charts r) where
  nodup_icons := nodup_iconImports _
  mem_icons := mem_iconImports_iff (keyFigures r)
  metrics := map_read?_metrics (keyFigures r)
  figureCards := by
    rw [dashboard, List.map_map]
    exact List.map_congr_left fun e _ => FigureCard.read?_card e.1 e.2
  hooks := by
    rw [dashboard, List.map_map]
    exact List.map_congr_left fun c _ => c.read?_hook
  chartCards := by
    rw [dashboard, List.map_map]
    exact List.map_congr_left fun c _ => c.read?_card
  declares_iff _ _ _ _ ha hb _ hv := variables_iff ha hb hv

end Artifact

end Scaffold
