import Scaffold.Proofs.Artifact.Cells
import Scaffold.Proofs.Token.Lexing

/-!
# The cards of the analytics page

The parts of the page that are made from its figures and charts are read from their text: a metric
from its line (`Artifact.Metric.read?`), the card of a figure (`Artifact.FigureCard.read?`) with the
components whose tags open in it (`Artifact.components`), the hook of a chart
(`Artifact.Hook.read?`) and its card (`Artifact.ChartCard.read?`).  Each is read as what the figure
or the chart was given, whatever that is.

A card is read from behind, up to the expressions in braces there (`Artifact.lastBraced?`): a title
has no braces, but the type of a chart may have any.
-/

namespace Scaffold

open CodePoint

namespace Artifact

open Code Text

/-! ### Reading the parts of a page -/

/-- The last expression in braces, and the text in front of it. -/
def lastBraced? (t : Text) : Option (Text × Text) :=
  (upTo? (.scalar '\x7d') t.reverse).bind fun (_, t) =>
    (upTo? (.scalar '\x7b') t).map fun (expression, before) => (expression.reverse, before.reverse)

theorem lastBraced?_append {expression after : Text} (hexpression : .scalar '\x7b' ∉ expression)
    (hafter : .scalar '\x7d' ∉ after) (before : Text) :
    lastBraced? (before ++ braced expression ++ after) = some (expression, before) := by
  have hreverse : (before ++ braced expression ++ after).reverse =
      after.reverse ++ CodePoint.scalar '\x7d' ::
        (expression.reverse ++ CodePoint.scalar '\x7b' :: before.reverse) := by
    simp [braced, ofString]
  rw [lastBraced?, hreverse, upTo?_append (by simpa using hafter)]
  simp only [Option.bind_some, upTo?_append (List.mem_reverse.not.2 hexpression), Option.map_some,
    List.reverse_reverse]

/-- The string literal that a text begins with, and what follows it. -/
def string? : Text → Option (Text × Text)
  | .scalar '\'' :: t =>
    match scanString (.scalar '\'') (t.length + 1) t with
    | .ok s => some (s.value, s.rest)
    | .error _ => none
  | _ => none

theorem string?_literal (t rest : Text) : string? (t.literal ++ rest) = some (t, rest) := by
  have hwritten : t.literal ++ rest =
      CodePoint.scalar '\'' :: (t.flatMap literalPart ++ .scalar '\'' :: rest) := by
    simp [literal, ofString]
  obtain ⟨s, hs, hvalue, hrest⟩ := readsString_literalPart t rest
    ((t.flatMap literalPart ++ .scalar '\'' :: rest).length + 1)
  rw [hwritten, string?, hs]
  exact congrArg some (Prod.ext hvalue hrest)

/-! ### Metrics and cards of figures -/

/-- A metric of the page, as its line shows it. -/
structure Metric where
  /-- The name of the metric. -/
  name : Text
  /-- The expression that computes it. -/
  sql : Text
  /-- What it is called. -/
  label : Text
  /-- How it is shown. -/
  format : Text

/-- The metric that a line begins with. -/
def Metric.read? (line : Text) : Option Metric := do
  let t ← dropStart? "    \x7b name: " line
  let (name, t) ← string? t
  let t ← dropStart? ", sql: " t
  let (sql, t) ← string? t
  let t ← dropStart? ", label: " t
  let (label, t) ← string? t
  let t ← dropStart? ", format: " t
  let (format, t) ← string? t
  let _ ← dropStart? " \x7d" t
  some ⟨name, sql, label, format⟩

/-- The metric of the key figure at position `i`. -/
def Metric.ofFigure (i : Nat) (m : Members) : Metric where
  name := textOr m "name" ("kpi" ++ Text.ofNat i)
  sql := textOr m "sql" "COUNT(*)"
  label := textOr m "label" ""
  format := textOr m "format" "number"

theorem Metric.read?_metric (i : Nat) (m : Members) (rest : Text) :
    Metric.read? (metric i m ++ rest) = some (.ofFigure i m) := by
  have hline : metric i m ++ rest =
      "    \x7b name: " ++ (literalOr m "name" ("kpi" ++ Text.ofNat i) ++
      (", sql: " ++ (literalOr m "sql" "COUNT(*)" ++ (", label: " ++ (literalOr m "label" "" ++
        (", format: " ++ (literalOr m "format" "number" ++ (" \x7d" ++ rest)))))))) := by
    simp [metric, spaced, ofString]
  rw [hline, Metric.read?]
  simp only [Option.bind_eq_bind, Option.bind_some, dropStart?_append, literalOr, string?_literal]
  rfl

theorem isInline_metric (i : Nat) (m : Members) : (metric i m).IsInline := by
  simp only [metric, spaced, literalOr, isInline_append]
  refine ⟨by decide, ⟨by decide, ?_⟩, by decide⟩
  exact ⟨⟨⟨⟨⟨⟨⟨by decide, isInline_literal _⟩, by decide⟩, isInline_literal _⟩, by decide⟩,
    isInline_literal _⟩, by decide⟩, isInline_literal _⟩

/-- What is written line by line with commas between the lines is read line by line. -/
theorem map_lines_join {α β : Type} {write : α → Text} {read : Text → β} {value : α → β}
    (hinline : ∀ x, (write x).IsInline) (hread : ∀ x rest, read (write x ++ rest) = value x)
    (x : α) (xs : List α) :
    (lines (Text.join ",\n" ((x :: xs).map write) ++ "\n")).map read = (x :: xs).map value := by
  induction xs generalizing x with
  | nil =>
    have hlines : lines (write x ++ newline :: []) = [write x ++ [newline]] :=
      lines_inline_append (hinline x)
    exact (congrArg (List.map read) hlines).trans (congrArg (· :: []) (hread x _))
  | cons y ys ih =>
    -- the comma ends the line of `x`, and what reads the line leaves it alone
    have hinline' : (write x ++ ",").IsInline := isInline_append.2 ⟨hinline x, by decide⟩
    have hsplit : Text.join ",\n" ((x :: y :: ys).map write) ++ "\n" =
        (write x ++ ",") ++ newline :: (Text.join ",\n" ((y :: ys).map write) ++ "\n") := by
      simp [Text.join, ofString]
    rw [hsplit, lines_inline_append hinline', List.map_cons, ih, List.append_assoc, hread]
    rfl

/-- The lines of the metrics are read as the metrics of the key figures, in their order. -/
theorem map_read?_metrics (figures : List Members) :
    (unlines (metrics figures)).lines.map Metric.read? =
      (numbered figures).map fun (i, m) => some (.ofFigure i m) := by
  have hinline (e : Nat × Members) : (metric e.1 e.2).IsInline := isInline_metric e.1 e.2
  have hread (e : Nat × Members) (rest : Text) :
      Metric.read? (metric e.1 e.2 ++ rest) = some (.ofFigure e.1 e.2) :=
    Metric.read?_metric e.1 e.2 rest
  cases figures with
  | nil => rfl
  | cons m ms =>
    have hne : numbered (m :: ms) ≠ [] := by simp [numbered]
    obtain ⟨e, es, hnumbered⟩ := List.exists_cons_of_ne_nil hne
    have hmetrics : unlines (metrics (m :: ms)) =
        Text.join ",\n" ((e :: es).map fun e => metric e.1 e.2) ++ "\n" := by
      have hjoin : metrics (m :: ms) =
          [Text.join ",\n" ((numbered (m :: ms)).map fun e => metric e.1 e.2)] := rfl
      rw [hjoin, hnumbered]
      simp [unlines]
    rw [hmetrics, hnumbered]
    exact map_lines_join hinline hread e es

/-- The card of a key figure, as it is read. -/
structure FigureCard where
  /-- The label, as between tags. -/
  label : Text
  /-- The function that formats the figure. -/
  formatter : Text
  /-- The position of the figure among those of the page. -/
  position : Text

/-- The card of a key figure that a text is. -/
def FigureCard.read? (card : Text) : Option FigureCard := do
  let (expression, before) ← lastBraced? card
  let t ← dropStart? "kpisLoading ? '...' : " expression
  let (formatter, t) ← upTo? (.scalar '(') t
  let t ← dropStart? "Number(kpis[" t
  let (position, _) ← upTo? (.scalar ']') t
  let t ← dropStart? "        <Card>\n          <CardHeader><CardTitle>" before
  let (label, _) ← upTo? (.scalar '<') t
  some ⟨label, formatter, position⟩

/-- The card of the key figure at position `i`. -/
def FigureCard.ofFigure (i : Nat) (m : Members) : FigureCard where
  label := (textOr m "label" "").markup
  formatter := Artifact.formatter m
  position := Text.ofNat i

theorem less_notMem_markup (t : Text) : .scalar '<' ∉ t.markup := fun hmem => by
  obtain ⟨c, -, hc⟩ := List.mem_flatMap.1 hmem
  rw [markupPart] at hc
  split_ifs at hc with _ _ hless
  · exact absurd hc (by decide)
  · exact absurd hc (by decide)
  · exact absurd hc (by decide)
  · exact absurd hc (by decide)
  · exact hless (List.mem_singleton.1 hc).symm

theorem of_formatter {P : Text → Prop} (m : Members)
    (hall : ∀ x ∈ (["formatCurrency", "formatNumber"] : List Text), P x) : P (formatter m) := by
  rw [formatter]
  split
  · split_ifs <;> exact hall _ (by decide)
  · exact hall _ (by decide)

/-- What holds of no digit holds of no position. -/
theorem notMem_ofNat {c : CodePoint} (hc : c.isAsciiDigit = false) (n : Nat) : c ∉ Text.ofNat n :=
  fun hmem => by
    rw [isAsciiDigit_of_mem_ofNat hmem] at hc
    cases hc

/-- A card begins and goes on with what its reader looks for. -/
theorem unlines_figureCard (i : Nat) (m : Members) : unlines (figureCard i m) =
    ("        <Card>\n          <CardHeader><CardTitle>" ++ ((textOr m "label" "").markup ++
      CodePoint.scalar '<' :: ("/CardTitle><" ++ ((namedIcon? m).getD defaultIcon ++
        (" className=\"h-4 w-4\" /></CardHeader>\n" ++ "          <CardContent>"))))) ++
    braced ("kpisLoading ? '...' : " ++ (Artifact.formatter m ++ CodePoint.scalar '(' ::
      ("Number(kpis[" ++ (Text.ofNat i ++ CodePoint.scalar ']' :: "?.value ?? 0))")))) ++
    ("</CardContent>\n" ++ "        </Card>\n") := by
  have htop : Text.ofString "        <Card>\n          <CardHeader><CardTitle>" =
    "        <Card>" ++ ("\n" ++ "          <CardHeader><CardTitle>") := by
    decide +kernel
  have htitle : Text.ofString "</CardTitle><" = .scalar '<' :: "/CardTitle><" := rfl
  have hicon : Text.ofString " className=\"h-4 w-4\" /></CardHeader>\n" =
    " className=\"h-4 w-4\" /></CardHeader>" ++ "\n" := by decide +kernel
  have hcall : Text.ofString "(Number(kpis[" = .scalar '(' :: "Number(kpis[" := rfl
  have hentry : Text.ofString "]?.value ?? 0))" = .scalar ']' :: "?.value ?? 0))" := rfl
  have hcontent : Text.ofString "</CardContent>\n" = "</CardContent>" ++ "\n" := rfl
  have hbottom : Text.ofString "        </Card>\n" = "        </Card>" ++ "\n" := rfl
  rw [htop, hicon, hcontent, hbottom, figureCard, htitle, hcall, hentry]
  simp only [unlines, List.flatMap_cons, List.flatMap_nil, List.append_nil, List.append_assoc,
    List.cons_append]

theorem FigureCard.read?_card (i : Nat) (m : Members) :
    FigureCard.read? (unlines (figureCard i m)) = some (.ofFigure i m) := by
  have hformatter : .scalar '\x7b' ∉ Artifact.formatter m ∧ .scalar '(' ∉ Artifact.formatter m :=
    of_formatter m (P := fun x => .scalar '\x7b' ∉ x ∧ .scalar '(' ∉ x) (by decide)
  -- no brace opens within the expression, so the last one in the card opens it
  have hexpression : .scalar '\x7b' ∉ Text.ofString "kpisLoading ? '...' : " ++
      (Artifact.formatter m ++ CodePoint.scalar '(' ::
        ("Number(kpis[" ++ (Text.ofNat i ++ CodePoint.scalar ']' :: "?.value ?? 0))"))) := by
    simp only [List.mem_append, List.mem_cons, not_or]
    exact ⟨by decide, hformatter.1, by decide, by decide, notMem_ofNat rfl i, by decide, by decide⟩
  rw [unlines_figureCard, FigureCard.read?, lastBraced?_append hexpression (by decide)]
  simp only [Option.bind_eq_bind, Option.bind_some, dropStart?_append, upTo?_append hformatter.2,
    upTo?_append (notMem_ofNat (c := .scalar ']') rfl i), upTo?_append (less_notMem_markup _)]
  rfl

/-! ### Components -/

/-- The components whose tags open in a text. -/
def components : Text → List Text
  | [] => []
  | c :: t =>
    if c = .scalar '<' ∧ t.head? ≠ some (.scalar '/') then t.takeWhile isWordLetter :: components t
    else components t

theorem components_append_of_notMem {s : Text} (h : .scalar '<' ∉ s) (t : Text) :
    components (s ++ t) = components t := by
  induction s with
  | nil => rfl
  | cons c s ih =>
    rw [List.mem_cons, not_or] at h
    rw [List.cons_append, components, if_neg fun hc => h.1 hc.1.symm, ih h.2]

theorem components_tag {name rest : Text} (hname : name.IsWord) (hrest : rest.EndsWord) :
    components (.scalar '<' :: (name ++ rest)) = name :: components rest := by
  have hopens : (name ++ rest).head? ≠ some (.scalar '/') := by
    obtain ⟨c, u, rfl, hc⟩ := hname.exists_cons
    rintro ⟨⟩
    exact absurd hc (by decide)
  rw [components, if_pos ⟨rfl, hopens⟩, takeWhile_append_of_endsWord hname hrest,
    components_append_of_notMem (hname.not_mem (by decide))]

theorem components_figureCard (i : Nat) (m : Members) : components (unlines (figureCard i m)) =
    (["Card", "CardHeader", "CardTitle", (namedIcon? m).getD defaultIcon, "CardContent"] :
      List Text) := by
  have hicon : ((namedIcon? m).getD defaultIcon).IsWord := by
    cases h : namedIcon? m with
    | none => decide
    | some icon => exact of_namedIcon? (P := Text.IsWord) (by decide) h
  have hcard : unlines (figureCard i m) =
      "        <Card>\n          <CardHeader><CardTitle>" ++ ((textOr m "label" "").markup ++
        ("</CardTitle>" ++ (CodePoint.scalar '<' :: ((namedIcon? m).getD defaultIcon ++
          (" className=\"h-4 w-4\" /></CardHeader>\n" ++ ("          <CardContent>\x7b" ++
            ("kpisLoading ? '...' : " ++ (formatter m ++ ("(Number(kpis[" ++ (Text.ofNat i ++
              ("]?.value ?? 0))\x7d</CardContent>\n" ++ "        </Card>\n"))))))))))) := by
    simp [figureCard, unlines, braced, ofString]
  -- piece by piece, since a tag may go on in the next one
  have hopening (t : Text) : components ("        <Card>\n          <CardHeader><CardTitle>" ++ t) =
      (["Card", "CardHeader", "CardTitle"] : List Text) ++ components t := rfl
  have hclosing (t : Text) : components ("</CardTitle>" ++ t) = components t := rfl
  have hheader (t : Text) : components (" className=\"h-4 w-4\" /></CardHeader>\n" ++ t) =
      components t := rfl
  have hcontent (t : Text) : components ("          <CardContent>\x7b" ++ t) =
      Text.ofString "CardContent" :: components t := rfl
  have hcall (t : Text) : components ("(Number(kpis[" ++ t) = components t := rfl
  have hend (t : Text) : components ("]?.value ?? 0))\x7d</CardContent>\n" ++ t) =
      components t := rfl
  have hformatter : .scalar '<' ∉ formatter m :=
    of_formatter (P := fun x => .scalar '<' ∉ x) m (by decide)
  rw [hcard, hopening, components_append_of_notMem (less_notMem_markup _), hclosing,
    components_tag hicon (by rintro c ⟨⟩; decide), hheader, hcontent,
    components_append_of_notMem (by decide), components_append_of_notMem hformatter, hcall,
    components_append_of_notMem (notMem_ofNat rfl i), hend]
  rfl

/-- The components that every card has, which all come from one module. -/
def cardComponents : List Text := ["Card", "CardContent", "CardHeader", "CardTitle"]

theorem nodup_iconImports (figures : List Members) : (iconImports figures).Nodup := by
  refine List.nodup_cons.2 ⟨fun h => ?_, (List.mergeSort_perm _ _).nodup_iff.2 (nodup_eraseDups _)⟩
  rw [List.mem_mergeSort, List.mem_eraseDups, List.mem_filter] at h
  exact of_decide_eq_true h.2 rfl

/-- The card of a figure has the components of every card, and an icon of its own. -/
theorem mem_components_figureCard {i : Nat} {m : Members} {x : Text} :
    (x ∈ components (unlines (figureCard i m)) ∧ x ∉ cardComponents) ↔
      x = (namedIcon? m).getD defaultIcon := by
  have hicon : (namedIcon? m).getD defaultIcon ∉ cardComponents := by
    cases h : namedIcon? m with
    | none => decide
    | some icon => exact of_namedIcon? (P := fun x => x ∉ cardComponents) (by decide) h
  rw [components_figureCard]
  constructor
  · simp only [List.mem_cons, List.not_mem_nil, or_false]
    rintro ⟨rfl | rfl | rfl | rfl | rfl, hx⟩
    · exact absurd (by decide) hx
    · exact absurd (by decide) hx
    · exact absurd (by decide) hx
    · rfl
    · exact absurd (by decide) hx
  · rintro rfl
    exact ⟨by simp, hicon⟩

theorem mem_numbered {α : Type} {items : List α} {x : α} (h : x ∈ items) :
    ∃ i, (i, x) ∈ numbered items := by
  obtain ⟨i, hi, rfl⟩ := List.getElem_of_mem h
  exact ⟨i, List.mem_map.2 ⟨(items[i], i), by simp [List.mem_zipIdx_iff_getElem?], rfl⟩⟩

theorem of_mem_numbered {α : Type} {items : List α} {e : Nat × α} (h : e ∈ numbered items) :
    e.2 ∈ items := by
  obtain ⟨⟨x, i⟩, he, rfl⟩ := List.mem_map.1 h
  exact List.mem_of_getElem? (List.mem_zipIdx_iff_getElem?.1 he)

/-- The icons that are imported are those of the cards, and the default one. -/
theorem mem_iconImports_iff (figures : List Members) (icon : Text) : icon ∈ iconImports figures ↔
    icon = defaultIcon ∨ ∃ card ∈ (numbered figures).map fun (i, m) => unlines (figureCard i m),
      icon ∈ components card ∧ icon ∉ cardComponents := by
  rw [mem_iconImports]
  constructor
  · rintro (h | ⟨m, hm, hicon⟩)
    · exact .inl h
    · obtain ⟨i, hi⟩ := mem_numbered hm
      refine .inr ⟨_, List.mem_map_of_mem hi, mem_components_figureCard.2 ?_⟩
      rw [hicon, Option.getD_some]
  · rintro (h | ⟨card, hcard, hicon⟩)
    · exact .inl h
    · obtain ⟨⟨i, m⟩, hm, rfl⟩ := List.mem_map.1 hcard
      have hicon := mem_components_figureCard.1 hicon
      cases h : namedIcon? m with
      | none =>
        rw [h] at hicon
        exact .inl hicon
      | some named =>
        rw [h] at hicon
        exact .inr ⟨m, of_mem_numbered hm, h.trans (congrArg some hicon.symm)⟩

/-! ### Charts -/

/-- A chart of groups, or one over time. -/
inductive ChartKind where
  /-- It shows groups. -/
  | grouped
  /-- It shows a course over time. -/
  | timeSeries
  deriving DecidableEq

/-- A chart of the page: its kind, its position among the charts of its kind, and its settings. -/
structure Chart where
  /-- What it shows. -/
  kind : ChartKind
  /-- Its position. -/
  position : Nat
  /-- Its settings. -/
  config : Members

/-- The name of a list of charts in variables. -/
def ChartKind.name : ChartKind → Text
  | grouped => groupedName
  | timeSeries => timeSeriesName

/-- The hook that gets the data of a chart. -/
def ChartKind.hook : ChartKind → Text
  | grouped => "useGroupedAnalytics"
  | timeSeries => "useTimeSeriesAnalytics"

namespace Chart

variable (c : Chart)

/-- The settings that a chart gives to its hook, as they are written. -/
def settings : List (Text × Text) :=
  match c.kind with
  | .grouped =>
    [("baseUrl", "DATA_URL"), ("groupBy", literalOr c.config "groupBy" ""),
      ("metric", literalOr c.config "metric" "count"),
      ("metricSql", literalOr c.config "metricSql" "COUNT(*)"),
      ("limit", Text.ofInt (integerOr c.config "limit" 10))]
  | .timeSeries =>
    [("baseUrl", "DATA_URL"), ("dateField", literalOr c.config "dateField" "created_at"),
      ("metric", literalOr c.config "metric" "count"),
      ("metricSql", literalOr c.config "metricSql" "COUNT(*)"),
      ("granularity", literalOr c.config "granularity" "month")]

/-- The text of the hook of a chart. -/
def hookText : Text :=
  unlines <| match c.kind with
    | .grouped => groupedHook c.position c.config
    | .timeSeries => timeSeriesHook c.position c.config

/-- The text of the card of a chart. -/
def cardText : Text := unlines (chartCard c.kind.name c.position c.config)

end Chart

/-- The hook of a chart, as it is read. -/
structure Hook where
  /-- The function that is called. -/
  function : Text
  /-- The variable that is declared for the data. -/
  data : Text
  /-- The variable that is declared for the progress. -/
  loading : Text
  /-- The settings, each a key and what is written behind it. -/
  settings : List (Text × Text)

/-- The setting that a line gives. -/
def setting? (line : Text) : Option (Text × Text) := do
  let t ← dropStart? "    " line
  let (key, t) ← upTo? (.scalar ':') t
  let value ← dropStart? " " t
  some (key, value.dropEnd ",\n")

/-- The hook that a text is. -/
def Hook.read? (hook : Text) : Option Hook := do
  let t ← dropStart? "  const \x7b data: " hook
  let (data, t) ← upTo? (.scalar ',') t
  let t ← dropStart? " isLoading: " t
  let (loading, t) ← upTo? (.scalar ' ') t
  let t ← dropStart? "\x7d = " t
  let (function, t) ← upTo? (.scalar '(') t
  some ⟨function, data, loading, t.lines.filterMap setting?⟩

/-- The card of a chart, as it is read. -/
structure ChartCard where
  /-- The title, as between tags. -/
  title : Text
  /-- The type of the chart, as it is written. -/
  type : Text
  /-- The variable that the data are taken from. -/
  data : Text
  /-- The variable that the progress is taken from. -/
  loading : Text

/-- The card of a chart that a text is.  The variables are read from behind, since nothing is known
about how the type is written. -/
def ChartCard.read? (card : Text) : Option ChartCard := do
  let (loading, t) ← lastBraced? card
  let (expression, t) ← lastBraced? t
  let (data, _) ← upTo? (.scalar ' ') expression
  let t ← dropStart? "        <Card>\n          <CardHeader><CardTitle>" t
  let (title, t) ← upTo? (.scalar '<') t
  let t ← dropStart?
    "/CardTitle></CardHeader>\n          <CardContent>\n            <AnalyticsChart type=" t
  some ⟨title, t.dropEnd " data=", data, loading⟩

namespace Chart

variable (c : Chart)

/-- The hook of a chart: it declares two variables. -/
def hook : Hook where
  function := c.kind.hook
  data := chartData c.kind.name c.position
  loading := chartLoading c.kind.name c.position
  settings := c.settings

/-- The card of a chart: it uses the variables of the hook. -/
def card : ChartCard where
  title := (textOr c.config "title" "").markup
  type := literalOr c.config "type" "bar"
  data := c.hook.data
  loading := c.hook.loading

/-- The variables of a chart are words. -/
theorem isWord_variable (ending : Text) (h : ending.IsWord) :
    (c.kind.name ++ Text.ofNat c.position ++ ending).IsWord := by
  have hname : c.kind.name.IsWord := by cases c.kind <;> decide
  refine ⟨by simp [h.1], fun d hd => ?_⟩
  simp only [List.mem_append] at hd
  rcases hd with (hd | hd) | hd
  · exact hname.2 d hd
  · simp [isWordLetter, isAsciiDigit_of_mem_ofNat hd]
  · exact h.2 d hd

theorem isWord_data : c.hook.data.IsWord := c.isWord_variable "Data" (by decide)

theorem isWord_loading : c.hook.loading.IsWord := c.isWord_variable "Loading" (by decide)

end Chart

/-- The line of a setting. -/
def settingLine (setting : Text × Text) : Text :=
  "    " ++ setting.1 ++ ": " ++ setting.2 ++ ","

theorem setting?_settingLine {setting : Text × Text} (hkey : .scalar ':' ∉ setting.1) :
    setting? (settingLine setting ++ [newline]) = some setting := by
  have hline : settingLine setting ++ [newline] =
      "    " ++ (setting.1 ++ CodePoint.scalar ':' :: (" " ++ (setting.2 ++ ",\n"))) := by
    simp [settingLine, ofString]
  rw [hline, setting?]
  simp only [Option.bind_eq_bind, Option.bind_some, dropStart?_append, upTo?_append hkey,
    dropEnd_append]

/-- The lines of a hook behind its first one, which ends in the first of them. -/
def settingLines (settings : List (Text × Text)) : List Text :=
  "\x7b" :: (settings.map settingLine ++ [Text.ofString "  \x7d)"])

/-- Settings are read from the lines that are written for them. -/
theorem filterMap_setting? {settings : List (Text × Text)}
    (hkey : ∀ s ∈ settings, .scalar ':' ∉ s.1) (hline : ∀ s ∈ settings, (settingLine s).IsInline) :
    (unlines (settingLines settings)).lines.filterMap setting? = settings := by
  have hinline : ∀ line ∈ settingLines settings, line.IsInline := by
    simp only [settingLines, List.forall_mem_cons, List.forall_mem_append, List.forall_mem_map]
    exact ⟨by decide, hline, by decide, List.forall_mem_nil _⟩
  have hsettings : settings.filterMap (setting? ∘ (· ++ [newline]) ∘ settingLine) = settings := by
    refine (List.filterMap_congr fun s hs => ?_).trans List.filterMap_some
    exact setting?_settingLine (hkey s hs)
  calc (unlines (settingLines settings)).lines.filterMap setting?
      = settings.filterMap (setting? ∘ (· ++ [newline]) ∘ settingLine) ++ [] := by
        rw [lines_unlines hinline, List.filterMap_map, settingLines,
          List.filterMap_cons_none (by rfl), List.filterMap_append, List.filterMap_map]
        rfl
    _ = settings := by rw [List.append_nil, hsettings]

namespace Chart

variable (c : Chart)

theorem keys_settings : ∀ s ∈ c.settings, .scalar ':' ∉ s.1 := by
  unfold settings
  cases c.kind <;> simp only [List.forall_mem_cons] <;>
    exact ⟨by decide, by decide, by decide, by decide, by decide, List.forall_mem_nil _⟩

theorem isInline_settings : ∀ s ∈ c.settings, (settingLine s).IsInline := by
  have hline {key : List Char} (hkey : Text.IsInline (key.map .scalar)) {value : Text}
      (hvalue : value.IsInline) : (settingLine (String.ofList key, value)).IsInline := by
    simp only [settingLine, isInline_append]
    exact ⟨⟨⟨⟨by decide, of_ofList IsInline hkey⟩, by decide⟩, hvalue⟩, by decide⟩
  have hliteral (key default : Text) : (literalOr c.config key default).IsInline :=
    isInline_literal _
  unfold settings
  cases c.kind with
  | grouped =>
    simp only [List.forall_mem_cons]
    exact ⟨by decide, hline (by decide) (hliteral _ _), hline (by decide) (hliteral _ _),
      hline (by decide) (hliteral _ _), hline (by decide) (isInline_ofInt _), List.forall_mem_nil _⟩
  | timeSeries =>
    simp only [List.forall_mem_cons]
    exact ⟨by decide, hline (by decide) (hliteral _ _), hline (by decide) (hliteral _ _),
      hline (by decide) (hliteral _ _), hline (by decide) (hliteral _ _), List.forall_mem_nil _⟩

theorem hookText_eq : c.hookText = "  const \x7b data: " ++ (c.hook.data ++ CodePoint.scalar ',' ::
    (" isLoading: " ++ (c.hook.loading ++ CodePoint.scalar ' ' :: ("\x7d = " ++ (c.kind.hook ++
      CodePoint.scalar '(' :: unlines (settingLines c.settings)))))) := by
  unfold hookText settings hook
  cases c.kind <;>
    simp [ChartKind.name, ChartKind.hook, groupedHook, timeSeriesHook, hookLine, spaced,
      settingLines, settingLine, unlines, ofString]

theorem read?_hook : Hook.read? c.hookText = some c.hook := by
  have hcall : .scalar '(' ∉ c.kind.hook := by cases c.kind <;> decide
  rw [hookText_eq, Hook.read?]
  simp only [Option.bind_eq_bind, Option.bind_some, dropStart?_append,
    upTo?_append (c.isWord_data.not_mem (c := .scalar ',') (by decide)),
    upTo?_append (c.isWord_loading.not_mem (c := .scalar ' ') (by decide)), upTo?_append hcall,
    filterMap_setting? c.keys_settings c.isInline_settings]
  rfl

/-- The type of a chart may have braces, but they stand in front of those of the variables. -/
theorem read?_card : ChartCard.read? c.cardText = some c.card := by
  have hcard : c.cardText =
      ("        <Card>\n          <CardHeader><CardTitle>" ++
        ((textOr c.config "title" "").markup ++ CodePoint.scalar '<' ::
          ("/CardTitle></CardHeader>\n          <CardContent>\n            <AnalyticsChart type=" ++
            (literalOr c.config "type" "bar" ++ " data=")))) ++
      braced (c.hook.data ++ CodePoint.scalar ' ' :: "?? []") ++ " loading=" ++
        braced c.hook.loading ++ (" />\n          </CardContent>\n" ++ "        </Card>\n") := by
    simp [cardText, chartCard, hook, braced, unlines, ofString]
  have hexpression : .scalar '\x7b' ∉ c.hook.data ++ CodePoint.scalar ' ' :: "?? []" :=
    List.not_mem_append (c.isWord_data.not_mem (by decide)) (by decide)
  rw [hcard, ChartCard.read?,
    lastBraced?_append (c.isWord_loading.not_mem (c := .scalar '\x7b') (by decide)) (by decide)]
  simp only [Option.bind_eq_bind, Option.bind_some, lastBraced?_append hexpression
      (show .scalar '\x7d' ∉ Text.ofString " loading=" by decide), dropStart?_append,
    upTo?_append (c.isWord_data.not_mem (c := .scalar ' ') (by decide)),
    upTo?_append (less_notMem_markup _), dropEnd_append]
  rfl

end Chart

end Artifact

end Scaffold
