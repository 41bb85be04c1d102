import Scaffold.Hub.Standard
import Scaffold.Proofs.Artifact.Interface
import Scaffold.Proofs.Artifact.Planning

/-!
# Generated files fit together

Four modules are made for a resource and imported by its files: its collection, its form, its
columns, and the module of all collections, in which the hub of the collections has a line for the
resource (`Code.generatedModules`).  What can be imported from them is what their files export, and
what that line passes on (`available`).  All that the files of the resource import from them is
there, and so is the collection that the registry and the client need (`standard_files_link`).

The records of a resource are behind an API or in a parquet file, and only in the first case the
collection file exports a collection object.  The list page and the hubs ask which case it is.  The
pages for a new record and for one record do not, and import the object in both cases
(`new_page_unlinked`).
-/

namespace Scaffold

open Code Text

/-! ### Where modules are -/

namespace Code

/-- The modules that are made for a resource, as far as other files import them. -/
def generatedModules (r : Resource) : List Text :=
  [allCollections, collectionModule r, formModule r, columnsModule r]

/-- The places where the file of a module may be. -/
def modulePlaces (source : Text) : List Text :=
  match dropStart? "@/" source with
  | some path => ["src/" ++ path ++ ".ts", "src/" ++ path ++ ".tsx"]
  | none => []

end Code

/-- The text that a planned file gets, if it gets one. -/
def PlannedFile.text? (f : PlannedFile) (r : Resource) : Option Text := (f.maker r).toOption.join

/-- What the planned files of a module export. -/
def exportsOf (files : List PlannedFile) (r : Resource) (source : Text) : List Text :=
  (files.filter fun f => (modulePlaces source).contains f.destination).flatMap fun f =>
    ((f.text? r).map exports).getD []

/-- The names that can be imported from a module; from the module of all collections those that its
line for the resource passes on. -/
def available (s : Settings) (files : List PlannedFile) (r : Resource) (source : Text) :
    List Text :=
  if source = allCollections then
    match reexport? ((Hub.collections s).entry r) with
    | some e =>
      let names := match dropStart? "./" e.source with
        | some path => exportsOf files r (allCollections ++ "/" ++ path)
        | none => []
      match e.names with
      | none => names
      | some passed => names.filter passed.contains
    | none => []
  else exportsOf files r source

/-- A name can be imported from a module, or the module could not be made, as one of the values that
it shows has no text. -/
def IsGiven (s : Settings) (files : List PlannedFile) (r : Resource) (source x : Text) : Prop :=
  x ∈ available s files r source ∨
    ∃ g ∈ files, g.destination ∈ modulePlaces source ∧ g.maker r = .error oversizedMessage

/-- All that an import takes from the modules made for the resource is given. -/
def Code.Import.IsMet (s : Settings) (files : List PlannedFile) (r : Resource) (i : Import) :
    Prop :=
  i.source ∈ generatedModules r → ∀ x ∈ i.names, IsGiven s files r i.source x

variable {s : Settings} {r : Resource} {source x t : Text} {files : List PlannedFile}
  {f : PlannedFile}

/-! ### Other modules -/

/-- The source has not the shape of a module that is made for a resource. -/
def IsElsewhere (source : Text) : Prop :=
  ¬ Text.ofString "@/" <+: source ∨ ¬ Text.ofString "@/col" <+: source ∧
    ¬ Text.ofString "-form" <:+ source ∧ ¬ Text.ofString "-columns" <:+ source

instance (source : Text) : Decidable (IsElsewhere source) :=
  inferInstanceAs (Decidable (¬ _ ∨ ¬ _ ∧ ¬ _ ∧ ¬ _))

theorem IsElsewhere.not_mem (h : IsElsewhere source) (r : Resource) :
    source ∉ generatedModules r := by
  have hbegins {w a : Text} (b c : Text) (hw : w <+: a) : w <+: a ++ b ++ c := by
    rw [List.append_assoc]
    exact hw.trans (List.prefix_append _ _)
  intro hmem
  have hroot : Text.ofString "@/" <+: source := by
    simp only [generatedModules, List.mem_cons, List.not_mem_nil, or_false] at hmem
    rcases hmem with rfl | rfl | rfl | rfl
    · decide
    all_goals exact hbegins _ _ (by decide)
  obtain ⟨hcollections, hforms, htables⟩ := h.resolve_left (not_not_intro hroot)
  simp only [generatedModules, List.mem_cons, List.not_mem_nil, or_false] at hmem
  rcases hmem with rfl | rfl | rfl | rfl
  · exact hcollections (by decide)
  · exact hcollections (hbegins _ _ (by decide))
  · exact hforms (List.suffix_append _ _)
  · exact htables (List.suffix_append _ _)

theorem isElsewhere_schemaModule (r : Resource) : IsElsewhere (schemaModule r) := by
  have hstart : Text.ofString "@/schemas/" <+: schemaModule r :=
    ⟨r.name ++ ".schema", (List.append_assoc _ _ _).symm⟩
  have hend : Text.ofString ".schema" <:+ schemaModule r := List.suffix_append _ _
  refine .inr ⟨fun h => ?_, fun h => ?_, fun h => ?_⟩
  · exact absurd (List.prefix_of_prefix_length_le h hstart (by decide)) (by decide)
  · exact absurd (List.suffix_of_suffix_length_le h hend (by decide)) (by decide)
  · exact absurd (List.suffix_of_suffix_length_le hend h (by decide)) (by decide)

theorem isMet_singleton (h : IsGiven s files r source x) :
    Import.IsMet s files r ⟨[x], source⟩ := fun _ y hy => by
  obtain rfl := List.mem_singleton.1 hy
  exact h

theorem IsElsewhere.isMet {names : List Text} (h : IsElsewhere source) :
    Import.IsMet s files r ⟨names, source⟩ := fun hmem => absurd hmem (h.not_mem r)

/-- Modules of the client that all resources share. -/
def sharedModules : List Text :=
  ["@tanstack/react-db", "@tanstack/react-form", "@tanstack/react-router", "@tanstack/react-table",
    "@tanstack/query-db-collection", "@tabler/icons-react", "@/api/client", "@/lib/query-client",
    "@/lib/utils", "@/hooks/use-analytics-query", "@/hooks/use-duckdb-query",
    "@/components/charts/analytics-chart", "@/components/forms/_form-field",
    "@/components/forms/_relation-combobox", "@/components/shared/data-table-full",
    "@/components/shared/data-table-virtual", "@/components/shared/page-header",
    "@/components/tables/_column-helpers", "@/components/ui/button", "@/components/ui/card"]

theorem isElsewhere_of_mem_sharedModules : ∀ source ∈ sharedModules, IsElsewhere source := by
  decide +kernel

theorem isMet_shared {names : List Text} (h : source ∈ sharedModules) :
    Import.IsMet s files r ⟨names, source⟩ := (isElsewhere_of_mem_sharedModules source h).isMet

/-! ### What can be imported -/

theorem mem_exportsOf (hf : f ∈ files) (hplace : f.destination ∈ modulePlaces source)
    (ht : f.maker r = .ok (some t)) (hx : x ∈ exports t) : x ∈ exportsOf files r source := by
  refine List.mem_flatMap.2 ⟨f, List.mem_filter.2 ⟨hf, by simpa using hplace⟩, ?_⟩
  rw [PlannedFile.text?, ht]
  exact hx

theorem modulePlaces_append (path : Text) : modulePlaces (Text.ofString "@/" ++ path) =
    [Text.ofString "src/" ++ path ++ ".ts", Text.ofString "src/" ++ path ++ ".tsx"] := by
  rw [modulePlaces, dropStart?_append]

theorem place_collection (r : Resource) : Text.ofString "src/collections/" ++ r.pluralName ++
    ".collection.ts" ∈ modulePlaces (collectionModule r) := by
  have hmodule : collectionModule r =
      "@/" ++ (Text.ofString "collections/" ++ r.pluralName ++ ".collection") := by
    simp [collectionModule, ofString]
  rw [hmodule, modulePlaces_append]
  exact List.mem_cons.2 (.inl (by simp [ofString]))

theorem place_form (r : Resource) : Text.ofString "src/components/forms/" ++ r.name ++
    "-form.tsx" ∈ modulePlaces (formModule r) := by
  have hmodule : formModule r =
      "@/" ++ (Text.ofString "components/forms/" ++ r.name ++ "-form") := by
    simp [formModule, ofString]
  rw [hmodule, modulePlaces_append]
  exact List.mem_cons_of_mem _ (List.mem_singleton.2 (by simp [ofString]))

theorem place_columns (r : Resource) : Text.ofString "src/components/tables/" ++ r.name ++
    "-columns.tsx" ∈ modulePlaces (columnsModule r) := by
  have hmodule : columnsModule r =
      "@/" ++ (Text.ofString "components/tables/" ++ r.name ++ "-columns") := by
    simp [columnsModule, ofString]
  rw [hmodule, modulePlaces_append]
  exact List.mem_cons_of_mem _ (List.mem_singleton.2 (by simp [ofString]))

theorem available_of_ne (h : source ≠ allCollections) :
    available s files r source = exportsOf files r source := if_neg h

theorem ne_allCollections (r : Resource) : collectionModule r ≠ allCollections ∧
    formModule r ≠ allCollections ∧ columnsModule r ≠ allCollections := ⟨nofun, nofun, nofun⟩

theorem mem_exportsOf_collection (hx : x ∈ exports (Artifact.collection r)) :
    x ∈ exportsOf (standardFiles r) r (collectionModule r) :=
  mem_exportsOf List.mem_cons_self (place_collection r) rfl hx

theorem mem_available_collection (hx : x ∈ exports (Artifact.collection r)) :
    x ∈ available s (standardFiles r) r (collectionModule r) := by
  rw [available_of_ne (ne_allCollections r).1]
  exact mem_exportsOf_collection hx

/-- What a file that shows values exports is available, or one of the values has no text. -/
theorem isGiven_of_showing {shown : Resource → List Value} {make : Resource → Text}
    (hf : f ∈ files) (hmaker : f.maker = Catalogue.showing shown fun r => some (make r))
    (hplace : f.destination ∈ modulePlaces source) (hsource : source ≠ allCollections)
    (hx : x ∈ exports (make r)) : IsGiven s files r source x := by
  rw [IsGiven, available_of_ne hsource]
  rcases showing_cases shown (fun r => some (make r)) r with h | h
  · exact .inl (mem_exportsOf hf hplace (by rw [hmaker, h]) hx)
  · exact .inr ⟨f, hf, hplace, by rw [hmaker, h]⟩

namespace Resource.HasNames

variable (hr : r.HasNames)

include hr

/-- The line for the resource passes its collection on. -/
theorem collectionName_mem_available (h : r.isParquet = false) :
    r.collectionName ∈ available s (standardFiles r) r allCollections := by
  have hentry : (Hub.collections s).entry r = Text.ofString "export " ++
      spaced (r.collectionName ++ ", type " ++ r.typeName) ++ " from '" ++
        (Text.ofString "./" ++ (r.pluralName ++ ".collection")) ++ "'" := by
    simp [Hub.collections, h, spaced, ofString]
  have hclause : IsBare (spaced (r.collectionName ++ ", type " ++ r.typeName)) :=
    isBare_spaced (isBare_append.2 ⟨isBare_append.2 ⟨isBare_of_isName hr.collectionName,
      by decide⟩, isBare_of_isName hr.typeName⟩)
  have hsource : IsBare (Text.ofString "./" ++ (r.pluralName ++ ".collection")) :=
    isBare_append.2 ⟨by decide, isBare_append.2 ⟨isBare_of_isName hr.pluralName, by decide⟩⟩
  have hmodule : allCollections ++ "/" ++ (r.pluralName ++ ".collection") = collectionModule r := by
    simp [allCollections, collectionModule, ofString]
  rw [available, if_pos rfl, hentry, reexport?_clause hclause hsource, if_neg (by rintro ⟨⟩),
    clauseNames_with_type hr.collectionName hr.typeName]
  dsimp only
  rw [dropStart?_append]
  dsimp only
  rw [hmodule, List.mem_filter]
  exact ⟨mem_exportsOf_collection (hr.collectionName_mem_collection h), by simp⟩

theorem isGiven_form : IsGiven s (standardFiles r) r (formModule r) (r.typeName ++ "Form") :=
  isGiven_of_showing (List.mem_of_getElem? (i := 5) rfl) rfl (place_form r)
    (ne_allCollections r).2.1 hr.form_mem_form

theorem isGiven_columns : IsGiven s (standardFiles r) r (columnsModule r) (r.name ++ "Columns") :=
  isGiven_of_showing (List.mem_of_getElem? (i := 6) rfl) rfl (place_columns r)
    (ne_allCollections r).2.2 hr.columns_mem_columns

/-! ### What the imports need -/

theorem isMet_collection : ∀ i ∈ imports (Artifact.collection r), i.IsMet s files r := by
  rw [hr.imports_collection]
  cases h : r.isParquet with
  | false =>
    simp only [Bool.false_eq_true, if_false, List.forall_mem_cons, List.cons_append,
      List.nil_append]
    exact ⟨isMet_shared (by simp [sharedModules]), isMet_shared (by simp [sharedModules]),
      isMet_shared (by simp [sharedModules]), isMet_shared (by simp [sharedModules]),
      (isElsewhere_schemaModule r).isMet, List.forall_mem_nil _⟩
  | true =>
    simp only [if_true, List.forall_mem_cons, List.cons_append, List.nil_append]
    exact ⟨isMet_shared (by simp [sharedModules]), (isElsewhere_schemaModule r).isMet,
      List.forall_mem_nil _⟩

theorem isMet_form : ∀ i ∈ imports (Artifact.form r), i.IsMet s (standardFiles r) r := by
  rw [hr.imports_form]
  simp only [List.forall_mem_cons]
  exact ⟨isMet_shared (by simp [sharedModules]), isMet_shared (by simp [sharedModules]),
    isMet_shared (by simp [sharedModules]), isMet_shared (by simp [sharedModules]),
    (isElsewhere_schemaModule r).isMet,
    isMet_singleton (.inl (mem_available_collection hr.typeName_mem_collection)),
    List.forall_mem_nil _⟩

theorem isMet_columns : ∀ i ∈ imports (Artifact.columns r), i.IsMet s (standardFiles r) r := by
  rw [hr.imports_columns]
  simp only [List.forall_mem_cons]
  exact ⟨isMet_shared (by simp [sharedModules]), isMet_shared (by simp [sharedModules]),
    isMet_singleton (.inl (mem_available_collection hr.typeName_mem_collection)),
    List.forall_mem_nil _⟩

theorem isMet_analyticsPage (hmade : Artifact.analyticsPage? r = some t) :
    ∀ i ∈ imports t, i.IsMet s (standardFiles r) r := by
  rw [hr.imports_analyticsPage hmade]
  simp only [List.forall_mem_cons]
  have hparquet : r.isParquet = true := by
    rw [Artifact.analyticsPage?] at hmade
    split at hmade
    · rename_i henabled
      exact (Bool.and_eq_true_iff.1 henabled).1
    · cases hmade
  exact ⟨isMet_shared (by simp [sharedModules]), isMet_shared (by simp [sharedModules]),
    isMet_shared (by simp [sharedModules]), isMet_shared (by simp [sharedModules]),
    isMet_shared (by simp [sharedModules]), isMet_shared (by simp [sharedModules]),
    isMet_singleton (.inl (mem_available_collection (hr.url_mem_collection hparquet))),
    List.forall_mem_nil _⟩

theorem isMet_listPage : ∀ i ∈ imports (Artifact.listPage r), i.IsMet s (standardFiles r) r := by
  rw [hr.imports_listPage]
  cases h : r.isParquet with
  | false =>
    simp only [Bool.false_eq_true, if_false, List.forall_mem_cons, List.cons_append,
      List.nil_append]
    exact ⟨isMet_shared (by simp [sharedModules]), isMet_shared (by simp [sharedModules]),
      isMet_singleton (.inl (hr.collectionName_mem_available h)),
      isMet_shared (by simp [sharedModules]), isMet_shared (by simp [sharedModules]),
      isMet_singleton hr.isGiven_columns, List.forall_mem_nil _⟩
  | true =>
    simp only [if_true, List.forall_mem_cons, List.cons_append, List.nil_append]
    exact ⟨isMet_shared (by simp [sharedModules]),
      isMet_singleton (.inl (mem_available_collection (hr.hook_mem_collection h))),
      isMet_shared (by simp [sharedModules]), isMet_shared (by simp [sharedModules]),
      isMet_singleton hr.isGiven_columns, List.forall_mem_nil _⟩

/-- The pages with a form need the collection object, which only some resources have. -/
theorem isMet_formPage {others : List Import} (hothers : ∀ i ∈ others, i.source ∈ sharedModules)
    {i : Import} (hi : i ∈ others ++ [⟨[r.collectionName], allCollections⟩,
      ⟨[r.typeName ++ "Form"], formModule r⟩,
      ⟨["PageHeader"], "@/components/shared/page-header"⟩]) :
    i.IsMet s (standardFiles r) r ∨
      r.isParquet = true ∧ i = ⟨[r.collectionName], allCollections⟩ := by
  simp only [List.mem_append, List.mem_cons, List.not_mem_nil, or_false] at hi
  rcases hi with hi | rfl | rfl | rfl
  · exact .inl (isMet_shared (hothers i hi))
  · cases h : r.isParquet with
    | false => exact .inl (isMet_singleton (.inl (hr.collectionName_mem_available h)))
    | true => exact .inr ⟨rfl, rfl⟩
  · exact .inl (isMet_singleton hr.isGiven_form)
  · exact .inl (isMet_shared (by simp [sharedModules]))

theorem isMet_newPage {i : Import} (hi : i ∈ imports (Artifact.newPage r)) :
    i.IsMet s (standardFiles r) r ∨
      r.isParquet = true ∧ i = ⟨[r.collectionName], allCollections⟩ := by
  rw [hr.imports_newPage] at hi
  exact hr.isMet_formPage (List.forall_mem_singleton.2 (by simp [sharedModules])) hi

theorem isMet_editPage {i : Import} (hi : i ∈ imports (Artifact.editPage r)) :
    i.IsMet s (standardFiles r) r ∨
      r.isParquet = true ∧ i = ⟨[r.collectionName], allCollections⟩ := by
  rw [hr.imports_editPage] at hi
  have hothers : ∀ i ∈ ([⟨["createFileRoute", "useNavigate"], "@tanstack/react-router"⟩,
      ⟨["eq", "useLiveQuery"], "@tanstack/react-db"⟩] : List Import), i.source ∈ sharedModules := by
    simp [sharedModules]
  exact hr.isMet_formPage hothers hi

end Resource.HasNames

/-! ### The hubs -/

/-- A line of an entry gives the name as a value. -/
def UsesAsValue (entry x : Text) : Prop :=
  ∃ line ∈ (unlines [entry]).lines, Text.ofString ": " ++ x ++ Text.ofString ",\n" <:+ line

/-- How the lines end that register a resource without a collection object. -/
theorem registryLines_ends (hr : r.HasNames) (h : r.isParquet = true) :
    ∀ line ∈ Hub.registryLines r, line.IsInline ∧
      ∃ w ∈ ([": \x7b", ".config,", "',", "\x60,", "\x7d,"] : List Text), w <:+ line := by
  have hsource : r.dataSource = "parquet" := of_decide_eq_true h
  have around {a n b : Text} (ha : a.IsInline) (hn : n.IsInline) (hb : b.IsInline) :
      (a ++ n ++ b).IsInline := isInline_append.2 ⟨isInline_append.2 ⟨ha, hn⟩, hb⟩
  have hplural := hr.pluralName.isInline
  intro line hline
  simp only [Hub.registryLines, h, if_true, hsource, List.flatten_cons, List.flatten_nil,
    List.cons_append, List.nil_append, List.mem_cons, List.not_mem_nil, or_false] at hline
  rcases hline with rfl | rfl | rfl | rfl | rfl | rfl | rfl | rfl | rfl
  · exact ⟨around (by decide) hr.name.isInline (by decide), _, by simp, List.suffix_append _ _⟩
  · exact ⟨around (by decide) hr.varName.isInline (by decide), _, by simp, List.suffix_append _ _⟩
  · exact ⟨by decide, "',", by simp, by decide⟩
  · exact ⟨by decide, ": \x7b", by simp, by decide⟩
  · exact ⟨around (by decide) hplural (by decide), "',", by simp, List.suffix_append _ _⟩
  · have hend : Text.ofString "'," <:+ Text.ofString "/new'," := by decide
    exact ⟨around (by decide) hplural (by decide), _, by simp, hend.trans (List.suffix_append _ _)⟩
  · have hend : Text.ofString "\x60," <:+ Text.ofString "/$\x7bid\x7d\x60," := by decide
    exact ⟨around (by decide) hplural (by decide), _, by simp, hend.trans (List.suffix_append _ _)⟩
  · exact ⟨by decide, "\x7d,", by simp, by decide⟩
  · exact ⟨by decide, "\x7d,", by simp, by decide⟩

theorem not_usesAsValue_registryEntry (hr : r.HasNames) (h : r.isParquet = true) :
    ¬ UsesAsValue (Hub.registryEntry r) r.collectionName := by
  have hentry : unlines [Hub.registryEntry r] = unlines (Hub.registryLines r) := by
    have hne : Hub.registryLines r ≠ [] := List.cons_ne_nil _ _
    rw [unlines_cons, unlines_nil, ← unlines_map_join hne]
    rfl
  have hlines := registryLines_ends hr h
  rintro ⟨line, hline, huses⟩
  rw [hentry, lines_unlines fun line hline => (hlines line hline).1] at hline
  obtain ⟨body, hbody, rfl⟩ := List.mem_map.1 hline
  obtain ⟨-, w, hw, hend⟩ := hlines body hbody
  -- both are ends of one line, so the shorter one ends the other
  have hcollection : Text.ofString "n,\n" <:+ body ++ [CodePoint.newline] := by
    refine List.IsSuffix.trans ⟨": " ++ r.pluralName ++ "Collectio", ?_⟩ huses
    simp [Resource.collectionName, ofString]
  have hends : w ++ [CodePoint.newline] <:+ body ++ [CodePoint.newline] := by
    obtain ⟨before, rfl⟩ := hend
    exact ⟨before, (List.append_assoc _ _ _).symm⟩
  have hshort : ∀ w ∈ ([": \x7b", ".config,", "',", "\x60,", "\x7d,"] : List Text),
      3 ≤ (w ++ [CodePoint.newline]).length ∧
        ¬ Text.ofString "n,\n" <:+ w ++ [CodePoint.newline] := by
    decide
  exact (hshort w hw).2 (List.suffix_of_suffix_length_le hcollection hends (hshort w hw).1)

/-- The line of a reference rule, as a module that consists of it. -/
theorem imports_schemaImport (hr : r.HasNames) : imports (unlines [Hub.schemaImport.line r]) =
    [⟨[r.varName], schemaModule r⟩] := by
  have hline : Hub.schemaImport.line r = importLine r.varName (schemaModule r) := by
    simp [Hub.schemaImport, importLine, spaced, schemaModule, ofString]
  rw [hline, imports_importLine (isBare_of_isName hr.varName) hr.isBare_schemaModule,
    clauseNames_name hr.varName]
  rfl

theorem imports_collectionImport (hr : r.HasNames) (isAnchor isFallback : Text → Bool) :
    imports (unlines [(Hub.collectionImport isAnchor isFallback).line r]) =
      [⟨[r.collectionName], allCollections⟩] := by
  have hline : (Hub.collectionImport isAnchor isFallback).line r =
      importLine r.collectionName allCollections := by
    simp [Hub.collectionImport, importLine, spaced, allCollections, ofString]
  rw [hline, imports_importLine (isBare_of_isName hr.collectionName) (by decide),
    clauseNames_name hr.collectionName]
  rfl

/-- What the registry and the client need of the modules made for a resource. -/
theorem hubs_link (hr : r.HasNames) : ∀ h ∈ [Hub.registry s, Hub.client s], h.applies r = true →
    (∀ rule ∈ h.references, rule.applies r = true → ∀ i ∈ imports (unlines [rule.line r]),
      i.IsMet s (standardFiles r) r) ∧
    (UsesAsValue (h.entry r) r.collectionName →
      IsGiven s (standardFiles r) r allCollections r.collectionName) := by
  have hjson (h : r.isParquet = false) :
      IsGiven s (standardFiles r) r allCollections r.collectionName :=
    .inl (hr.collectionName_mem_available h)
  have hcollection (isAnchor isFallback : Text → Bool) (h : r.isParquet = false) :
      ∀ i ∈ imports (unlines [(Hub.collectionImport isAnchor isFallback).line r]),
        i.IsMet s (standardFiles r) r := by
    rw [imports_collectionImport hr]
    exact List.forall_mem_singleton.2 (isMet_singleton (hjson h))
  intro h hh happlies
  simp only [List.mem_cons, List.not_mem_nil, or_false] at hh
  rcases hh with rfl | rfl
  · -- the registry has all resources, and refers to a collection object only if there is one
    refine ⟨fun rule hrule hneeded => ?_, fun huses => ?_⟩
    · simp only [Hub.registry, List.mem_cons, List.not_mem_nil, or_false] at hrule
      rcases hrule with rfl | rfl
      · rw [imports_schemaImport hr]
        exact List.forall_mem_singleton.2 (isElsewhere_schemaModule r).isMet
      · exact hcollection Hub.isImport (fun _ => false) (by simpa using hneeded)
    · cases hparquet : r.isParquet with
      | false => exact hjson hparquet
      | true => exact absurd huses (not_usesAsValue_registryEntry hr hparquet)
  · -- the client has no resource without a collection object
    have hclient : r.isParquet = false := by simpa [Hub.client] using happlies
    refine ⟨fun rule hrule _ => ?_, fun _ => hjson hclient⟩
    obtain rfl := List.mem_singleton.1 hrule
    exact hcollection _ _ hclient

/-- **Generated files fit together.**  For a resource with identifiers as names, whatever its
configuration and its fields are, every standard file that is made imports from the modules of the
resource only what these give; the exception is the collection object in the page for a new record
and the page for one record, when the records are in a parquet file.  The lines through which the
registry and the client refer to modules are met as well, and an entry of them that has the
collection object as a value is one of a resource whose collection object can be imported. -/
theorem standard_files_link (s : Settings) {r : Resource} (hr : r.HasNames) :
    ∃ files, (plan Catalogue.standard none r).1 = .ok files ∧
      (∀ f ∈ files, ∀ t, f.maker r = .ok (some t) → ∀ i ∈ imports t, i.IsMet s files r ∨
        r.isParquet = true ∧ i = ⟨[r.collectionName], allCollections⟩ ∧
          (f.destination = "src/routes/_app/" ++ r.pluralName ++ "/new.tsx" ∨
            f.destination = "src/routes/_app/" ++ r.pluralName ++ "/$" ++ r.name ++ "Id.tsx")) ∧
      ∀ h ∈ [Hub.registry s, Hub.client s], h.applies r = true →
        (∀ rule ∈ h.references, rule.applies r = true → ∀ i ∈ imports (unlines [rule.line r]),
          i.IsMet s files r) ∧
        (UsesAsValue (h.entry r) r.collectionName →
          IsGiven s files r allCollections r.collectionName) := by
  refine ⟨standardFiles r, plan_standard r, ?_, hubs_link hr⟩
  intro f hf t ht i hi
  simp only [standardFiles, List.mem_cons, List.not_mem_nil, or_false] at hf
  rcases hf with rfl | rfl | rfl | rfl | rfl | rfl | rfl
  · exact .inl (hr.isMet_collection i (eq_of_always ht ▸ hi))
  · exact .inl (hr.isMet_listPage i (eq_of_always ht ▸ hi))
  · exact (hr.isMet_newPage (eq_of_always ht ▸ hi)).imp_right fun h => ⟨h.1, h.2, .inl rfl⟩
  · exact (hr.isMet_editPage (eq_of_always ht ▸ hi)).imp_right fun h => ⟨h.1, h.2, .inr rfl⟩
  · exact .inl (hr.isMet_analyticsPage (eq_of_showing ht) i hi)
  · exact .inl (hr.isMet_form i (eq_of_showing_some ht ▸ hi))
  · exact .inl (hr.isMet_columns i (eq_of_showing_some ht ▸ hi))

/-- All imports of the files of orders are met, such as that of the collection in the new page. -/
theorem standard_files_link_orders :
    let r : Resource := { name := "order", pluralName := "orders", varName := "orderResource" }
    r.HasNames ∧ ⟨["ordersCollection"], allCollections⟩ ∈ imports (Artifact.newPage r) ∧
    ∃ files, (plan Catalogue.standard none r).1 = .ok files ∧
      ∀ f ∈ files, ∀ t, f.maker r = .ok (some t) → ∀ i ∈ imports t, i.IsMet .standard files r := by
  intro r
  have hr : r.HasNames := ⟨isName_of_isIdent (by decide), isName_of_isIdent (by decide),
    isName_of_isIdent (by decide)⟩
  obtain ⟨files, hplan, hfiles, -⟩ := standard_files_link .standard hr
  refine ⟨hr, by decide +kernel, files, hplan, fun f hf t ht i hi => ?_⟩
  exact (hfiles f hf t ht i hi).resolve_right fun h => nomatch h.1

/-- The new page of a resource whose records are in a parquet file imports a collection that there
is not. -/
theorem new_page_unlinked :
    let r : Resource :=
      { name := "order", pluralName := "orders", varName := "orderResource",
        config := [("dataSource", .text "parquet")] }
    ∃ files, (plan Catalogue.standard none r).1 = .ok files ∧
      ∃ f ∈ files, ∃ t, f.maker r = .ok (some t) ∧
        ⟨["ordersCollection"], allCollections⟩ ∈ imports t ∧
        Text.ofString "ordersCollection" ∉ available .standard files r allCollections := by
  intro r
  exact ⟨standardFiles r, plan_standard r, _, List.mem_of_getElem? (i := 2) rfl,
    Artifact.newPage r, rfl, by decide +kernel, by decide +kernel⟩

end Scaffold
