import Scaffold.Proofs.Command.Siblings
import Scaffold.Proofs.Schema.Extraction

/-!
# Batches

The children of a batch run one after another (`AllExit`), and the batch reports what became of
them: each resource either succeeded or failed (`BatchReport.IsComplete`).

A schema file whose schema is refused makes one failure.  Apart from this the batch is the one of
the project without the file: the others are generated and reported alike, and their files are the
same (`Disk.IsPlainProject.generateAll_without`).  The file must not be on the way to a file of
another resource: a directory of its name can be made only where it is away
(`Disk.generateAll_crossing`).
-/

namespace Scaffold

open Work CommandLine Discovery

/-! ### What a batch reports -/

/-- The failure of a child that exits with the code. -/
def Child.failure (child : Child) (code : Nat) : Option BatchFailure :=
  (ChildEnd.exited code).reason?.map (⟨child.tag, ·⟩)

theorem Child.resource_of_failure {child : Child} {code : Nat} {failure : BatchFailure}
    (h : child.failure code = some failure) : failure.resource = child.tag := by
  obtain ⟨reason, -, rfl⟩ := Option.map_eq_some_iff.1 h
  rfl

/-- What a batch reports whose children exit with these codes. -/
def reportOf (runs : List (Child × Nat)) : BatchReport where
  resources := runs.map (·.1.tag)
  succeeded := (runs.filter fun r => (r.1.failure r.2).isNone).map (·.1.tag)
  failures := runs.filterMap fun r => r.1.failure r.2

/-- Each resource is there once, and either succeeded or failed, in the order of the resources. -/
structure BatchReport.IsComplete (r : BatchReport) : Prop where
  /-- No resource is there twice. -/
  once : r.resources.Nodup
  /-- Those that did not fail succeeded. -/
  succeeded : r.succeeded = r.resources.filter (· ∉ r.failures.map (·.resource))
  /-- Those that did not succeed failed. -/
  failed : r.failures.map (·.resource) = r.resources.filter (· ∉ r.succeeded)

/-- The names of a part of a list are in no other part, where all names differ. -/
theorem filter_map_notMem {α : Type} {f : α → Text} {xs : List α} (h : (xs.map f).Nodup)
    (keep : α → Bool) :
    (xs.map f).filter (· ∉ (xs.filter keep).map f) = (xs.filter (! keep ·)).map f := by
  rw [List.filter_map]
  congr 1
  refine List.filter_congr fun x hx => ?_
  have hmem : f x ∈ (xs.filter keep).map f ↔ keep x = true := by
    constructor
    · intro hf
      obtain ⟨y, hy, hyx⟩ := List.mem_map.1 hf
      rw [List.mem_filter] at hy
      exact List.inj_on_of_nodup_map h hy.1 hx hyx ▸ hy.2
    · exact fun hk => List.mem_map_of_mem (List.mem_filter.2 ⟨hx, hk⟩)
  rw [Function.comp_apply, decide_not, Bool.not_inj_iff, Bool.eq_iff_iff, decide_eq_true_iff, hmem]

theorem map_resource_failures (runs : List (Child × Nat)) :
    (reportOf runs).failures.map (·.resource) =
      (runs.filter fun r => ! (r.1.failure r.2).isNone).map (·.1.tag) := by
  rw [reportOf]
  induction runs with
  | nil => rfl
  | cons r runs ih =>
    cases hf : r.1.failure r.2 with
    | none => simpa [hf] using ih
    | some failure => simpa [hf, Child.resource_of_failure hf] using ih

/-- A batch whose resources differ accounts for each of them. -/
theorem isComplete_reportOf {runs : List (Child × Nat)} (h : (runs.map (·.1.tag)).Nodup) :
    (reportOf runs).IsComplete where
  once := h
  succeeded := by
    have hrest := filter_map_notMem h fun r => ! (r.1.failure r.2).isNone
    simp only [Bool.not_not] at hrest
    rw [map_resource_failures]
    exact hrest.symm
  failed := by
    rw [map_resource_failures]
    exact (filter_map_notMem h fun r => (r.1.failure r.2).isNone).symm

/-- The report `r'` is the report `r` without one failure. -/
structure BatchReport.Without (failure : BatchFailure) (r r' : BatchReport) : Prop where
  /-- The resource is away. -/
  resources : ∃ before after, r.resources = before ++ failure.resource :: after ∧
    r'.resources = before ++ after
  /-- The same resources succeeded. -/
  succeeded : r'.succeeded = r.succeeded
  /-- The failure is away. -/
  failures : ∃ before after, r.failures = before ++ failure :: after ∧
    r'.failures = before ++ after

/-- Without a child that fails, its failure is away. -/
theorem without_reportOf {child : Child} {code : Nat} {failure : BatchFailure}
    (h : child.failure code = some failure) (before after : List (Child × Nat)) :
    BatchReport.Without failure (reportOf (before ++ (child, code) :: after))
      (reportOf (before ++ after)) where
  resources := by
    refine ⟨before.map (·.1.tag), after.map (·.1.tag), ?_, ?_⟩
    · rw [Child.resource_of_failure h, reportOf, List.map_append, List.map_cons]
    · rw [reportOf, List.map_append]
  succeeded := by simp [reportOf, h]
  failures := by
    refine ⟨before.filterMap fun r => r.1.failure r.2, after.filterMap fun r => r.1.failure r.2,
      ?_, ?_⟩
    · simp [reportOf, h]
    · simp [reportOf]

/-! ### Children one after another -/

section Runs

variable {run : Runner} {child : Child} {code : Nat} {runs later : List (Child × Nat)}
  {d e d' : Disk}

/-- From the disk `d` the children run one after another, exit with these codes, and leave the disk
`d'`. -/
inductive AllExit (run : Runner) : List (Child × Nat) → Disk → Disk → Prop
  /-- Without children nothing happens. -/
  | nil (d : Disk) : AllExit run [] d d
  /-- The first runs before the others. -/
  | cons {child : Child} {code : Nat} {runs : List (Child × Nat)} {d e d' : Disk}
      (first : child.Exits run d code e) (rest : AllExit run runs e d') :
      AllExit run ((child, code) :: runs) d d'

theorem AllExit.append (h : AllExit run runs d e) (h' : AllExit run later e d') :
    AllExit run (runs ++ later) d d' := by
  induction h with
  | nil => exact h'
  | cons first _ ih => exact .cons first (ih h')

/-- A child that exits with zero has succeeded, and every other one makes a failure. -/
theorem ends_runChild (h : child.Exits run d code d') : ∃ ending,
    (runChild run child).Ends d (.ok (ending, child.failure code)) d' := by
  obtain ⟨ending, hends⟩ := h
  refine ⟨ending, (ends_report _ d).bind (hends.bind ?_)⟩
  dsimp only [Child.failure]
  cases (ChildEnd.exited code).reason? with
  | none => exact ends_pure _ d'
  | some reason => exact (ends_report _ d').bind (ends_pure _ d')

theorem AllExit.exists_each (h : AllExit run runs d d') : ∃ kept,
    (each (runChild run) (runs.map Prod.fst)).Ends d (.ok kept) d' ∧
      kept.map Prod.snd = runs.map fun r => r.1.failure r.2 := by
  induction h with
  | nil d => exact ⟨[], ends_each_nil _ d, rfl⟩
  | cons first _ ih =>
    obtain ⟨kept, hkept, hfailures⟩ := ih
    obtain ⟨ending, hends⟩ := ends_runChild first
    exact ⟨_, hends.each_cons hkept, congrArg (_ :: ·) hfailures⟩

theorem report_ofRuns {α : Type} {kept : List (α × Option BatchFailure)}
    (h : kept.map Prod.snd = runs.map fun r => r.1.failure r.2) :
    (Batch.ofRuns (runs.map (·.1.tag)) ((runs.map Prod.fst).zip kept)).report = reportOf runs := by
  have hzip : ((runs.map Prod.fst).zip kept).map (Prod.map id Prod.snd) =
      runs.map fun r => (r.1, r.1.failure r.2) := by
    rw [← List.zip_map_right, h, List.zip_map']
  have hsucceeded := congrArg (fun xs => (xs.filter (·.2.isNone)).map (·.1.tag)) hzip
  have hfailures := congrArg (List.filterMap (·.2)) hzip
  simp only [List.filter_map, List.map_map, List.filterMap_map] at hsucceeded hfailures
  exact congrArg₂ (BatchReport.mk _) hsucceeded hfailures

section GenerateAll

variable {root : Path} {s : Settings} {o : Options} {c : Option Path} {globals : List Text}
  {found : List Path}

theorem map_tag_of_children (hruns : runs.map Prod.fst = found.map fun t =>
    ⟨childArguments (s.resourceName t) o c globals, root, s.resourceName t⟩) :
    runs.map (·.1.tag) = found.map s.resourceName := by
  have := congrArg (List.map Child.tag) hruns
  rwa [List.map_map, List.map_map] at this

/-- A batch ends as its children do, and reports what became of them. -/
theorem AllExit.ends_generateAll (hfound : discover d root s = .ok found)
    (hruns : runs.map Prod.fst = found.map fun t =>
      ⟨childArguments (s.resourceName t) o c globals, root, s.resourceName t⟩)
    (h : AllExit run runs d d') : ∃ batch,
      (generateAll run root s o c globals).Ends d (.ok batch) d' ∧
        batch.report = reportOf runs := by
  have hsearch : (mapError Failure.search (ask (discover · root s))).Ends d (.ok found) d :=
    ends_mapError_iff.2 (ends_ask hfound)
  have htags := (map_tag_of_children hruns).symm
  have hchildren : (found.map s.resourceName).map (fun name =>
      (⟨childArguments name o c globals, root, name⟩ : Child)) = runs.map Prod.fst := by
    rw [hruns, List.map_map]
    rfl
  obtain ⟨kept, hkept, hfailures⟩ := h.exists_each
  cases hempty : (found.map s.resourceName).isEmpty with
  | true =>
    rw [htags, List.isEmpty_iff, List.map_eq_nil_iff] at hempty
    subst hempty
    cases h
    refine ⟨Batch.ofRuns [] [], hsearch.bind ?_, rfl⟩
    dsimp only
    rw [htags]
    exact (ends_report _ d).bind (ends_pure _ d)
  | false =>
    refine ⟨Batch.ofRuns (runs.map (·.1.tag)) ((runs.map Prod.fst).zip kept), hsearch.bind ?_,
      report_ofRuns hfailures⟩
    dsimp only
    rw [hempty, if_neg Bool.false_ne_true, hchildren, htags]
    exact hkept.bind ((ends_report _ d').bind (ends_pure _ d'))

end GenerateAll

end Runs

/-! ### A batch without a refused schema -/

namespace Disk

variable {d d' d₀ : Disk} {p here : Place} {s : Path} {found ts : List Path}

/-- The children of schema files run one after another in both projects. -/
theorem Twins.exists_allExit (o : Options) (v : Logging.Verbosity) (children : Runner)
    (env : Environment) (hp : d₀.IsPlainProject p)
    (hfound : discover d₀ ⟨.top, p⟩ .standard = .ok found) (hidle : IsIdle d₀ p found s)
    (hts : ts ⊆ found) (h : Twins d₀ here s.names d d') : ∃ runs e e',
      AllExit (Program.runChild children env) runs d e ∧
      AllExit (Program.runChild children env) runs d' e' ∧
      runs.map Prod.fst = ts.map (childOf p o v) ∧ Twins d₀ here s.names e e' := by
  induction ts generalizing d d' with
  | nil => exact ⟨[], d, d', .nil d, .nil d', rfl, h⟩
  | cons t ts ih =>
    rw [List.cons_subset] at hts
    obtain ⟨code, u, u', hchild, hchild', hu⟩ := exists_exits o v children env hp hfound
      hidle hts.1 h
    obtain ⟨runs, e, e', hruns, hruns', hof, he⟩ := ih hts.2 hu
    exact ⟨(childOf p o v t, code) :: runs, e, e', .cons hchild hruns, .cons hchild' hruns',
      congrArg (_ :: ·) hof, he⟩

/-- Different schema files have different resource names. -/
theorem IsPlainProject.nodup_resourceName (hp : d.IsPlainProject p)
    (hfound : discover d ⟨.top, p⟩ .standard = .ok found) :
    (found.map Settings.standard.resourceName).Nodup := by
  refine List.Nodup.map_on (fun t ht u hu h => ?_) (nodup_discover hp.ne_dots hp.once hfound)
  obtain ⟨m, rfl, hm, hsuffix, -⟩ := hp.exists_of_mem_discover hfound ht
  obtain ⟨n, rfl, hn, hsuffix', -⟩ := hp.exists_of_mem_discover hfound hu
  rw [← join_schemaPath_resourceName p hm hsuffix, h, join_schemaPath_resourceName p hn hsuffix']

/-- The children of both projects run one after another.  Beside the refused schema there is one
more, which exits with one. -/
theorem IsPlainProject.exists_runs (hp : d.IsPlainProject p)
    (hfound : discover d ⟨.top, p⟩ .standard = .ok found) (hidle : IsIdle d p found s)
    (o : Options) (v : Logging.Verbosity) (children : Runner) (env : Environment) :
    ∃ before after e e',
      AllExit (Program.runChild children env) (before ++ (childOf p o v s, 1) :: after) d e ∧
      AllExit (Program.runChild children env) (before ++ after) (d.erase s.names) e' ∧
      (before ++ (childOf p o v s, 1) :: after).map Prod.fst = found.map (childOf p o v) ∧
      (before ++ after).map Prod.fst = (found.filter (· ≠ s)).map (childOf p o v) ∧
      Lacks s.names e e' := by
  have htwins := hp.twins_erase hfound hidle.listed
  have hnodup := nodup_discover hp.ne_dots hp.once hfound
  obtain ⟨first, last, rfl⟩ := List.append_of_mem hidle.listed
  obtain ⟨before, u, u', hbefore, hbefore', hof, hu⟩ := htwins.exists_allExit o v children env hp
    hfound hidle (List.subset_append_left _ _)
  have hown : (childOf p o v s).Exits (Program.runChild children env) u 1 u :=
    hu.exits_one hp hfound hidle.toIsRefused
  have hlast : last ⊆ first ++ s :: last := fun t ht => by simp [ht]
  obtain ⟨after, e, e', hafter, hafter', hof', he⟩ := hu.exists_allExit o v children env hp
    hfound hidle hlast
  have hothers : (first ++ s :: last).filter (· ≠ s) = first ++ last := by
    rw [List.nodup_middle, List.nodup_cons] at hnodup
    rw [List.filter_append, List.filter_cons_of_neg (by simp), ← List.filter_append,
      List.filter_eq_self]
    exact fun t ht => decide_eq_true fun hts => hnodup.1 (hts ▸ ht)
  refine ⟨before, after, e, e', hbefore.append (.cons hown hafter), hbefore'.append hafter', ?_, ?_,
    he.lacks⟩
  · rw [List.map_append, List.map_cons, hof, hof', List.map_append, List.map_cons]
  · rw [hothers, List.map_append, hof, hof', List.map_append]

/-- **A refused schema makes one failure, and nothing else.**  A project is compared with the
project that lacks a schema file whose schema is refused, and which is not on the way to a file of
another resource.  Both batches end; everything else on the disks is the same; the same resources
succeeded; and the failures are the same but for the one of the refused schema.  Each resource
either succeeded or failed, in the order in which they are found. -/
theorem IsPlainProject.generateAll_without (hp : d.IsPlainProject p)
    (hfound : discover d ⟨.top, p⟩ .standard = .ok found) (hidle : IsIdle d p found s)
    (o : Options) (v : Logging.Verbosity) (children : Runner) (env : Environment) :
    let run := generateAll (Program.runChild children env) ⟨.top, p⟩ .standard o none v.arguments
    ∃ batch batch' e e', run.Ends d (.ok batch) e ∧ run.Ends (d.erase s.names) (.ok batch') e' ∧
      (∀ q, q ≠ s.names → e'.find? q = e.find? q) ∧
      batch.report.Without ⟨Settings.standard.resourceName s, "exit code 1"⟩ batch'.report ∧
      batch.report.resources = found.map Settings.standard.resourceName ∧
      batch.report.IsComplete ∧ batch'.report.IsComplete := by
  intro run
  obtain ⟨before, after, e, e', hruns, hruns', hof, hof', hlacks⟩ :=
    hp.exists_runs hfound hidle o v children env
  obtain ⟨batch, hbatch, hreport⟩ := hruns.ends_generateAll hfound hof
  obtain ⟨batch', hbatch', hreport'⟩ :=
    hruns'.ends_generateAll (discover_erase hp.ne_dots hfound hidle.listed) hof'
  have htags := map_tag_of_children hof
  have hnames : ((before ++ (childOf p o v s, 1) :: after).map (·.1.tag)).Nodup :=
    htags ▸ hp.nodup_resourceName hfound
  have hnames' : ((before ++ after).map (·.1.tag)).Nodup :=
    hnames.sublist (((List.sublist_cons_self _ after).append_left before).map _)
  refine ⟨batch, batch', e, e', hbatch, hbatch', hlacks.find?, ?_, ?_, ?_, ?_⟩
  · rw [hreport, hreport']
    exact without_reportOf rfl before after
  · rw [hreport]
    exact htags
  · rw [hreport]
    exact isComplete_reportOf hnames
  · rw [hreport']
    exact isComplete_reportOf hnames'

/-! ### A project with an empty schema file -/

/-- The schema of a resource with the name. -/
def orderSchema (name : Text) : WrittenSchema := ⟨[], "order", name, []⟩

/-- A project with an empty schema file beside that of a resource with the name. -/
def besideEmpty (name : Text) : Disk where
  entries := [(["project"], .directory), (["project", "src"], .directory),
    (["project", "src", "schemas"], .directory),
    (["project", "src", "schemas", "bad.schema.ts"], .file []),
    (["project", "src", "schemas", "order.schema.ts"],
      .file ((Utf8.encode (orderSchema name).source).toOption.getD []))]
  here := []

/-- The empty schema file. -/
def emptySchema : Path := ⟨.top, ["project", "src", "schemas", "bad.schema.ts"]⟩

/-- The schema file of the resource. -/
def orderFile : Path := ⟨.top, ["project", "src", "schemas", "order.schema.ts"]⟩

/-- A name that leads through a directory of the name of the empty schema file. -/
def crossingName : Text := "../schemas/bad.schema.ts/x"

section BesideEmpty

variable {name : Text}

theorem isPlainProject_besideEmpty (h : name ∈ ([("order" : Text), crossingName] : List Text)) :
    (besideEmpty name).IsPlainProject ["project"] := by
  have hall : ∀ n ∈ ([("order" : Text), crossingName] : List Text),
      (∀ x ∈ (besideEmpty n).entries, (besideEmpty n).find? x.1.dropLast = some .directory) ∧
      ((besideEmpty n).reach ⟨.top, ["project"]⟩).toOption =
        some ((["project"] : Place), some Entry.directory) ∧
      (besideEmpty n).HasFileNames ∧ ((besideEmpty n).entries.map Prod.fst).Nodup ∧
      (findConfiguration { besideEmpty n with here := ["project"] } ⟨.here, []⟩).toOption =
        some none := by decide +kernel
  obtain ⟨habove, hreach, hnames, honce, hconfiguration⟩ := hall name h
  refine ⟨⟨sound_of_entries habove rfl, Except.eq_ok_of_toOption hreach⟩, hnames, honce, ?_⟩
  rw [Except.eq_ok_of_toOption hconfiguration]
  nofun

theorem discover_besideEmpty (h : name ∈ ([("order" : Text), crossingName] : List Text)) :
    discover (besideEmpty name) ⟨.top, ["project"]⟩ .standard = .ok [emptySchema, orderFile] := by
  have hall : ∀ n ∈ ([("order" : Text), crossingName] : List Text),
      ((besideEmpty n).reach (schemaRoot ["project"])).toOption =
        some ((schemaRoot ["project"]).names, some Entry.directory) ∧
      (∀ name ∈ ((besideEmpty n).children (schemaRoot ["project"]).names).map Prod.fst,
        (besideEmpty n).isFile (child (schemaRoot ["project"]) name) = .ok true) ∧
      schemaNames (besideEmpty n) ["project"] = ["bad.schema.ts", "order.schema.ts"] := by
    decide +kernel
  obtain ⟨hreach, hfiles, hnames⟩ := hall name h
  rw [discover_standard (Except.eq_ok_of_toOption hreach) fun m hm _ => ⟨true, hfiles m hm⟩, hnames,
    List.mergeSort_of_pairwise (by decide)]
  rfl

/-- From the empty schema file no resource is read. -/
theorem exists_refused_besideEmpty (h : name ∈ ([("order" : Text), crossingName] : List Text)) :
    ∃ e, (extractFile Settings.standard.factory emptySchema).Ends (besideEmpty name) (.error e)
      (besideEmpty name) := by
  have hall : ∀ n ∈ ([("order" : Text), crossingName] : List Text),
      (extractFile Settings.standard.factory emptySchema (besideEmpty n)).result.toOption.isNone =
        true := by decide +kernel
  refine Scaffold.exists_refused fun r hr => ?_
  have := hall name h
  rw [hr.1] at this
  cases this

/-- The resource with the name, as it is read. -/
def orderResource (name : Text) : Resource :=
  { name, pluralName := name ++ "s", varName := "order", config := (orderSchema name).config,
    fields := [], sourcePath := orderFile.written }

/-- The resource is read where the text of its schema is. -/
theorem ends_extractFile_order (h : name ∈ ([("order" : Text), crossingName] : List Text))
    {d : Disk} (hread : d.readText orderFile = .ok (orderSchema name).source) :
    (extractFile Settings.standard.factory orderFile).Ends d (.ok (orderResource name)) d := by
  have hall : ∀ n ∈ ([("order" : Text), crossingName] : List Text),
      n.isBlank = false ∧ n.IsScalar ∧
      (orderSchema n).source.normalizeNewlines = (orderSchema n).source := by decide +kernel
  obtain ⟨hblank, hscalar, hlines⟩ := hall name h
  have hw : (orderSchema name).IsWritten :=
    { constants := trivial
      varName := (by decide : Text.isIdent "order" = true)
      varName_notMem := List.not_mem_nil
      name := hblank
      name_isScalar := hscalar
      fields := nofun }
  refine ends_extractFile_iff.2 ⟨rfl, _, hread, ?_⟩
  rw [hlines]
  exact WrittenSchema.extract_of_noFields hw rfl orderFile.written

/-- The files of the resource are elsewhere, if it is not called so that they cross the empty schema
file. -/
theorem isIdle_besideEmpty :
    IsIdle (besideEmpty "order") ["project"] [emptySchema, orderFile] emptySchema where
  apart t ht hne r hr files hfiles f hf := by
    have hread : (besideEmpty "order").readText orderFile = .ok (orderSchema "order").source :=
      Except.eq_ok_of_toOption (by decide +kernel)
    obtain rfl : t = orderFile := by simpa [hne] using ht
    obtain ⟨hr, -⟩ := hr.unique (ends_extractFile_order (by decide) hread)
    obtain rfl := Except.ok.inj hr
    obtain rfl := Except.ok.inj (hfiles.symm.trans (plan_standard _))
    have hall : ∀ f ∈ standardFiles (orderResource "order"),
        (f.pathIn ⟨.top, ["project"]⟩).isAbsolute = true ∧
        (∀ name ∈ (f.pathIn ⟨.top, ["project"]⟩).names, name ≠ Text.ofString "..") ∧
        ¬ emptySchema.names <+: (f.pathIn ⟨.top, ["project"]⟩).names := by decide +kernel
    obtain ⟨habsolute, hup, hway⟩ := hall f hf
    rwa [Path.mem_onWay_iff habsolute hup]
  listed := List.mem_cons_self
  named := by decide
  refused := exists_refused_besideEmpty (by decide)

/-- Beside an empty schema file orders are generated as without it. -/
theorem generateAll_besideEmpty :
    let run := generateAll (Program.runner {} 1) ⟨.top, ["project"]⟩ .standard {} none []
    ∃ batch batch' e e', run.Ends (besideEmpty "order") (.ok batch) e ∧
      run.Ends ((besideEmpty "order").erase emptySchema.names) (.ok batch') e' ∧
      (∀ q, q ≠ emptySchema.names → e'.find? q = e.find? q) ∧
      batch.report.Without ⟨"bad", "exit code 1"⟩ batch'.report ∧
      batch.report.resources = ["bad", "order"] ∧
      batch.report.IsComplete ∧ batch'.report.IsComplete :=
  (isPlainProject_besideEmpty (by decide)).generateAll_without (discover_besideEmpty (by decide))
    isIdle_besideEmpty {} {} (Program.runner {} 0) {}

/-- Only the collection is generated. -/
def collectionOnly : Options := { only := some "collection", skipWiring := true }

/-- What comes of the resource that crosses the empty schema file. -/
def crossed (d : Disk) : Disk :=
  { (produce ⟨.top, ["project"]⟩ .standard .standard collectionOnly "order"
      (orderResource crossingName) { d with here := ["project"] }).disk with here := d.here }

/-- The place of its collection. -/
def crossedPlace : Place := ["project", "src", "schemas", "bad.schema.ts", "xs.collection.ts"]

/-- Its collection is made where the empty schema file is away. -/
theorem exists_exits_crossed {d : Disk} (h : d = besideEmpty crossingName ∨
    d = (besideEmpty crossingName).erase emptySchema.names) :
    (∃ code, (childOf ["project"] collectionOnly {} orderFile).Exits (Program.runner {} 1) d code
      (crossed d)) ∧
    ((crossed d).bytes? crossedPlace).isSome = (d.bytes? emptySchema.names).isNone := by
  have hall : ∀ u ∈ [besideEmpty crossingName,
      (besideEmpty crossingName).erase emptySchema.names],
      (findConfiguration { u with here := ["project"] } ⟨.here, []⟩).toOption = some none ∧
      (Disk.readText { u with here := ["project"] } orderFile).toOption =
        some (orderSchema crossingName).source ∧
      (produce ⟨.top, ["project"]⟩ .standard .standard collectionOnly "order"
        (orderResource crossingName) { u with here := ["project"] }).result.toOption.isSome =
          true ∧
      ((crossed u).bytes? crossedPlace).isSome = (u.bytes? emptySchema.names).isNone := by
    decide +kernel
  obtain ⟨hconfiguration, hread, hproduce, hplace⟩ := hall d (by simpa using h)
  obtain ⟨g, hg⟩ := Option.isSome_iff_exists.1 hproduce
  refine ⟨exists_exits_of_produce (by decide) (by decide) (by decide)
    (Except.eq_ok_of_toOption hconfiguration)
    (ends_extractFile_order (by decide) (Except.eq_ok_of_toOption hread))
    ⟨Except.eq_ok_of_toOption hg, rfl⟩, hplace⟩

/-- A resource may have a directory of the name of the empty schema file on the way to its file.
The schema file is neither a hub nor the place of a generated file, and still the file is made only
where it is away. -/
theorem generateAll_crossing :
    let root : Path := ⟨.top, ["project"]⟩
    let d := besideEmpty crossingName
    let o : Options := { only := some "collection", skipWiring := true }
    let run := generateAll (Program.runner {} 1) root .standard o none []
    d.IsPlainProject ["project"] ∧
    discover d root .standard = .ok [emptySchema, orderFile] ∧
    IsRefused d [emptySchema, orderFile] emptySchema ∧
    (∀ hub ∈ Hub.standard .standard,
      (hub.pathIn root).place ["project"] ≠ emptySchema.names) ∧
    (∀ r files, (plan .standard none r).1 = .ok files → ∀ f ∈ files,
      (f.pathIn root).place ["project"] ≠ emptySchema.names) ∧
    ∃ batch batch' e e' q, run.Ends d (.ok batch) e ∧
      run.Ends (d.erase emptySchema.names) (.ok batch') e' ∧
      q ≠ emptySchema.names ∧ e.bytes? q = none ∧ (e'.bytes? q).isSome = true := by
  intro root d o run
  have hp : d.IsPlainProject ["project"] := isPlainProject_besideEmpty (by decide)
  have hfound : discover d root .standard = .ok [emptySchema, orderFile] :=
    discover_besideEmpty (by decide)
  have hrefused : IsRefused d [emptySchema, orderFile] emptySchema :=
    ⟨List.mem_cons_self, by decide, exists_refused_besideEmpty (by decide)⟩
  have hsource : emptySchema.names ∈ sources :=
    ⟨["project", "src", "schemas"], "bad.schema.ts", rfl, .inl (by decide)⟩
  refine ⟨hp, hfound, hrefused, fun hub hhub heq => ?_, fun r files hfiles f hf heq => ?_, ?_⟩
  · exact (Hub.place_standard hhub ["project"] ["project"]).2.2.2 (heq ▸ hsource)
  · exact place_notMem_sources_of_mem_standardFiles (mem_standardFiles_of_plan hfiles hf).1 root
      ["project"] (heq ▸ hsource)
  have hrest : discover (d.erase emptySchema.names) root .standard = .ok [orderFile] :=
    discover_erase hp.ne_dots hfound hrefused.listed
  have hown : (childOf ["project"] o {} emptySchema).Exits (Program.runner {} 1) d 1 d :=
    (hp.twins_erase hfound hrefused.listed).exits_one hp hfound hrefused
  obtain ⟨⟨code, hchild⟩, hplace⟩ := exists_exits_crossed (.inl rfl : d = _ ∨ _)
  obtain ⟨⟨code', hchild'⟩, hplace'⟩ :=
    exists_exits_crossed (.inr rfl : d.erase emptySchema.names = _ ∨ _)
  obtain ⟨batch, hbatch, -⟩ :=
    (AllExit.cons hown (.cons hchild (.nil _))).ends_generateAll hfound rfl
  obtain ⟨batch', hbatch', -⟩ := (AllExit.cons hchild' (.nil _)).ends_generateAll hrest rfl
  exact ⟨batch, batch', _, _, crossedPlace, hbatch, hbatch', by decide,
    Option.not_isSome_iff_eq_none.1 (hplace ▸ Bool.false_ne_true), hplace'⟩

end BesideEmpty

end Disk

end Scaffold
