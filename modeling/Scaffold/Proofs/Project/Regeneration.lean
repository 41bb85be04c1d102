import Scaffold.Project.Generation
import Scaffold.Proofs.Project.Fresh
import Scaffold.Proofs.Project.Settling
import Scaffold.Proofs.Project.Source
import Scaffold.Proofs.Schema.Name

/-!
# Generating again

A run reads the schema of a resource, makes its files and wires the hubs.  When the schema, the hubs
and the files all have places of their own and nothing fails, a run that overwrites leaves every
file made and every hub wired (`isProduced_of_ends`), and the schema as it is.  Any run after that,
whatever its options, leaves the disk as it is (`generate_again`).
-/

namespace Scaffold

open Work

/-! ### The parts of a run -/

variable {root : Path} {s : Settings} {catalogue : Catalogue} {o : Options} {name : Text}
  {r : Resource} {g : Generated} {d d' d'' : Disk} {files : List PlannedFile}
  {writes : List WriteOutcome} {wired : Option (List HubOutcome)}

/-- A run plans the files, writes them, and wires the hubs. -/
theorem ends_produce_iff : (produce root s catalogue o name r).Ends d (.ok g) d'' ↔
    ∃ files writes wired d', (plan catalogue o.only r).1 = .ok files ∧
      (execute files r root o.force).Ends d (.ok writes) d' ∧
      (wire root s o.skipWiring r).Ends d' (.ok wired) d'' ∧ ⟨name, r, writes, wired⟩ = g := by
  have hsteps : (produce root s catalogue o name r).Ends d (.ok g) d'' ↔
      (do
        let files ← ofExcept ((plan catalogue o.only r).1.mapError .template)
        let writes ← mapError .file (execute files r root o.force)
        let wired ← mapError .file (wire root s o.skipWiring r)
        report (generatedReport ⟨name, r, writes, wired⟩)
        return ⟨name, r, writes, wired⟩ : Work Failure Generated).Ends d (.ok g) d'' := by
    rw [produce]
    split <;> rfl
  rw [hsteps]
  constructor
  · intro h
    obtain ⟨files, _, ⟨hfiles, rfl⟩, h⟩ := h.of_bind
    obtain ⟨writes, d', hwrites, h⟩ := h.of_bind
    obtain ⟨wired, _, hwired, h⟩ := h.of_bind
    obtain ⟨hg, rfl⟩ := ends_report_bind_iff.1 h
    exact ⟨files, writes, wired, d', Except.mapError_eq_ok_iff.1 hfiles,
      ends_mapError_iff.1 hwrites, ends_mapError_iff.1 hwired, Except.ok.inj hg⟩
  · rintro ⟨files, writes, wired, d', hfiles, hwrites, hwired, rfl⟩
    exact Ends.bind ⟨Except.mapError_eq_ok_iff.2 hfiles, rfl⟩
      ((ends_mapError_iff.2 hwrites).bind ((ends_mapError_iff.2 hwired).bind
        ((ends_report _ _).bind (ends_pure _ _))))

theorem resource_of_produce (h : (produce root s catalogue o name r).Ends d (.ok g) d') :
    g.resource = r := by
  obtain ⟨_, _, _, _, -, -, -, rfl⟩ := ends_produce_iff.1 h
  rfl

/-- The hubs are left alone, or the resource is registered in them. -/
theorem ends_wire_iff {skip : Bool} : (wire root s skip r).Ends d (.ok wired) d' ↔
    skip = true ∧ wired = none ∧ d = d' ∨ skip = false ∧ ∃ hubs,
      (merge (Hub.standard s) r root).Ends d (.ok hubs) d' ∧ wired = some hubs := by
  cases skip with
  | true =>
    constructor
    · rintro ⟨h, hd⟩
      exact .inl ⟨rfl, (Except.ok.inj h).symm, hd⟩
    · rintro (⟨-, rfl, rfl⟩ | ⟨h, -⟩)
      · exact ⟨rfl, rfl⟩
      · cases h
  | false =>
    constructor
    · intro h
      obtain ⟨hubs, d₁, hhubs, hwired, rfl⟩ := Ends.of_bind h
      exact .inr ⟨rfl, hubs, hhubs, (Except.ok.inj hwired).symm⟩
    · rintro (⟨h, -⟩ | ⟨-, hubs, hhubs, rfl⟩)
      · cases h
      · exact hhubs.bind (ends_pure _ d')

/-- A run reads the resource of the schema and produces it. -/
theorem ends_generate_iff : (generate root s catalogue o name).Ends d (.ok (.ok g)) d' ↔
    ∃ r, (extractFile s.factory (root.join (.read (s.schemaPath name)))).Ends d (.ok r) d ∧
      (produce root s catalogue o name r).Ends d (.ok g) d' := by
  constructor
  · intro h
    obtain ⟨x, d₁, ⟨hx, hd⟩, h⟩ := Ends.of_bind h
    have hread := ends_extractFile s.factory (root.join (.read (s.schemaPath name))) d
    obtain rfl : d = d₁ := hread.2.symm.trans hd
    cases x with
    | error e =>
      dsimp only at h
      split at h
      · cases (ends_report_bind_iff.1 h).1
      · cases h.1
    | ok r =>
      obtain ⟨g', _, hproduce, hg, rfl⟩ := Ends.of_bind h
      obtain rfl := Except.ok.inj (Except.ok.inj hg)
      exact ⟨r, ⟨Except.ok.inj hx, hd⟩, hproduce⟩
  · rintro ⟨r, hread, hproduce⟩
    exact hread.attempt.bind (hproduce.bind (ends_pure _ d'))

/-- Nothing failed where no file and no hub did. -/
theorem Generated.failed_eq_zero_iff : g.failed = 0 ↔
    (∀ w ∈ g.writes, ∀ reason, w.status ≠ .failed reason) ∧
    ∀ hubs ∈ g.wiring, ∀ h ∈ hubs, ∀ reason, h.status ≠ .failed reason := by
  rw [failed, Nat.add_eq_zero_iff, List.countP_eq_zero, List.countP_eq_zero]
  refine and_congr (forall₂_congr fun w _ => ?_) ?_
  · cases w.status <;> simp
  · cases g.wiring with
    | none => simp
    | some hubs =>
      simp only [Option.getD_some, Option.mem_def, Option.some.injEq, forall_eq']
      refine forall₂_congr fun h _ => ?_
      cases h.status <;> simp

/-! ### Everything settled -/

/-- The files are made and the hubs are wired. -/
structure IsProduced (root : Path) (s : Settings) (r : Resource) (files : List PlannedFile)
    (d : Disk) : Prop where
  /-- The files are made. -/
  made : ∀ f ∈ files, f.IsMade r root d
  /-- The hubs are wired. -/
  wired : ∀ h ∈ Hub.standard s, h.IsWired r root d

/-- The paths that a run reads and writes: those of the schema, the hubs and the files. -/
def pathsOf (root : Path) (s : Settings) (name : Text) (files : List PlannedFile) : List Path :=
  root.join (.read (s.schemaPath name)) ::
    ((Hub.standard s).map (·.pathIn root) ++ files.map (·.pathIn root))

/-- A run that overwrites and does not fail makes all files and wires all hubs, and changes nothing
else. -/
theorem isProduced_of_ends
    (h : (produce root s catalogue { force := true } name r).Ends d (.ok g) d'')
    (hplan : (plan catalogue none r).1 = .ok files)
    (hplaces : (((Hub.standard s).map (·.pathIn root) ++ files.map (·.pathIn root)).map
      (·.place d.here)).Nodup)
    (hfailed : g.failed = 0) (hn : r.HasInlineNames) :
    IsProduced root s r files d'' ∧
      d.Changes d'' {q | q ∈ ((Hub.standard s).map (·.pathIn root) ++
        files.map (·.pathIn root)).map (·.place d.here)} .univ := by
  obtain ⟨files', writes, wired, d₁, hfiles, hwrites, hwired, rfl⟩ := ends_produce_iff.1 h
  obtain rfl : files' = files := Except.ok.inj (hfiles.symm.trans hplan)
  obtain ⟨hokWrites, hokHubs⟩ := Generated.failed_eq_zero_iff.1 hfailed
  obtain ⟨hskip, -⟩ | ⟨-, hubs, hmerge, rfl⟩ := ends_wire_iff.1 hwired
  · cases hskip
  have hwrites : (each (executeOne r root true) files').Ends d (.ok writes) d₁ := hwrites
  have hmerge : (each (Hub.merge r root) (Hub.standard s)).Ends d₁ (.ok hubs) d'' := hmerge
  rw [List.map_append, List.map_map, List.map_map, List.nodup_append] at hplaces
  obtain ⟨hhubPlaces, hfilePlaces, hapart⟩ := hplaces
  -- the files, then the hubs
  obtain ⟨hmade, hchange⟩ := hwrites.each_apart hokWrites (·.pathIn root) (·.IsMade r root)
    (fun f _ d o d' hends ho => PlannedFile.isMade_of_ends hends ho)
    (fun f d d' S hf hc hS => PlannedFile.isMade_of_changes hf hc hS) hfilePlaces
  obtain ⟨hwired, hchange'⟩ := hmerge.each_apart (hokHubs hubs rfl) (·.pathIn root)
    (·.IsWired r root) (fun h hh d o d' hends ho => Hub.isWired_of_ends hn hh hends ho)
    (fun h d d' S hw hc hS => Hub.isWired_of_changes hw hc hS) (hchange.here.symm ▸ hhubPlaces)
  rw [hchange.here] at hchange'
  refine ⟨⟨fun f hf => ?_, hwired⟩, (hchange.trans hchange').mono ?_ (Set.subset_univ _)⟩
  · refine PlannedFile.isMade_of_changes (hmade f hf) hchange' fun hf' => ?_
    rw [hchange.here] at hf'
    exact hapart _ hf' _ (List.mem_map_of_mem hf) rfl
  · rw [List.map_append, List.map_map, List.map_map]
    rintro q (hq | hq)
    · exact List.mem_append_right _ hq
    · exact List.mem_append_left _ hq

/-- Where the files are made and the hubs are wired, a run changes nothing. -/
theorem IsProduced.ends_produce (h : IsProduced root s r files d)
    (hplan : (plan catalogue none r).1 = .ok files) (o : Options) (name : Text) :
    ∃ g, (produce root s catalogue o name r).Ends d (.ok g) d ∧ g.failed = 0 ∧
      ∀ hubs ∈ g.wiring, ∀ h ∈ hubs, h.status ≠ .created ∧ h.status ≠ .updated := by
  obtain ⟨kept, hkept, hsub⟩ := exists_plan_only hplan o.only
  obtain ⟨writes, hwrites, -, hokWrites⟩ := ends_each_same (f := executeOne r root o.force)
    fun f hf => (h.made f (hsub.subset hf)).ends_executeOne o.force
  obtain ⟨hubs, hmerge, -, hokHubs⟩ := ends_each_same (f := Hub.merge r root)
    fun k hk => (h.wired k hk).ends_merge
  cases hskip : o.skipWiring with
  | true =>
    refine ⟨_, ends_produce_iff.2 ⟨kept, writes, none, d, hkept, hwrites,
      ends_wire_iff.2 (.inl ⟨hskip, rfl, rfl⟩), rfl⟩, ?_, by simp⟩
    exact Generated.failed_eq_zero_iff.2 ⟨hokWrites, by simp⟩
  | false =>
    refine ⟨_, ends_produce_iff.2 ⟨kept, writes, some hubs, d, hkept, hwrites,
      ends_wire_iff.2 (.inr ⟨hskip, hubs, hmerge, rfl⟩), rfl⟩, ?_, ?_⟩
    · exact Generated.failed_eq_zero_iff.2 ⟨hokWrites, by simpa using fun k hk => (hokHubs k hk).1⟩
    · simpa using fun k hk => (hokHubs k hk).2

/-- **Generating again changes nothing.**  When the schema, the hubs and the files of a resource
have places of their own, and a run for it that overwrites its files and wires the hubs does not
fail, then any runs after that, with whatever options, leave the disk as it is, do not fail, and
register nothing in a hub.  This holds for the standard catalogue and for any other. -/
theorem generate_again (catalogue : Catalogue)
    (h : (generate root s catalogue { force := true } name).Ends d (.ok (.ok g)) d')
    (hplan : (plan catalogue none g.resource).1 = .ok files)
    (hplaces : ((pathsOf root s name files).map (·.place d.here)).Nodup)
    (hfailed : g.failed = 0) (hn : g.resource.HasInlineNames) (os : List Options) :
    ∃ gs, (each (fun o => generate root s catalogue o name) os).Ends d' (.ok gs) d' ∧
      gs.length = os.length ∧ ∀ x ∈ gs, ∃ g', x = .ok g' ∧ g'.failed = 0 ∧
        ∀ hubs ∈ g'.wiring, ∀ h ∈ hubs, h.status ≠ .created ∧ h.status ≠ .updated := by
  obtain ⟨r, hread, hproduce⟩ := ends_generate_iff.1 h
  obtain rfl := resource_of_produce hproduce
  rw [pathsOf, List.map_cons, List.nodup_cons] at hplaces
  obtain ⟨hproduced, hchanges⟩ := isProduced_of_ends hproduce hplan hplaces.2 hfailed hn
  -- the schema is still there
  have hread' : (extractFile s.factory (root.join (.read (s.schemaPath name)))).Ends d'
      (.ok g.resource) d' := by
    obtain ⟨-, t, ht, hr⟩ := ends_extractFile_iff.1 hread
    obtain ⟨b, hb, hdecode⟩ := Disk.readText_eq_ok_iff.1 ht
    have hb' := hchanges.readBytes_of_notMem hb hplaces.1
    exact ends_extractFile_iff.2 ⟨rfl, t, Disk.readText_eq_ok_iff.2 ⟨b, hb', hdecode⟩, hr⟩
  refine ends_each_same fun o _ => ?_
  obtain ⟨g', hends, hok, hhubs⟩ := hproduced.ends_produce hplan o name
  exact ⟨.ok g', ends_generate_iff.2 ⟨g.resource, hread', hends⟩, g', rfl, hok, hhubs⟩

/-! ### A project that is generated for the first time -/

/-- **A run in a new project** writes the files and makes the hubs. -/
theorem Disk.IsProject.ends_produce_of_free {p : Place} (hp : d.IsProject root p) (name : Text)
    (hplan : (plan catalogue none r).1 = .ok files) (hf : ∀ f ∈ files, f.FitsIn root)
    (hk : ∀ h ∈ Hub.standard s, h.FitsIn root)
    (hapart : (files.map (·.names) ++ (Hub.standard s).map (·.names)).Pairwise Apart)
    (hfree : ∀ q ∈ files.map (·.names) ++ (Hub.standard s).map (·.names), d.Holds (p ++ q) none)
    (hs : ∀ f ∈ files, ∀ t, f.maker r = .ok (some t) → t.IsScalar)
    (hr : ∀ h ∈ Hub.standard s, h.IsReady r) :
    ∃ d', (produce root s catalogue { force := true } name r).Ends d
      (.ok ⟨name, r, files.map fun f => ⟨f.destination, f.kind, f.freeStatus r⟩,
        some ((Hub.standard s).map fun h => ⟨h.name, h.place, h.statusOf r none⟩)⟩) d' := by
  rw [List.pairwise_append] at hapart
  obtain ⟨hfiles, hhubs, hcross⟩ := hapart
  rw [List.forall_mem_append] at hfree
  obtain ⟨d₁, hwrites, hp₁, hsame⟩ := hp.ends_execute_of_free hf (List.pairwise_map.1 hfiles)
    (fun f hmem => hfree.1 _ (List.mem_map_of_mem hmem)) hs
  -- no hub is among the files, and so none is there yet
  let absent : Hub → Option Text := fun _ => none
  have habsent : ∀ h ∈ Hub.standard s, d₁.Holds (p ++ h.names) (absent h) := fun h hmem =>
    (hsame _ fun f hf => (apart_append p).2 (hcross _ (List.mem_map_of_mem hf) _
      (List.mem_map_of_mem hmem))).holds (hfree.2 _ (List.mem_map_of_mem hmem))
  obtain ⟨d₂, hmerge, -⟩ := hp₁.ends_merge_of_each_holds hk hr (List.pairwise_map.1 hhubs) habsent
  exact ⟨d₂, ends_produce_iff.2 ⟨files, _, _, d₁, hplan, hwrites,
    ends_wire_iff.2 (.inr ⟨rfl, _, hmerge, rfl⟩), rfl⟩⟩

/-- A project with nothing but the schema `defineResource({name:'u'},{})`. -/
def bareProject : Disk := ⟨[(["src"], .directory), (["src", "schemas"], .directory),
  (["src", "schemas", "u.schema.ts"], .file [0x64, 0x65, 0x66, 0x69, 0x6E, 0x65, 0x52, 0x65, 0x73,
    0x6F, 0x75, 0x72, 0x63, 0x65, 0x28, 0x7B, 0x6E, 0x61, 0x6D, 0x65, 0x3A, 0x27, 0x75, 0x27, 0x7D,
    0x2C, 0x7B, 0x7D, 0x29])], []⟩

/-- The resource that the schema declares. -/
def bareResource : Resource :=
  { name := "u", pluralName := "us", varName := "uResource", config := [("name", .text "u")],
    sourcePath := "/src/schemas/u.schema.ts" }

theorem ends_extractFile_bareProject :
    (extractFile Settings.standard.factory (Path.join ⟨.top, []⟩
      (.read (Settings.standard.schemaPath "u")))).Ends bareProject (.ok bareResource)
      bareProject := by
  let source : Text := "defineResource(\x7bname:'u'\x7d,\x7b\x7d)"
  let behind : List Token :=
    [⟨.punct, "(", 14, 15⟩, ⟨.punct, "\x7b", 15, 16⟩, ⟨.ident, "name", 16, 20⟩,
      ⟨.punct, ":", 20, 21⟩, ⟨.string, "u", 21, 24⟩, ⟨.punct, "\x7d", 24, 25⟩,
      ⟨.punct, ",", 25, 26⟩, ⟨.punct, "\x7b", 26, 27⟩, ⟨.punct, "\x7d", 27, 28⟩,
      ⟨.punct, ")", 28, 29⟩, ⟨.eof, [], 29, 29⟩]
  let config : List Member := [.property "name" (.literal ⟨21, 24⟩ (.text "u"))]
  have hcall : readCall source ⟨[], behind⟩ = .ok (config, []) := by
    have hopens : CallSite.fromParenthesis ⟨[], behind⟩ = behind := rfl
    rw [readCall, hopens]
    simp +decide [behind, config, Expr.readArguments, Expr.readItems, Expr.read, Expr.readPrimary,
      Expr.readMembers, Expr.readMember, Parsed.lift, Except.map, Except.mapError, bind,
      Except.bind, Expr.skipAsConst]
  have hts : tokenize source = .ok (⟨.ident, "defineResource", 0, 14⟩ :: behind) :=
    Except.eq_ok_of_toOption (by decide +kernel)
  have hdeclaration : findDeclaration Settings.standard.factory source =
      .ok ⟨⟨[], behind⟩, "u", Node.evaluateObject config, [], []⟩ := by
    rw [findDeclaration_eq hts rfl hcall]
    rfl
  have hlines : source.normalizeNewlines = source := by decide +kernel
  refine ends_extractFile_iff.2 ⟨rfl, source, Except.eq_ok_of_toOption (by decide +kernel), ?_⟩
  rw [hlines, extract, hdeclaration]
  dsimp only
  rw [if_pos (by decide)]
  rfl

theorem isBare_bareResource : bareResource.IsBare where
  fields := rfl
  config key hkey := by simp [bareResource, Members.get?, Ne.symm hkey]
  name := by decide
  pluralName := by decide
  varName := by decide

/-- Its files are written, but for a page that it does not have, and its hubs are made. -/
theorem ends_produce_bareProject : ∃ g d,
    (produce ⟨.top, []⟩ .standard Catalogue.standard { force := true } "u" bareResource).Ends
      bareProject (.ok g) d ∧
    g.writes.map (·.status) =
      [.written, .written, .written, .written, .omitted, .written, .written] ∧
    g.wiring.map (·.map (·.status)) =
      some [.created, .created, .created, .created, .created] := by
  have hp : bareProject.IsProject ⟨.top, []⟩ [] := ⟨Disk.sound_of_entries (by decide) rfl, rfl⟩
  have hready := Hub.isReady_standard (s := .standard) (r := bareResource) (by decide) (by decide)
    ⟨by decide, by decide, by decide, by decide, by decide, by decide⟩
    ⟨by decide, by decide, by decide⟩
  let places := (standardFiles bareResource).map (·.names) ++ (Hub.standard .standard).map (·.names)
  have hapart : places.Pairwise Apart := by decide +kernel
  have hfree : ∀ q ∈ places, bareProject.Holds ([] ++ q) none := by decide +kernel
  have hfiles : ∀ f ∈ standardFiles bareResource, f.FitsIn ⟨.top, []⟩ := by decide +kernel
  have hhubs : ∀ h ∈ Hub.standard .standard, h.FitsIn ⟨.top, []⟩ := by decide +kernel
  obtain ⟨d, hends⟩ := hp.ends_produce_of_free "u" (plan_standard bareResource) hfiles hhubs hapart
    hfree isBare_bareResource.isScalar_of_maker hready
  have happlies : ∀ h ∈ Hub.standard .standard, h.applies bareResource = true := by decide
  have hcreated : ∀ h ∈ Hub.standard .standard, h.statusOf bareResource none = .created :=
    fun h hh => Hub.statusOf_none (happlies h hh) (Hub.includes_skeleton h hh)
  refine ⟨_, d, hends, by decide +kernel, ?_⟩
  rw [Option.map_some, List.map_map]
  exact congrArg some (List.map_congr_left hcreated)

/-- The project is generated, and then again in three ways. -/
theorem generate_again_user :
    let again : List Options := [{}, { force := true, only := some "form" }, { skipWiring := true }]
    ∃ g d gs, (generate ⟨.top, []⟩ .standard Catalogue.standard { force := true } "u").Ends
        bareProject (.ok (.ok g)) d ∧
      g.writes.map (·.status) =
        [.written, .written, .written, .written, .omitted, .written, .written] ∧
      g.wiring.map (·.map (·.status)) = some [.created, .created, .created, .created, .created] ∧
      (each (fun o => generate ⟨.top, []⟩ .standard Catalogue.standard o "u") again).Ends d
        (.ok gs) d ∧
      gs.length = 3 ∧ ∀ x ∈ gs, ∃ g', x = .ok g' ∧ g'.failed = 0 := by
  intro again
  obtain ⟨g, d, hproduce, hwrites, hhubs⟩ := ends_produce_bareProject
  have hends := ends_generate_iff.2 ⟨bareResource, ends_extractFile_bareProject, hproduce⟩
  have hresource : g.resource = bareResource := resource_of_produce hproduce
  have hfailed : g.failed = 0 := by
    refine Generated.failed_eq_zero_iff.2 ⟨fun w hw reason hstatus => ?_, fun hubs hh h hmem reason
      hstatus => ?_⟩
    · have hmem := List.mem_map_of_mem (f := WriteOutcome.status) hw
      rw [hwrites, hstatus] at hmem
      simp at hmem
    · rw [Option.mem_def.1 hh, Option.map_some, Option.some.injEq] at hhubs
      have hmem := List.mem_map_of_mem (f := HubOutcome.status) hmem
      rw [hhubs, hstatus] at hmem
      simp at hmem
  have hnames : bareResource.HasInlineNames := ⟨by decide, by decide, by decide⟩
  have hplan : (plan Catalogue.standard none g.resource).1 = .ok (standardFiles bareResource) :=
    hresource.symm ▸ plan_standard bareResource
  have hplaces : ((pathsOf ⟨.top, []⟩ .standard "u" (standardFiles bareResource)).map
      (·.place bareProject.here)).Nodup := by decide +kernel
  obtain ⟨gs, hagain, hlength, hok⟩ := generate_again Catalogue.standard hends hplan hplaces
    hfailed (hresource.symm ▸ hnames) again
  refine ⟨g, d, gs, hends, hwrites, hhubs, hagain, hlength, fun x hx => ?_⟩
  obtain ⟨g', rfl, hok', -⟩ := hok x hx
  exact ⟨g', rfl, hok'⟩

end Scaffold
