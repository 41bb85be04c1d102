import Scaffold.Proofs.Command.Asked
import Scaffold.Proofs.Command.Exit
import Scaffold.Proofs.Project.Places
import Scaffold.Proofs.Project.Regeneration

/-!
# Children beside a refused schema

A project is compared with the project that lacks one schema file, whose schema is refused and which
no generated file of another resource needs out of its way (`Disk.IsPlainProject`, `IsIdle`).  The
child of that file exits with code one and changes nothing (`Disk.Twins.exits_one`).  Every other
child exits with the same code in both projects, and changes both alike
(`Disk.Twins.exists_exits`), even if its name is an option and the child takes the schema of another
resource for its own.
-/

namespace Scaffold

open Work CommandLine Discovery

/-! ### The child of a schema file -/

/-- The child that generates the resource of a schema file, in a project without a configuration
document. -/
def childOf (p : Place) (o : Options) (v : Logging.Verbosity) (t : Path) : Child :=
  ⟨childArguments (Settings.standard.resourceName t) o none v.arguments, ⟨.top, p⟩,
    Settings.standard.resourceName t⟩

/-- What the program reads from the words of a child. -/
theorem read_childArguments (name : Text) (o : Options) (v : Logging.Verbosity) : ∃ g : Globals,
    g.configuration = none ∧
      Invocation.read ((childArguments name o none v.arguments).drop program.length) =
        .ok (.command g .generate (name :: o.passed.given.flatMap optionWords)) := by
  obtain ⟨g, hconfiguration, -, hread⟩ :=
    Invocation.read_child v none (name :: o.passed.given.flatMap optionWords)
  refine ⟨g, hconfiguration, ?_⟩
  have hglobals : (v.arguments.map (·, (none : Option Text))).flatMap optionWords =
      v.arguments := by
    simp [List.flatMap_map, optionWords]
  rw [Logging.Verbosity.given, List.flatMap_append, hglobals, List.append_assoc] at hread
  rw [childArguments_eq, List.drop_left]
  exact hread

/-! ### Looking for a configuration document -/

theorem findAbove_congr {d d' : Disk} {name : Text} (limit : Nat) {p : Place}
    (h : ∀ q, q <+: p → d'.isFile ⟨.top, q ++ [name]⟩ = d.isFile ⟨.top, q ++ [name]⟩) :
    findAbove d' name limit ⟨.top, p⟩ = findAbove d name limit ⟨.top, p⟩ := by
  induction limit generalizing p with
  | zero => rfl
  | succ limit ih =>
    have hrest := ih fun q hq => h q (hq.trans p.dropLast_prefix)
    have hfirst : d'.isFile (child ⟨.top, p⟩ name) = d.isFile (child ⟨.top, p⟩ name) :=
      h p List.prefix_rfl
    rw [findAbove, findAbove]
    dsimp only
    rw [hfirst, Path.parent, hrest]

namespace Disk

variable {d d' d₀ : Disk} {p here : Place} {s t : Path} {found : List Path}

/-- Whether a file stands at a place below directories depends on the place alone. -/
theorem isFile_top_congr (hd : d.Sound) (hd' : d'.Sound) {names : List Text}
    (hn : ∀ name ∈ names, IsPlainName name) (hb : d'.bytes? names = d.bytes? names) :
    d'.isFile ⟨.top, names⟩ = d.isFile ⟨.top, names⟩ := by
  have hlook : ∀ e : Disk, e.Sound → (⟨.top, []⟩ : Path).Admits names →
      e.isFile ⟨.top, names⟩ = .ok (e.bytes? names).isSome := by
    intro e he ha
    have htop : e.IsProject ⟨.top, []⟩ [] := ⟨he, rfl⟩
    have hfound : e.look ⟨.top, names⟩ = .ok (e.find? names) := htop.look_below ha
    rw [isFile, hfound, Disk.bytes?]
    cases e.find? names with
    | none => rfl
    | some entry => cases entry <;> rfl
  obtain ⟨e, he⟩ | ha := @admits_cases ⟨.top, []⟩ names hn
  · have hreach : d'.reach ⟨.top, names⟩ = d.reach ⟨.top, names⟩ := (he d').1.trans (he d).1.symm
    rw [isFile, isFile, look, look, hreach]
  · rw [hlook d hd ha, hlook d' hd' ha, hb]

/-- A project in the directory `p` for which no configuration document is found. -/
structure IsPlainProject (d : Disk) (p : Place) : Prop where
  /-- The directory is there. -/
  project : d.IsProject ⟨.top, p⟩ p
  /-- All names are names of files. -/
  names : d.HasFileNames
  /-- At each place there is one entry. -/
  once : (d.entries.map Prod.fst).Nodup
  /-- No document is found from there. -/
  unconfigured : ∀ c, findConfiguration { d with here := p } ⟨.here, []⟩ ≠ .ok (some c)

namespace IsPlainProject

theorem ne_dots (h : d.IsPlainProject p) : ∀ m ∈ p, m ≠ Text.ofString ".." := by
  intro m hm
  have hp : p ≠ [] := List.ne_nil_of_mem hm
  exact (h.names _ (mem_entries_of_find? h.project.find?_eq hp) m hm).2.2.1

theorem isPlainName (h : d.IsPlainProject p) : ∀ m ∈ p, IsPlainName m := fun m hm =>
  ⟨h.ne_dots m hm, short_of_reach h.project.reach m hm⟩

/-- A schema file is a file in the directory of the schemas. -/
theorem exists_of_mem_discover (h : d.IsPlainProject p)
    (hfound : discover d ⟨.top, p⟩ .standard = .ok found) (ht : t ∈ found) :
    ∃ name, t = child (schemaRoot p) name ∧ IsFileName name ∧
      Settings.standard.schemaSuffix <:+ name ∧
      ∃ b, d.find? t.names = some (.file b) ∧
        d.reach t = .ok (t.place d.here, some (.file b)) := by
  obtain ⟨name, hname, rfl⟩ := (mem_discover_iff h.ne_dots hfound (List.ne_nil_of_mem ht)).1 ht
  obtain ⟨⟨e, he⟩, hsuffix, hfile, -⟩ := mem_schemaNames.1 hname
  have hentry := mem_entries_of_find? he (by simp)
  obtain ⟨b, hr⟩ := reach_of_isFile hfile
  have hfind := (find?_of_walk (reach_eq_ok_iff.1 hr).2.2 (by simp)).2
  rw [Path.place_eq_names rfl (ne_dots_of_mem_child h.ne_dots hsuffix)] at hfind
  exact ⟨name, rfl, h.names _ hentry name (by simp), hsuffix, b, hfind, hr⟩

/-- The project beside itself, without one of its schema files. -/
theorem twins_erase (h : d.IsPlainProject p)
    (hfound : discover d ⟨.top, p⟩ .standard = .ok found) (hs : s ∈ found) :
    Twins d d.here s.names d (d.erase s.names) := by
  obtain ⟨name, -, -, -, b, hb, -⟩ := h.exists_of_mem_discover hfound hs
  exact ⟨h.project.sound.grown, h.project.sound.here, rfl, lacks_erase hb⟩

end IsPlainProject

end Disk

/-- The path of the schema file of a name. -/
theorem join_schemaPath (p : Place) {name : Text}
    (h : IsFileName (name ++ Settings.standard.schemaSuffix)) :
    (⟨.top, p⟩ : Path).join (.read (Settings.standard.schemaPath name)) =
      child (schemaRoot p) (name ++ Settings.standard.schemaSuffix) := by
  have hslash : Path.read (Settings.standard.schemaDirectory ++ Text.ofString "/") =
      Path.read Settings.standard.schemaDirectory := by decide
  rw [Settings.schemaPath, List.append_assoc, Path.read_append_name _ h, Path.join_child, hslash,
    join_schemaDirectory]

/-- The schema file of a resource is found by its name. -/
theorem join_schemaPath_resourceName (p : Place) {name : Text} (h : IsFileName name)
    (hsuffix : Settings.standard.schemaSuffix <:+ name) :
    (⟨.top, p⟩ : Path).join (.read (Settings.standard.schemaPath
      (Settings.standard.resourceName (child (schemaRoot p) name)))) =
      child (schemaRoot p) name := by
  have hname : Settings.standard.resourceName (child (schemaRoot p) name) ++
      Settings.standard.schemaSuffix = name := by
    have := resourceName_append_suffix (s := .standard) (p := child (schemaRoot p) name)
      (by decide) (by rwa [Path.name_child])
    rwa [Path.name_child] at this
  rw [join_schemaPath p (by rwa [hname]), hname]

/-- The schema of the file `s` is refused, and its child is asked for it: its name is no option. -/
structure IsRefused (d : Disk) (found : List Path) (s : Path) : Prop where
  /-- It is found. -/
  listed : s ∈ found
  /-- Its resource can be asked for. -/
  named : isOption (Settings.standard.resourceName s) = false
  /-- No resource is read from it. -/
  refused : ∃ e, (extractFile Settings.standard.factory s).Ends d (.error e) d

/-- The refused schema file `s` of a project in `p` is in nobody's way: no file of a resource that
another schema file declares has it on its way. -/
structure IsIdle (d : Disk) (p : Place) (found : List Path) (s : Path) : Prop
    extends IsRefused d found s where
  /-- The other resources have their files elsewhere. -/
  apart : ∀ t ∈ found, t ≠ s → ∀ r,
    (extractFile Settings.standard.factory t).Ends d (.ok r) d →
      ∀ files, (plan .standard none r).1 = .ok files →
        ∀ f ∈ files, s.names ∉ (f.pathIn ⟨.top, p⟩).onWay p

/-! ### Reading schemas -/

/-- Whether a source is refused does not depend on what it is called. -/
theorem exists_extract_of_extract {factory origin source : Text} {r : Resource}
    (h : (extract factory origin source).1 = .ok r) (other : Text) :
    ∃ r', (extract factory other source).1 = .ok r' := by
  rw [extract] at h ⊢
  cases hdeclaration : findDeclaration factory source with
  | error e =>
    rw [hdeclaration] at h
    cases h
  | ok declaration =>
    rw [hdeclaration] at h
    dsimp only at h ⊢
    by_cases hname : declaration.name.IsScalar
    · rw [if_pos (by exact hname)]
      exact ⟨_, rfl⟩
    · rw [if_neg (by exact hname)] at h
      cases h

/-- A file gives a resource, or none. -/
theorem exists_refused {factory : Text} {path : Path} {d : Disk}
    (h : ∀ r, ¬ (extractFile factory path).Ends d (.ok r) d) :
    ∃ e, (extractFile factory path).Ends d (.error e) d := by
  obtain ⟨x, hx⟩ : ∃ x, (extractFile factory path).Ends d x d := ⟨_, ends_extractFile ..⟩
  cases x with
  | error e => exact ⟨e, hx⟩
  | ok r => exact absurd hx (h r)

namespace Disk

variable {d d' d₀ : Disk} {p here : Place} {s t : Path} {found : List Path} {factory : Text}
  {r : Resource}

/-- A resource is read from the file at the place of the path. -/
theorem ends_extractFile_iff_reach {path : Path} :
    (extractFile factory path).Ends d (.ok r) d' ↔ d = d' ∧ ∃ b t,
      d.reach path = .ok (path.place d.here, some (.file b)) ∧ Utf8.decode b = .ok t ∧
        (extract factory path.written t.normalizeNewlines).1 = .ok r := by
  rw [ends_extractFile_iff]
  refine and_congr_right fun _ => ?_
  constructor
  · rintro ⟨t, ht, hr⟩
    obtain ⟨b, hb, hdecode⟩ := readText_eq_ok_iff.1 ht
    obtain ⟨q, hreach⟩ := readBytes_eq_ok_iff.1 hb
    exact ⟨b, t, place_eq_of_reach hreach ▸ hreach, hdecode, hr⟩
  · rintro ⟨b, t, hreach, hdecode, hr⟩
    exact ⟨t, readText_eq_ok_iff.2 ⟨b, readBytes_eq_ok_iff.2 ⟨_, hreach⟩, hdecode⟩, hr⟩

/-- A schema that is read after files have been generated was there before. -/
theorem Grown.ends_extractFile (hd₀ : d₀.Sound) {names : List Text}
    (hup : ∀ m ∈ names, m ≠ Text.ofString "..") (hsource : names ∈ sources)
    (hgrown : d₀.Grown d) (h : (extractFile factory ⟨.top, names⟩).Ends d (.ok r) d) :
    (extractFile factory ⟨.top, names⟩).Ends d₀ (.ok r) d₀ := by
  obtain ⟨-, b, t, hreach, hdecode, hr⟩ := ends_extractFile_iff_reach.1 h
  rw [Path.place_eq_names rfl hup] at hreach
  obtain ⟨hfault, hshort, hwalk⟩ := reach_eq_ok_iff.1 hreach
  have hbytes := bytes?_eq_some.2 (find?_of_walk hwalk (by simp)).2
  rw [hgrown.bytes? _ hsource, bytes?_eq_some] at hbytes
  have htop : d₀.IsProject ⟨.top, []⟩ [] := ⟨hd₀, rfl⟩
  have hadmits : (⟨.top, []⟩ : Path).Admits names := ⟨hfault, hshort, fun m hm =>
    ⟨hup m hm, short_of_reach hreach m hm⟩⟩
  refine ends_extractFile_iff_reach.2 ⟨rfl, b, t, ?_, hdecode, hr⟩
  rw [Path.place_eq_names rfl hup]
  exact htop.reach_of_find? hadmits hbytes

/-- A schema that is read in the directory of the schemas is one of those that are found. -/
theorem IsPlainProject.mem_discover_of_ends (hp : d.IsPlainProject p)
    (hfound : discover d ⟨.top, p⟩ .standard = .ok found) (hne : found ≠ []) {name : Text}
    (hsuffix : Settings.standard.schemaSuffix <:+ name)
    (hname : name ≠ Settings.standard.baseSchema)
    (h : (extractFile factory (child (schemaRoot p) name)).Ends d (.ok r) d) :
    child (schemaRoot p) name ∈ found := by
  obtain ⟨-, b, t, hreach, -⟩ := ends_extractFile_iff_reach.1 h
  have hfind := (find?_of_walk (reach_eq_ok_iff.1 hreach).2.2 (by simp)).2
  rw [Path.place_eq_names rfl (ne_dots_of_mem_child hp.ne_dots hsuffix)] at hfind
  have hfile := isFile_of_readBytes (readBytes_eq_ok_iff.2 ⟨_, hreach⟩)
  exact (mem_discover_iff hp.ne_dots hfound hne).2
    ⟨name, mem_schemaNames.2 ⟨⟨_, hfind⟩, hsuffix, hfile, hname⟩, rfl⟩

namespace Twins

/-- Over the refused file no schema is read, on either disk. -/
theorem exists_refused (hp : d₀.IsPlainProject p)
    (hfound : discover d₀ ⟨.top, p⟩ .standard = .ok found) (hrefused : IsRefused d₀ found s)
    (h : Twins d₀ here s.names d d') {path : Path} (hs : s.names ∈ path.onWay here) :
    (∃ e, (extractFile Settings.standard.factory path).Ends d (.error e) d) ∧
      ∃ e, (extractFile Settings.standard.factory path).Ends d' (.error e) d' := by
  obtain ⟨name, hs', -, hsuffix, b₀, hb₀, hreach₀⟩ := hp.exists_of_mem_discover
    hfound hrefused.listed
  constructor
  · refine Scaffold.exists_refused fun r hr => ?_
    obtain ⟨-, b, t, hreach, hdecode, hr⟩ := ends_extractFile_iff_reach.1 hr
    obtain ⟨-, hfile⟩ := h.sound.reach_of_mem_onWay (h.here.symm ▸ hs) h.lacks.ne_directory hreach
    -- so the text is the one of the idle file
    have hbytes := bytes?_eq_some.2 hfile.symm
    have hsource : s.names ∈ sources := hs' ▸ mem_sources_concat.2 (.inl hsuffix)
    rw [h.grown.bytes? _ hsource, bytes?_eq_some.2 hb₀] at hbytes
    obtain rfl := Option.some.inj hbytes
    obtain ⟨r', hr'⟩ := exists_extract_of_extract hr s.written
    have hends : (extractFile Settings.standard.factory s).Ends d₀ (.ok r') d₀ :=
      ends_extractFile_iff_reach.2 ⟨rfl, b₀, t, hreach₀, hdecode, hr'⟩
    obtain ⟨e, he⟩ := hrefused.refused
    cases (hends.unique he).1
  · refine Scaffold.exists_refused fun r hr => ?_
    obtain ⟨-, b, t, hreach, -⟩ := ends_extractFile_iff_reach.1 hr
    have hs'' : s.names ∈ path.onWay d'.here := by rwa [h.lacks.here, h.here]
    obtain ⟨-, hfile⟩ := (h.lacks.sound h.sound).reach_of_mem_onWay hs''
      (by rw [h.lacks.free]; nofun) hreach
    rw [h.lacks.free] at hfile
    cases hfile

/-- The search for a configuration document answers the same on both disks as at the beginning. -/
theorem findConfiguration_eq (hp : d₀.IsPlainProject p) {name : Text}
    (hs : s = child (schemaRoot p) name) (hname : Settings.standard.schemaSuffix <:+ name)
    (h : Twins d₀ p s.names d d') :
    findConfiguration d ⟨.here, []⟩ = findConfiguration { d₀ with here := p } ⟨.here, []⟩ ∧
      findConfiguration d' ⟨.here, []⟩ = findConfiguration d ⟨.here, []⟩ := by
  have hsearch : ∀ e : Disk, findConfiguration e ⟨.here, []⟩ =
      findAbove e configurationName 20 ⟨.top, e.here⟩ := fun _ => rfl
  have hplain : ∀ q, q <+: p → ∀ m ∈ q ++ [configurationName], IsPlainName m := by
    intro q hq m hm
    rcases List.mem_append.1 hm with hm | hm
    · exact hp.isPlainName m (hq.subset hm)
    · rw [List.mem_singleton.1 hm]
      decide
  have hsound := h.sound
  rw [hsearch, hsearch, hsearch, h.lacks.here, h.here]
  constructor
  · refine findAbove_congr 20 fun q hq => ?_
    exact isFile_top_congr (d := { d₀ with here := p }) ⟨hp.project.sound.above, h.start⟩ hsound
      (hplain q hq) (h.grown.bytes? _ (mem_sources_concat.2 (.inr rfl)))
  · refine findAbove_congr 20 fun q hq => ?_
    refine isFile_top_congr hsound (h.lacks.sound hsound) (hplain q hq) ?_
    -- the file that is away has another name
    have hne : q ++ [configurationName] ≠ s.names := by
      rw [hs]
      intro heq
      obtain ⟨-, hlast⟩ := List.append_inj' heq rfl
      obtain rfl := List.singleton_inj.1 hlast
      exact absurd hname (by decide)
    rw [bytes?, bytes?, h.lacks.find? _ hne]

end Twins

end Disk

/-! ### Commands -/

section Calls

variable {children : Runner} {g : Globals} {command : CommandName} {words : List Text} {d d' : Disk}

/-- Without a configuration document the workspace is the current directory. -/
theorem ends_openWorkspace (hg : g.configuration = none)
    (h : findConfiguration d ⟨.here, []⟩ = .ok none) :
    (openWorkspace g).Ends d (.ok ⟨⟨.top, d.here⟩, .standard, none, g.verbosity⟩) d := by
  have hfind : (ask fun d => findConfiguration d ⟨.here, []⟩).Ends d (.ok none) d := ends_ask h
  have hsettings : (loadSettings none).Ends d (.ok .standard) d :=
    (ends_report _ d).bind (ends_pure _ d)
  rw [openWorkspace, hg]
  exact (ends_ask rfl).bind (hfind.mapError.bind (hsettings.mapError.bind (ends_pure _ d)))

theorem ends_openWorkspace_of_error (hg : g.configuration = none) {e : FileError}
    (h : findConfiguration d ⟨.here, []⟩ = .error e) :
    (openWorkspace g).Ends d (.error (.file e)) d := by
  have hfind : (ask fun d => findConfiguration d ⟨.here, []⟩).Ends d (.error e) d := ends_ask h
  rw [openWorkspace, hg]
  exact (ends_ask rfl).bind hfind.mapError.bind_error

theorem ends_call_of_error {e : FileError} (h : (openWorkspace g).Ends d (.error (.file e)) d) :
    (call children g command words).Ends d (.error (.file e)) d :=
  (Ends.attempt h).bind (ends_fail _ d)

theorem ends_call_of_lineError {w : Workspace} {e : LineError}
    (h : (openWorkspace g).Ends d (.ok w) d) (hrequest : command.request words = .error e) :
    (call children g command words).Ends d (.ok (.ofLineError (some command) e)) d := by
  refine (Ends.attempt h).bind ?_
  dsimp only
  rw [hrequest]
  exact ends_pure _ d

theorem ends_call_of_answer {w : Workspace} {request : Request} {x : Except Failure Reply}
    (h : (openWorkspace g).Ends d (.ok w) d) (hrequest : command.request words = .ok request)
    (hanswer : (w.answer children request).Ends d x d') :
    (call children g command words).Ends d x d' := by
  refine (Ends.attempt h).bind ?_
  dsimp only
  rw [hrequest]
  exact hanswer

end Calls

/-- The child of a schema that is read does what comes of its resource. -/
theorem exists_exits_of_produce {children : Runner} {env : Environment} {d e : Disk} {p : Place}
    {t : Path} {o : Options} {v : Logging.Verbosity} {r : Resource} {generated : Generated}
    (hnamed : isOption (Settings.standard.resourceName t) = false)
    (hname : Settings.standard.resourceName t ≠ [])
    (hpath : (⟨.top, p⟩ : Path).join
      (.read (Settings.standard.schemaPath (Settings.standard.resourceName t))) = t)
    (hconfiguration : findConfiguration { d with here := p } ⟨.here, []⟩ = .ok none)
    (hread : (extractFile Settings.standard.factory t).Ends { d with here := p } (.ok r)
      { d with here := p })
    (hproduce : (produce ⟨.top, p⟩ .standard .standard o.passed
      (Settings.standard.resourceName t) r).Ends { d with here := p } (.ok generated) e) :
    ∃ code, (childOf p o v t).Exits (Program.runChild children env) d code
      { e with here := d.here } := by
  obtain ⟨g, hg, hwords⟩ := read_childArguments (Settings.standard.resourceName t) o v
  let w : Workspace := ⟨⟨.top, p⟩, .standard, none, g.verbosity⟩
  have hrequest := CommandName.request_iff.2 ⟨hnamed, (rfl : o.passed = o.passed)⟩
  have hgenerate : (Scaffold.generate ⟨.top, p⟩ .standard .standard o.passed
      (Settings.standard.resourceName t)).Ends { d with here := p } (.ok (.ok generated)) e :=
    ends_generate_iff.2 ⟨r, by rwa [hpath], hproduce⟩
  obtain ⟨x, hx, -⟩ := Reply.exists_ends_ofReport 0 false
    (generated.report w.verbosity.quiet o.passed.only) (.ok generated.value)
  have hanswer : (w.generate (Settings.standard.resourceName t) o.passed false).Ends
      { d with here := p } x e := by
    rw [Workspace.generate, if_neg hname]
    exact hgenerate.bind (hx e)
  exact ⟨_, exits_of_call hwords
    (ends_call_of_answer (ends_openWorkspace hg hconfiguration) hrequest hanswer)⟩

namespace Disk.Twins

variable {d d' d₀ : Disk} {p here : Place} {s t : Path} {found : List Path} {o : Options}
  {v : Logging.Verbosity} {children : Runner} {env : Environment} {g : Globals}

/-! ### The child of the idle file -/

/-- The child of a refused schema exits with one, and nothing has changed. -/
theorem exits_one (hp : d₀.IsPlainProject p)
    (hfound : discover d₀ ⟨.top, p⟩ .standard = .ok found) (hrefused : IsRefused d₀ found s)
    (h : Twins d₀ here s.names d d') :
    (childOf p o v s).Exits (Program.runChild children env) d 1 d := by
  obtain ⟨name, hs, hfile, hsuffix, -⟩ := hp.exists_of_mem_discover hfound hrefused.listed
  obtain ⟨g, hg, hread⟩ := read_childArguments (Settings.standard.resourceName s) o v
  have htwins := h.inDirectory p hp.project.find?_eq
  obtain ⟨hsearch, -⟩ := htwins.findConfiguration_eq hp hs hsuffix
  suffices hcall : ∃ x, (call children g .generate
      (Settings.standard.resourceName s :: o.passed.given.flatMap optionWords)).Ends
      { d with here := p } x { d with here := p } ∧ Reply.exitCodeOf x = 1 by
    obtain ⟨x, hx, hcode⟩ := hcall
    have hexits : (childOf p o v s).Exits (Program.runChild children env) d
        (Reply.exitCodeOf x) { ({ d with here := p } : Disk) with here := d.here } :=
      exits_of_call hread hx
    rwa [hcode] at hexits
  cases hc : findConfiguration { d with here := p } ⟨.here, []⟩ with
  | error e => exact ⟨_, ends_call_of_error (ends_openWorkspace_of_error hg hc), rfl⟩
  | ok configuration =>
    cases configuration with
    | some c => exact absurd (hsearch.symm.trans hc) (hp.unconfigured c)
    | none =>
      have hrequest := CommandName.request_iff.2 ⟨hrefused.named, (rfl : o.passed = o.passed)⟩
      have hway : s.names ∈ s.onWay p := by
        rw [hs]
        exact (Path.mem_onWay_iff rfl (ne_dots_of_mem_child hp.ne_dots hsuffix)).2 List.prefix_rfl
      obtain ⟨⟨e, he⟩, -⟩ := htwins.exists_refused hp hfound hrefused hway
      obtain ⟨-, hd⟩ := he.unique (ends_extractFile _ s { d with here := p })
      have hpath := join_schemaPath_resourceName p hfile hsuffix
      rw [← hs] at hpath
      let w : Workspace := ⟨⟨.top, p⟩, .standard, none, g.verbosity⟩
      obtain ⟨x, hx, hcode⟩ : ∃ x,
          (w.generate (Settings.standard.resourceName s) o.passed false).Ends
            { d with here := p } x { d with here := p } ∧ Reply.exitCodeOf x = 1 := by
        refine Workspace.ends_generate_of_refused (e := e) ?_
        rw [hpath]
        exact he
      exact ⟨x, ends_call_of_answer (ends_openWorkspace hg hc) hrequest hx, hcode⟩

/-! ### The other children -/

theorem ne_only_of_mem_standardFiles {r : Resource} {f : PlannedFile} (hf : f ∈ standardFiles r) :
    f.kind ≠ onlyOption.key := by
  have hkinds : ∀ kind ∈ ["collection", "routes", "analytics", "form", "columns"],
      Text.ofString kind ≠ onlyOption.key := by decide
  simp only [standardFiles, List.mem_cons, List.not_mem_nil, or_false] at hf
  rcases hf with rfl | rfl | rfl | rfl | rfl | rfl | rfl <;> exact hkinds _ (by simp)

/-- Unless there are no files of its kind, what a child generates is declared by one of the schema
files. -/
theorem exists_mem_of_request (hp : d₀.IsPlainProject p)
    (hfound : discover d₀ ⟨.top, p⟩ .standard = .ok found) (ht : t ∈ found) {name : Text}
    {o' : Options} {json : Bool} (hrequest : CommandName.generate.request
      (Settings.standard.resourceName t :: o.passed.given.flatMap optionWords) =
        .ok (.generate (some name) o' json)) (honly : o'.only ≠ some onlyOption.key) :
    ∃ own, (⟨.top, p⟩ : Path).join (.read (Settings.standard.schemaPath name)) =
        child (schemaRoot p) own ∧ Settings.standard.schemaSuffix <:+ own ∧
      (child (schemaRoot p) own ∈ found ∨ own ≠ Settings.standard.baseSchema) := by
  have hnamed := CommandName.name_of_request hrequest
  by_cases hname : name = Settings.standard.resourceName t
  · obtain ⟨own, rfl, hfile, hsuffix, -⟩ := hp.exists_of_mem_discover hfound ht
    exact ⟨own, hname ▸ join_schemaPath_resourceName p hfile hsuffix, hsuffix, .inl ht⟩
  · have hflag : name = forceOption.key ∨ name = skipWiringOption.key := by
      rcases hnamed with h | h | h | h
      · exact absurd h hname
      · exact .inl h
      · exact .inr h
      · exact absurd h honly
    refine ⟨_, join_schemaPath p ?_, List.suffix_append name _, .inr ?_⟩
    · rcases hflag with rfl | rfl <;> decide
    · rcases hflag with rfl | rfl <;> decide

/-- What a child generates does not go over the idle file. -/
theorem endsAlike_produce_of_request (hp : d₀.IsPlainProject p)
    (hfound : discover d₀ ⟨.top, p⟩ .standard = .ok found) (hidle : IsIdle d₀ p found s)
    (ht : t ∈ found) {name : Text} {o' : Options} {json : Bool}
    (hrequest : CommandName.generate.request
      (Settings.standard.resourceName t :: o.passed.given.flatMap optionWords) =
        .ok (.generate (some name) o' json))
    {path : Path} (hpath : (⟨.top, p⟩ : Path).join (.read (Settings.standard.schemaPath name)) =
      path) (hway : s.names ∉ path.onWay p) {r : Resource} {e e' u : Disk}
    (hgrown : d₀.Grown d)
    (hread : (extractFile Settings.standard.factory path).Ends d (.ok r) u)
    (h : Twins d₀ p s.names e e') :
    EndsAlike (Twins d₀ p s.names) (produce ⟨.top, p⟩ .standard .standard o' name r) e e' := by
  obtain ⟨idle, hs, -, hsuffix, -⟩ := hp.exists_of_mem_discover hfound hidle.listed
  refine h.endsAlike_produce (fun files hfiles f hf => ?_)
    (fun hub hhub => hs ▸ Hub.isClear_standard hp.ne_dots hhub hsuffix) name
  obtain ⟨hfile, hkind⟩ := mem_standardFiles_of_plan hfiles hf
  refine ⟨?_, place_notMem_sources_of_mem_standardFiles hfile _ p⟩
  by_cases honly : o'.only = some onlyOption.key
  · exact absurd (hkind _ honly) (ne_only_of_mem_standardFiles hfile)
  obtain ⟨own, hown, hend, hlisted⟩ := exists_mem_of_request hp hfound ht hrequest honly
  obtain rfl := hpath.symm.trans hown
  obtain ⟨rfl, -⟩ := ends_extractFile_iff.1 hread
  have hup := ne_dots_of_mem_child hp.ne_dots hend
  have hread₀ := hgrown.ends_extractFile hp.project.sound hup
    (mem_sources_concat.2 (.inl hend)) hread
  have hmem : child (schemaRoot p) own ∈ found := hlisted.elim id fun hbase =>
    hp.mem_discover_of_ends hfound (List.ne_nil_of_mem ht) hend hbase hread₀
  have hne : child (schemaRoot p) own ≠ s := by
    rintro rfl
    exact hway ((Path.mem_onWay_iff rfl hup).2 List.prefix_rfl)
  exact hidle.apart _ hmem hne r hread₀ _ (plan_standard r) f hfile

/-- What the other children ask for is answered alike. -/
theorem exists_answer (hp : d₀.IsPlainProject p)
    (hfound : discover d₀ ⟨.top, p⟩ .standard = .ok found) (hidle : IsIdle d₀ p found s)
    (ht : t ∈ found) {request : Request} (hrequest : CommandName.generate.request
      (Settings.standard.resourceName t :: o.passed.given.flatMap optionWords) = .ok request)
    {w : Workspace} (hroot : w.root = ⟨.top, p⟩) (hsettings : w.settings = .standard)
    (h : Twins d₀ p s.names d d') :
    ∃ x x' e e', (w.answer children request).Ends d x e ∧
      (w.answer children request).Ends d' x' e' ∧
      Reply.exitCodeOf x = Reply.exitCodeOf x' ∧ Twins d₀ p s.names e e' := by
  rcases CommandName.request_generate_cases hrequest with rfl | ⟨asked, o', json, rfl⟩
  · exact ⟨_, _, d, d', ends_pure _ d, ends_pure _ d', rfl, h⟩
  cases asked with
  | none =>
    have hmissing : w.generate [] o' json = pure Workspace.nameMissing := by
      rw [Workspace.generate, if_pos rfl]
    have hends : ∀ u : Disk, (w.answer children (.generate none o' json)).Ends u
        (.ok Workspace.nameMissing) u := fun u => by
      rw [Workspace.answer, Option.getD_none, hmissing]
      exact ends_pure _ u
    exact ⟨_, _, d, d', hends d, hends d', rfl, h⟩
  | some name =>
    rw [Workspace.answer, Option.getD_some]
    by_cases hway : s.names ∈ ((⟨.top, p⟩ : Path).join
      (.read (Settings.standard.schemaPath name))).onWay p
    · obtain ⟨⟨err, herr⟩, err', herr'⟩ := h.exists_refused hp hfound hidle.toIsRefused hway
      obtain ⟨x, hx, hcode⟩ : ∃ x, (w.generate name o' json).Ends d x d ∧
          Reply.exitCodeOf x = 1 := by
        refine Workspace.ends_generate_of_refused (e := err) ?_
        rw [hroot, hsettings]
        exact herr
      obtain ⟨x', hx', hcode'⟩ : ∃ x, (w.generate name o' json).Ends d' x d' ∧
          Reply.exitCodeOf x = 1 := by
        refine Workspace.ends_generate_of_refused (e := err') ?_
        rw [hroot, hsettings]
        exact herr'
      exact ⟨x, x', d, d', hx, hx', hcode.trans hcode'.symm, h⟩
    · have hread : EndsAlike (Twins d₀ p s.names) (extractFile w.settings.factory
          (w.root.join (.read (w.settings.schemaPath name)))) d d' := by
        rw [hroot, hsettings]
        exact h.endsAlike_extractFile hway _
      have halike : EndsAlike (Twins d₀ p s.names) (w.generate name o' json) d d' := by
        refine Workspace.endsAlike_generate hread (fun r e e' hr he => ?_) h
        rw [hroot, hsettings] at hr ⊢
        exact endsAlike_produce_of_request hp hfound hidle ht hrequest rfl hway h.grown hr he
      obtain ⟨x, e, e', hx, hx', he⟩ := halike
      exact ⟨x, x, e, e', hx, hx', rfl, he⟩

/-- The commands of the other children end alike. -/
theorem exists_call (children : Runner) (hp : d₀.IsPlainProject p)
    (hfound : discover d₀ ⟨.top, p⟩ .standard = .ok found) (hidle : IsIdle d₀ p found s)
    (ht : t ∈ found) (hg : g.configuration = none) (h : Twins d₀ p s.names d d') :
    let words := Settings.standard.resourceName t :: o.passed.given.flatMap optionWords
    ∃ x x' e e', (call children g .generate words).Ends d x e ∧
      (call children g .generate words).Ends d' x' e' ∧
      Reply.exitCodeOf x = Reply.exitCodeOf x' ∧ Twins d₀ p s.names e e' := by
  intro words
  obtain ⟨idle, hs, -, hsuffix, -⟩ := hp.exists_of_mem_discover hfound hidle.listed
  obtain ⟨hsearch, hsearch'⟩ := h.findConfiguration_eq hp hs hsuffix
  cases hc : findConfiguration d ⟨.here, []⟩ with
  | error e =>
    rw [hc] at hsearch'
    exact ⟨_, _, d, d', ends_call_of_error (ends_openWorkspace_of_error hg hc),
      ends_call_of_error (ends_openWorkspace_of_error hg hsearch'), rfl, h⟩
  | ok configuration =>
    cases configuration with
    | some c => exact absurd (hsearch.symm.trans hc) (hp.unconfigured c)
    | none =>
      rw [hc] at hsearch'
      have hopen := ends_openWorkspace hg hc
      have hopen' := ends_openWorkspace hg hsearch'
      rw [h.here] at hopen
      rw [h.lacks.here, h.here] at hopen'
      cases hrequest : CommandName.generate.request words with
      | error e =>
        exact ⟨_, _, d, d', ends_call_of_lineError hopen hrequest,
          ends_call_of_lineError hopen' hrequest, rfl, h⟩
      | ok request =>
        let w : Workspace := ⟨⟨.top, p⟩, .standard, none, g.verbosity⟩
        obtain ⟨x, x', e, e', hx, hx', hcode, he⟩ :=
          exists_answer (w := w) hp hfound hidle ht hrequest rfl rfl h
        exact ⟨x, x', e, e', ends_call_of_answer hopen hrequest hx,
          ends_call_of_answer hopen' hrequest hx', hcode, he⟩

/-- **The child of another schema file** exits with the same code beside the idle file as without
it, and changes the disk alike. -/
theorem exists_exits (o : Options) (v : Logging.Verbosity) (children : Runner) (env : Environment)
    (hp : d₀.IsPlainProject p) (hfound : discover d₀ ⟨.top, p⟩ .standard = .ok found)
    (hidle : IsIdle d₀ p found s)
    (ht : t ∈ found) (h : Twins d₀ here s.names d d') : ∃ code e e',
      (childOf p o v t).Exits (Program.runChild children env) d code e ∧
      (childOf p o v t).Exits (Program.runChild children env) d' code e' ∧
      Twins d₀ here s.names e e' := by
  obtain ⟨g, hg, hread⟩ := read_childArguments (Settings.standard.resourceName t) o v
  have htwins := h.inDirectory p hp.project.find?_eq
  obtain ⟨x, x', e, e', hx, hx', hcode, he⟩ := exists_call children hp hfound hidle ht hg htwins
  have hexits : (childOf p o v t).Exits (Program.runChild children env) d
      (Reply.exitCodeOf x) { e with here := d.here } := exits_of_call hread hx
  have hexits' : (childOf p o v t).Exits (Program.runChild children env) d'
      (Reply.exitCodeOf x') { e' with here := d'.here } := exits_of_call hread hx'
  rw [h.here] at hexits
  rw [h.lacks.here, h.here, ← hcode] at hexits'
  exact ⟨_, _, _, hexits, hexits', he.inDirectory here h.start⟩

end Disk.Twins

end Scaffold
