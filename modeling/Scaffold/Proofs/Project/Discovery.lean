import Scaffold.Project.Discovery
import Scaffold.Proofs.Outcome
import Scaffold.Proofs.Text.Occurrence
import Scaffold.Proofs.Text.Wildcard

/-!
# Finding schema files and naming them again

A resource is named after its schema file, and its schema file is found again by that name.  The two
agree where the suffix of schema files is a plain text, that is, where it is not empty and has
neither a slash nor a wildcard, and where the directory of the schemas can be followed by a slash
(`discover_schemaPath`).  An empty suffix leaves every resource without a name
(`discover_emptySuffix`).

* `Path.read_append_name` reads a path with one more name.
* `Discovery.select_star_append` and `discover_eq` say what is found with a plain suffix.
-/

namespace Scaffold

/-! ### Names in written paths -/

namespace Text

variable {c : Char} {t : Text}

theorem splitOn_ne_nil (c : Char) (t : Text) : splitOn c t ≠ [] := by
  cases t with
  | nil => exact List.cons_ne_nil _ _
  | cons x t =>
    rw [splitOn]
    split
    · exact List.cons_ne_nil _ _
    · split <;> exact List.cons_ne_nil _ _

theorem splitOn_append (c : Char) (s t : Text) :
    splitOn c (s ++ .scalar c :: t) = splitOn c s ++ splitOn c t := by
  induction s with
  | nil => simp [splitOn]
  | cons x s ih =>
    rw [List.cons_append, splitOn, splitOn, ih]
    by_cases hx : x = .scalar c
    · rw [if_pos hx, if_pos hx, List.cons_append]
    · rw [if_neg hx, if_neg hx]
      obtain ⟨piece, pieces, hs⟩ := List.exists_cons_of_ne_nil (splitOn_ne_nil c s)
      simp [hs]

theorem splitOn_eq_singleton (h : .scalar c ∉ t) : splitOn c t = [t] := by
  induction t with
  | nil => rfl
  | cons x t ih =>
    rw [List.mem_cons, not_or] at h
    rw [splitOn, if_neg (Ne.symm h.1), ih h.2]

end Text

/-- A name that a directory can hold. -/
def IsFileName (name : Text) : Prop :=
  name ≠ [] ∧ name ≠ Text.ofString "." ∧ name ≠ Text.ofString ".." ∧ CodePoint.scalar '/' ∉ name

instance : DecidablePred IsFileName := fun name =>
  inferInstanceAs (Decidable (name ≠ [] ∧ name ≠ Text.ofString "." ∧ name ≠ Text.ofString ".." ∧
    CodePoint.scalar '/' ∉ name))

namespace Path

open Discovery

variable {name : Text}

theorem namesOf_append (s t : Text) : namesOf (s ++ "/" ++ t) = namesOf s ++ namesOf t := by
  rw [namesOf, List.append_assoc]
  change List.filter _ (Text.splitOn '/' (s ++ .scalar '/' :: t)) = _
  rw [Text.splitOn_append, List.filter_append]
  rfl

theorem namesOf_name (h : IsFileName name) : namesOf name = [name] := by
  rw [namesOf, Text.splitOn_eq_singleton h.2.2.2]
  simp [h.1, h.2.1]

/-- A name behind a slash is one more name of the path. -/
theorem read_append_name (t : Text) (h : IsFileName name) :
    read (t ++ "/" ++ name) = child (read (t ++ "/")) name := by
  have hhead : name.takeWhile (· = .scalar '/') = [] := by
    obtain ⟨c, name, rfl⟩ := List.exists_cons_of_ne_nil h.1
    have hc : c ≠ .scalar '/' := fun hc => h.2.2.2 (hc ▸ List.mem_cons_self)
    exact List.takeWhile_cons_of_neg (by simpa using hc)
  have hstart : (t ++ "/" ++ name).takeWhile (· = .scalar '/') =
      (t ++ "/").takeWhile (· = .scalar '/') := by
    rw [List.takeWhile_append]
    split
    · rename_i hall
      rw [hhead, List.append_nil, (List.takeWhile_prefix _).eq_of_length hall]
    · rfl
  have hnames : namesOf (t ++ "/") = namesOf t := by
    rw [← List.append_nil (t ++ Text.ofString "/"), namesOf_append]
    exact List.append_nil _
  rw [read, read, hstart, namesOf_append, namesOf_name h, hnames, child]

theorem join_child (root p : Path) (name : Text) :
    root.join (child p name) = child (root.join p) name := by
  have habsolute : (child p name).isAbsolute = p.isAbsolute := rfl
  rw [join, join, habsolute]
  split
  · rfl
  · rw [child, child, List.append_assoc]

@[simp] theorem name_child (p : Path) (name : Text) : (child p name).name = name := by
  simp [Path.name, child]

end Path

/-! ### What is found -/

namespace Disk

/-- All names on the disk are names that a directory can hold. -/
def HasFileNames (d : Disk) : Prop := ∀ x ∈ d.entries, ∀ name ∈ x.1, IsFileName name

instance (d : Disk) : Decidable d.HasFileNames :=
  inferInstanceAs (Decidable (∀ x ∈ d.entries, ∀ name ∈ x.1, IsFileName name))

theorem HasFileNames.of_mem_children {d : Disk} {p : Place} {x : Text × Entry}
    (h : d.HasFileNames) (hx : x ∈ d.children p) : IsFileName x.1 := by
  rw [children, List.mem_filterMap] at hx
  obtain ⟨⟨q, e⟩, hq, hx⟩ := hx
  cases hlast : q.getLast? with
  | none => simp [hlast] at hx
  | some name =>
    simp only [hlast, Option.ite_none_right_eq_some, Option.some.injEq] at hx
    exact hx.2 ▸ h _ hq name (List.mem_of_getLast? hlast)

end Disk

/-- The suffix is a part of a file name, and stands for itself in a pattern. -/
structure Settings.HasPlainSuffix (s : Settings) : Prop where
  /-- It stays in one directory. -/
  slash : CodePoint.scalar '/' ∉ s.schemaSuffix
  /-- It has no wildcards. -/
  plain : Wildcard.isPattern s.schemaSuffix = false

namespace Discovery

variable {d : Disk} {s : Settings}

/-- The paths in a directory whose names end with the suffix. -/
def candidates (d : Disk) (directory : Path) (suffix : Text) : List Path :=
  ((entriesAt d directory).filter fun x => suffix.isSuffixOf x.1).map fun x => child directory x.1

theorem mem_candidates {directory p : Path} {suffix : Text} :
    p ∈ candidates d directory suffix ↔
      ∃ x ∈ entriesAt d directory, suffix <:+ x.1 ∧ child directory x.1 = p := by
  simp [candidates, and_assoc]

/-- A plain suffix behind a star is a pattern for one name. -/
theorem patternNames_star_append (h : s.HasPlainSuffix) :
    patternNames ("*" ++ s.schemaSuffix) = ["*" ++ s.schemaSuffix] := by
  have hslash : CodePoint.scalar '/' ∉ Text.ofString "*" ++ s.schemaSuffix := fun hmem =>
    (List.mem_append.1 hmem).elim (by decide) h.slash
  have hends : (Text.ofString "*" ++ s.schemaSuffix).endsWith "/" = false := by
    rw [Bool.eq_false_iff, ne_eq, Text.endsWith_eq_true_iff]
    exact fun hsuffix => hslash (hsuffix.subset (by decide))
  rw [patternNames, hends, Path.namesOf, Text.splitOn_eq_singleton hslash]
  simp [Text.ofString]

/-- The pattern has no two stars side by side. -/
theorem includes_anyDepth (h : s.HasPlainSuffix) :
    Text.includes ("*" ++ s.schemaSuffix) anyDepth = false := by
  have hstar : CodePoint.scalar '*' ∉ s.schemaSuffix := fun hmem => by
    have hall := List.any_eq_false.1 h.plain _ hmem
    exact hall rfl
  rw [Bool.eq_false_iff, ne_eq, Text.includes_eq_true]
  intro hin
  have hcount := hin.sublist.count_le (.scalar '*')
  rw [List.count_append, List.count_eq_zero.2 hstar] at hcount
  exact absurd hcount (by decide)

theorem star_append_ne_anyDepth (h : s.HasPlainSuffix) : "*" ++ s.schemaSuffix ≠ anyDepth :=
  fun heq => by
    have := includes_anyDepth h
    rw [heq] at this
    cases this

/-- What a star and a plain suffix stand for below a path. -/
theorem select_star_append (h : s.HasPlainSuffix) (p : Path) :
    select d ["*" ++ s.schemaSuffix] p = .ok (candidates d p s.schemaSuffix) := by
  have hpattern : Wildcard.isPattern ("*" ++ s.schemaSuffix) = true := rfl
  have hfits : ((entriesAt d p).filter fun x =>
      (([] : List Text) = [] || x.2 = .directory) &&
        Wildcard.fits (Wildcard.read ("*" ++ s.schemaSuffix)) x.1) =
      (entriesAt d p).filter fun x => s.schemaSuffix.isSuffixOf x.1 := by
    refine List.filter_congr fun x _ => ?_
    rw [Bool.eq_iff_iff, List.isSuffixOf_iff_suffix, ← Wildcard.fits_star_append h.plain]
    simp
  have hselected : ((entriesAt d p).filter fun x =>
      (([] : List Text) = [] || x.2 = .directory) &&
        Wildcard.fits (Wildcard.read ("*" ++ s.schemaSuffix)) x.1).mapM
      (fun x => select d [] (child p x.1)) =
      .ok (((entriesAt d p).filter fun x => s.schemaSuffix.isSuffixOf x.1).map
        fun x => [child p x.1]) := by
    rw [hfits, Except.mapM_eq_ok_iff, List.forall₂_map_right_iff]
    exact List.forall₂_same.2 fun x _ => rfl
  rw [select, if_neg (by exact List.cons_ne_nil _ _), if_neg (star_append_ne_anyDepth h),
    if_pos hpattern]
  refine Except.bind_eq_ok_iff.2 ⟨_, hselected, ?_⟩
  change Except.ok (List.flatten _) = _
  rw [candidates, ← List.flatMap_def, ← List.map_eq_flatMap]

theorem files_eq_ok_iff {ps qs : List Path} : files d ps = .ok qs ↔
    (∀ p ∈ ps, ∃ b, d.isFile p = .ok b) ∧ qs = ps.filter (d.isFile · = .ok true) := by
  induction ps generalizing qs with
  | nil => simp [files, eq_comm]
  | cons p ps ih =>
    rw [files, Except.bind_eq_ok_iff, List.forall_mem_cons]
    constructor
    · rintro ⟨b, hb, h⟩
      obtain ⟨rest, hrest, h⟩ := Except.bind_eq_ok_iff.1 h
      obtain ⟨hps, rfl⟩ := ih.1 hrest
      cases h
      refine ⟨⟨⟨b, hb⟩, hps⟩, ?_⟩
      cases b <;> simp [hb]
    · rintro ⟨⟨⟨b, hb⟩, hps⟩, rfl⟩
      refine ⟨b, hb, Except.bind_eq_ok_iff.2 ⟨_, ih.2 ⟨hps, rfl⟩, ?_⟩⟩
      cases b <;> simp [hb, pure, Except.pure]

end Discovery

open Discovery

/-- What is found where the suffix is plain. -/
theorem discover_eq {s : Settings} (h : s.HasPlainSuffix) (d : Disk) (root : Path) :
    discover d root s = do
      let directory := root.join (.read s.schemaDirectory)
      if ← (d.isDirectory directory).mapError .file then
        let found ← (files d (candidates d directory s.schemaSuffix)).mapError .file
        return (found.filter fun p => p.name ≠ s.baseSchema).mergeSort Path.le
      else return [] := by
  have hpattern : ([Text.ofString "*" ++ s.schemaSuffix].any fun name =>
      name ≠ anyDepth && name.includes anyDepth) = false := by
    simp [includes_anyDepth h]
  rw [discover, patternNames_star_append h]
  dsimp only
  rw [hpattern]
  congr 1
  funext isDirectory
  cases isDirectory with
  | false => rfl
  | true =>
    simp only [select_star_append h]
    rfl

section Found

variable {d : Disk} {root : Path} {s : Settings} {found : List Path} {p : Path}

/-- Where every candidate can be asked for, those are found that are files, but not the base
schema. -/
theorem discover_eq_ok (hs : s.HasPlainSuffix)
    (hdirectory : d.isDirectory (root.join (.read s.schemaDirectory)) = .ok true)
    (hfiles : ∀ p ∈ candidates d (root.join (.read s.schemaDirectory)) s.schemaSuffix,
      ∃ b, d.isFile p = .ok b) :
    discover d root s = .ok ((((candidates d (root.join (.read s.schemaDirectory))
      s.schemaSuffix).filter (d.isFile · = .ok true)).filter
        fun p => p.name ≠ s.baseSchema).mergeSort Path.le) := by
  have hall := files_eq_ok_iff.2 ⟨hfiles, rfl⟩
  rw [discover_eq hs]
  dsimp only
  rw [hdirectory, hall]
  rfl

/-- The schema files that are found are files in the directory of the schemas, with the suffix and
another name than the base schema. -/
theorem of_mem_discover (hs : s.HasPlainSuffix) (h : discover d root s = .ok found)
    (hp : p ∈ found) :
    p ∈ candidates d (root.join (.read s.schemaDirectory)) s.schemaSuffix ∧
      d.isFile p = .ok true ∧ p.name ≠ s.baseSchema := by
  rw [discover_eq hs] at h
  obtain ⟨isDirectory, -, h⟩ := Except.bind_eq_ok_iff.1 h
  cases isDirectory with
  | false =>
    cases h
    cases hp
  | true =>
    obtain ⟨all, hall, h⟩ := Except.bind_eq_ok_iff.1 h
    obtain ⟨-, rfl⟩ := files_eq_ok_iff.1 (Except.mapError_eq_ok_iff.1 hall)
    cases h
    rw [List.mem_mergeSort, List.mem_filter, List.mem_filter] at hp
    obtain ⟨⟨hcandidate, hfile⟩, hbase⟩ := hp
    exact ⟨hcandidate, of_decide_eq_true hfile, of_decide_eq_true hbase⟩

/-! ### Resources and their files -/

/-- The name of a resource, with the suffix, is the name of its file. -/
theorem resourceName_append_suffix (hs : s.schemaSuffix ≠ []) (hp : s.schemaSuffix <:+ p.name) :
    s.resourceName p ++ s.schemaSuffix = p.name := by
  obtain ⟨name, hname⟩ := hp
  rw [Settings.resourceName, if_neg hs, if_pos (Text.endsWith_eq_true_iff.2 ⟨name, hname⟩), ← hname,
    Text.dropEnd_append]

/-- A file in the directory of the schemas whose name ends with the suffix is the schema file of the
resource that is named after it. -/
theorem schemaPath_resourceName {name : Text} (hs : s.schemaSuffix ≠ [])
    (hdirectory : root.join (.read (s.schemaDirectory ++ "/")) =
      root.join (.read s.schemaDirectory))
    (hname : IsFileName name) (hsuffix : s.schemaSuffix <:+ name)
    (hp : child (root.join (.read s.schemaDirectory)) name = p) :
    root.join (.read (s.schemaPath (s.resourceName p))) = p := by
  have hpname : p.name = name := hp ▸ Path.name_child _ name
  rw [Settings.schemaPath, List.append_assoc, resourceName_append_suffix hs (hpname ▸ hsuffix),
    hpname, Path.read_append_name _ hname, Path.join_child, hdirectory, hp]

/-- With a plain suffix, and a directory of schemas that a slash behind it does not change, the
schema file of a resource is the file that the resource was found by.  So different files are for
different resources. -/
theorem discover_schemaPath (hnames : d.HasFileNames) (hs : s.HasPlainSuffix)
    (hne : s.schemaSuffix ≠ []) (hdirectory : root.join (.read (s.schemaDirectory ++ "/")) =
      root.join (.read s.schemaDirectory))
    (h : discover d root s = .ok found) :
    (∀ p ∈ found, root.join (.read (s.schemaPath (s.resourceName p))) = p ∧
      d.isFile p = .ok true) ∧
    ∀ p ∈ found, ∀ q ∈ found, s.resourceName p = s.resourceName q → p = q := by
  have hpath : ∀ p ∈ found, root.join (.read (s.schemaPath (s.resourceName p))) = p := by
    intro p hp
    obtain ⟨x, hx, hsuffix, hchild⟩ := mem_candidates.1 (of_mem_discover hs h hp).1
    have hname : IsFileName x.1 := by
      rw [entriesAt] at hx
      split at hx
      · exact hnames.of_mem_children hx
      · cases hx
    exact schemaPath_resourceName hne hdirectory hname hsuffix hchild
  refine ⟨fun p hp => ⟨hpath p hp, (of_mem_discover hs h hp).2.1⟩, fun p hp q hq hpq => ?_⟩
  rw [← hpath p hp, ← hpath q hq, hpq]

end Found

/-! ### A project with two schemas -/

/-- A project with the schema files of orders and users. -/
def twoSchemas : Disk where
  entries := [(["project"], .directory), (["project", "src"], .directory),
    (["project", "src", "schemas"], .directory),
    (["project", "src", "schemas", "order.schema.ts"], .file []),
    (["project", "src", "schemas", "user.schema.ts"], .file [])]
  here := []

/-- The schema files of orders and users. -/
def twoSchemaFiles : List Path :=
  [⟨.top, ["project", "src", "schemas", "order.schema.ts"]⟩,
    ⟨.top, ["project", "src", "schemas", "user.schema.ts"]⟩]

/-- Both files are found with the standard suffix, and with an empty one. -/
theorem discover_twoSchemas {s : Settings}
    (hs : s ∈ [Settings.standard, { Settings.standard with schemaSuffix := [] }]) :
    discover twoSchemas (.read "/project") s = .ok twoSchemaFiles := by
  have hall : ∀ s ∈ [Settings.standard, { Settings.standard with schemaSuffix := [] }],
      (CodePoint.scalar '/' ∉ s.schemaSuffix ∧ Wildcard.isPattern s.schemaSuffix = false) ∧
      twoSchemas.isDirectory (Path.join (.read "/project") (.read s.schemaDirectory)) = .ok true ∧
      (∀ p ∈ candidates twoSchemas (Path.join (.read "/project") (.read s.schemaDirectory))
        s.schemaSuffix, twoSchemas.isFile p = .ok true) ∧
      ((candidates twoSchemas (Path.join (.read "/project") (.read s.schemaDirectory))
        s.schemaSuffix).filter (twoSchemas.isFile · = .ok true)).filter
          (fun p => p.name ≠ s.baseSchema) = twoSchemaFiles := by decide +kernel
  obtain ⟨hplain, hdirectory, hfiles, hfound⟩ := hall s hs
  rw [discover_eq_ok ⟨hplain.1, hplain.2⟩ hdirectory fun p hp => ⟨true, hfiles p hp⟩, hfound,
    List.mergeSort_of_pairwise (by decide)]

/-- Orders and users are named after their schema files, which are found again by these names. -/
theorem discover_schemaPath_twoSchemas :
    (∀ p ∈ twoSchemaFiles, Path.join (.read "/project")
        (.read (Settings.standard.schemaPath (Settings.standard.resourceName p))) = p ∧
      twoSchemas.isFile p = .ok true) ∧
    ∀ p ∈ twoSchemaFiles, ∀ q ∈ twoSchemaFiles,
      Settings.standard.resourceName p = Settings.standard.resourceName q → p = q :=
  discover_schemaPath (by decide +kernel) ⟨by decide, by decide⟩ (by decide) (by decide)
    (discover_twoSchemas (by simp))

/-- With an empty suffix both files are found, but no resource has a name by which to find its file
again. -/
theorem discover_emptySuffix :
    let s : Settings := { Settings.standard with schemaSuffix := [] }
    discover twoSchemas (.read "/project") s = .ok twoSchemaFiles ∧
      ∀ p ∈ twoSchemaFiles, s.resourceName p = [] ∧
        Path.join (.read "/project") (.read (s.schemaPath (s.resourceName p))) ≠ p :=
  ⟨discover_twoSchemas (by simp), by decide⟩

end Scaffold
