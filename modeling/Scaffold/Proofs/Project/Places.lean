import Scaffold.Proofs.Project.Schemas
import Scaffold.Proofs.Project.Selection

/-!
# Where generated files stand

With the standard settings no file is ever generated at the place of a schema file or of a
configuration document: the names of generated files end otherwise, whatever a resource is called
(`place_notMem_sources_of_mem_standardFiles`, `Hub.isClear_standard`).
-/

namespace Scaffold

/-! ### How the names of generated files end -/

/-- A file whose path ends so is no schema file and no configuration document. -/
def IsGeneratedEnd (tail : Text) : Prop :=
  CodePoint.scalar '/' ∉ tail ∧ 2 < tail.length ∧
    ¬ Settings.standard.schemaSuffix <:+ tail ∧ ¬ tail <:+ Settings.standard.schemaSuffix ∧
    ¬ tail <:+ configurationName

instance : DecidablePred IsGeneratedEnd := fun tail =>
  inferInstanceAs (Decidable (CodePoint.scalar '/' ∉ tail ∧ 2 < tail.length ∧
    ¬ Settings.standard.schemaSuffix <:+ tail ∧ ¬ tail <:+ Settings.standard.schemaSuffix ∧
    ¬ tail <:+ configurationName))

theorem Text.splitOn_append_of_notMem {c : Char} {tail : Text} (h : CodePoint.scalar c ∉ tail)
    (t : Text) : ∃ pieces last, splitOn c t = pieces ++ [last] ∧
      splitOn c (t ++ tail) = pieces ++ [last ++ tail] := by
  induction t with
  | nil => exact ⟨[], [], rfl, by rw [List.nil_append, splitOn_eq_singleton h]; rfl⟩
  | cons x t ih =>
    obtain ⟨pieces, last, ht, htail⟩ := ih
    rw [List.cons_append, splitOn, splitOn, ht, htail]
    by_cases hx : x = .scalar c
    · rw [if_pos hx, if_pos hx]
      exact ⟨[] :: pieces, last, rfl, rfl⟩
    · rw [if_neg hx, if_neg hx]
      cases pieces with
      | nil => exact ⟨[], x :: last, rfl, rfl⟩
      | cons piece pieces => exact ⟨(x :: piece) :: pieces, last, rfl, rfl⟩

/-- The last name of a path ends as the path does. -/
theorem Path.exists_namesOf_append {tail : Text} (hslash : CodePoint.scalar '/' ∉ tail)
    (hlong : 1 < tail.length) (t : Text) :
    ∃ names name, namesOf (t ++ tail) = names ++ [name] ∧ tail <:+ name := by
  obtain ⟨pieces, last, -, htail⟩ := Text.splitOn_append_of_notMem hslash t
  have hlast : 1 < (last ++ tail).length := by
    rw [List.length_append]
    omega
  have hkept : last ++ tail ≠ [] ∧ last ++ tail ≠ Text.ofString "." := by
    constructor <;> intro heq <;> rw [heq] at hlast
    · exact absurd hlast (by decide)
    · exact absurd hlast (by decide)
  refine ⟨pieces.filter fun name => name ≠ [] ∧ name ≠ Text.ofString ".", last ++ tail, ?_,
    List.suffix_append last tail⟩
  rw [namesOf, htail, List.filter_append]
  refine congrArg _ (List.filter_eq_self.2 fun name hname => ?_)
  rw [List.mem_singleton.1 hname]
  exact decide_eq_true hkept

/-- Such a path does not lead to a schema file or a configuration document. -/
theorem IsGeneratedEnd.place_notMem_sources {tail place : Text} (h : IsGeneratedEnd tail)
    (hplace : tail <:+ place) (root : Path) (here : Place) :
    (root.join (.read place)).place here ∉ sources := by
  obtain ⟨hslash, hlong, hsuffix, hsuffix', hconfiguration⟩ := h
  obtain ⟨t, rfl⟩ := hplace
  obtain ⟨names, name, hnames, hname⟩ := Path.exists_namesOf_append hslash (by omega) t
  have hdots : name ≠ Text.ofString ".." := by
    rintro rfl
    have := hname.length_le
    exact absurd (hlong.trans_le this) (by decide)
  have hconcat : ∃ above, (root.join (.read (t ++ tail))).names = above ++ [name] := by
    have hread : (Path.read (t ++ tail)).names = names ++ [name] := hnames
    rw [Path.join]
    split
    · exact ⟨names, hread⟩
    · exact ⟨root.names ++ names, by rw [hread, List.append_assoc]⟩
  obtain ⟨above, habove⟩ := hconcat
  obtain ⟨q, hq⟩ := Path.place_eq_concat habove hdots here
  rw [hq, mem_sources_concat]
  rintro (hend | rfl)
  · exact (List.suffix_or_suffix_of_suffix hend hname).elim hsuffix hsuffix'
  · exact hconfiguration hname

/-! ### Files -/

/-- A plan from the standard catalogue has standard files, of the chosen kind. -/
theorem mem_standardFiles_of_plan {only : Option Text} {r : Resource} {files : List PlannedFile}
    {f : PlannedFile} (h : (plan Catalogue.standard only r).1 = .ok files) (hf : f ∈ files) :
    f ∈ standardFiles r ∧ ∀ kind ∈ only, f.kind = kind := by
  cases only with
  | none =>
    obtain rfl := Except.ok.inj (h.symm.trans (plan_standard r))
    exact ⟨hf, nofun⟩
  | some kind =>
    obtain rfl := Except.ok.inj (h.symm.trans (plan_only (plan_standard r) kind))
    obtain ⟨hf, hkind⟩ := List.mem_filter.1 hf
    exact ⟨hf, by simpa using hkind⟩

/-- The files of a resource are at the places of no schema files, whatever its names are. -/
theorem place_notMem_sources_of_mem_standardFiles {r : Resource} {f : PlannedFile}
    (hf : f ∈ standardFiles r) (root : Path) (here : Place) :
    (f.pathIn root).place here ∉ sources := by
  have hend : ∃ tail, IsGeneratedEnd tail ∧ tail <:+ f.destination := by
    simp only [standardFiles, List.mem_cons, List.not_mem_nil, or_false] at hf
    -- one for each template, whose end is the same for all names
    rcases hf with rfl | rfl | rfl | rfl | rfl | rfl | rfl
    · exact ⟨".collection.ts", by decide, List.suffix_append _ _⟩
    · exact ⟨"index.tsx", by decide, (by decide : _ <:+ Text.ofString "/index.tsx").trans
        (List.suffix_append _ _)⟩
    · exact ⟨"new.tsx", by decide, (by decide : _ <:+ Text.ofString "/new.tsx").trans
        (List.suffix_append _ _)⟩
    · exact ⟨"Id.tsx", by decide, List.suffix_append _ _⟩
    · exact ⟨"analytics.tsx", by decide, (by decide : _ <:+ Text.ofString "/analytics.tsx").trans
        (List.suffix_append _ _)⟩
    · exact ⟨"-form.tsx", by decide, List.suffix_append _ _⟩
    · exact ⟨"-columns.tsx", by decide, List.suffix_append _ _⟩
  obtain ⟨tail, htail, hdestination⟩ := hend
  exact htail.place_notMem_sources hdestination root here

/-! ### Hubs -/

/-- The path of a hub has three names below the project, and leads to no schema file. -/
theorem Hub.place_standard {hub : Hub} (h : hub ∈ Hub.standard .standard) (p here : Place) :
    (∃ a b c, (hub.pathIn ⟨.top, p⟩).names = p ++ [a, b, c]) ∧
      (hub.pathIn ⟨.top, p⟩).isAbsolute = true ∧
      (∀ name ∈ (Path.read hub.place).names, name ≠ Text.ofString "..") ∧
      (hub.pathIn ⟨.top, p⟩).place here ∉ sources := by
  have hread : ∀ hub ∈ Hub.standard .standard, ∃ a b c, Path.read hub.place = ⟨.here, [a, b, c]⟩ ∧
      (∀ name ∈ [a, b, c], name ≠ Text.ofString "..") ∧ IsGeneratedEnd c ∧ c <:+ hub.place := by
    intro hub h
    simp only [Hub.standard, List.mem_cons, List.not_mem_nil, or_false] at h
    rcases h with rfl | rfl | rfl | rfl | rfl
    · exact ⟨"src", "schemas", "index.ts", by decide⟩
    · exact ⟨"src", "collections", "index.ts", by decide⟩
    · exact ⟨"src", "lib", "registry.ts", by decide⟩
    · exact ⟨"src", "lib", "db-client.ts", by decide⟩
    · exact ⟨"src", "lib", "navigation.ts", by decide⟩
  obtain ⟨a, b, c, hpath, hdots, hend, hsuffix⟩ := hread hub h
  refine ⟨⟨a, b, c, ?_⟩, ?_, ?_, hend.place_notMem_sources hsuffix _ here⟩
  · rw [Hub.pathIn, hpath]
    rfl
  · rw [Hub.pathIn, hpath]
    rfl
  · rwa [hpath]

/-- No hub lies below a schema file. -/
theorem Hub.isClear_standard {p here : Place} {name : Text} {hub : Hub}
    (hup : ∀ m ∈ p, m ≠ Text.ofString "..") (h : hub ∈ Hub.standard .standard)
    (hname : Settings.standard.schemaSuffix <:+ name) :
    (hub.pathIn ⟨.top, p⟩).IsClear here (Discovery.child (schemaRoot p) name).names := by
  obtain ⟨⟨a, b, c, hnames⟩, habsolute, hdots, hplace⟩ := Hub.place_standard h p here
  refine ⟨fun hmem => hplace ?_, hplace⟩
  have hup' : ∀ m ∈ (hub.pathIn ⟨.top, p⟩).names, m ≠ Text.ofString ".." := by
    intro m hm
    rw [Hub.pathIn, Path.join] at hm
    split at hm
    · exact hdots m hm
    · exact (List.mem_append.1 hm).elim (hup m) (hdots m)
  -- a place that is as deep as the hub is the hub itself
  rw [Path.mem_onWay_iff habsolute hup'] at hmem
  have heq := hmem.eq_of_length (by rw [hnames]; simp [Discovery.child, schemaRoot])
  rw [Path.place_eq_names habsolute hup', ← heq]
  exact mem_sources_concat.2 (.inl hname)

end Scaffold
