import Scaffold.Proofs.Project.Places
import Scaffold.Proofs.Schema.Extraction

/-!
# Files inside the project

The place of a planned file is a template with the names of the resource in it, and a name may hold
slashes and `..`.  A path is *inside* if it starts here and leads to a place below the directory it
starts in, whichever this is, when every `..` is resolved on the names alone (`Path.IsInside`).

* `Path.isInside_iff` says so by the names: on the way there are never more `..` than names before
  them (`Path.StaysBelow`).
* `plan_standard_inside` : every file of a standard plan starts in the project, and all of them are
  inside if and only if the names of the resource do not climb above the directories that the
  templates put in front of them (`Resource.StaysInside`).

A schema may give any text as a name: `extract_outside` reads one whose files leave the project.
-/

namespace Scaffold

namespace Path

variable {depth : Nat} {name : Text} {names : List Text}

/-! ### Paths that stay inside -/

/-- The path starts here and leads to a place in the directory that it starts in, whichever this
is. -/
def IsInside (p : Path) : Prop := p.isAbsolute = false ∧ ∀ here, here <+: (p.normal here).names

/-- Whoever goes along the names from `depth` directories below a place never goes above it. -/
def StaysBelow : (depth : Nat) → List Text → Prop
  | _, [] => True
  | depth, name :: names =>
    if name = Text.ofString ".." then 0 < depth ∧ StaysBelow (depth - 1) names
    else StaysBelow (depth + 1) names

instance StaysBelow.decidable : (depth : Nat) → (names : List Text) →
    Decidable (StaysBelow depth names)
  | _, [] => .isTrue trivial
  | depth, name :: names =>
    have := decidable (depth - 1) names
    have := decidable (depth + 1) names
    inferInstanceAs (Decidable (if name = Text.ofString ".." then
      0 < depth ∧ StaysBelow (depth - 1) names else StaysBelow (depth + 1) names))

theorem staysBelow_up : StaysBelow depth (Text.ofString ".." :: names) ↔
    0 < depth ∧ StaysBelow (depth - 1) names := by
  rw [StaysBelow, if_pos rfl]

theorem staysBelow_down (h : name ≠ Text.ofString "..") :
    StaysBelow depth (name :: names) ↔ StaysBelow (depth + 1) names := by
  rw [StaysBelow, if_neg h]

theorem staysBelow_append_of_notMem {u : List Text} (h : Text.ofString ".." ∉ u) :
    StaysBelow depth (u ++ names) ↔ StaysBelow (depth + u.length) names := by
  induction u generalizing depth with
  | nil => rfl
  | cons first u ih =>
    rw [List.mem_cons, not_or] at h
    rw [List.cons_append, staysBelow_down (Ne.symm h.1), ih h.2, List.length_cons, Nat.add_assoc,
      Nat.add_comm 1]

/-- A file at the end of the way is not above its directory. -/
theorem staysBelow_concat (h : name ≠ Text.ofString "..") :
    StaysBelow depth (names ++ [name]) ↔ StaysBelow depth names := by
  induction names generalizing depth with
  | nil => exact iff_of_true ((staysBelow_down h).2 trivial) trivial
  | cons first names ih =>
    by_cases hfirst : first = Text.ofString ".."
    · subst hfirst
      rw [List.cons_append, staysBelow_up, staysBelow_up, ih]
    · rw [List.cons_append, staysBelow_down hfirst, staysBelow_down hfirst, ih]

theorem StaysBelow.of_append {u v : List Text} (h : StaysBelow depth (u ++ v)) :
    StaysBelow depth u := by
  induction u generalizing depth with
  | nil => trivial
  | cons first u ih =>
    by_cases hfirst : first = Text.ofString ".."
    · subst hfirst
      rw [List.cons_append, staysBelow_up] at h
      exact staysBelow_up.2 ⟨h.1, ih h.2⟩
    · rw [List.cons_append, staysBelow_down hfirst] at h
      exact (staysBelow_down hfirst).2 (ih h)

theorem mem_resolveNames {done : List Text} (h : name ∈ resolveNames done names) :
    name ∈ done ∨ name ∈ names := by
  induction names generalizing done with
  | nil => exact .inl h
  | cons first names ih =>
    rw [resolveNames] at h
    split at h
    · exact (ih h).imp List.mem_of_mem_dropLast (List.mem_cons_of_mem _)
    · rcases ih h with hdone | hnames
      · rcases List.mem_append.1 hdone with hdone | hfirst
        · exact .inl hdone
        · exact .inr (List.mem_singleton.1 hfirst ▸ List.mem_cons_self)
      · exact .inr (List.mem_cons_of_mem _ hnames)

/-- The names stay below every directory exactly if there is a name to go back from for every
`..`. -/
theorem prefix_resolveNames_iff (done : List Text) :
    (∀ here, here <+: resolveNames (here ++ done) names) ↔ StaysBelow done.length names := by
  induction names generalizing done with
  | nil => exact iff_of_true (fun here => List.prefix_append here done) trivial
  | cons first names ih =>
    by_cases hfirst : first = Text.ofString ".."
    · subst hfirst
      rw [staysBelow_up]
      rcases List.eq_nil_or_concat' done with rfl | ⟨done, last, rfl⟩
      · -- a directory whose name is none of those on the way is left for good
        refine iff_of_false (fun h => ?_) (fun h => absurd h.1 (Nat.lt_irrefl 0))
        let away : Text := names.flatten ++ " "
        have haway : away ∉ names := fun hmem => by
          have := (List.sublist_flatten_of_mem hmem).length_le
          simp only [away, List.length_append] at this
          exact absurd this (by have : (Text.ofString " ").length = 1 := rfl; omega)
        have hprefix := h [away]
        rw [resolveNames, if_pos rfl] at hprefix
        have hmem := hprefix.subset (List.mem_singleton_self away)
        exact (mem_resolveNames hmem).elim (fun hnil => absurd hnil List.not_mem_nil) haway
      · simp only [resolveNames, if_pos, ← List.append_assoc, List.dropLast_concat]
        rw [ih done]
        simp
    · simp only [resolveNames, if_neg hfirst, List.append_assoc]
      rw [ih (done ++ [first]), staysBelow_down hfirst, List.length_append]
      rfl

theorem isInside_iff {p : Path} : p.IsInside ↔ p.isAbsolute = false ∧ StaysBelow 0 p.names := by
  rw [IsInside, ← List.length_nil, ← prefix_resolveNames_iff]
  refine and_congr_right fun hstart => ?_
  simp only [normal, hstart, List.append_nil, Bool.false_eq_true, if_false]

/-! ### Directories in a written path -/

/-- The names in a written path before its last slash. -/
def directories (t : Text) : List Text :=
  (Text.splitOn '/' t).dropLast.filter fun name => name ≠ [] ∧ name ≠ Text.ofString "."

/-- What is written behind the last slash of a path ends the name of a file. -/
theorem namesOf_append_tail {tail : Text} (hslash : CodePoint.scalar '/' ∉ tail)
    (hlong : 2 < tail.length) (t : Text) :
    ∃ file, file ≠ Text.ofString ".." ∧ namesOf (t ++ tail) = directories t ++ [file] := by
  obtain ⟨pieces, last, hpieces, htail⟩ := Text.splitOn_append_of_notMem hslash t
  have hne : ∀ name : Text, name.length ≤ 2 → last ++ tail ≠ name := by
    rintro name hname rfl
    rw [List.length_append] at hname
    omega
  have hkept : last ++ tail ≠ [] ∧ last ++ tail ≠ Text.ofString "." :=
    ⟨hne _ (by decide), hne _ (by decide)⟩
  refine ⟨last ++ tail, hne _ (by decide), ?_⟩
  rw [namesOf, htail, List.filter_append, directories, hpieces, List.dropLast_concat]
  refine congrArg _ (List.filter_eq_self.2 fun name hname => ?_)
  rw [List.mem_singleton.1 hname]
  exact decide_eq_true hkept

theorem directories_append (s t : Text) :
    directories (s ++ "/" ++ t) = namesOf s ++ directories t := by
  rw [directories, List.append_assoc]
  change List.filter _ (Text.splitOn '/' (s ++ .scalar '/' :: t)).dropLast = _
  rw [Text.splitOn_append, List.dropLast_append_of_ne_nil (Text.splitOn_ne_nil _ _),
    List.filter_append]
  rfl

end Path

/-! ### The standard files -/

/-- The names of the resource do not climb above the directories in front of them. -/
structure Resource.StaysInside (r : Resource) : Prop where
  /-- A collection is two directories below the project. -/
  collection : Path.StaysBelow 2 (Path.directories r.pluralName)
  /-- The directory of a page is three directories below the project, and the name of a record goes
  on from there. -/
  page : Path.StaysBelow 3 (Path.namesOf r.pluralName ++ Path.directories ("$" ++ r.name))
  /-- A component is three directories below the project. -/
  component : Path.StaysBelow 3 (Path.directories r.name)

instance (r : Resource) : Decidable r.StaysInside :=
  decidable_of_iff (Path.StaysBelow 2 (Path.directories r.pluralName) ∧
      Path.StaysBelow 3 (Path.namesOf r.pluralName ++ Path.directories ("$" ++ r.name)) ∧
      Path.StaysBelow 3 (Path.directories r.name))
    ⟨fun h => ⟨h.1, h.2.1, h.2.2⟩, fun h => ⟨h.collection, h.page, h.component⟩⟩

/-- The path starts here, and it is inside exactly under the condition. -/
structure IsInsideWhen (destination : Text) (condition : Prop) : Prop where
  /-- The path starts here. -/
  starts : (Path.read destination).isAbsolute = false
  /-- The path is inside. -/
  inside_iff : (Path.read destination).IsInside ↔ condition

/-- A file behind directories that do not lead up is inside if the directories in the text between
do not climb above them. -/
theorem IsInsideWhen.of_tail {destination : Text} {depth : Nat} (place t tail : Text)
    (hdestination : destination = place ++ "/" ++ (t ++ tail))
    (hstart : place.head?.any (· ≠ CodePoint.scalar '/') = true)
    (hdepth : (Path.namesOf place).length = depth) (hup : Text.ofString ".." ∉ Path.namesOf place)
    (hslash : CodePoint.scalar '/' ∉ tail) (hlong : 2 < tail.length) :
    IsInsideWhen destination (Path.StaysBelow depth (Path.directories t)) := by
  subst hdestination hdepth
  have hrelative : (Path.read (place ++ "/" ++ (t ++ tail))).isAbsolute = false := by
    cases place with
    | nil => exact absurd hstart Bool.false_ne_true
    | cons c place =>
      have hc : c ≠ .scalar '/' := by simpa using hstart
      simp [Path.read, Path.isAbsolute, hc, PathStart.ofCount]
  refine ⟨hrelative, ?_⟩
  obtain ⟨file, hfile, htail⟩ := Path.namesOf_append_tail hslash hlong t
  have hnames : (Path.read (place ++ "/" ++ (t ++ tail))).names =
      Path.namesOf place ++ (Path.directories t ++ [file]) := by
    rw [← htail]
    exact Path.namesOf_append place (t ++ tail)
  rw [Path.isInside_iff, hnames, Path.staysBelow_append_of_notMem hup, Nat.zero_add,
    Path.staysBelow_concat hfile]
  exact and_iff_right hrelative

/-- A page is in the directory that the plural names. -/
theorem isInsideWhen_page (r : Resource) {destination : Text} (t tail : Text)
    (hdestination : destination = "src/routes/_app/" ++ r.pluralName ++ "/" ++ t ++ tail)
    (hslash : CodePoint.scalar '/' ∉ tail) (hlong : 2 < tail.length) :
    IsInsideWhen destination
      (Path.StaysBelow 3 (Path.namesOf r.pluralName ++ Path.directories t)) := by
  rw [← Path.directories_append]
  exact .of_tail "src/routes/_app" _ tail (hdestination.trans (by simp [Text.ofString]))
    (by decide) (by decide) (by decide) hslash hlong

/-- Every standard file starts in the project, and all of them are inside exactly if the names of
the resource stay inside. -/
theorem standardFiles_inside (r : Resource) :
    (∀ f ∈ standardFiles r, (Path.read f.destination).isAbsolute = false) ∧
      ((∀ f ∈ standardFiles r, (Path.read f.destination).IsInside) ↔ r.StaysInside) := by
  have collection : IsInsideWhen ("src/collections/" ++ r.pluralName ++ ".collection.ts")
      (Path.StaysBelow 2 (Path.directories r.pluralName)) :=
    .of_tail "src/collections" _ ".collection.ts" (by simp [Text.ofString]) (by decide) (by decide)
      (by decide) (by decide) (by decide)
  have page (file tail : Text) (hfile : file = "/" ++ tail)
      (hslash : CodePoint.scalar '/' ∉ tail) (hlong : 2 < tail.length) :
      IsInsideWhen ("src/routes/_app/" ++ r.pluralName ++ file)
        (Path.StaysBelow 3 (Path.namesOf r.pluralName)) := by
    have hhere := isInsideWhen_page r [] tail
      (show "src/routes/_app/" ++ r.pluralName ++ file = _ by simp [hfile]) hslash hlong
    rwa [show Path.directories [] = [] from rfl, List.append_nil] at hhere
  have index := page "/index.tsx" "index.tsx" (by decide) (by decide) (by decide)
  have new := page "/new.tsx" "new.tsx" (by decide) (by decide) (by decide)
  have analytics := page "/analytics.tsx" "analytics.tsx" (by decide) (by decide) (by decide)
  have record : IsInsideWhen ("src/routes/_app/" ++ r.pluralName ++ "/$" ++ r.name ++ "Id.tsx")
      (Path.StaysBelow 3 (Path.namesOf r.pluralName ++ Path.directories ("$" ++ r.name))) :=
    isInsideWhen_page r ("$" ++ r.name) "Id.tsx" (by simp [Text.ofString]) (by decide) (by decide)
  have form : IsInsideWhen ("src/components/forms/" ++ r.name ++ "-form.tsx")
      (Path.StaysBelow 3 (Path.directories r.name)) :=
    .of_tail "src/components/forms" _ "-form.tsx" (by simp [Text.ofString]) (by decide) (by decide)
      (by decide) (by decide) (by decide)
  have columns : IsInsideWhen ("src/components/tables/" ++ r.name ++ "-columns.tsx")
      (Path.StaysBelow 3 (Path.directories r.name)) :=
    .of_tail "src/components/tables" _ "-columns.tsx" (by simp [Text.ofString]) (by decide)
      (by decide) (by decide) (by decide) (by decide)
  simp only [standardFiles, List.forall_mem_cons, List.not_mem_nil, false_implies, implies_true,
    and_true]
  refine ⟨⟨collection.starts, index.starts, new.starts, record.starts, analytics.starts,
    form.starts, columns.starts⟩, ?_⟩
  rw [collection.inside_iff, index.inside_iff, new.inside_iff, record.inside_iff,
    analytics.inside_iff, form.inside_iff, columns.inside_iff]
  constructor
  · rintro ⟨hcollection, -, -, hpage, -, hcomponent, -⟩
    exact ⟨hcollection, hpage, hcomponent⟩
  · intro h
    have hindex := h.page.of_append
    exact ⟨h.collection, hindex, hindex, h.page, hindex, h.component, h.component⟩

/-- **Whether generated files stay in the project.**  Whatever the kinds that are chosen and the
names of the resource, there is a plan from the standard catalogue, and every file in it starts in
the project.  All files of all these plans are inside the project if and only if the names of the
resource do not climb above the directories that stand in front of them. -/
theorem plan_standard_inside (r : Resource) :
    (∀ only, ∃ files, (plan Catalogue.standard only r).1 = .ok files ∧
      ∀ f ∈ files, (Path.read f.destination).isAbsolute = false) ∧
    ((∀ only files, (plan Catalogue.standard only r).1 = .ok files →
      ∀ f ∈ files, (Path.read f.destination).IsInside) ↔ r.StaysInside) := by
  obtain ⟨hstart, hinside⟩ := standardFiles_inside r
  constructor
  · intro only
    have hplan : ∃ files, (plan Catalogue.standard only r).1 = .ok files := by
      cases only with
      | none => exact ⟨_, plan_standard r⟩
      | some kind => exact ⟨_, plan_only (plan_standard r) kind⟩
    obtain ⟨files, hfiles⟩ := hplan
    exact ⟨files, hfiles, fun f hf => hstart f (mem_standardFiles_of_plan hfiles hf).1⟩
  · rw [← hinside]
    constructor
    · exact fun h => h none _ (plan_standard r)
    · exact fun h only files hfiles f hf => h f (mem_standardFiles_of_plan hfiles hf).1

/-- A schema whose collection is written next to the project. -/
theorem extract_outside :
    let w : WrittenSchema := { constants := [], varName := "x", name := "../../../x", fields := [] }
    ∃ r files f, (extract "defineResource" "<source>" w.source).1 = .ok r ∧
      (plan Catalogue.standard none r).1 = .ok files ∧ f ∈ files ∧
      f.destination = "src/collections/../../../xs.collection.ts" ∧
      ¬ (Path.read f.destination).IsInside := by
  intro w
  have hw : w.IsWritten :=
    { constants := trivial
      varName := by decide
      varName_notMem := by decide
      name := by decide
      name_isScalar := by decide
      fields := nofun }
  refine ⟨_, _, _, w.extract_of_noFields hw rfl "<source>", plan_standard _, List.mem_cons_self,
    rfl, ?_⟩
  rw [Path.isInside_iff]
  decide

end Scaffold
