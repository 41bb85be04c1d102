import Scaffold.Proofs.Project.Executing
import Scaffold.Proofs.Text.Template

/-!
# What a catalogue plans

A plan has one file for each recipe of the chosen kind, in the order of the catalogue: the kind and
the maker are those of the recipe, and its place is the template of the recipe, filled in with the
names of the resource (`plan_follows_catalogue`).  Most templates are text with the two names in it
(`PlacePart`); these can always be filled in (`PlacePart.fill_written`).

The standard catalogue has a plan for every resource (`plan_standard`), and an empty one gives way
to it (`plan_empty_standard`).
-/

namespace Scaffold

/-! ### Places with names in them -/

/-- A part of the template of a place. -/
inductive PlacePart where
  /-- Text that stands for itself. -/
  | literal (t : Text)
  /-- The name of the resource. -/
  | name
  /-- The name of several of them. -/
  | plural
  deriving DecidableEq, Repr

/-- The values of the fields in the template of a place. -/
def Resource.placeValues (r : Resource) : List (Text × Text) :=
  [("name", r.name), ("plural", r.pluralName)]

namespace PlacePart

/-- A part as it is written in a template; a brace that is text is written twice. -/
def written : PlacePart → Text
  | literal t => t.flatMap fun c => if Template.isBrace c then [c, c] else [c]
  | name => "\x7bname\x7d"
  | plural => "\x7bplural\x7d"

/-- What a part stands for in the place of a file of a resource. -/
def filled (r : Resource) : PlacePart → Text
  | literal t => t
  | name => r.name
  | plural => r.pluralName

theorem gives_written (r : Resource) (parts : List PlacePart) :
    Template.Gives r.placeValues (parts.flatMap written) (parts.flatMap (filled r)) := by
  induction parts with
  | nil => exact Template.gives_nil _
  | cons part parts ih =>
    rw [List.flatMap_cons, List.flatMap_cons]
    cases part with
    | literal t =>
      -- code point by code point, as braces are written twice
      induction t with
      | nil => exact ih
      | cons c t iht =>
        by_cases hc : Template.isBrace c = true
        · simpa [written, filled, hc] using iht.brace hc
        · simpa [written, filled, hc] using iht.plain (by simpa using hc)
    | name => exact ih.field (show Template.IsFieldName "name" by decide) rfl
    | plural => exact ih.field (show Template.IsFieldName "plural" by decide) rfl

/-- A template that is text with names in it can be filled in. -/
theorem fill_written (r : Resource) (parts : List PlacePart) :
    Template.fill r.placeValues (parts.flatMap written) = .ok (parts.flatMap (filled r)) :=
  (gives_written r parts).fill_eq

end PlacePart

/-! ### Plans -/

/-- The recipe is of the chosen kind, if one is chosen. -/
def Recipe.IsChosen (only : Option Text) (recipe : Recipe) : Prop :=
  ∀ kind ∈ only, recipe.kind = kind

instance (only : Option Text) : DecidablePred (Recipe.IsChosen only) := fun recipe =>
  inferInstanceAs (Decidable (∀ kind ∈ only, recipe.kind = kind))

/-- The planned file is the one that the recipe makes for the resource. -/
structure Recipe.Plans (recipe : Recipe) (r : Resource) (f : PlannedFile) : Prop where
  /-- It is of the kind of the recipe. -/
  kind : f.kind = recipe.kind
  /-- It is made by the maker of the recipe. -/
  maker : f.maker = recipe.maker
  /-- Its place is the template with the names of the resource. -/
  destination : Template.fill r.placeValues recipe.place = .ok f.destination

theorem Recipe.plan_eq_ok_iff_plans {recipe : Recipe} {r : Resource} {f : PlannedFile} :
    recipe.plan r = .ok f ↔ recipe.Plans r f := by
  rw [Recipe.plan_eq_ok_iff]
  constructor
  · rintro ⟨place, hplace, rfl⟩
    exact ⟨rfl, rfl, hplace⟩
  · intro h
    obtain ⟨kind, destination, maker⟩ := f
    obtain ⟨rfl, rfl, hplace⟩ := h
    exact ⟨destination, hplace, rfl⟩

/-- The place of a planned file, where the template is text with names in it. -/
theorem Recipe.Plans.destination_eq {recipe : Recipe} {r : Resource} {f : PlannedFile}
    (h : recipe.Plans r f) {parts : List PlacePart}
    (hparts : recipe.place = parts.flatMap PlacePart.written) :
    f.destination = parts.flatMap (PlacePart.filled r) := by
  have hplace := h.destination
  rw [hparts, PlacePart.fill_written] at hplace
  exact (Except.ok.inj hplace).symm

theorem Catalogue.ofKind_eq (catalogue : Catalogue) (only : Option Text) :
    catalogue.ofKind only = catalogue.filter (Recipe.IsChosen only) := by
  cases only with
  | none => simp [ofKind, Recipe.IsChosen]
  | some kind => simp [ofKind, Recipe.IsChosen]

theorem Catalogue.orStandard_of_ne_nil {catalogue : Catalogue} (h : catalogue ≠ []) :
    catalogue.orStandard = catalogue :=
  if_neg fun hempty => h (List.isEmpty_iff.1 hempty)

/-- **A plan follows the catalogue.**  For a catalogue with at least one recipe, whatever the kinds
in it, the chosen kind and the resource: the planned files are those of the recipes of the chosen
kind, one for each and in their order, and there is a plan whenever the templates of these recipes
can be filled in.  Where a template is text with the two names in it, the place of the file is this
text with the names of the resource. -/
theorem plan_follows_catalogue {catalogue : Catalogue} (hne : catalogue ≠ []) (only : Option Text)
    (r : Resource) :
    (∀ files, (plan catalogue only r).1 = .ok files ↔
      List.Forall₂ (Recipe.Plans · r ·) (catalogue.filter (Recipe.IsChosen only)) files) ∧
    ((∀ recipe ∈ catalogue, recipe.IsChosen only →
        ∃ place, Template.fill r.placeValues recipe.place = .ok place) →
      ∃ files, (plan catalogue only r).1 = .ok files) ∧
    ∀ (recipe : Recipe) (f : PlannedFile) (parts : List PlacePart), recipe.Plans r f →
      recipe.place = parts.flatMap PlacePart.written →
      f.destination = parts.flatMap (PlacePart.filled r) := by
  have hplan : ∀ files, (plan catalogue only r).1 = .ok files ↔
      List.Forall₂ (Recipe.Plans · r ·) (catalogue.filter (Recipe.IsChosen only)) files := by
    intro files
    rw [plan_eq_ok_iff, Catalogue.orStandard_of_ne_nil hne, Catalogue.ofKind_eq]
    simp only [Recipe.plan_eq_ok_iff_plans]
  refine ⟨hplan, ?_, fun recipe f parts h hparts => h.destination_eq hparts⟩
  intro hfills
  -- the plan that the recipes make, one by one
  let file (recipe : Recipe) : PlannedFile :=
    ⟨recipe.kind, (Template.fill r.placeValues recipe.place).toOption.getD [], recipe.maker⟩
  refine ⟨(catalogue.filter (Recipe.IsChosen only)).map file, (hplan _).2 ?_⟩
  rw [List.forall₂_map_right_iff, List.forall₂_same]
  intro recipe hrecipe
  obtain ⟨hmem, hchosen⟩ := List.mem_filter.1 hrecipe
  obtain ⟨place, hplace⟩ := hfills recipe hmem (of_decide_eq_true hchosen)
  refine ⟨rfl, rfl, ?_⟩
  dsimp only [file]
  rw [hplace]
  rfl

/-- A catalogue of three recipes, two of them of one kind, whose plan is asked for this kind. -/
theorem plan_follows_catalogue_documents :
    let maker (t : Text) : Maker := fun _ => .ok (some t)
    let guide : Recipe := ⟨"doc", "docs/\x7bplural\x7d/\x7bname\x7d.md", maker "A"⟩
    let style : Recipe := ⟨"style", "\x7bname\x7d.css", maker "B"⟩
    let notes : Recipe := ⟨"doc", "notes/\x7b\x7b\x7bname\x7d\x7d\x7d.md", maker "C"⟩
    let r : Resource := { name := "user", pluralName := "users", varName := "userResource" }
    ∃ files, (plan [guide, style, notes] (some "doc") r).1 = .ok files ∧
      files.map (·.destination) =
        (["docs/users/user.md", "notes/\x7buser\x7d.md"] : List Text) := by
  intro maker guide style notes r
  obtain ⟨hplan, hreturns, hplaces⟩ :=
    plan_follows_catalogue (List.cons_ne_nil guide [style, notes]) (some "doc") r
  have hguide : guide.place = [PlacePart.literal "docs/", .plural, .literal "/", .name,
    .literal ".md"].flatMap PlacePart.written := by decide
  have hnotes : notes.place = [PlacePart.literal "notes/\x7b", .name,
    .literal "\x7d.md"].flatMap PlacePart.written := by decide
  obtain ⟨files, hfiles⟩ := hreturns (by
    simp only [List.forall_mem_cons, List.not_mem_nil, false_implies, implies_true, and_true]
    exact ⟨fun _ => ⟨_, hguide ▸ PlacePart.fill_written r _⟩,
      fun hchosen => absurd hchosen (by decide), fun _ => ⟨_, hnotes ▸ PlacePart.fill_written r _⟩⟩)
  refine ⟨files, hfiles, ?_⟩
  have hall := (hplan files).1 hfiles
  have hchosen : [guide, style, notes].filter (Recipe.IsChosen (some "doc")) = [guide, notes] := rfl
  rw [hchosen] at hall
  cases hall with
  | cons hf hall =>
    cases hall with
    | cons hg hall =>
      cases hall
      simp only [List.map_cons, List.map_nil, hplaces _ _ _ hf hguide, hplaces _ _ _ hg hnotes]
      decide

/-! ### Makers -/

section Makers

variable {r : Resource} {t : Text}

/-- A file that shows values is made, or one of them has no text. -/
theorem showing_cases (shown : Resource → List Value) (make : Resource → Option Text)
    (r : Resource) : Catalogue.showing shown make r = .ok (make r) ∨
      Catalogue.showing shown make r = .error oversizedMessage := by
  rw [Catalogue.showing]
  split
  · exact .inr rfl
  · exact .inl rfl

theorem eq_of_always {make : Resource → Text} (h : Catalogue.always make r = .ok (some t)) :
    make r = t := Option.some.inj (Except.ok.inj h)

theorem eq_of_showing {shown : Resource → List Value} {make : Resource → Option Text}
    (h : Catalogue.showing shown make r = .ok (some t)) : make r = some t := by
  rcases showing_cases shown make r with hmade | hfailed
  · exact Except.ok.inj (hmade.symm.trans h)
  · cases hfailed.symm.trans h

theorem eq_of_showing_some {shown : Resource → List Value} {make : Resource → Text}
    (h : Catalogue.showing shown (fun r => some (make r)) r = .ok (some t)) : make r = t :=
  Option.some.inj (@eq_of_showing r t shown (fun r => some (make r)) h)

end Makers

/-! ### The standard files -/

/-- The standard files of a resource. -/
def standardFiles (r : Resource) : List PlannedFile :=
  let pages : Text := "src/routes/_app/" ++ r.pluralName
  [⟨"collection", "src/collections/" ++ r.pluralName ++ ".collection.ts",
      Catalogue.always Artifact.collection⟩,
    ⟨"routes", pages ++ "/index.tsx", Catalogue.always Artifact.listPage⟩,
    ⟨"routes", pages ++ "/new.tsx", Catalogue.always Artifact.newPage⟩,
    ⟨"routes", pages ++ "/$" ++ r.name ++ "Id.tsx", Catalogue.always Artifact.editPage⟩,
    ⟨"analytics", pages ++ "/analytics.tsx",
      Catalogue.showing Artifact.analyticsShown Artifact.analyticsPage?⟩,
    ⟨"form", "src/components/forms/" ++ r.name ++ "-form.tsx",
      Catalogue.showing Artifact.formShown fun r => some (Artifact.form r)⟩,
    ⟨"columns", "src/components/tables/" ++ r.name ++ "-columns.tsx",
      Catalogue.showing Artifact.columnsShown fun r => some (Artifact.columns r)⟩]

/-- The standard catalogue has a plan for every resource. -/
theorem plan_standard (r : Resource) :
    (plan Catalogue.standard none r).1 = .ok (standardFiles r) := by
  let page (parts : List PlacePart) : List PlacePart :=
    [.literal "src/routes/_app/", .plural] ++ parts
  have planned {kind place destination : Text} {maker : Maker} (parts : List PlacePart)
      (hplace : place = parts.flatMap PlacePart.written)
      (hdestination : parts.flatMap (PlacePart.filled r) = destination) :
      Recipe.plan ⟨kind, place, maker⟩ r = .ok ⟨kind, destination, maker⟩ :=
    Recipe.plan_eq_ok_iff.2
      ⟨_, hplace ▸ PlacePart.fill_written r parts, by rw [hdestination]⟩
  rw [plan_eq_ok_iff]
  refine .cons (planned [.literal "src/collections/", .plural, .literal ".collection.ts"]
    (by decide +kernel) (by simp [PlacePart.filled])) ?_
  refine .cons (planned (page [.literal "/index.tsx"])
    (by decide +kernel) (by simp [page, PlacePart.filled])) ?_
  refine .cons (planned (page [.literal "/new.tsx"])
    (by decide +kernel) (by simp [page, PlacePart.filled])) ?_
  refine .cons (planned (page [.literal "/$", .name, .literal "Id.tsx"])
    (by decide +kernel) (by simp [page, PlacePart.filled])) ?_
  refine .cons (planned (page [.literal "/analytics.tsx"])
    (by decide +kernel) (by simp [page, PlacePart.filled])) ?_
  refine .cons (planned [.literal "src/components/forms/", .name, .literal "-form.tsx"]
    (by decide +kernel) (by simp [PlacePart.filled])) ?_
  exact .cons (planned [.literal "src/components/tables/", .name, .literal "-columns.tsx"]
    (by decide +kernel) (by simp [PlacePart.filled])) .nil

/-- An empty catalogue plans the standard files, though it has no recipe. -/
theorem plan_empty_standard :
    let r : Resource := { name := "order", pluralName := "orders", varName := "orderResource" }
    ∃ files, (plan [] none r).1 = .ok files ∧
      ¬ List.Forall₂ (Recipe.Plans · r ·)
        (([] : Catalogue).filter (Recipe.IsChosen none)) files := by
  intro r
  refine ⟨standardFiles r, plan_standard r, ?_⟩
  rw [List.filter_nil, List.forall₂_nil_left_iff]
  exact List.cons_ne_nil _ _

end Scaffold
