import Scaffold.Artifact.Analytics
import Scaffold.Artifact.Collection
import Scaffold.Artifact.Columns
import Scaffold.Artifact.Form
import Scaffold.Artifact.Pages
import Scaffold.Log.Record
import Scaffold.Text.Template

/-!
# Planned files

A catalogue lists the files that are made for a resource: the kind of each, a template for its place
in the project, and the maker of its text.  `plan` fills in the templates for one resource, for all
kinds or for a chosen one.

* `Catalogue.standard` has the files that this library makes.
* A maker answers a text, nothing (`none`: the resource has no such file), or says why it failed.
-/

namespace Scaffold

/-- Makes the text of a file for a resource, or nothing, or says what went wrong. -/
abbrev Maker := Resource → Except Text (Option Text)

/-- A file that is made for every resource. -/
structure Recipe where
  /-- The kind of file. -/
  kind : Text
  /-- The template of its place, with the fields `name` and `plural`. -/
  place : Text
  /-- The maker of its text. -/
  maker : Maker

/-- The files that are made, in the order in which they are written. -/
abbrev Catalogue := List Recipe

/-- A file to be made. -/
structure PlannedFile where
  /-- The kind of file. -/
  kind : Text
  /-- Its place, relative to the project. -/
  destination : Text
  /-- The maker of its text. -/
  maker : Maker

namespace Catalogue

/-- The maker that always writes a text. -/
def always (make : Resource → Text) : Maker := fun r => .ok (some (make r))

/-- The maker of a text that shows some values, which fails if one of them has no text. -/
def showing (shown : Resource → List Value) (make : Resource → Option Text) : Maker := fun r =>
  if (shown r).any Value.oversized then .error oversizedMessage else .ok (make r)

/-- The place of a page of the application. -/
def page (file : Text) : Text := "src/routes/_app/\x7bplural\x7d/" ++ file

/-- The files that this library makes. -/
def standard : Catalogue := [
  ⟨"collection", "src/collections/\x7bplural\x7d.collection.ts", always Artifact.collection⟩,
  ⟨"routes", page "index.tsx", always Artifact.listPage⟩,
  ⟨"routes", page "new.tsx", always Artifact.newPage⟩,
  ⟨"routes", page "$\x7bname\x7dId.tsx", always Artifact.editPage⟩,
  ⟨"analytics", page "analytics.tsx", showing Artifact.analyticsShown Artifact.analyticsPage?⟩,
  ⟨"form", "src/components/forms/\x7bname\x7d-form.tsx",
    showing Artifact.formShown fun r => some (Artifact.form r)⟩,
  ⟨"columns", "src/components/tables/\x7bname\x7d-columns.tsx",
    showing Artifact.columnsShown fun r => some (Artifact.columns r)⟩]

/-- The kinds of file, each where it comes first. -/
def kinds (catalogue : Catalogue) : List Text := (catalogue.map Recipe.kind).eraseDups

/-- The recipes of a kind, or all of them. -/
def ofKind (catalogue : Catalogue) : Option Text → Catalogue
  | none => catalogue
  | some kind => catalogue.filter (·.kind = kind)

/-- A catalogue without any recipe gives way to the standard one. -/
def orStandard (catalogue : Catalogue) : Catalogue :=
  if catalogue.isEmpty then standard else catalogue

end Catalogue

/-- The file that a recipe makes for a resource. -/
def Recipe.plan (recipe : Recipe) (r : Resource) : Except TemplateError PlannedFile := do
  let destination ← Template.fill [("name", r.name), ("plural", r.pluralName)] recipe.place
  return ⟨recipe.kind, destination, recipe.maker⟩

/-- Reports from planning and making files. -/
def orchestrating (level : LogLevel) (message : Text) : LogRecord :=
  ⟨level, .orchestrator, message⟩

/-- The report that a chosen kind is not in a catalogue. -/
def unknownKind (catalogue : Catalogue) (kind : Text) : LogRecord :=
  orchestrating .warning <|
    "Unknown artifact kind '" ++ kind ++ "' (known: " ++ Text.join ", " catalogue.kinds
      ++ "); nothing to generate"

/-- The report on a plan. -/
def planned (files : List PlannedFile) (r : Resource) : LogRecord :=
  orchestrating .debug <|
    "Planned " ++ Text.ofNat files.length ++ " artifact(s) for " ++ r.name

/-- The files to be made for a resource, of the chosen kind or of all kinds. -/
def plan (catalogue : Catalogue) (only : Option Text) (r : Resource) :
    Except TemplateError (List PlannedFile) × Log :=
  let catalogue := catalogue.orStandard
  let warnings : Log := match only with
    | some kind => if kind ∈ catalogue.kinds then [] else [unknownKind catalogue kind]
    | none => []
  match (catalogue.ofKind only).mapM (Recipe.plan · r) with
  | .error e => (.error e, warnings)
  | .ok files => (.ok files, warnings ++ [planned files r])

end Scaffold
