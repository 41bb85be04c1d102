import Scaffold.Project.Path

/-!
# Settings

What a project can choose: where its schemas and the shared files are, and what a resource is
declared with.  `Settings.standard` is what holds without a configuration document.

* `Settings.schemaPath` is the place of the schema of a resource.
* `Settings.resourceName` is the resource that a schema file is for.
-/

namespace Scaffold

/-- The places of the shared files, relative to the project. -/
structure HubPlaces where
  /-- The exports of all schemas. -/
  schemas : Text
  /-- The exports of all collections. -/
  collections : Text
  /-- The registry of resources. -/
  registry : Text
  /-- The database client. -/
  client : Text
  /-- The navigation. -/
  navigation : Text
  deriving DecidableEq, Repr

/-- The settings of a project. -/
structure Settings where
  /-- The directory of the schemas. -/
  schemaDirectory : Text
  /-- How the name of a schema file ends. -/
  schemaSuffix : Text
  /-- The schema file that declares no resource. -/
  baseSchema : Text
  /-- The function that declares a resource. -/
  factory : Text
  /-- The icon of resources that name none. -/
  defaultIcon : Text
  /-- The places of the shared files. -/
  hubs : HubPlaces
  deriving DecidableEq, Repr

/-- The places of the shared files where a project does not choose others. -/
def HubPlaces.standard : HubPlaces where
  schemas := "src/schemas/index.ts"
  collections := "src/collections/index.ts"
  registry := "src/lib/registry.ts"
  client := "src/lib/db-client.ts"
  navigation := "src/lib/navigation.ts"

namespace Settings

/-- The settings where a project does not choose others. -/
def standard : Settings where
  schemaDirectory := "src/schemas"
  schemaSuffix := ".schema.ts"
  baseSchema := "_resource.schema.ts"
  factory := "defineResource"
  defaultIcon := "Package"
  hubs := .standard

/-- The place of the schema of a resource, relative to the project. -/
def schemaPath (s : Settings) (resource : Text) : Text :=
  s.schemaDirectory ++ "/" ++ resource ++ s.schemaSuffix

/-- The resource that a schema file is for: its name without the suffix, or without what follows its
last point when it has another ending.  An empty suffix leaves no name. -/
def resourceName (s : Settings) (file : Path) : Text :=
  if s.schemaSuffix = [] then []
  else if file.name.endsWith s.schemaSuffix then file.name.dropEnd s.schemaSuffix
  else file.name.stem

end Settings

end Scaffold
