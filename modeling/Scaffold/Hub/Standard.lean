import Scaffold.Hub.Basic
import Scaffold.Hub.Probe
import Scaffold.Settings.Basic
import Scaffold.Value.Source

/-!
# The hubs of a project

The five shared files, in the order in which a resource is registered in them: the exports of all
schemas, the exports of all collections, the registry, the database client and the navigation.
Later ones refer to names that earlier ones export.
-/

namespace Scaffold

namespace Hub

/-- The first line of a new hub. -/
def heading : Text :=
  "// AUTO-UPDATED by resourcegen - entries are added below the marker comments"

/-! ### Lines that show where imports are -/

/-- Some text, then the word, then some text again. -/
def hasBetween (word : Text) : Text → Bool
  | [] => false
  | _ :: t =>
    (match Text.dropStart? word t with
      | some rest => !rest.isEmpty
      | none => false) || hasBetween word t

/-- The line imports something. -/
def isImport (line : Text) : Bool :=
  match Text.dropStart? "import " line with
  | some rest => hasBetween " from " rest
  | none => false

/-- The line imports from a schema. -/
def isSchemaImport (line : Text) : Bool := line.includes "from '@/schemas"

/-- The line imports from the collections. -/
def isCollectionImport (line : Text) : Bool := line.includes "from '@/collections"

/-- The line ends the import of icons. -/
def isIconImportEnd (line : Text) : Bool := line.startsWith "\x7d from 'lucide-react'"

/-! ### The exports of all schemas -/

/-- The marker in the exports of all schemas. -/
def schemasMarker : Text := "// === RESOURCE EXPORTS (auto-generated) ==="

/-- The exports of all schemas. -/
def schemas (s : Settings) : Hub where
  name := "schemas_barrel"
  place := s.hubs.schemas
  marker := schemasMarker
  skeleton := Text.unlines [heading, "export * from './" ++ s.baseSchema.dropEnd ".ts" ++ "'", "",
    schemasMarker]
  entry r := "export \x7b " ++ r.varName ++ " \x7d from './" ++ r.name ++ ".schema'"
  isRegistered r := Probe.reexports (r.name ++ ".schema")

/-! ### The exports of all collections -/

/-- The marker in the exports of all collections. -/
def collectionsMarker : Text := "// === COLLECTION EXPORTS (auto-generated) ==="

/-- The exports of all collections. -/
def collections (s : Settings) : Hub where
  name := "collections_barrel"
  place := s.hubs.collections
  marker := collectionsMarker
  skeleton := Text.unlines [heading, "", collectionsMarker]
  entry r :=
    let names : Text :=
      if r.isParquet then "*"
      else "\x7b " ++ r.collectionName ++ ", type " ++ r.typeName ++ " \x7d"
    "export " ++ names ++ " from './" ++ r.pluralName ++ ".collection'"
  isRegistered r := Probe.reexports (r.pluralName ++ ".collection")

/-! ### The registry -/

/-- The marker in the registry. -/
def registryMarker : Text := "// === REGISTRY ENTRIES ==="

/-- The entry of a resource in the registry. -/
def registryEntry (r : Resource) : Text :=
  let collection : List Text :=
    if r.isParquet then [] else ["    collection: " ++ r.collectionName ++ ","]
  Text.join "\n" <| List.flatten [
    ["  " ++ r.name ++ ": \x7b",
      "    config: " ++ r.varName ++ ".config,"],
    collection,
    ["    dataSource: '" ++ r.dataSource ++ "',",
      "    routes: \x7b",
      "      list: '/" ++ r.pluralName ++ "',",
      "      new: '/" ++ r.pluralName ++ "/new',",
      "      edit: (id: string) => \x60/" ++ r.pluralName ++ "/$\x7bid\x7d\x60,",
      "    \x7d,",
      "  \x7d,"]]

/-- The part of a text from the registry's marker on; all of it where there is no marker. -/
def belowMarker (marker t : Text) : Text :=
  match Text.cut? marker t with
  | some (_, rest) => marker ++ rest
  | none => t

/-- The import of the schema of a resource. -/
def schemaImport : ReferenceLine where
  line r := "import \x7b " ++ r.varName ++ " \x7d from '@/schemas/" ++ r.name ++ ".schema'"
  isThere r := Probe.imports r.varName none
  isAnchor := isSchemaImport

/-- The import of the collection of a resource, near the lines that `isAnchor` and `isFallback`
look for. -/
def collectionImport (isAnchor isFallback : Text → Bool) : ReferenceLine where
  line r := "import \x7b " ++ r.collectionName ++ " \x7d from '@/collections'"
  isThere r := Probe.imports r.collectionName none
  isAnchor := isAnchor
  isFallback := isFallback

/-- The registry of resources. -/
def registry (s : Settings) : Hub where
  name := "registry"
  place := s.hubs.registry
  marker := registryMarker
  skeleton := Text.unlines [heading,
    "",
    "import type \x7b ResourceConfig \x7d from '@/schemas/_resource.schema'",
    "",
    "export type ResourceEntry = \x7b",
    "  config: ResourceConfig & \x7b pluralName: string \x7d",
    "  collection?: unknown",
    "  dataSource: 'json' | 'parquet'",
    "  routes: \x7b",
    "    list: string",
    "    new: string",
    "    edit: (id: string) => string",
    "  \x7d",
    "\x7d",
    "",
    "export const resourceRegistry: Record<string, ResourceEntry> = \x7b",
    "  " ++ registryMarker,
    "\x7d"]
  entry := registryEntry
  isRegistered r t := Probe.keysObject r.name (belowMarker registryMarker t)
  references := [schemaImport,
    { collectionImport isImport (fun _ => false) with applies := fun r => !r.isParquet }]
  isClaimed r t := t.includes ("'/" ++ r.pluralName ++ "'")

/-! ### The database client -/

/-- The marker in the database client. -/
def clientMarker : Text := "// === COLLECTIONS ==="

/-- The database client. -/
def client (s : Settings) : Hub where
  name := "db_client"
  place := s.hubs.client
  marker := clientMarker
  skeleton := Text.unlines [heading,
    "",
    "import \x7b createDbClient \x7d from '@tanstack/db'",
    "import \x7b queryClient \x7d from './query-client'",
    "",
    "export const db = createDbClient(\x7b",
    "  queryClient,",
    "  collections: \x7b",
    "    " ++ clientMarker,
    "  \x7d,",
    "\x7d)",
    "",
    "export type DbCollections = typeof db.collections"]
  entry r := "    " ++ r.pluralName ++ ": " ++ r.collectionName ++ ","
  isRegistered r := Probe.keysName r.pluralName r.collectionName
  references := [collectionImport isCollectionImport isImport]
  applies r := !r.isParquet

/-! ### The navigation -/

/-- The marker in the navigation. -/
def navigationMarker : Text := "// === RESOURCE NAV ITEMS ==="

/-- The icon of a resource in the navigation. -/
def iconOf (s : Settings) (r : Resource) : Text := r.icon?.getD s.defaultIcon

/-- The link of a resource in the navigation. -/
def link (r : Resource) : Text := "href: '/" ++ r.pluralName ++ "'"

/-- The navigation. -/
def navigation (s : Settings) : Hub where
  name := "navigation"
  place := s.hubs.navigation
  marker := navigationMarker
  skeleton := Text.unlines [heading,
    "",
    "import \x7b",
    "  type LucideIcon,",
    "\x7d from 'lucide-react'",
    "",
    "export type NavItem = \x7b",
    "  title: string",
    "  href: string",
    "  icon: LucideIcon",
    "  description?: string",
    "\x7d",
    "",
    "export const resourceNavItems: NavItem[] = [",
    "  " ++ navigationMarker,
    "]"]
  entry r := Text.join "\n"
    ["    \x7b",
      "      title: " ++ r.displayName.literal ++ ",",
      "      " ++ link r ++ ",",
      "      icon: " ++ iconOf s r ++ ",",
      "      description: " ++ r.describe.literal ++ ",",
      "    \x7d,"]
  isRegistered r t := t.includes (link r)
  references := [{
    line := fun r => "  " ++ iconOf s r ++ ","
    isThere := fun r => Probe.imports (iconOf s r) (some "lucide-react")
    isAnchor := isIconImportEnd
    position := .aboveFirst }]

/-- The hubs of a project, in the order in which a resource is registered in them. -/
def standard (s : Settings) : List Hub :=
  [schemas s, collections s, registry s, client s, navigation s]

end Hub

end Scaffold
