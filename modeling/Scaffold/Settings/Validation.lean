import Scaffold.Settings.Basic
import Scaffold.Yaml.Basic

/-!
# Checking settings

A configuration document gives some of the settings; the others have their standard values.
`Settings.check` makes settings of the data of a document, or says everything that is wrong with it:
the settings come first, in the order of their declaration, then the keys that are no settings in
the order of the document.  Where a key has a surrogate, that is all that is said of its mapping.
-/

namespace Scaffold

namespace Settings

open Checked

/-- A text. -/
def textOf : Yaml → Checked Text
  | .scalar (.text t) => .ok t
  | _ => fail .notText

/-- The text under a key; `default` if the key is not there. -/
def textAt (y : Yaml) (key default : Text) : Checked Text :=
  match y.get? key with
  | some v => (textOf v).under (.key key)
  | none => .ok default

/-- Some key is a text with a surrogate. -/
def hasBrokenKey (entries : List (Scalar × Yaml)) : Bool :=
  entries.any fun (k, _) =>
    match k with
    | .text t => !decide t.IsScalar
    | _ => false

/-- A complaint about every key that is none of the `known` ones. -/
def strangers (known : List Text) (entries : List (Scalar × Yaml)) : List Complaint :=
  entries.filterMap fun (k, _) =>
    match k with
    | .text t => if known.contains t then none else some ⟨[.key t], .unknownKey⟩
    | k => some ⟨[k.step], .badKey⟩

/-- The places of the shared files that a mapping gives. -/
def checkHubs (entries : List (Scalar × Yaml)) : Checked HubPlaces :=
  let y := Yaml.mapping entries
  let d := HubPlaces.standard
  let schemas := textAt y "schemas_barrel" d.schemas
  let collections := textAt y "collections_barrel" d.collections
  let registry := textAt y "registry" d.registry
  let client := textAt y "db_client" d.client
  let navigation := textAt y "navigation" d.navigation
  let strange := strangers
    ["schemas_barrel", "collections_barrel", "registry", "db_client", "navigation"] entries
  match schemas, collections, registry, client, navigation, strange with
  | .ok schemas, .ok collections, .ok registry, .ok client, .ok navigation, [] =>
    .ok { schemas, collections, registry, client, navigation }
  | _, _, _, _, _, _ =>
    .error (schemas.complaints ++ collections.complaints ++ registry.complaints
      ++ client.complaints ++ navigation.complaints ++ strange)

/-- The places of the shared files that data gives. -/
def hubsOf : Yaml → Checked HubPlaces
  | .mapping entries => if hasBrokenKey entries then fail .notUnicode else checkHubs entries
  | _ => fail .notModel

/-- The settings that a mapping without a broken key gives. -/
def checkEntries (entries : List (Scalar × Yaml)) : Checked Settings :=
  let y := Yaml.mapping entries
  let d := Settings.standard
  let schemaDirectory := textAt y "schemas_dir" d.schemaDirectory
  let schemaSuffix := textAt y "schema_suffix" d.schemaSuffix
  let baseSchema := textAt y "base_schema" d.baseSchema
  let factory := textAt y "factory" d.factory
  let defaultIcon := textAt y "default_icon" d.defaultIcon
  let hubs : Checked HubPlaces := match y.get? "hubs" with
    | some v => (hubsOf v).under (.key "hubs")
    | none => .ok d.hubs
  let strange := strangers
    ["schemas_dir", "schema_suffix", "base_schema", "factory", "default_icon", "hubs"] entries
  match schemaDirectory, schemaSuffix, baseSchema, factory, defaultIcon, hubs, strange with
  | .ok schemaDirectory, .ok schemaSuffix, .ok baseSchema, .ok factory, .ok defaultIcon,
      .ok hubs, [] =>
    .ok { schemaDirectory, schemaSuffix, baseSchema, factory, defaultIcon, hubs }
  | _, _, _, _, _, _, _ =>
    .error (schemaDirectory.complaints ++ schemaSuffix.complaints ++ baseSchema.complaints
      ++ factory.complaints ++ defaultIcon.complaints ++ hubs.complaints ++ strange)

/-- The settings that a mapping gives. -/
def check (entries : List (Scalar × Yaml)) : Checked Settings :=
  if hasBrokenKey entries then fail .notUnicode else checkEntries entries

/-- The mapping that holds the settings: the one under the key `codegen`, if that is one, and else
the whole document. -/
def wanted (entries : List (Scalar × Yaml)) : List (Scalar × Yaml) :=
  match (Yaml.mapping entries).get? "codegen" with
  | some (.mapping inner) => inner
  | _ => entries

end Settings

end Scaffold
