import Scaffold.Text.UpperCase
import Scaffold.Value.Basic

/-!
# Resources

A resource is what one schema file declares: its names, its configuration and its fields.
Everything that is generated from it follows from this description.

* `Resource.typeName`, `Resource.displayName` and `Resource.collectionName` are the names under
  which generated code refers to it.
* `Resource.icon?`, `Resource.dataSource` and their kin read the configuration, with the value that
  holds where it is silent.
* `Field.label`, `Field.inputType` and their kin do so for a field.
-/

namespace Scaffold

namespace Text

/-- The words of a name, divided by hyphens and underscores, each with a capital first letter. -/
def humanize (name : Text) : Text :=
  let words := Text.splitOn '_' (name.replaceAll '-' "_")
  Text.join " " ((words.filter (!·.isEmpty)).map capitalize)

end Text

/-! ### Fields -/

/-- The coarse kind of a field. -/
inductive FieldKind where
  /-- Text. -/
  | string
  /-- A number. -/
  | number
  /-- A truth value. -/
  | boolean
  /-- One of a few named values. -/
  | enum
  /-- A list. -/
  | array
  /-- An object. -/
  | object
  /-- Anything else. -/
  | unknown
  deriving DecidableEq, Repr

namespace FieldKind

/-- All kinds. -/
def all : List FieldKind := [string, number, boolean, enum, array, object, unknown]

/-- The name of a kind. -/
def name : FieldKind → Text
  | string => "string"
  | number => "number"
  | boolean => "boolean"
  | enum => "enum"
  | array => "array"
  | object => "object"
  | unknown => "unknown"

/-- The kind of a name. -/
def ofName? (name : Text) : Option FieldKind := all.find? (·.name = name)

end FieldKind

/-- One field of a resource. -/
structure Field where
  /-- The name of the field. -/
  name : Text
  /-- Its coarse kind. -/
  kind : FieldKind := .unknown
  /-- The name of its constructor. -/
  typeName : Text := "unknown"
  /-- It may be left out. -/
  isOptional : Bool := false
  /-- The values it may have, if it is an enumeration of literals. -/
  choices : List Text := []
  /-- What the schema says about it beyond its type. -/
  metadata : Members := []

namespace Field

/-- The label shown for a field: the one its metadata gives, or its name in words. -/
def label (f : Field) : Text := (f.metadata.text? "label").getD f.name.humanize

/-- The field is not shown. -/
def hidden (f : Field) : Bool := f.metadata.holds "hidden" true

/-- The field cannot be changed. -/
def readOnly (f : Field) : Bool := f.metadata.holds "readOnly" true

/-- The input element of a field of some kind. -/
def defaultInput : FieldKind → Text
  | .number => "number"
  | .boolean => "checkbox"
  | .enum => "select"
  | _ => "text"

/-- The input element of a field: the one its metadata gives, or the one of its kind. -/
def inputType (f : Field) : Text := (f.metadata.text? "inputType").getD (defaultInput f.kind)

/-- The other resource that the field refers to, with what is said about it. -/
def relation? (f : Field) : Option Members :=
  match f.metadata.get? "relation" with
  | some (.object m) => if (Members.get? m "resource").any Value.isTruthy then some m else none
  | _ => none

end Field

/-! ### Resources -/

/-- What one schema file declares. -/
structure Resource where
  /-- The name of the resource. -/
  name : Text
  /-- The name of several of them. -/
  pluralName : Text
  /-- The variable that holds the declaration. -/
  varName : Text
  /-- The configuration. -/
  config : Members := []
  /-- The fields, in the order of their declaration. -/
  fields : List Field := []
  /-- Where the declaration was read. -/
  sourcePath : Text := []

namespace Resource

/-- The plural of a name that gives none. -/
def defaultPlural (name : Text) : Text := name ++ "s"

/-- The variable of a declaration that is not assigned to one. -/
def defaultVar (name : Text) : Text := name ++ "Resource"

/-- The keys of the configuration that mean something here. -/
def knownKeys : List Text :=
  ["name", "pluralName", "icon", "description", "apiBasePath", "primaryKey", "syncMode",
    "dataSource", "search", "table", "form", "searchParams", "analytics"]

variable (r : Resource)

/-- The name of the type of one record. -/
def typeName : Text := r.name.capitalize

/-- The title of the list of records. -/
def displayName : Text := r.pluralName.capitalize

/-- The variable that holds the collection. -/
def collectionName : Text := r.pluralName ++ "Collection"

/-- The icon that the configuration names. -/
def icon? : Option Text := r.config.text? "icon"

/-- The description in the configuration. -/
def description? : Option Text := r.config.text? "description"

/-- The description, or a sentence made of the plural name. -/
def describe : Text := r.description?.getD ("Manage " ++ r.pluralName)

/-- Where the records come from; `json` unless the configuration says otherwise. -/
def dataSource : Text := (r.config.text? "dataSource").getD "json"

/-- The records come from a parquet file. -/
def isParquet : Bool := r.dataSource = "parquet"

/-- The field that identifies a record. -/
def primaryKey : Text := (r.config.text? "primaryKey").getD "id"

/-- The path below which the records are served. -/
def apiBasePath : Text := (r.config.text? "apiBasePath").getD ("/api/" ++ r.pluralName)

/-- The analytics settings. -/
def analytics : Members := ((r.config.get? "analytics").getD .null).members

/-- An analytics page is wanted, and there is a parquet file to make it from. -/
def analyticsEnabled : Bool := r.isParquet && r.analytics.holds "enabled" true

/-- The keys of the configuration that mean nothing here. -/
def unknownKeys : List Text := r.config.keys.filter (!knownKeys.contains ·)

/-- The first field of a name. -/
def field? (name : Text) : Option Field := r.fields.find? (·.name = name)

/-- The fields that are shown. -/
def visibleFields : List Field := r.fields.filter (!·.hidden)

end Resource

end Scaffold
