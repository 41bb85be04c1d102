import Scaffold.Project.Batch
import Scaffold.Value.Exchange
import Scaffold.Value.Json

/-!
# Answers to the user

What the commands print.  Each command that looks at or makes something answers in messages for
people, some of them only to users who did not ask for silence, and three of the commands can answer
with a JSON value for machines instead:

* `Generated.report` and `Generated.value` for a resource that was generated,
* `Resource.report` and `Resource.value` for what a schema declares; its plain data is exchanged,
* `Listing.report` and `Listing.value` for the schemas of a project,
* `BatchReport.report` for all resources.

A message is printed as a whole, with a line feed behind it; one that is empty leaves a line free.
-/

namespace Scaffold

/-- An answer that something went wrong. -/
def complaint (message : Text) : Text := "❌ " ++ message

/-- Texts one after another, with commas between them. -/
def commaList (items : List Text) : Text := Text.join ", " items

/-- A list for people, an item a message. -/
def bulletList (items : List Text) : List Text := items.map ("   • " ++ ·)

namespace Value

/-- A natural number as a value. -/
def ofNat (n : Nat) : Value := number (.integer n)

/-- A text that may be missing as a value. -/
def ofText? (t : Option Text) : Value := (t.map text).getD null

/-- A list of texts as a value. -/
def ofTexts (ts : List Text) : Value := list (ts.map text)

end Value

open Value (ofNat ofText? ofTexts)

/-! ### A resource that was generated -/

/-- The message about a planned file; none if the resource has no such file. -/
def WriteOutcome.report (w : WriteOutcome) : List Text :=
  match w.status with
  | .written => ["   ✅ Created " ++ w.path]
  | .skipped => ["   ⏭️  Skipped " ++ w.path ++ " (exists — use --force to overwrite)"]
  | .omitted => []
  | .failed reason => ["   ❌ " ++ w.path ++ ": " ++ reason]

/-- The message about a hub; none about a hub that the resource does not belong into. -/
def HubOutcome.report (quiet : Bool) (h : HubOutcome) : List Text :=
  match h.status with
  | .created => ["   🆕 Created " ++ h.path]
  | .updated => ["   🔗 Updated " ++ h.path]
  | .unchanged => if quiet then [] else ["   · " ++ h.path ++ " already wired"]
  | .noMarker _ => ["   ⚠️  " ++ h.path ++ ": " ++ h.status.message ++ " — left unchanged"]
  | .notApplicable => []
  | .failed reason => ["   ❌ " ++ h.path ++ ": " ++ reason]

/-- A planned file and what became of it as a value. -/
def WriteOutcome.value (w : WriteOutcome) : Value :=
  .object
    [("path", .text w.path), ("kind", .text w.kind), ("status", .text w.status.name),
      ("error", ofText? w.status.reason?)]

/-- A hub and what became of it as a value. -/
def HubOutcome.value (h : HubOutcome) : Value :=
  .object
    [("hub", .text h.hub), ("path", .text h.path), ("status", .text h.status.name),
      ("message", .text h.status.message)]

namespace Generated

variable (g : Generated)

/-- The messages about the files of a resource. -/
def writesReport (only : Option Text) : List Text :=
  match g.writes, only with
  | [], some (c :: kind) => ["   No artifacts of kind '" ++ (c :: kind) ++ "'"]
  | writes, _ => writes.flatMap WriteOutcome.report

/-- The messages about the hubs. -/
def wiringReport (quiet : Bool) : List Text :=
  match g.wiring with
  | none => if quiet then [] else ["   · Wiring skipped"]
  | some outcomes => outcomes.flatMap (HubOutcome.report quiet)

/-- The message that counts what was done. -/
def summary : Text :=
  "   " ++ Text.ofNat g.written ++ " written, " ++ Text.ofNat g.skipped ++ " skipped, "
    ++ Text.ofNat g.failed ++ " failed"

/-- What a run did for a resource, for people. -/
def report (quiet : Bool) (only : Option Text) : List Text :=
  let heading : List Text := if quiet then [] else ["\n🧩 Generating " ++ g.name]
  let counts : List Text := if quiet then [] else [[], g.summary, []]
  heading ++ g.writesReport only ++ g.wiringReport quiet ++ counts

/-- What a run did for a resource as a value. -/
def value : Value :=
  .object
    [("resource", .text g.name),
      ("plural_name", .text g.resource.pluralName),
      ("writes", .list (g.writes.map WriteOutcome.value)),
      ("wiring", .list ((g.wiring.getD []).map HubOutcome.value)),
      ("wiring_skipped", .bool g.wiring.isNone),
      ("summary", .object
        [("written", ofNat g.written), ("skipped", ofNat g.skipped),
          ("failed", ofNat g.failed)])]

end Generated

/-- The fault of a schema as a value. -/
def SchemaError.value (e : SchemaError) : Value := .object [("error", .text e.message)]

/-- A resource that was asked for and has no usable schema as a value. -/
def SchemaError.valueFor (name : Text) (e : SchemaError) : Value :=
  .object [("resource", .text name), ("error", .text e.message)]

/-! ### What a schema declares -/

/-- What holds of a field beyond its kind, in brackets. -/
def Field.flags (f : Field) : Text :=
  let hidden : List Text := if f.hidden then ["hidden"] else []
  let readOnly : List Text := if f.readOnly then ["read-only"] else []
  if hidden ++ readOnly = [] then [] else "  [" ++ commaList (hidden ++ readOnly) ++ "]"

/-- The messages about a field. -/
def Field.report (f : Field) : List Text :=
  let mark : Text := if f.isOptional then "?" else " "
  let choices : List Text :=
    if f.choices = [] then [] else ["         values: " ++ commaList f.choices]
  ("     • " ++ f.name ++ mark ++ " " ++ f.kind.name.padRight 8 ++ " " ++ f.inputType.padRight 9
    ++ " " ++ f.label ++ f.flags) :: choices

/-- A field as a value. -/
def Field.value (f : Field) : Except Utf8.EncodeError Value := do
  let metadata ← Members.exchanged f.metadata
  return .object
    [("name", .text f.name), ("base_kind", .text f.kind.name), ("type_name", .text f.typeName),
      ("is_optional", .bool f.isOptional), ("enum_values", ofTexts f.choices),
      ("metadata", .object metadata)]

namespace Resource

variable (r : Resource)

/-- The messages about the keys of the configuration that mean nothing here. -/
def unknownReport : List Text :=
  if r.unknownKeys = [] then []
  else [[], "⚠️  Config keys not interpreted:"] ++ bulletList r.unknownKeys

/-- What a schema declares, for people. -/
def report : List Text :=
  let description : List Text :=
    match r.description? with
    | some t => ["   " ++ t]
    | none => []
  let facts : List Text :=
    ["\n🧩 " ++ r.name, "   Plural:      " ++ r.pluralName, "   Variable:    " ++ r.varName,
      "   Data source: " ++ r.dataSource]
  let count : List Text := [[], "   Fields (" ++ Text.ofNat r.fields.length ++ "):"]
  facts ++ description ++ count ++ r.fields.flatMap Field.report ++ r.unknownReport ++ [[]]

/-- What a schema declares as a value. -/
def value : Except Utf8.EncodeError Value := do
  let config ← Members.exchanged r.config
  let fields ← r.fields.mapM Field.value
  return .object
    [("name", .text r.name), ("plural_name", .text r.pluralName), ("var_name", .text r.varName),
      ("config", .object config), ("fields", .list fields), ("source_path", .text r.sourcePath)]

end Resource

/-! ### The schemas of a project -/

/-- The resources that have a schema file. -/
structure Listing where
  /-- The directory of the schemas. -/
  directory : Text
  /-- The names of the resources. -/
  resources : List Text

namespace Listing

variable (l : Listing)

/-- The resources of a project, for people. -/
def report : List Text :=
  if l.resources = [] then ["No resource schemas found in " ++ l.directory ++ "."]
  else ["📦 Resources (" ++ Text.ofNat l.resources.length ++ "):"] ++ bulletList l.resources ++ [[]]

/-- The resources of a project as a value. -/
def value : Value :=
  .object [("schemas_dir", .text l.directory), ("resources", ofTexts l.resources)]

end Listing

/-! ### All resources -/

namespace BatchReport

variable (b : BatchReport)

/-- Every resource was generated. -/
def isOk : Bool := b.failures.isEmpty

/-- The messages about those that were generated, or about those that were not. -/
def verdict : List Text :=
  if b.isOk then ["✅ Generated " ++ Text.ofNat b.succeeded.length ++ " resource(s)"]
  else
    ["❌ " ++ Text.ofNat b.failures.length ++ " failed:"]
      ++ bulletList (b.failures.map BatchFailure.message)

/-- What became of all resources, for people. -/
def report : List Text :=
  if b.resources = [] then ["No resource schemas found."]
  else
    ["\n📦 " ++ Text.ofNat b.resources.length ++ " resource(s): " ++ commaList b.resources, []]
      ++ b.verdict ++ [[]]

end BatchReport

end Scaffold
