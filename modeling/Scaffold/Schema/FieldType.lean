import Scaffold.Log.Record
import Scaffold.Resource.Basic
import Scaffold.Schema.Declaration

/-!
# Field types

The type of a field is a chain that hangs off the namespace `z`, such as `z.enum(["a"]).optional()`,
or begins with a constant that stands for one.  `resolveChain` follows constants, each at most once;
`constructorOf` finds the constructor at the end of the way, and `readField` puts together what the
chains say about a field.
-/

namespace Scaffold

/-- The object that the constructors of field types hang off. -/
def schemaNamespace : Text := "z"

/-- The chain followed by the chains of the constants that its head leads to.  A constant is
followed once, so the way ends even where constants refer to each other. -/
def resolveChain (constants : Constants) (c : Chain) : List Chain :=
  if c.head = schemaNamespace then [c]
  else
    match h : constants.get? c.head with
    | none => [c]
    | some next =>
      have := Constants.length_without_lt h
      c :: resolveChain (constants.without c.head) next
termination_by constants.length

/-- The members between the namespace and a constructor that name no type. -/
def namespaceParts : List Text := ["coerce"]

/-- The name of the constructor of a chain that hangs off the namespace, and its arguments. -/
def constructorOfChain? (c : Chain) : Option (Text × List Node) :=
  if c.head = schemaNamespace then
    match c.names.filter (!namespaceParts.contains ·) with
    | [] => none
    | name :: _ => some (name, ((c.calls.find? (·.1 = name)).map (·.2)).getD [])
  else none

/-- The name and the arguments of the constructor that chains lead to; the last chain that has one
counts. -/
def constructorOf (chains : List Chain) : Text × List Node :=
  (chains.reverse.findSome? constructorOfChain?).getD ("unknown", [])

/-- The kind of the fields that a constructor makes. -/
def kindOfConstructor (name : Text) : FieldKind :=
  if name = "string" then .string
  else if name = "number" ∨ name = "bigint" then .number
  else if name = "boolean" then .boolean
  else if name = "enum" ∨ name = "nativeEnum" then .enum
  else if name = "array" then .array
  else if name = "object" ∨ name = "record" then .object
  else .unknown

/-- The calls that make a field optional. -/
def optionalModifiers : List Text := ["optional", "nullable", "nullish"]

/-- The values of an enumeration that is given by literals. -/
def enumChoices (typeName : Text) (arguments : List Node) : List Text :=
  if typeName = "enum" then
    match arguments with
    | .array _ elements :: _ =>
      elements.filterMap fun
        | .literal _ (.text t) => some t
        | _ => none
    | _ => []
  else []

/-- The keys of field metadata that mean something here. -/
def knownMetadataKeys : List Text :=
  ["label", "placeholder", "description", "hidden", "readOnly", "columnWidth", "sortable",
    "filterable", "inputType", "relation"]

/-- The members of the object that the last `meta` call of a chain is given. -/
def rawMetadata (c : Chain) : Members :=
  match (c.calls.filter fun call => call.1 = ("meta" : Text)).getLast? with
  | some (_, .object _ members :: _) => Node.evaluateObject members
  | _ => []

/-- A detail that the reading of a schema reports. -/
def schemaDetail (message : Text) : LogRecord := ⟨.debug, .extractor, message⟩

/-- The metadata of a field: the members that mean something here.  The keys left out are
reported. -/
def readMetadata (fieldName : Text) (c : Chain) : Members × Log :=
  let raw := rawMetadata c
  let known := raw.filter fun (key, _) => knownMetadataKeys.contains key
  let dropped := (raw.keys.filter (!knownMetadataKeys.contains ·)).mergeSort Text.le
  (known,
    if dropped = [] then []
    else [schemaDetail
      ("Field '" ++ fieldName ++ "': ignoring meta keys " ++ Text.join ", " dropped)])

/-- The field of a name that an expression describes. -/
def readField (constants : Constants) (name : Text) (value : Node) : Field × Log :=
  match value.chain? with
  | none =>
    ({ name },
      [schemaDetail ("Field '" ++ name ++ "' is not a modifier chain; kind unknown")])
  | some c =>
    let chains := resolveChain constants c
    let (typeName, arguments) := constructorOf chains
    let (metadata, log) := readMetadata name c
    ({ name, typeName, metadata
       kind := kindOfConstructor typeName
       isOptional := chains.any fun c => c.calls.any fun call =>
         optionalModifiers.contains call.1
       choices := enumChoices typeName arguments },
      log)

end Scaffold
