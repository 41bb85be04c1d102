import Scaffold.Resource.Validation
import Scaffold.Schema.FieldType
import Scaffold.Token.Lexer

/-!
# Reading a schema

`extract` reads the resource that a source declares: it finds the one call of the factory, reads its
two arguments, and takes the names, the configuration and the fields from them.  Nothing in the
source is executed.

A source without a usable declaration is an `ExtractError`.  Some faults are not faults of the
declaration but of a literal in it, and are passed on as they are (`ExtractError.isDeclared` tells
them apart).
-/

namespace Scaffold

/-- Why a source declares no resource. -/
inductive ExtractError where
  /-- The source has no tokens. -/
  | lex (e : LexError)
  /-- The factory is not called. -/
  | noCall
  /-- The factory is called more than once. -/
  | severalCalls (count : Nat)
  /-- The call has no closing parenthesis where one is expected. -/
  | unbalanced
  /-- The call does not have two arguments. -/
  | arity (count : Nat)
  /-- The configuration is no object literal. -/
  | configShape
  /-- The fields are no object literal. -/
  | fieldsShape
  /-- The configuration has no name. -/
  | noName
  /-- A number literal is no number. -/
  | numeral (e : NumeralError)
  /-- The parts do not make a resource. -/
  | unsound (complaints : List Complaint)
  deriving DecidableEq

namespace ExtractError

/-- The error is about the declaration, and not passed on from a literal in it. -/
def isDeclared : ExtractError → Bool
  | lex e => e.cause ≠ .hugeEscape
  | numeral _ => false
  | unsound _ => false
  | _ => true

/-- The wording of an error in the source `origin`. -/
def message (origin factory : Text) : ExtractError → Text
  | lex e =>
    if e.cause = .hugeEscape then e.message
    else origin ++ ": cannot tokenize: " ++ e.message
  | noCall => "No " ++ factory ++ "() call found in " ++ origin
  | severalCalls n =>
    "Expected exactly one " ++ factory ++ "() call in " ++ origin ++ ", found " ++ Text.ofNat n
  | unbalanced => "Unbalanced " ++ factory ++ "() call in " ++ origin
  | arity n =>
    factory ++ "() requires config and fields arguments in " ++ origin ++ ", got "
      ++ Text.ofNat n
  | configShape => factory ++ "() config must be an object literal in " ++ origin
  | fieldsShape => factory ++ "() fields must be an object literal in " ++ origin
  | noName => "Resource config must have a non-empty string name in " ++ origin
  | numeral e => e.message
  | unsound _ => []

end ExtractError

/-- The only call of the factory. -/
def onlyCall (factory : Text) (ts : List Token) : Except ExtractError CallSite :=
  match callSites factory ts with
  | [] => .error .noCall
  | [s] => .ok s
  | sites => .error (.severalCalls sites.length)

/-- The members of the two object literals that a call is given. -/
def readCall (source : Text) (s : CallSite) :
    Except ExtractError (List Member × List Member) := do
  let (arguments, _) ← (Expr.readArguments source s.fromParenthesis).mapError .numeral
  match arguments with
  | none => .error .unbalanced
  | some [config, fields] =>
    match config, fields with
    | .object _ config, .object _ fields => .ok (config, fields)
    | .object _ _, _ => .error .fieldsShape
    | _, _ => .error .configShape
  | some nodes => .error (.arity nodes.length)

/-- The name in a configuration: a text that is not blank. -/
def configName (config : Members) : Except ExtractError Text :=
  match config.get? "name" with
  | some (.text name) => if name.isBlank then .error .noName else .ok name
  | _ => .error .noName

/-- The parts of the declaration in a source: the call, the names and configuration, the members of
the field map, and the constants of the source. -/
structure Declaration where
  /-- Where the factory is called. -/
  site : CallSite
  /-- The name of the resource. -/
  name : Text
  /-- The configuration. -/
  config : Members
  /-- The members of the field map. -/
  fields : List Member
  /-- The chains that names stand for. -/
  constants : Constants

/-- Finds the declaration in a source. -/
def findDeclaration (factory source : Text) : Except ExtractError Declaration := do
  let ts ← (tokenize source).mapError .lex
  let site ← onlyCall factory ts
  let (config, fields) ← readCall source site
  let config := Node.evaluateObject config
  let name ← configName config
  let constants ← (collectConstants source ts).mapError .numeral
  return { site, name, config, fields, constants }

/-- The resource of a declaration that was read from `origin`. -/
def Declaration.resource (d : Declaration) (origin : Text) : Resource :=
  { name := d.name
    pluralName := (d.config.text? "pluralName").getD (Resource.defaultPlural d.name)
    varName := (d.site.assignedName?).getD (Resource.defaultVar d.name)
    config := d.config
    fields := (Member.properties d.fields).map fun (key, value) =>
      (readField d.constants key value).1
    sourcePath := origin }

/-- What the reading of the fields reports. -/
def Declaration.fieldLog (d : Declaration) (origin : Text) : Log :=
  ((Member.properties d.fields).flatMap fun (key, value) => (readField d.constants key value).2)
    ++ (Member.spreads d.fields).map fun text =>
      schemaDetail (origin ++ ": ignoring spread " ++ text ++ " in field map")

/-- What is reported of a resource that was read. -/
def extractionLog (origin : Text) (r : Resource) : Log :=
  (r.unknownKeys.map fun key =>
      schemaDetail (origin ++ ": config key '" ++ key ++ "' kept but not interpreted"))
    ++ [⟨.info, .extractor,
      "Extracted " ++ r.name ++ " (" ++ r.pluralName ++ ") from " ++ origin ++ ": "
        ++ Text.ofNat r.fields.length ++ " field(s)"⟩]

/-- The resource that a source declares, with what the reading reports.  A name with a surrogate is
refused after the fields have been read. -/
def extract (factory origin source : Text) : Except ExtractError Resource × Log :=
  match findDeclaration factory source with
  | .error e => (.error e, [])
  | .ok d =>
    let r := d.resource origin
    let log := d.fieldLog origin
    if r.name.IsScalar then (.ok r, log ++ extractionLog origin r)
    else (.error (.unsound [⟨[.key "name"], .notUnicode⟩]), log)

end Scaffold
