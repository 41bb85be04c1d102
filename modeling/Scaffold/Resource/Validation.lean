import Scaffold.Resource.Basic

/-!
# Checking descriptions

A resource may be described by plain data instead of a schema file.  `Resource.check` turns such a
description into a resource or says everything that is wrong with it: each `Complaint` names a
place and what is wrong there, in the order in which the parts of a resource are declared.

Texts have to be texts; a number or a truth value does not pass for one.
-/

namespace Scaffold

/-- A step on the way to a part of plain data. -/
inductive Step where
  /-- The value of a key. -/
  | key (name : Text)
  /-- The item at an index. -/
  | index (i : Int)
  deriving DecidableEq, Repr

/-- What is wrong with a part of a description. -/
inductive Defect where
  /-- A part that has to be there is not. -/
  | missing
  /-- Not a text. -/
  | notText
  /-- A text that is too short. -/
  | tooShort
  /-- A text with a surrogate. -/
  | notUnicode
  /-- Not an object. -/
  | notObject
  /-- Not a list. -/
  | notList
  /-- Neither an object nor anything else that describes the part. -/
  | notModel
  /-- None of the names that are allowed. -/
  | notListed
  /-- Not a truth value. -/
  | notBool
  /-- A text or number that is no truth value. -/
  | unreadableBool
  /-- A key that means nothing. -/
  | unknownKey
  /-- A key that is not a text. -/
  | badKey
  deriving DecidableEq, Repr

/-- The code of a defect in reports. -/
def Defect.code : Defect → Text
  | missing => "missing"
  | notText => "string_type"
  | tooShort => "string_too_short"
  | notUnicode => "string_unicode"
  | notObject => "dict_type"
  | notList => "list_type"
  | notModel => "model_type"
  | notListed => "literal_error"
  | notBool => "bool_type"
  | unreadableBool => "bool_parsing"
  | unknownKey => "extra_forbidden"
  | badKey => "invalid_key"

/-- A defect at a place. -/
structure Complaint where
  /-- The way to the place. -/
  path : List Step
  /-- What is wrong there. -/
  defect : Defect
  deriving DecidableEq, Repr

/-- A checked part, or all complaints about it. -/
abbrev Checked (α : Type) := Except (List Complaint) α

namespace Checked

/-- A single defect at the place itself. -/
def fail {α : Type} (d : Defect) : Checked α := .error [⟨[], d⟩]

/-- The complaints about a part; none if it is sound. -/
def complaints {α : Type} : Checked α → List Complaint
  | .ok _ => []
  | .error cs => cs

/-- The same check seen from one step above. -/
def under {α : Type} (s : Step) (x : Checked α) : Checked α :=
  x.mapError fun cs => cs.map fun c => { c with path := s :: c.path }

/-- Checks every item and collects all complaints; `i` is the index of the first one. -/
def items {α : Type} (check : Value → Checked α) (i : Nat) : List Value → Checked (List α)
  | [] => .ok []
  | v :: vs =>
    match (check v).under (.index i), items check (i + 1) vs with
    | .ok x, .ok xs => .ok (x :: xs)
    | x, xs => .error (x.complaints ++ xs.complaints)

/-- A text. -/
def asText : Value → Checked Text
  | .text t => .ok t
  | _ => fail .notText

/-- A text that is not empty and has no surrogate. -/
def asName : Value → Checked Text
  | .text t =>
    if ¬t.IsScalar then fail .notUnicode
    else if t = [] then fail .tooShort
    else .ok t
  | _ => fail .notText

/-- The truth value that a word stands for. -/
def boolOfWord? (t : Text) : Option Bool :=
  let word := t.map CodePoint.toAsciiLower
  if (["1", "on", "t", "true", "y", "yes"] : List Text).contains word then some true
  else if (["0", "off", "f", "false", "n", "no"] : List Text).contains word then some false
  else none

/-- The least integer of 64 bits. -/
def leastInteger : Int := -0x8000000000000000

/-- The greatest integer of 64 bits. -/
def greatestInteger : Int := 0x7fffffffffffffff

/-- The truth value that an integer stands for. -/
def boolOfInteger (i : Int) : Checked Bool :=
  if i = 0 then .ok false else if i = 1 then .ok true else fail .unreadableBool

/-- A truth value, or a word or number that stands for one.  An integer of more than 64 bits is no
such number, nor is a number with a fraction. -/
def asBool : Value → Checked Bool
  | .bool b => .ok b
  | .text t =>
    if ¬t.IsScalar then fail .notUnicode else ((boolOfWord? t).map .ok).getD (fail .unreadableBool)
  | .number (.integer i) =>
    if leastInteger ≤ i ∧ i ≤ greatestInteger then boolOfInteger i else fail .notBool
  | .number (.double d) =>
    match d.integer? with
    | some i => if leastInteger < i ∧ i ≤ greatestInteger then boolOfInteger i else fail .notBool
    | none => fail .notBool
  | _ => fail .notBool

/-- An object. -/
def asMembers : Value → Checked Members
  | .object m => .ok m
  | _ => fail .notObject

/-- A list of checked items. -/
def asList {α : Type} (check : Value → Checked α) : Value → Checked (List α)
  | .list vs => items check 0 vs
  | _ => fail .notList

/-- The part of an object under a key, checked; `default` if it is not there. -/
def part {α : Type} (m : Members) (key : Text) (default : α) (check : Value → Checked α) :
    Checked α :=
  match m.get? key with
  | some v => (check v).under (.key key)
  | none => .ok default

/-- The part of an object under a key, checked; it has to be there. -/
def required {α : Type} (m : Members) (key : Text) (check : Value → Checked α) : Checked α :=
  match m.get? key with
  | some v => (check v).under (.key key)
  | none => .error [⟨[.key key], .missing⟩]

end Checked

open Checked in
/-- The kind of a field. -/
def FieldKind.check : Value → Checked FieldKind
  | .text t =>
    if ¬t.IsScalar then fail .notUnicode else ((ofName? t).map .ok).getD (fail .notListed)
  | _ => fail .notListed

open Checked in
/-- The field that plain data describes. -/
def Field.check : Value → Checked Field
  | .object m =>
    let name := required m "name" asText
    let kind := part m "base_kind" .unknown FieldKind.check
    let typeName := part m "type_name" ("unknown" : Text) asText
    let isOptional := part m "is_optional" false asBool
    let choices := part m "enum_values" [] (asList asText)
    let metadata := part m "metadata" [] asMembers
    match name, kind, typeName, isOptional, choices, metadata with
    | .ok name, .ok kind, .ok typeName, .ok isOptional, .ok choices, .ok metadata =>
      .ok { name, kind, typeName, isOptional, choices, metadata }
    | _, _, _, _, _, _ =>
      .error (name.complaints ++ kind.complaints ++ typeName.complaints ++ isOptional.complaints
        ++ choices.complaints ++ metadata.complaints)
  | _ => fail .notModel

namespace Resource

/-- A description whose plural name or variable is missing or empty gets the default one, if it has
a name to make it from. -/
def withDefaultNames (m : Members) : Members :=
  match m.get? "name" with
  | some (.text (c :: name)) =>
    let fill (key value : Text) (m : Members) : Members :=
      if (m.get? key).any Value.isTruthy then m else m.set key (.text value)
    fill "var_name" (defaultVar (c :: name)) (fill "plural_name" (defaultPlural (c :: name)) m)
  | _ => m

open Checked in
/-- The resource that the members of an object describe. -/
def check (described : Members) : Checked Resource :=
  let m := withDefaultNames described
  let name := required m "name" asName
  let pluralName := part m "plural_name" [] asText
  let varName := part m "var_name" [] asText
  let config := part m "config" [] asMembers
  let fields := part m "fields" [] (asList Field.check)
  let sourcePath := part m "source_path" [] asText
  match name, pluralName, varName, config, fields, sourcePath with
  | .ok name, .ok pluralName, .ok varName, .ok config, .ok fields, .ok sourcePath =>
    .ok { name, pluralName, varName, config, fields, sourcePath }
  | _, _, _, _, _, _ =>
    .error (name.complaints ++ pluralName.complaints ++ varName.complaints ++ config.complaints
      ++ fields.complaints ++ sourcePath.complaints)

end Resource

end Scaffold
