import Scaffold.Artifact.Columns

/-!
# The form file

A form to create or change a record.  Its sections are the ones that the configuration lists under
`form.sections`, or a single one with all visible fields.
-/

namespace Scaffold

namespace Artifact

open Code

/-- A section of a form. -/
structure FormSection where
  /-- The title. -/
  title : Value
  /-- A remark below the title. -/
  description : Option Text
  /-- The fields of the section. -/
  fields : List Field

/-- The section that the configuration describes. -/
def FormSection.ofMembers (r : Resource) (m : Members) : FormSection :=
  { title := (m.get? "title").getD (.text [])
    description := (m.get? "description").bind Value.text?
    fields := (namedFields r ((m.get? "fields").getD .null).items).filter (!·.hidden) }

/-- The sections of the form of a resource.  Items of the list that are no objects are left out. -/
def formSections (r : Resource) : List FormSection :=
  match ((r.config.get? "form").getD .null).members.get? "sections" with
  | some (.list (v :: vs)) =>
    (v :: vs).filterMap fun
      | .object m => some (FormSection.ofMembers r m)
      | _ => none
  | _ => [⟨.text "Details", none, r.visibleFields⟩]

/-- The attributes of the input of a field. -/
def fieldAttributes (f : Field) : Text :=
  let quoted (name key : Text) : List Text :=
    match f.metadata.get? key with
    | some (.text t) => [name ++ "=" ++ t.literal]
    | _ => []
  let readOnly : List Text := if f.readOnly then ["readOnly"] else []
  let required : List Text := if f.isOptional then [] else ["required"]
  let options : List Text :=
    if f.choices = [] then []
    else ["options=" ++ braced (Value.list (f.choices.map .text)).source]
  Text.join " " <| List.flatten [
    ["name=" ++ f.name.literal,
      "label=" ++ f.label.literal,
      "inputType=" ++ f.inputType.literal],
    quoted "placeholder" "placeholder", quoted "description" "description",
    readOnly, required, options]

/-- The fields by which a related record is searched, if they are listed. -/
def searchFields? (relation : Members) : Option Value :=
  match relation.get? "searchFields" with
  | some (.list vs) => some (.list vs)
  | _ => none

/-- The resource that a relation refers to. -/
def relatedResource (relation : Members) : Value := (relation.get? "resource").getD .null

/-- The field of a related record that is shown for it. -/
def relatedLabel (relation : Members) : Value := (relation.get? "labelField").getD (.text "name")

/-- The input element of a field. -/
def fieldInput (f : Field) : Text :=
  match f.relation? with
  | some relation =>
    let search : Text :=
      match searchFields? relation with
      | some v => " searchFields=" ++ braced v.source
      | none => ""
    "          <RelationCombobox form=\x7bform\x7d name=" ++ f.name.literal ++ " label="
      ++ f.label.literal ++ " resource=" ++ (relatedResource relation).display.literal
      ++ " labelField=" ++ (relatedLabel relation).display.literal ++ search ++ " />"
  | none => "          <FormField form=\x7bform\x7d " ++ fieldAttributes f ++ " />"

/-- The lines of a section. -/
def formSection (s : FormSection) : List Text :=
  let remark : List Text :=
    match s.description with
    | none | some [] => []
    | some t => ["        <p className=\"text-sm text-muted-foreground\">" ++ t.markup ++ "</p>"]
  List.flatten [
    ["      <section className=\"flex flex-col gap-3\">",
      "        <h3 className=\"font-medium\">" ++ s.title.display.markup ++ "</h3>"],
    remark, ["        <div className=\"grid gap-3 md:grid-cols-2\">"],
    s.fields.map fieldInput, ["        </div>", "      </section>"]]

/-- The form file of a resource. -/
def form (r : Resource) : Text :=
  Text.unlines <| List.flatten [
    [header,
      importLine "useForm" "@tanstack/react-form",
      importLine "FormField" "@/components/forms/_form-field",
      importLine "RelationCombobox" "@/components/forms/_relation-combobox",
      importLine "Button" "@/components/ui/button",
      importLine r.varName (schemaModule r),
      importTypeLine r.typeName (collectionModule r),
      "",
      "type " ++ r.typeName ++ "FormProps = \x7b",
      "  defaultValues?: Partial<" ++ r.typeName ++ ">",
      "  onSubmit: (values: Partial<" ++ r.typeName ++ ">) => void",
      "\x7d",
      "",
      "export function " ++ r.typeName ++ "Form(\x7b defaultValues, onSubmit \x7d: " ++ r.typeName
        ++ "FormProps) \x7b",
      "  const form = useForm(\x7b",
      "    defaultValues: defaultValues ?? \x7b\x7d,",
      "    validators: \x7b onSubmit: " ++ r.varName ++ ".createSchema \x7d,",
      "    onSubmit: (\x7b value \x7d) => onSubmit(value),",
      "  \x7d)",
      "",
      "  return (",
      "    <form",
      "      className=\"flex flex-col gap-6\"",
      "      onSubmit=\x7b(e) => \x7b",
      "        e.preventDefault()",
      "        form.handleSubmit()",
      "      \x7d\x7d",
      "    >"],
    (formSections r).flatMap formSection,
    ["      <Button type=\"submit\">Save</Button>",
      "    </form>",
      "  )",
      "\x7d"]]

/-- The values that the form file shows as text. -/
def formShown (r : Resource) : List Value :=
  (formSections r).flatMap fun s =>
    s.title :: (s.fields.filterMap Field.relation?).flatMap fun relation =>
      relatedResource relation :: relatedLabel relation :: (searchFields? relation).toList

end Artifact

end Scaffold
