import Scaffold.Artifact.Form
import Scaffold.Artifact.Pages
import Scaffold.Proofs.Text.Lines
import Scaffold.Proofs.Text.Reference
import Scaffold.Proofs.Token.Lexing

/-!
# What the attributes of generated elements say

The pages of a resource show its texts in attributes: the header of the list has a title and a
description, each input of the form the name, the label and further texts of its field, and the
header of each column its title.  Whoever reads the page takes what stands between the quotes, with
character references read and without regard to backslashes (`References.attributes`).

* `attributes_read` : in every such element each attribute is read as the text that it was written
  for, and ends where it was meant to end, exactly if the text is plain: in single quotes a text
  without backslashes, apostrophes, ends of lines and references, in double quotes one without
  double quotes and references.
* `form_label_read` : a label with an apostrophe is read up to the backslash in front of it.
-/

namespace Scaffold

open CodePoint

/-! ### Reading attributes -/

/-- A code point in the name of an attribute. -/
def isAttributePart (c : CodePoint) : Bool := c.isWordLetter || c = .scalar '-'

namespace References

variable {names : References}

variable (names) in
/-- The attribute in quotes that a text begins with, behind a blank: its name, what it says, and
what follows it. -/
def attribute? : Text → Option ((Text × Text) × Text)
  | .scalar ' ' :: t =>
    match Text.spanWhile isAttributePart t with
    | (name, .scalar '=' :: t) => (names.value? t).map fun (value, rest) => ((name, value), rest)
    | _ => none
  | _ => none

theorem attribute?_append {name value t rest : Text} (hname : ∀ c ∈ name, isAttributePart c = true)
    (hvalue : names.value? t = some (value, rest)) :
    names.attribute? (" " ++ name ++ "=" ++ t) = some ((name, value), rest) := by
  have hcons : " " ++ name ++ "=" ++ t = CodePoint.scalar ' ' :: (name ++ .scalar '=' :: t) := by
    simp [Text.ofString]
  have hspan : Text.spanWhile isAttributePart (name ++ .scalar '=' :: t) =
      (name, .scalar '=' :: t) :=
    spanWhile_append hname (by rintro c ⟨⟩; decide)
  rw [hcons, attribute?]
  simp only [hspan, hvalue]
  rfl

/-- What stands behind a name is no attribute in quotes, unless it begins with an equals sign and a
quote. -/
theorem attribute?_eq_none {name t : Text} (hname : ∀ c ∈ name, isAttributePart c = true)
    (ht : ∀ c ∈ t.head?, isAttributePart c = false)
    (hvalue : ∀ u, t = .scalar '=' :: u → names.value? u = none) :
    names.attribute? (" " ++ name ++ t) = none := by
  have hcons : " " ++ name ++ t = CodePoint.scalar ' ' :: (name ++ t) := by simp [Text.ofString]
  rw [hcons, attribute?]
  simp only [spanWhile_append hname ht]
  split
  · rename_i heq
    obtain ⟨-, rfl⟩ := Prod.mk.inj heq
    rw [hvalue _ rfl]
    rfl
  · rfl

/-- The text behind quoted attributes: a blank, and no further attribute in quotes. -/
def EndsQuoted (names : References) (t : Text) : Prop :=
  t.head? = some (.scalar ' ') ∧ names.attribute? t = none

theorem endsQuoted_slash (t : Text) : names.EndsQuoted (" /" ++ t) :=
  ⟨rfl, attribute?_eq_none (t := "/" ++ t) (List.forall_mem_nil _) (by rintro c ⟨⟩; decide)
    (by rintro u ⟨⟩)⟩

/-- A value in braces is in no quotes. -/
theorem endsQuoted_braced (name t : Text) (hname : ∀ c ∈ name, isAttributePart c = true) :
    names.EndsQuoted (" " ++ name ++ ("=\x7b" ++ t)) :=
  ⟨rfl, attribute?_eq_none hname (by rintro c ⟨⟩; decide) (by rintro u ⟨⟩; rfl)⟩

/-- A name without a value is no attribute in quotes. -/
theorem EndsQuoted.flag {t : Text} (h : names.EndsQuoted t) (name : Text)
    (hname : ∀ c ∈ name, isAttributePart c = true) : names.EndsQuoted (" " ++ name ++ t) :=
  ⟨rfl, attribute?_eq_none hname (by rw [h.1]; rintro c ⟨⟩; decide) (by rintro u rfl; cases h.1)⟩

theorem length_attribute? {t rest : Text} {a : Text × Text}
    (h : names.attribute? t = some (a, rest)) : rest.length < t.length := by
  unfold attribute? at h
  split at h
  · rename_i t
    split at h
    · rename_i name u hspan
      obtain ⟨⟨value, rest'⟩, hvalue, heq⟩ := Option.map_eq_some_iff.1 h
      obtain ⟨-, rfl⟩ := Prod.mk.inj heq
      have hrest := length_value? hvalue
      have hbehind := Text.length_spanWhile_le isAttributePart t
      rw [hspan] at hbehind
      simp only [List.length_cons] at hbehind ⊢
      omega
    · cases h
  · cases h

variable (names) in
/-- The attributes in quotes that a text begins with, one after the other, and what follows them. -/
def attributes (t : Text) : List (Text × Text) × Text :=
  match h : names.attribute? t with
  | none => ([], t)
  | some (a, rest) =>
    have := length_attribute? h
    (a :: (attributes rest).1, (attributes rest).2)
termination_by t.length

theorem attributes_of_none {t : Text} (h : names.attribute? t = none) :
    names.attributes t = ([], t) := by
  rw [attributes]
  split
  · rfl
  · rename_i h'
    rw [h] at h'
    cases h'

theorem attributes_of_some {t rest : Text} {a : Text × Text}
    (h : names.attribute? t = some (a, rest)) :
    names.attributes t = (a :: (names.attributes rest).1, (names.attributes rest).2) := by
  rw [attributes]
  split
  · rename_i h'
    rw [h] at h'
    cases h'
  · rename_i h'
    rw [h] at h'
    cases h'
    rfl

end References

/-! ### Elements -/

/-- How a text is written as the value of an attribute. -/
inductive QuoteStyle where
  /-- In single quotes, as a string literal. -/
  | literal
  /-- In double quotes, as it is written between tags. -/
  | markup
  deriving DecidableEq, Repr

/-- A text between quotes. -/
def QuoteStyle.write : QuoteStyle → Text → Text
  | literal, t => t.literal
  | markup, t => "\"" ++ t.markup ++ "\""

/-- A text that stands for itself between quotes. -/
def QuoteStyle.IsPlain (names : References) : QuoteStyle → Text → Prop
  | literal, t => t.IsShown ∧ ¬ names.IsIn t
  | markup, t => CodePoint.scalar '"' ∉ t ∧ ¬ names.IsIn t

theorem QuoteStyle.reads (names : References) (style : QuoteStyle) :
    names.Reads style.write (style.IsPlain names) := by
  cases style with
  | literal => exact References.reads_literal names
  | markup => exact References.reads_markup names

/-- An attribute, with a blank in front of it. -/
def QuoteStyle.writeAttribute (style : QuoteStyle) (a : Text × Text) : Text :=
  " " ++ a.1 ++ "=" ++ style.write a.2

/-- **Attributes are read as they were meant** exactly if their texts are plain, and then reading
ends where the last of them was meant to end. -/
theorem References.attributes_written {names : References} (style : QuoteStyle)
    {as : List (Text × Text)} (hname : ∀ a ∈ as, ∀ c ∈ a.1, isAttributePart c = true) {tail : Text}
    (htail : names.attribute? tail = none) :
    ((names.attributes (as.flatMap style.writeAttribute ++ tail)).1 = as ↔
      ∀ a ∈ as, style.IsPlain names a.2) ∧
    ((∀ a ∈ as, style.IsPlain names a.2) →
      names.attributes (as.flatMap style.writeAttribute ++ tail) = (as, tail)) := by
  induction as with
  | nil =>
    rw [List.flatMap_nil, List.nil_append, attributes_of_none htail]
    exact ⟨iff_of_true rfl nofun, fun _ => rfl⟩
  | cons a as ih =>
    obtain ⟨hfirst, hname⟩ := List.forall_mem_cons.1 hname
    obtain ⟨ihiff, ihends⟩ := ih hname
    obtain ⟨value, rest, hvalue, hplain, hends⟩ :=
      style.reads names a.2 (as.flatMap style.writeAttribute ++ tail)
    have hattribute : names.attribute? ((a :: as).flatMap style.writeAttribute ++ tail) =
        some ((a.1, value), rest) := by
      rw [List.flatMap_cons, QuoteStyle.writeAttribute, List.append_assoc, List.append_assoc]
      exact attribute?_append hfirst hvalue
    rw [attributes_of_some hattribute, List.forall_mem_cons, ← hplain]
    -- the other attributes begin where they were meant to begin if the first is read as its text
    refine ⟨⟨fun h => ?_, fun ⟨hfirst, hrest⟩ => ?_⟩, fun ⟨hfirst, hrest⟩ => ?_⟩
    · obtain ⟨hhead, htail⟩ := List.cons.inj h
      have hfirst : value = a.2 := congrArg Prod.snd hhead
      rw [hends (hplain.1 hfirst)] at htail
      exact ⟨hfirst, ihiff.1 htail⟩
    · rw [hends (hplain.1 hfirst), ihiff.2 hrest, hfirst]
    · rw [hends (hplain.1 hfirst), ihends hrest, hfirst]

/-- The beginning of an element with attributes in quotes. -/
structure Element where
  /-- What stands in front of the attributes. -/
  opening : Text
  /-- The attributes: the name of each, and the text that it is written for. -/
  attributes : List (Text × Text)
  /-- How the texts are written. -/
  style : QuoteStyle
  /-- What stands behind the attributes. -/
  closing : Text

namespace Element

variable (e : Element)

/-- The attributes, one after the other. -/
def quoted : Text := e.attributes.flatMap e.style.writeAttribute

/-- The beginning of the element. -/
def text : Text := e.opening ++ e.quoted ++ e.closing

/-- The names are names, and no attribute in quotes stands behind the others. -/
structure IsDelimited (names : References) : Prop where
  /-- The names of the attributes. -/
  name : ∀ a ∈ e.attributes, ∀ c ∈ a.1, isAttributePart c = true
  /-- No attribute in quotes follows. -/
  closing : ∀ after, names.attribute? (e.closing ++ after) = none

/-- The texts of all attributes stand for themselves between quotes. -/
def IsPlain (names : References) : Prop := ∀ a ∈ e.attributes, e.style.IsPlain names a.2

end Element

/-- The element stands in the file, and what it says there is what it was written for exactly where
its texts are plain. -/
structure Element.SaysIfPlain (names : References) (file : Text) (e : Element) : Prop where
  /-- It stands in the file. -/
  stands : e.text <:+: file
  /-- An attribute alone is read as its text, and ends where it was meant to end, if and only if the
  text is plain. -/
  value_iff : ∀ a ∈ e.attributes, ∀ after, names.value? (e.style.write a.2 ++ after) =
    some (a.2, after) ↔ e.style.IsPlain names a.2
  /-- The attributes in a row are read as meant if and only if all their texts are plain. -/
  attributes_iff : ∀ after, (names.attributes (e.quoted ++ (e.closing ++ after))).1 =
    e.attributes ↔ e.IsPlain names
  /-- Then the last of them ends in front of what closes the element. -/
  ends : e.IsPlain names → ∀ after,
    names.attributes (e.quoted ++ (e.closing ++ after)) = (e.attributes, e.closing ++ after)

namespace Artifact

/-- The header of the page that lists the records. -/
def pageHeader (r : Resource) : Element where
  opening := "      <PageHeader"
  attributes := [("title", r.displayName), ("description", r.describe)]
  style := .markup
  closing := ">"

/-- The header of a column. -/
def columnHeader (f : Field) : Element where
  opening := "    header: (\x7b column \x7d) => <SortableHeader column=\x7bcolumn\x7d"
  attributes := [("title", f.label)]
  style := .literal
  closing := " />,"

/-- An attribute for a text in the metadata of a field, if it is there. -/
def metadataAttribute (f : Field) (name : Text) : List (Text × Text) :=
  match f.metadata.get? name with
  | some (.text t) => [(name, t)]
  | _ => []

/-- The input of a field that refers to another resource. -/
def relationInput (f : Field) (relation : Members) : Element where
  opening := "          <RelationCombobox form=\x7bform\x7d"
  attributes := [("name", f.name), ("label", f.label),
    ("resource", (relatedResource relation).display),
    ("labelField", (relatedLabel relation).display)]
  style := .literal
  closing :=
    let search : Text :=
      match searchFields? relation with
      | some v => " searchFields=" ++ Code.braced v.source
      | none => ""
    search ++ " />"

/-- A text with a blank in front of it. -/
def behindBlank (t : Text) : Text := " " ++ t

/-- What stands behind the quoted attributes of an input. -/
def inputFlags (f : Field) : List Text :=
  let readOnly : List Text := if f.readOnly then ["readOnly"] else []
  let required : List Text := if f.isOptional then [] else ["required"]
  let options : List Text :=
    if f.choices = [] then []
    else ["options=" ++ Code.braced (Value.list (f.choices.map .text)).source]
  readOnly ++ (required ++ options)

/-- The input of any other field. -/
def plainInput (f : Field) : Element where
  opening := "          <FormField form=\x7bform\x7d"
  attributes := ([("name", f.name), ("label", f.label), ("inputType", f.inputType)] :
    List (Text × Text)) ++ (metadataAttribute f "placeholder" ++ metadataAttribute f "description")
  style := .literal
  closing := (inputFlags f).flatMap behindBlank ++ " />"

/-- The input of a field. -/
def input (f : Field) : Element := f.relation?.elim (plainInput f) (relationInput f)

/-! ### The elements stand in the files -/

theorem behindBlank_join (t : Text) (ts : List Text) :
    behindBlank (Text.join " " (t :: ts)) = (t :: ts).flatMap behindBlank := by
  induction ts generalizing t with
  | nil => simp [Text.join]
  | cons u ts ih =>
    rw [List.flatMap_cons, ← ih, Text.join]
    simp [behindBlank]

/-- What is written for a text in the metadata of a field. -/
def metadataTexts (f : Field) (name : Text) : List Text :=
  match f.metadata.get? name with
  | some (.text t) => [name ++ "=" ++ t.literal]
  | _ => []

theorem flatMap_metadataAttribute (f : Field) (name : Text) : (metadataAttribute f name).flatMap
    QuoteStyle.literal.writeAttribute = (metadataTexts f name).flatMap behindBlank := by
  unfold metadataAttribute metadataTexts
  split <;> simp [QuoteStyle.writeAttribute, QuoteStyle.write, behindBlank]

theorem plainInput_text (f : Field) : (plainInput f).text =
    "          <FormField form=\x7bform\x7d " ++ fieldAttributes f ++ " />" := by
  have hattributes : fieldAttributes f = Text.join " " (List.flatten [
      ["name=" ++ f.name.literal, "label=" ++ f.label.literal, "inputType=" ++ f.inputType.literal],
      metadataTexts f "placeholder", metadataTexts f "description", inputFlags f]) := by
    simp only [fieldAttributes, inputFlags, List.flatten_cons, List.append_assoc]
    rfl
  have hblank : "          <FormField form=\x7bform\x7d " ++ fieldAttributes f ++ " />" =
      Text.ofString "          <FormField form=\x7bform\x7d" ++
        (behindBlank (fieldAttributes f) ++ " />") := by
    simp [behindBlank, Text.ofString]
  rw [hblank, hattributes]
  simp only [List.flatten_cons, List.cons_append, behindBlank_join]
  simp only [Element.text, Element.quoted, plainInput, List.flatMap_append,
    flatMap_metadataAttribute]
  simp [behindBlank, QuoteStyle.writeAttribute, QuoteStyle.write, Text.ofString]

theorem input_text (f : Field) : (input f).text = fieldInput f := by
  unfold input fieldInput
  cases f.relation? with
  | none => exact plainInput_text f
  | some relation =>
    cases hsearch : searchFields? relation <;>
      simp [relationInput, hsearch, Element.text, Element.quoted, QuoteStyle.writeAttribute,
        QuoteStyle.write, Text.ofString]

theorem infix_unlines {line : Text} {lines : List Text} (h : line ∈ lines) :
    line <:+: Text.unlines lines := by
  obtain ⟨before, after, rfl⟩ := List.append_of_mem h
  exact ⟨Text.unlines before, "\n" ++ Text.unlines after, by simp [Text.unlines]⟩

/-! ### The elements are delimited -/

variable {names : References}

theorem pageHeader_isDelimited (r : Resource) : (pageHeader r).IsDelimited names where
  name := by
    simp only [pageHeader, List.forall_mem_cons]
    exact ⟨by decide, by decide, List.forall_mem_nil _⟩
  closing _ := rfl

theorem columnHeader_isDelimited (f : Field) : (columnHeader f).IsDelimited names where
  name := by
    simp only [columnHeader, List.forall_mem_cons]
    exact ⟨by decide, List.forall_mem_nil _⟩
  closing after := (References.endsQuoted_slash (">," ++ after)).2

theorem relationInput_isDelimited (f : Field) (relation : Members) :
    (relationInput f relation).IsDelimited names where
  name := by
    simp only [relationInput, List.forall_mem_cons]
    exact ⟨by decide, by decide, by decide, by decide, List.forall_mem_nil _⟩
  closing after := by
    dsimp only [relationInput]
    split
    · rw [List.append_assoc]
      exact (References.endsQuoted_braced "searchFields" _ (by decide)).2
    · exact (References.endsQuoted_slash (">" ++ after)).2

/-- Behind the flags of an input no attribute in quotes follows. -/
theorem endsQuoted_inputFlags (f : Field) {tail : Text} (htail : names.EndsQuoted tail) :
    names.EndsQuoted ((inputFlags f).flatMap behindBlank ++ tail) := by
  have hflags : ∀ flag ∈ inputFlags f, ∀ t, names.EndsQuoted t →
      names.EndsQuoted (behindBlank flag ++ t) := by
    simp only [inputFlags, List.forall_mem_append]
    refine ⟨?_, ?_, ?_⟩
    · split_ifs
      · exact List.forall_mem_singleton.2 fun t ht => ht.flag "readOnly" (by decide)
      · exact List.forall_mem_nil _
    · split_ifs
      · exact List.forall_mem_nil _
      · exact List.forall_mem_singleton.2 fun t ht => ht.flag "required" (by decide)
    · split_ifs
      · exact List.forall_mem_nil _
      · exact List.forall_mem_singleton.2 fun t _ =>
          References.endsQuoted_braced "options" _ (by decide)
  generalize inputFlags f = flags at hflags
  induction flags with
  | nil => exact htail
  | cons flag flags ih =>
    obtain ⟨hflag, hflags⟩ := List.forall_mem_cons.1 hflags
    rw [List.flatMap_cons, List.append_assoc]
    exact hflag _ (ih hflags)

theorem plainInput_isDelimited (f : Field) : (plainInput f).IsDelimited names where
  name := by
    have hmetadata (name : Text) (hname : ∀ c ∈ name, isAttributePart c = true) :
        ∀ a ∈ metadataAttribute f name, ∀ c ∈ a.1, isAttributePart c = true := by
      unfold metadataAttribute
      split
      · exact List.forall_mem_singleton.2 hname
      · exact List.forall_mem_nil _
    simp only [plainInput, List.forall_mem_append, List.forall_mem_cons]
    exact ⟨⟨by decide, by decide, by decide, List.forall_mem_nil _⟩, hmetadata _ (by decide),
      hmetadata _ (by decide)⟩
  closing after := by
    have hend : names.EndsQuoted (" />" ++ after) := References.endsQuoted_slash (">" ++ after)
    have hclosing := endsQuoted_inputFlags f hend
    rw [← List.append_assoc] at hclosing
    exact hclosing.2

theorem input_isDelimited (f : Field) : (input f).IsDelimited names := by
  unfold input
  cases f.relation? with
  | none => exact plainInput_isDelimited f
  | some relation => exact relationInput_isDelimited f relation

/-! ### What the elements say -/

theorem saysIfPlain {e : Element} (he : e.IsDelimited names) {file : Text} (h : e.text <:+: file) :
    e.SaysIfPlain names file where
  stands := h
  value_iff a _ after := (e.style.reads names).value?_eq_iff a.2 after
  attributes_iff after :=
    (References.attributes_written e.style he.name (he.closing after)).1
  ends hplain after :=
    (References.attributes_written e.style he.name (he.closing after)).2 hplain

theorem pageHeader_stands (r : Resource) : (pageHeader r).text <:+: listPage r := by
  have htext : (pageHeader r).text = "      <PageHeader title=\"" ++ r.displayName.markup ++
      "\" description=\"" ++ r.describe.markup ++ "\">" := by
    simp [pageHeader, Element.text, Element.quoted, QuoteStyle.writeAttribute, QuoteStyle.write,
      Text.ofString]
  rw [htext]
  refine infix_unlines ?_
  simp only [List.flatten_cons, List.mem_append, List.mem_cons, true_or, or_true]

theorem input_stands {r : Resource} {s : FormSection} (hs : s ∈ formSections r) {f : Field}
    (hf : f ∈ s.fields) : (input f).text <:+: form r := by
  have hsection : fieldInput f ∈ formSection s := by
    simp only [formSection, List.flatten_cons, List.mem_append]
    exact .inr (.inr (.inr (.inl (List.mem_map_of_mem hf))))
  rw [input_text]
  refine infix_unlines ?_
  simp only [List.flatten_cons, List.mem_append]
  exact .inr (.inl (List.mem_flatMap.2 ⟨s, hs, hsection⟩))

theorem columnHeader_stands {r : Resource} {f : Field} (hf : f ∈ columnFields r) :
    (columnHeader f).text <:+: columns r := by
  have htext : (columnHeader f).text = "    header: (\x7b column \x7d) => <SortableHeader " ++
      "column=\x7bcolumn\x7d title=" ++ f.label.literal ++ " />," := by
    simp [columnHeader, Element.text, Element.quoted, QuoteStyle.writeAttribute, QuoteStyle.write,
      Text.ofString]
  have hcolumn : (columnHeader f).text ∈ column f := by
    rw [htext]
    simp [column, Text.ofString]
  refine infix_unlines ?_
  simp only [List.flatten_cons, List.mem_append]
  exact .inr (.inl (List.mem_flatMap.2 ⟨f, hf, hcolumn⟩))

/-- **What the attributes say.**  For every table of named references and every resource, the header
of the list, the inputs of the form and the headers of the columns stand in their files, each
attribute of theirs is read as the text that it was written for exactly if the text is plain, and so
are all of them together. -/
theorem attributes_read (names : References) (r : Resource) :
    (pageHeader r).SaysIfPlain names (listPage r) ∧
      (∀ s ∈ formSections r, ∀ f ∈ s.fields, (input f).SaysIfPlain names (form r)) ∧
      ∀ f ∈ columnFields r, (columnHeader f).SaysIfPlain names (columns r) :=
  ⟨saysIfPlain (pageHeader_isDelimited r) (pageHeader_stands r),
    fun _ hs f hf => saysIfPlain (input_isDelimited f) (input_stands hs hf),
    fun f hf => saysIfPlain (columnHeader_isDelimited f) (columnHeader_stands hf)⟩

/-- A label with an apostrophe is read up to the backslash in front of it, and the form goes on with
what is left of the label. -/
theorem form_label_read :
    let f : Field := { name := "note", kind := .string, typeName := "string",
                       metadata := [("label", .text "Customer's note")] }
    let r : Resource := { name := "order", pluralName := "orders", varName := "order",
                          config := [("name", .text "order")], fields := [f] }
    f.label = "Customer's note" ∧ ∃ before after,
      form r = before ++ (" label=" ++ (f.label.literal ++ after)) ∧
        References.common.value? (f.label.literal ++ after) =
          some (Text.ofString "Customer\\", "s note'" ++ after) := by
  intro f r
  have hsection : (⟨.text "Details", none, [f]⟩ : FormSection) ∈ formSections r :=
    List.mem_singleton_self _
  obtain ⟨before, after, hform⟩ := input_stands hsection (List.mem_singleton_self f)
  refine ⟨rfl, before ++ "          <FormField form=\x7bform\x7d name='note'",
    " inputType='text' required />" ++ after, ?_, ?_⟩
  · rw [← hform]
    have htext : (input f).text =
        Text.ofString "          <FormField form=\x7bform\x7d name='note'" ++
          (" label=" ++ (f.label.literal ++ " inputType='text' required />")) := by decide
    simp [htext]
  · have hbody : CodePoint.scalar '\'' ∉ Text.ofString "Customer\\" := by decide
    have hread : References.common.decode "Customer\\" = "Customer\\" :=
      References.decode_of_not_isIn (References.not_isIn_of_notMem (by decide))
    refine Eq.trans ?_ (congrArg (fun v : Text => some (v, Text.ofString "s note'" ++
      (" inputType='text' required />" ++ after))) hread)
    exact References.value?_quote (.inl rfl) hbody _

end Artifact

end Scaffold
