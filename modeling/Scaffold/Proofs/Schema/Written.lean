import Scaffold.Proofs.Value.Lexemes
import Scaffold.Schema.FieldType

/-!
# Schemas as they are written

A written schema is constants, one a line and without semicolons, and below them the resource, whose
fields have types made of constructors, constants and modifiers:

* `WrittenCall` — a call `.name(arguments)` with plain data as arguments;
* `WrittenType` — a constructor of the namespace or a constant, and modifiers;
* `WrittenSchema` — the constants, the variable, the name and the fields.

`WrittenSchema.source` is the text and `WrittenSchema.lexemes` are its lexemes
(`WrittenSchema.lexesAs_source`).  `WrittenSchema.IsWritten` says when a schema may be written:
constants have different names, and a type refers to constants above it only.
-/

namespace Scaffold

open CodePoint

/-! ### What is written -/

/-- A call behind a chain, with plain data as arguments. -/
structure WrittenCall where
  /-- The name that is called. -/
  name : Text
  /-- What it is called with. -/
  arguments : List Value

namespace WrittenCall

/-- The call as it is written. -/
def source (c : WrittenCall) : Text :=
  "." ++ c.name ++ "(" ++ Text.join ", " (c.arguments.map Value.source) ++ ")"

/-- The lexemes of the call. -/
def lexemes (c : WrittenCall) : List Lexeme :=
  (.punct, ".") :: (.ident, c.name) ::
    bracketed "(" ")" (separated (c.arguments.map Value.lexemes))

/-- A name is called with data that can be read again. -/
structure IsWritten (c : WrittenCall) : Prop where
  /-- What is called is a name. -/
  name : c.name.isIdent = true
  /-- The arguments can be read again. -/
  arguments : ∀ v ∈ c.arguments, v.IsData

end WrittenCall

/-- A field type as it is written. -/
inductive WrittenType where
  /-- A constructor of the namespace, and modifiers. -/
  | made (constructor : WrittenCall) (modifiers : List WrittenCall)
  /-- A constant, and modifiers. -/
  | constant (name : Text) (modifiers : List WrittenCall)

namespace WrittenType

/-- The name that the type begins with. -/
def head : WrittenType → Text
  | made _ _ => "z"
  | constant name _ => name

/-- The calls behind this name. -/
def calls : WrittenType → List WrittenCall
  | made constructor modifiers => constructor :: modifiers
  | constant _ modifiers => modifiers

/-- The type as it is written. -/
def source (t : WrittenType) : Text := t.head ++ t.calls.flatMap WrittenCall.source

/-- The lexemes of the type. -/
def lexemes (t : WrittenType) : List Lexeme :=
  (.ident, t.head) :: t.calls.flatMap WrittenCall.lexemes

/-- The type refers to none but the given constants. -/
def IsOver (names : List Text) : WrittenType → Prop
  | made _ _ => True
  | constant name _ => name ∈ names

/-- The calls of the type can be read again, and it refers to none but the given constants. -/
structure IsWritten (names : List Text) (t : WrittenType) : Prop where
  /-- The type refers to these constants only. -/
  isOver : t.IsOver names
  /-- Its calls can be read again. -/
  calls : ∀ c ∈ t.calls, c.IsWritten

end WrittenType

/-- A name that a constant may have: not the namespace, and no literal. -/
structure IsConstantName (name : Text) : Prop where
  /-- It is a name. -/
  isIdent : name.isIdent = true
  /-- It is not the namespace of the constructors. -/
  ne_namespace : name ≠ "z"
  /-- It is no literal. -/
  not_literal : name ∉ (["true", "false", "null", "undefined"] : List Text)

/-- Constants, the latest first: they have different names, and refer to earlier ones only. -/
def AreWritten : List (Text × WrittenType) → Prop
  | [] => True
  | (name, t) :: earlier =>
    IsConstantName name ∧ name ∉ earlier.map (·.1) ∧ t.IsWritten (earlier.map (·.1)) ∧
      AreWritten earlier

/-- A schema as it is written. -/
structure WrittenSchema where
  /-- The constants and their types, in source order. -/
  constants : List (Text × WrittenType)
  /-- The variable of the resource. -/
  varName : Text
  /-- The name of the resource. -/
  name : Text
  /-- The fields of the resource and their types. -/
  fields : List (Text × WrittenType)

namespace WrittenSchema

/-- A name is declared to be a value. -/
def declaration (name value : Text) : Text := "const " ++ name ++ " = " ++ value

/-- The declaration of a constant, which is a line. -/
def constantLine (c : Text × WrittenType) : Text := declaration c.1 c.2.source ++ "\n"

/-- A field as it is written. -/
def fieldSource (f : Text × WrittenType) : Text := f.1 ++ ": " ++ f.2.source

/-- The call that makes the resource. -/
def call (w : WrittenSchema) : Text :=
  "defineResource(\x7b name: " ++ w.name.literal ++ " \x7d, \x7b "
    ++ Text.join ", " (w.fields.map fieldSource) ++ " \x7d)"

/-- The text of the schema. -/
def source (w : WrittenSchema) : Text :=
  w.constants.flatMap constantLine ++ declaration w.varName w.call

/-- The lexemes of a declaration, given those of its value. -/
def declarationLexemes (name : Text) (value : List Lexeme) : List Lexeme :=
  (.ident, "const") :: (.ident, name) :: (.punct, "=") :: value

/-- The lexemes of the configuration. -/
def configLexemes (w : WrittenSchema) : List Lexeme :=
  bracketed "\x7b" "\x7d" (separated [keyed "name" [(.string, w.name)]])

/-- The lexemes of the field map. -/
def fieldLexemes (w : WrittenSchema) : List Lexeme :=
  bracketed "\x7b" "\x7d" (separated (w.fields.map fun f => keyed f.1 f.2.lexemes))

/-- The lexemes of the call that makes the resource. -/
def callLexemes (w : WrittenSchema) : List Lexeme :=
  (.ident, "defineResource") ::
    bracketed "(" ")" (separated [w.configLexemes, w.fieldLexemes])

/-- The lexemes of the schema. -/
def lexemes (w : WrittenSchema) : List Lexeme :=
  (w.constants.flatMap fun c => declarationLexemes c.1 c.2.lexemes) ++
    declarationLexemes w.varName w.callLexemes

/-- The schema may be written: types refer to constants above them, and the variable is none of
them. -/
structure IsWritten (w : WrittenSchema) : Prop where
  /-- The constants have different names and refer to those above them. -/
  constants : AreWritten w.constants.reverse
  /-- The variable is a name. -/
  varName : w.varName.isIdent = true
  /-- The variable is not a constant. -/
  varName_notMem : w.varName ∉ w.constants.map (·.1)
  /-- The name is not blank. -/
  name : w.name.isBlank = false
  /-- The name is made of scalar values. -/
  name_isScalar : w.name.IsScalar
  /-- Fields have names, and types that refer to the constants. -/
  fields : ∀ f ∈ w.fields, f.1.isIdent = true ∧ f.2.IsWritten (w.constants.map (·.1))

end WrittenSchema

/-! ### Names -/

theorem IsConstantName.literalName?_eq_none {name : Text} (h : IsConstantName name) :
    Expr.literalName? name = none := by
  obtain ⟨htrue, hfalse, hnull, hundefined⟩ : name ≠ "true" ∧ name ≠ "false" ∧ name ≠ "null" ∧
      name ≠ "undefined" := by simpa using h.not_literal
  rw [Expr.literalName?, if_neg htrue, if_neg hfalse, if_neg (not_or_intro hnull hundefined)]

theorem WrittenType.IsOver.mono {names names' : List Text} {t : WrittenType} (h : t.IsOver names)
    (hsub : names ⊆ names') : t.IsOver names' := by
  cases t with
  | made c ms => trivial
  | constant name ms => exact hsub h

theorem AreWritten.isConstantName {cs : List (Text × WrittenType)} (h : AreWritten cs) :
    ∀ e ∈ cs, IsConstantName e.1 := by
  induction cs with
  | nil => nofun
  | cons e cs ih => exact List.forall_mem_cons.2 ⟨h.1, ih h.2.2.2⟩

theorem AreWritten.isWritten {cs : List (Text × WrittenType)} (h : AreWritten cs) :
    ∀ e ∈ cs, e.2.IsWritten (cs.map (·.1)) := by
  induction cs with
  | nil => nofun
  | cons e cs ih =>
    have hsub : cs.map (·.1) ⊆ (e :: cs).map (·.1) := List.subset_cons_self _ _
    refine List.forall_mem_cons.2 ⟨⟨h.2.2.1.isOver.mono hsub, h.2.2.1.calls⟩, fun d hd => ?_⟩
    exact ⟨(ih h.2.2.2 d hd).isOver.mono hsub, (ih h.2.2.2 d hd).calls⟩

/-- A type begins with a name that is no literal. -/
theorem WrittenType.head_of_isOver {names : List Text} {t : WrittenType} (h : t.IsOver names)
    (hnames : ∀ name ∈ names, IsConstantName name) :
    t.head.isIdent = true ∧ Expr.literalName? t.head = none := by
  cases t with
  | made c ms =>
    have hident : schemaNamespace.isIdent = true := by decide
    exact ⟨hident, rfl⟩
  | constant name ms => exact ⟨(hnames name h).isIdent, (hnames name h).literalName?_eq_none⟩

namespace WrittenSchema

variable {w : WrittenSchema}

theorem IsWritten.isConstantName (h : w.IsWritten) :
    ∀ name ∈ w.constants.map (·.1), IsConstantName name := by
  intro name hname
  obtain ⟨e, he, rfl⟩ := List.mem_map.1 hname
  exact h.constants.isConstantName e (List.mem_reverse.2 he)

theorem IsWritten.constant (h : w.IsWritten) :
    ∀ e ∈ w.constants, e.2.IsWritten (w.constants.map (·.1)) := by
  intro e he
  have hwritten := h.constants.isWritten e (List.mem_reverse.2 he)
  rw [List.map_reverse] at hwritten
  exact ⟨hwritten.isOver.mono fun _ hn => List.mem_reverse.1 hn, hwritten.calls⟩

end WrittenSchema

/-! ### Its lexemes -/

theorem lexesAs_call {c : WrittenCall} (h : c.IsWritten) :
    LexesAs (fun _ => True) c.source c.lexemes := by
  have hopen : LexesAs (fun _ => True) [.scalar '('] [(.punct, [.scalar '('])] :=
    lexesAs_bracket (by decide)
  have hclose : LexesAs (fun _ => True) [.scalar ')'] [(.punct, [.scalar ')'])] :=
    lexesAs_bracket (by decide)
  have hdata : ∀ v ∈ c.arguments, LexesAs EndsValue v.source v.lexemes := fun v hv =>
    Value.lexesAs_source v (h.arguments v hv)
  have harguments := lexesAs_join (by decide) hdata
  have hbracket := hopen.append_anywhere (harguments.append_cons (by decide) hclose)
  have hname := (lexesAs_ident h.name).append_cons (by decide) hbracket
  have hcall := lexesAs_point.append hname fun rest _ d hd => by
    obtain ⟨e, w, he⟩ : ∃ e w, c.name = e :: w := by
      cases hc : c.name with
      | nil =>
        have := h.name
        rw [hc] at this
        cases this
      | cons e w => exact ⟨e, w, rfl⟩
    have hident := h.name
    rw [he, Text.isIdent, Bool.and_eq_true] at hident
    rw [he, List.cons_append, List.cons_append, List.head?_cons, Option.mem_some_iff] at hd
    exact hd ▸ hident.1
  simpa [WrittenCall.source, WrittenCall.lexemes, bracketed, Text.ofString] using hcall

theorem lexesAs_calls {cs : List WrittenCall} (h : ∀ c ∈ cs, c.IsWritten) :
    LexesAs (fun _ => True) (cs.flatMap WrittenCall.source) (cs.flatMap WrittenCall.lexemes) := by
  induction cs with
  | nil => exact .nil
  | cons c cs ih =>
    rw [List.forall_mem_cons] at h
    rw [List.flatMap_cons, List.flatMap_cons]
    exact (lexesAs_call h.1).append_anywhere (ih h.2)

theorem lexesAs_type {names : List Text} {t : WrittenType} (hhead : t.head.isIdent = true)
    (h : t.IsWritten names) :
    LexesAs (fun c => isIdentPart c = false) t.source t.lexemes := by
  refine (lexesAs_ident hhead).append ((lexesAs_calls h.calls).mono fun _ _ => trivial) ?_
  intro rest hrest d hd
  cases hcalls : t.calls with
  | nil =>
    rw [hcalls] at hd
    exact hrest d hd
  | cons c cs =>
    have hpoint : d = .scalar '.' := by
      rw [hcalls] at hd
      simpa [WrittenCall.source, Text.ofString, eq_comm] using hd
    rw [hpoint]
    decide

/-- A declaration lexes as what it declares does. -/
theorem lexesAs_declaration {p : CodePoint → Prop} {name value : Text} {ls : List Lexeme}
    (hname : name.isIdent = true) (h : LexesAs p value ls) :
    LexesAs p (WrittenSchema.declaration name value)
      (WrittenSchema.declarationLexemes name ls) := by
  have hblank : LexesAs (fun _ => True) [.scalar ' '] [] := lexesAs_blank (by decide)
  have hconst : LexesAs (fun c => isIdentPart c = false) (Text.ofString "const")
    [(.ident, Text.ofString "const")] := lexesAs_ident (by decide)
  have hvalue := lexesAs_equals.append_cons rfl (hblank.append_anywhere h)
  have hrest := (lexesAs_ident hname).append_cons (by decide) (hblank.append_anywhere hvalue)
  have hall := hconst.append_cons (by decide) (hblank.append_anywhere hrest)
  simpa [WrittenSchema.declaration, WrittenSchema.declarationLexemes, Text.ofString] using hall

namespace WrittenSchema

variable {w : WrittenSchema}

theorem lexesAs_constantLine (h : w.IsWritten) {e : Text × WrittenType} (he : e ∈ w.constants) :
    LexesAs (fun _ => True) (constantLine e) (declarationLexemes e.1 e.2.lexemes) := by
  have hhead := WrittenType.head_of_isOver (h.constant e he).isOver h.isConstantName
  have hname := (h.isConstantName e.1 (List.mem_map_of_mem he)).isIdent
  have hline : LexesAs (fun _ => True) [newline] [] := lexesAs_blank (by decide)
  have := (lexesAs_declaration hname (lexesAs_type hhead.1 (h.constant e he))).append_cons
    (by decide) hline
  simpa [constantLine, Text.ofString] using this

theorem lexesAs_constants {cs : List (Text × WrittenType)}
    (h : ∀ e ∈ cs, LexesAs (fun _ => True) (constantLine e) (declarationLexemes e.1 e.2.lexemes)) :
    LexesAs (fun _ => True) (cs.flatMap constantLine)
      (cs.flatMap fun e => declarationLexemes e.1 e.2.lexemes) := by
  induction cs with
  | nil => exact .nil
  | cons e cs ih =>
    rw [List.forall_mem_cons] at h
    rw [List.flatMap_cons, List.flatMap_cons]
    exact h.1.append_anywhere (ih h.2)

theorem lexesAs_field (h : w.IsWritten) {f : Text × WrittenType} (hf : f ∈ w.fields) :
    LexesAs (fun c => isIdentPart c = false) (fieldSource f) (keyed f.1 f.2.lexemes) :=
  lexesAs_key (h.fields f hf).1
    (lexesAs_type (WrittenType.head_of_isOver (h.fields f hf).2.isOver h.isConstantName).1
      (h.fields f hf).2)

theorem lexesAs_config (w : WrittenSchema) :
    LexesAs (fun _ => True) ("\x7b name: " ++ w.name.literal ++ " \x7d") w.configLexemes := by
  have hblank : LexesAs (fun _ => True) [.scalar ' '] [] := lexesAs_blank (by decide)
  have hopen : LexesAs (fun _ => True) [.scalar '\x7b'] [(.punct, [.scalar '\x7b'])] :=
    lexesAs_bracket (by decide)
  have hclose : LexesAs (fun _ => True) [.scalar '\x7d'] [(.punct, [.scalar '\x7d'])] :=
    lexesAs_bracket (by decide)
  have hname := lexesAs_key (k := Text.ofString "name") (by decide) (lexesAs_literal w.name)
  have hall := ((hopen.append_anywhere hblank).append_anywhere hname).append_anywhere
    (hblank.append_anywhere hclose)
  simpa [configLexemes, bracketed, separated, Text.ofString] using hall

theorem lexesAs_fields (h : w.IsWritten) :
    LexesAs (fun _ => True) ("\x7b " ++ Text.join ", " (w.fields.map fieldSource) ++ " \x7d")
      w.fieldLexemes := by
  have hblank : LexesAs (fun _ => True) [.scalar ' '] [] := lexesAs_blank (by decide)
  have hopen : LexesAs (fun _ => True) [.scalar '\x7b'] [(.punct, [.scalar '\x7b'])] :=
    lexesAs_bracket (by decide)
  have hclose : LexesAs (fun _ => True) [.scalar '\x7d'] [(.punct, [.scalar '\x7d'])] :=
    lexesAs_bracket (by decide)
  have hfields := lexesAs_join (by decide) fun f hf => lexesAs_field h hf
  have hall := ((hopen.append_anywhere hblank).append_anywhere hfields).append_cons
    (by decide) (hblank.append_anywhere hclose)
  simpa [fieldLexemes, bracketed, Text.ofString] using hall

theorem lexesAs_callSource (h : w.IsWritten) :
    LexesAs (fun _ => True) w.call w.callLexemes := by
  have hopen : LexesAs (fun _ => True) [.scalar '('] [(.punct, [.scalar '('])] :=
    lexesAs_bracket (by decide)
  have hclose : LexesAs (fun _ => True) [.scalar ')'] [(.punct, [.scalar ')'])] :=
    lexesAs_bracket (by decide)
  have hfactory : LexesAs (fun c => isIdentPart c = false) (Text.ofString "defineResource")
    [(.ident, Text.ofString "defineResource")] := lexesAs_ident (by decide)
  have harguments := (lexesAs_config w).append_anywhere
    (lexesAs_comma.append_anywhere (lexesAs_fields h))
  have hall := hfactory.append_cons (by decide)
    (hopen.append_anywhere (harguments.append_anywhere hclose))
  simpa [call, callLexemes, bracketed, separated, Text.ofString] using hall

/-- **A schema lexes as its lexemes.** -/
theorem lexesAs_source (h : w.IsWritten) : LexesAs (fun _ => True) w.source w.lexemes :=
  (lexesAs_constants fun _ he => lexesAs_constantLine h he).append_anywhere
    (lexesAs_declaration h.varName (lexesAs_callSource h))

end WrittenSchema

end Scaffold
