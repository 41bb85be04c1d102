import Scaffold.Text.Layout
import Scaffold.Text.Subject

/-!
# Templates

A template is a text with fields between braces; a brace that is text is written twice.  A field

    {name[2]!r:>10}

names a text, may pick single code points of it (`[2]`) or go on to a member (`.x`), may ask for the
quoted form (`!r`, or `!a` for the ASCII one), and may set the result by a `Layout`, whose written
form may have fields again.

`Template.pieces` takes a template apart, and `Template.fill` fills in the fields from left to
right. The first fault found on this way is the answer (`TemplateError`).
-/

namespace Scaffold

/-- What is wrong with a template. -/
inductive TemplateError where
  /-- An opening brace at the end. -/
  | loneOpening
  /-- A closing brace without an opening one. -/
  | loneClosing
  /-- An opening brace inside the name of a field. -/
  | nestedOpening
  /-- A field that does not end. -/
  | unclosedField
  /-- A field that ends where its conversion is expected. -/
  | noConversion
  /-- Something else than a layout after a conversion. -/
  | noColon
  /-- A layout that does not end. -/
  | unclosedLayout
  /-- A layout whose fields have layouts with fields. -/
  | tooDeep
  /-- A field with a number in the place of a name. -/
  | position (index : Nat)
  /-- A number with too many digits. -/
  | hugeNumber
  /-- A name that nothing goes by. -/
  | unknownName (name : Text)
  /-- A pick without a name. -/
  | emptyPick
  /-- A pick without its closing bracket. -/
  | unclosedPick
  /-- Something else than a pick after a closing bracket. -/
  | afterPick
  /-- A member that there is not. -/
  | noMember (owner : Subject) (name : Text)
  /-- A pick beyond the end of the text. -/
  | outOfRange
  /-- A pick that is no number. -/
  | noIndex
  /-- A pick beyond the end of kinds in a row. -/
  | outOfKinds
  /-- A pick from kinds in a row that is no number. -/
  | noKindIndex
  /-- A pick from what is no text. -/
  | noItems (owner : Subject)
  /-- A layout for what is no text. -/
  | noLayout (owner : Subject)
  /-- A conversion that there is not. -/
  | unknownConversion (mark : CodePoint)
  /-- A layout that texts do not have. -/
  | layout (fault : LayoutError)
  deriving DecidableEq, Repr

namespace Template

/-- A field as it is written. -/
structure Placeholder where
  /-- The name and the picks. -/
  path : Text
  /-- The conversion. -/
  conversion? : Option CodePoint
  /-- The layout. -/
  layout : Text
  deriving DecidableEq, Repr

/-- A part of a template. -/
inductive Piece where
  /-- Text that stands for itself. -/
  | literal (t : Text)
  /-- A field. -/
  | field (p : Placeholder)
  /-- A fault; nothing behind it is read. -/
  | broken (e : TemplateError)
  deriving DecidableEq, Repr

/-- The path at the beginning of a field, the mark that ends it, and what follows. -/
def path : Text → Except TemplateError (Text × CodePoint × Text)
  | [] => .error .unclosedField
  | c :: t =>
    if c = .scalar '\x7b' then .error .nestedOpening
    else if c = .scalar '\x7d' ∨ c = .scalar ':' ∨ c = .scalar '!' then .ok ([], c, t)
    else if c = .scalar '[' then do
      let inside := Text.spanWhile (· ≠ .scalar ']') t
      have := Text.length_spanWhile_le (· ≠ .scalar ']') t
      let (name, mark, rest) ← path inside.2
      return (c :: inside.1 ++ name, mark, rest)
    else do
      let (name, mark, rest) ← path t
      return (c :: name, mark, rest)
  termination_by t => t.length
  decreasing_by all_goals (simp only [List.length_cons]; omega)

/-- The text up to the brace that closes a field, with `depth` fields open inside it. -/
def closing (depth : Nat) : Text → Except TemplateError (Text × Text)
  | [] => .error .unclosedLayout
  | c :: t =>
    if c = .scalar '\x7b' then do
      let (inside, rest) ← closing (depth + 1) t
      return (c :: inside, rest)
    else if c = .scalar '\x7d' then
      match depth with
      | 0 => .ok ([], t)
      | depth + 1 => do
        let (inside, rest) ← closing depth t
        return (c :: inside, rest)
    else do
      let (inside, rest) ← closing depth t
      return (c :: inside, rest)

/-- The conversion and layout of a field behind the mark that ends its path. -/
def finish (name : Text) (mark : CodePoint) (t : Text) :
    Except TemplateError (Placeholder × Text) :=
  if mark = .scalar '\x7d' then .ok (⟨name, none, []⟩, t)
  else if mark = .scalar ':' then do
    let (layout, rest) ← closing 0 t
    return (⟨name, none, layout⟩, rest)
  else
    match t with
    | [] => .error .noConversion
    | [_] => .error .unclosedLayout
    | conversion :: c :: t =>
      if c = .scalar '\x7d' then .ok (⟨name, some conversion, []⟩, t)
      else if c = .scalar ':' then do
        let (layout, rest) ← closing 0 t
        return (⟨name, some conversion, layout⟩, rest)
      else .error .noColon

/-- The field behind an opening brace, and what follows it. -/
def placeholder (t : Text) : Except TemplateError (Placeholder × Text) := do
  let (name, mark, rest) ← path t
  finish name mark rest

/-- The code point is a brace. -/
def isBrace (c : CodePoint) : Bool := c = .scalar '\x7b' || c = .scalar '\x7d'

/-- Takes a template apart, reading at most `fuel` pieces. -/
def piecesWithin : (fuel : Nat) → Text → List Piece
  | 0, _ => []
  | fuel + 1, t =>
    let (before, rest) := t.spanWhile (!isBrace ·)
    match rest with
    | [] => [.literal before]
    | [c] =>
      [.broken (if c = .scalar '\x7b' then .loneOpening else .loneClosing)]
    | c :: d :: rest =>
      if c = d then .literal (before ++ [c]) :: piecesWithin fuel rest
      else if c = .scalar '\x7d' then [.broken .loneClosing]
      else
        match placeholder (d :: rest) with
        | .error e => [.broken e]
        | .ok (p, rest) => .literal before :: .field p :: piecesWithin fuel rest

/-- Takes a template apart.  Every step but the last reads at least one code point. -/
def pieces (t : Text) : List Piece := piecesWithin (t.length + 1) t

/-- The number that digits write behind others with the number `n`; none if there is anything else
than digits. -/
def indexFrom (n : Nat) : Text → Except TemplateError (Option Nat)
  | [] => .ok (some n)
  | c :: t =>
    match c.digitValue? with
    | none => .ok none
    | some d =>
      if Layout.largest < 10 * n + d then .error .hugeNumber else indexFrom (10 * n + d) t

/-- The number that a text of digits writes. -/
def index? (t : Text) : Except TemplateError (Option Nat) :=
  if t.isEmpty then .ok none else indexFrom 0 t

/-- The code point begins a pick. -/
def isPick (c : CodePoint) : Bool := c = .scalar '.' || c = .scalar '['

/-- The item of a subject at an index. -/
def item (s : Subject) (index : Option Nat) : Except TemplateError Subject :=
  match s, index with
  | .text _, none => .error .noIndex
  | .text t, some n =>
    match t[n]? with
    | none => .error .outOfRange
    | some c => .ok (.text [c])
  | .kinds _, none => .error .noKindIndex
  | .kinds names, some n =>
    match names[n]? with
    | none => .error .outOfKinds
    | some name => .ok (.kind name)
  | s, _ => .error (.noItems s)

/-- Goes from a subject where the text of picks says, following at most `fuel` picks. -/
def pickWithin (s : Subject) : (fuel : Nat) → Text → Except TemplateError Subject
  | 0, _ => .ok s
  | _ + 1, [] => .ok s
  | fuel + 1, c :: t =>
    if c = .scalar '.' then
      let (name, rest) := Text.spanWhile (!isPick ·) t
      if name.isEmpty then .error .emptyPick
      else
        match s.member? name with
        | none => .error (.noMember s name)
        | some member => pickWithin member fuel rest
    else if c = .scalar '[' then do
      let (name, rest) := Text.spanWhile (· ≠ .scalar ']') t
      if rest.isEmpty then throw .unclosedPick
      let index ← index? name
      if name.isEmpty then throw .emptyPick
      pickWithin (← item s index) fuel (rest.drop 1)
    else .error .afterPick

/-- What a path leads to. -/
def lookUp (values : List (Text × Text)) (path : Text) : Except TemplateError Subject := do
  let (name, picks) := path.spanWhile (!isPick ·)
  if name.isEmpty then throw (.position 0)
  match ← index? name with
  | some n => throw (.position n)
  | none =>
    match values.lookup name with
    | none => throw (.unknownName name)
    | some value => pickWithin (.text value) picks.length picks

/-- The form of a subject that a conversion asks for. -/
def convert (s : Subject) : Option CodePoint → Except TemplateError Subject
  | none => .ok s
  | some c =>
    if c = .scalar 's' then .ok (.text s.shown)
    else if c = .scalar 'r' then .ok (.text s.quoted)
    else if c = .scalar 'a' then .ok (.text (Text.inAscii s.quoted))
    else .error (.unknownConversion c)

/-- Sets a subject in the layout of a written form. -/
def set (s : Subject) (form : Text) : Except TemplateError Text :=
  if form.isEmpty then .ok s.shown
  else
    match s with
    | .text t => (Layout.read form).mapError .layout |>.map (·.lay t)
    | s => .error (.noLayout s)

/-- Fills in the fields of a template, whose layouts may have fields `depth` levels down. -/
def fillTo (values : List (Text × Text)) : (depth : Nat) → Text → Except TemplateError Text
  | 0, _ => .error .tooDeep
  | depth + 1, template => do
    let parts ← (pieces template).mapM fun piece =>
      match piece with
      | .literal t => pure t
      | .broken e => throw e
      | .field p => do
        let value ← convert (← lookUp values p.path) p.conversion?
        let form ←
          if p.layout.contains (CodePoint.scalar '\x7b') then fillTo values depth p.layout
          else pure p.layout
        set value form
    return parts.flatten

/-- Fills in the fields of a template; the layout of a field may have plain fields. -/
def fill (values : List (Text × Text)) (template : Text) : Except TemplateError Text :=
  fillTo values 2 template

end Template

/-- The message for a fault. -/
def TemplateError.message : TemplateError → Text
  | loneOpening => "Single '\x7b' encountered in format string"
  | loneClosing => "Single '\x7d' encountered in format string"
  | nestedOpening => "unexpected '\x7b' in field name"
  | unclosedField => "expected '\x7d' before end of string"
  | noConversion => "end of string while looking for conversion specifier"
  | noColon => "expected ':' after conversion specifier"
  | unclosedLayout => "unmatched '\x7b' in format spec"
  | tooDeep => "Max string recursion exceeded"
  | position index =>
    "Replacement index " ++ Text.ofNat index ++ " out of range for positional args tuple"
  | hugeNumber => "Too many decimal digits in format string"
  | unknownName name => name.quoted
  | emptyPick => "Empty attribute in format string"
  | unclosedPick => "Missing ']' in format string"
  | afterPick => "Only '.' or '[' may follow ']' in format field specifier"
  | noMember (.kind owner) name =>
    "type object '" ++ owner ++ "' has no attribute '" ++ name ++ "'"
  | noMember owner name => "'" ++ owner.kindName ++ "' object has no attribute '" ++ name ++ "'"
  | outOfRange => "string index out of range"
  | noIndex => "string indices must be integers, not 'str'"
  | outOfKinds => "tuple index out of range"
  | noKindIndex => "tuple indices must be integers or slices, not str"
  | noItems (.kind owner) => "type '" ++ owner ++ "' is not subscriptable"
  | noItems owner => "'" ++ owner.kindName ++ "' object is not subscriptable"
  | noLayout owner => "unsupported format string passed to " ++ owner.kindName ++ ".__format__"
  | unknownConversion mark => "Unknown conversion specifier " ++ LayoutError.typeName 127 mark
  | layout fault => fault.message

end Scaffold
