import Scaffold.Text.Operation
import Scaffold.Text.Quoted

/-!
# Subjects of a template

A field of a template begins at a text and may go on, member by member, to what can be said of the
text: its kind, the operations on it, and their names.  `Subject` is what a field can come to,
`Subject.member?` goes one step on, and `Subject.shown` is the text that stands in the place of the
field.
-/

namespace Scaffold

/-- What a field of a template can come to. -/
inductive Subject where
  /-- A text. -/
  | text (t : Text)
  /-- An operation on a text, or on no text in particular. -/
  | operation (o : TextOperation) (receiver : Option Text)
  /-- A kind of subjects. -/
  | kind (name : Text)
  /-- Kinds in a row. -/
  | kinds (names : List Text)
  /-- Nothing. -/
  | nothing
  deriving DecidableEq, Repr

namespace Subject

/-- A text that may be missing. -/
def ofText? (t : Option Text) : Subject := (t.map text).getD nothing

/-- Lines of a description; none at all are nothing. -/
def ofLines (lines : List String) : Subject :=
  if lines = [] then nothing else text (Text.join "\n" (lines.map Text.ofString))

/-- The name of the kind of a subject. -/
def kindName : Subject → Text
  | text _ => "str"
  | operation o receiver =>
    if o.isOfKind then "builtin_function_or_method"
    else
      match o.isSign, receiver with
      | true, some _ => "method-wrapper"
      | true, none => "wrapper_descriptor"
      | false, some _ => "builtin_function_or_method"
      | false, none => "method_descriptor"
  | kind _ => "type"
  | kinds _ => "tuple"
  | nothing => "NoneType"

/-! ### Members -/

/-- The member of an operation. -/
def operationMember? (o : TextOperation) (receiver : Option Text) (member : Text) :
    Option Subject :=
  let isBound := o.isOfKind || receiver.isSome
  if member = Text.ofString "__name__" then some (text o.name)
  else if member = Text.ofString "__qualname__" then
    let owner := if isBound && !o.isSign then Text.ofString "str" else o.ownerName
    some (text (owner ++ "." ++ o.name))
  else if member = Text.ofString "__doc__" then some (ofLines o.description)
  else if member = Text.ofString "__text_signature__" then
    some (ofText? (o.signature?.map Text.ofString))
  else if member = Text.ofString "__self__" then
    if o.isFree then some nothing
    else if o.isOfKind then some (kind "str")
    else receiver.map text
  else if member = Text.ofString "__objclass__" then
    if o.isSign || !isBound then some (kind o.ownerName) else none
  else if member = Text.ofString "__module__" then
    if !o.isSign && isBound then some nothing else none
  else none

/-- The kinds that a kind belongs to, itself first. -/
def lineage (name : Text) : List Text :=
  if name = Text.ofString "object" then [name] else [name, "object"]

/-- What there is to say of a kind, line by line, if it is said in words. -/
def kindDescription? (name : Text) : Option (List String) :=
  if name = Text.ofString "str" then some
    ["str(object='') -> str", "str(bytes_or_buffer[, encoding[, errors]]) -> str", "",
      "Create a new string object from the given object. If encoding or",
      "errors is specified, then the object must expose a data buffer",
      "that will be decoded using the given encoding and error handler.",
      "Otherwise, returns the result of object.__str__() (if defined)", "or repr(object).",
      "encoding defaults to sys.getdefaultencoding().", "errors defaults to 'strict'."]
  else if name = Text.ofString "object" then some
    ["The base class of the class hierarchy.", "",
      "When called, it accepts no arguments and returns a new featureless",
      "instance that has no instance attributes and cannot be given any.", ""]
  else if name = Text.ofString "type" then some
    ["type(object) -> the object's type", "type(name, bases, dict, **kwds) -> a new type"]
  else if name = Text.ofString "tuple" then some
    ["Built-in immutable sequence.", "",
      "If no argument is given, the constructor returns an empty tuple.",
      "If iterable is specified the tuple is initialized from iterable's items.", "",
      "If the argument is a tuple, the return value is the same object."]
  else if name = Text.ofString "NoneType" then some []
  else none

/-- How a kind is called, if there is a single way. -/
def kindSignature? (name : Text) : Option Text :=
  if name = Text.ofString "object" then some "()"
  else if name = Text.ofString "tuple" then some "(iterable=(), /)"
  else none

/-- The member of a kind. -/
def kindMember? (name member : Text) : Option Subject :=
  if member = Text.ofString "__name__" ∨ member = Text.ofString "__qualname__" then some (text name)
  else if member = Text.ofString "__module__" then some (text "builtins")
  else if member = Text.ofString "__base__" then
    some ((((lineage name).drop 1).head?.map kind).getD nothing)
  else if member = Text.ofString "__bases__" then some (kinds ((lineage name).drop 1))
  else if member = Text.ofString "__mro__" then some (kinds (lineage name))
  else if member = Text.ofString "__doc__" then (kindDescription? name).map ofLines
  else if member = Text.ofString "__text_signature__" then some (ofText? (kindSignature? name))
  else if name = Text.ofString "str" then
    (TextOperation.named? member).map fun o => operation o none
  else none

/-- The member of a subject. -/
def member? (s : Subject) (member : Text) : Option Subject :=
  if member = Text.ofString "__class__" then some (kind s.kindName)
  else
    match s with
    | operation o receiver => operationMember? o receiver member
    | kind name => kindMember? name member
    | text t =>
      if member = Text.ofString "__doc__" then (kindDescription? "str").map ofLines
      else (TextOperation.named? member).map fun o => operation o (some t)
    | s =>
      if member = Text.ofString "__doc__" then (kindDescription? s.kindName).map ofLines else none

/-! ### Forms -/

/-- The form of a kind. -/
def shownKind (name : Text) : Text := "<class '" ++ name ++ "'>"

/-- The text that stands for a subject.  An operation on a text is shown without its place in
memory. -/
def shown : Subject → Text
  | text t => t
  | operation o receiver =>
    if o.isOfKind then "<built-in method " ++ Text.ofString o.name ++ " of type object>"
    else if receiver.isSome then
      "<" ++ (if o.isSign then "method-wrapper '" ++ Text.ofString o.name ++ "'"
        else "built-in method " ++ Text.ofString o.name) ++ " of str object>"
    else
      "<" ++ (if o.isSign then Text.ofString "slot wrapper" else "method")
        ++ " '" ++ o.name ++ "' of '" ++ o.ownerName ++ "' objects>"
  | kind name => shownKind name
  | kinds names =>
    "(" ++ Text.join ", " (names.map shownKind)
      ++ (if names.length = 1 then Text.ofString ",)" else ")")
  | nothing => "None"

/-- The text that stands for a subject where its quoted form is asked for. -/
def quoted : Subject → Text
  | text t => t.quoted
  | s => s.shown

end Subject

end Scaffold
