import Scaffold.Resource.Basic
import Scaffold.Value.Source

/-!
# Lines of generated code

Generated files are lists of lines.  This module has the lines and phrases that several kinds of
file share: the header, imports, and text in braces.
-/

namespace Scaffold

namespace Code

/-- The first line of every generated file. -/
def header : Text := "// Generated by resourcegen. Re-run with --force to regenerate."

/-- A text between braces. -/
def braced (t : Text) : Text := "\x7b" ++ t ++ "\x7d"

/-- A text between braces and blanks. -/
def spaced (t : Text) : Text := "\x7b " ++ t ++ " \x7d"

/-- An import of names from a module. -/
def importLine (names source : Text) : Text :=
  "import " ++ spaced names ++ " from '" ++ source ++ "'"

/-- An import of types from a module. -/
def importTypeLine (names source : Text) : Text :=
  "import type " ++ spaced names ++ " from '" ++ source ++ "'"

/-- The module of the collection of a resource. -/
def collectionModule (r : Resource) : Text := "@/collections/" ++ r.pluralName ++ ".collection"

/-- The module of the schema of a resource. -/
def schemaModule (r : Resource) : Text := "@/schemas/" ++ r.name ++ ".schema"

/-- The module of the form of a resource. -/
def formModule (r : Resource) : Text := "@/components/forms/" ++ r.name ++ "-form"

/-- The module of the table columns of a resource. -/
def columnsModule (r : Resource) : Text := "@/components/tables/" ++ r.name ++ "-columns"

end Code

end Scaffold
