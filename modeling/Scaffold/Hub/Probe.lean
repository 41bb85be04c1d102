import Scaffold.Text.Lines

/-!
# What a hub says already

The forms in which a hub mentions a resource.  Blanks may be left out or stand in any number where
the forms allow them, line feeds included; names are whole words.

* `Probe.reexports`: a line `export … from './module'`.
* `Probe.imports`: a line `import { …, name, … } from …`.
* `Probe.keysObject`: a line with two blanks, a key, a colon and an opening brace.
* `Probe.keysName`: a line with a key, a colon and a name.
-/

namespace Scaffold

namespace Probe

/-- The text without the blanks at its beginning, up to the end of the line. -/
def dropIndent (t : Text) : Text := t.dropWhile fun c => c.isBlank && !c.isLineFeed

/-- A relative module in quotes of either form comes next. -/
def quotesModule (module : Text) (t : Text) : Bool :=
  let isQuote (c : CodePoint) : Bool := c = .scalar '\'' || c = .scalar '"'
  match t with
  | c :: t =>
    isQuote c &&
      match Text.dropStart? ("./" ++ module) t with
      | some (d :: _) => isQuote d
      | _ => false
  | [] => false

/-- A clause `from './module'` comes next. -/
def fromModule (module : Text) (before : Option CodePoint) (t : Text) : Bool :=
  Text.wordBoundary before t.head? &&
    match Text.dropStart? "from" t with
    | some t => quotesModule module t.stripLeft
    | none => false

/-- Some line re-exports from the module. -/
def reexports (module : Text) (t : Text) : Bool :=
  t.anyLine fun line =>
    match Text.dropWord? "export" none (dropIndent line) with
    | none => false
    | some rest =>
      Text.anyUpTo CodePoint.isLineFeed (fromModule module) (some (.scalar 't')) rest

/-- What follows an opening brace after `import` or `import type`. -/
def importBrace? (t : Text) : Option Text := do
  let t ← Text.dropStart? "import" t
  if !t.head?.any CodePoint.isBlank then none
  let t := t.stripLeft
  let t := match Text.dropStart? "type" t with
    | some rest => if rest.head?.any CodePoint.isBlank then rest.stripLeft else t
    | none => t
  Text.dropStart? "\x7b" t

/-- The code point is a closing brace. -/
def isClosing (c : CodePoint) : Bool := c = .scalar '\x7d'

/-- A clause `from` comes after the next closing brace; it names the source, if one is given. -/
def closesFrom (source? : Option Text) (t : Text) : Bool :=
  match t.dropWhile (!isClosing ·) with
  | [] => false
  | _ :: t =>
    match Text.dropStart? "from" (Text.stripLeft t) with
    | none => false
    | some t =>
      match source? with
      | none => true
      | some source => t.stripLeft.startsWith ("'" ++ source ++ "'")

/-- Some line imports the name between braces, from the source if one is given. -/
def imports (name : Text) (source? : Option Text) (t : Text) : Bool :=
  t.anyLine fun line =>
    match importBrace? line with
    | none => false
    | some inside =>
      let named (before : Option CodePoint) (t : Text) : Bool :=
        match Text.dropWord? name before t with
        | some rest => closesFrom source? rest
        | none => false
      Text.anyUpTo isClosing named (some (.scalar '\x7b')) inside

/-- A colon comes next, blanks apart; what follows it without the blanks. -/
def afterColon? (t : Text) : Option Text := (Text.dropStart? ":" t.stripLeft).map Text.stripLeft

/-- Some line has the key after two blanks, with an object as its value. -/
def keysObject (key : Text) (t : Text) : Bool :=
  t.anyLine fun line =>
    match Text.dropStart? ("  " ++ key) line with
    | none => false
    | some rest => (afterColon? rest).any (·.startsWith "\x7b")

/-- The code point is no blank, or ends a line. -/
def endsIndent (c : CodePoint) : Bool := !c.isBlank || c.isLineFeed

/-- The name comes next, blanks apart, and no word goes on after it. -/
def namesWord (name : Text) (t : Text) : Bool :=
  let named (before : Option CodePoint) (t : Text) : Bool :=
    match Text.dropStart? name t with
    | some rest => Text.wordBoundary (name.getLast?.or before) rest.head?
    | none => false
  Text.anyUpTo (!CodePoint.isBlank ·) named none t

/-- Some line has the key after blanks, with the name as its value. -/
def keysName (key name : Text) (t : Text) : Bool :=
  t.anyLine fun line =>
    let keyed (_ : Option CodePoint) (t : Text) : Bool :=
      match Text.dropStart? key t with
      | none => false
      | some rest =>
        match Text.dropStart? ":" rest.stripLeft with
        | some value => namesWord name value
        | none => false
    Text.anyUpTo endsIndent keyed none line

end Probe

end Scaffold
