import Scaffold.Log.Record
import Scaffold.Resource.Basic
import Scaffold.Text.Lines
import Scaffold.Text.Quoted

/-!
# Hubs

A hub is a shared file in which every resource is registered.  A marker line says where entries go;
some entries need a line elsewhere in the file, such as an import (`ReferenceLine`).

`Hub.register` puts an entry and its reference lines into the text of a hub.  It only ever inserts
whole lines: a text is a list of lines, and new lines go between them (`insertAt`).
`Hub.update` decides what becomes of a hub: a resource is registered at most once, and not at all
where the marker is missing.
-/

namespace Scaffold

/-- Where a line goes among the lines that its rule looks for. -/
inductive Position where
  /-- Below the last of them. -/
  | belowLast
  /-- Above the first of them. -/
  | aboveFirst
  deriving DecidableEq, Repr

/-- The name of a position. -/
def Position.name : Position → Text
  | belowLast => "after_last"
  | aboveFirst => "before_first"

/-- A line that an entry needs elsewhere in the hub. -/
structure ReferenceLine where
  /-- The line, without its end. -/
  line : Resource → Text
  /-- The text of the hub has such a line already. -/
  isThere : Resource → Text → Bool
  /-- The lines near which it goes. -/
  isAnchor : Text → Bool
  /-- On which side of them. -/
  position : Position := .belowLast
  /-- The lines below which it goes where there is no anchor. -/
  isFallback : Text → Bool := fun _ => false
  /-- The resource needs the line. -/
  applies : Resource → Bool := fun _ => true

/-- A shared file. -/
structure Hub where
  /-- The name of the hub. -/
  name : Text
  /-- Its place, relative to the project. -/
  place : Text
  /-- What the line says below which entries go. -/
  marker : Text
  /-- The text of a new hub. -/
  skeleton : Text
  /-- The entry of a resource, without the end of its last line. -/
  entry : Resource → Text
  /-- The resource is registered in a text. -/
  isRegistered : Resource → Text → Bool
  /-- The other lines that an entry needs. -/
  references : List ReferenceLine := []
  /-- The resource belongs into the hub. -/
  applies : Resource → Bool := fun _ => true
  /-- Another resource in a text claims what the entry claims. -/
  isClaimed : Resource → Text → Bool := fun _ _ => false

/-- The end of a line. -/
inductive LineEnd where
  /-- A line feed. -/
  | lineFeed
  /-- A carriage return and a line feed. -/
  | both
  deriving DecidableEq, Repr

/-- The code points that end a line. -/
def LineEnd.text : LineEnd → Text
  | lineFeed => "\n"
  | both => "\r\n"

/-- How the lines of a text end: in both code points if any line does. -/
def LineEnd.of (t : Text) : LineEnd := if t.includes "\r\n" then both else lineFeed

namespace Hub

/-! ### Inserting lines -/

/-- Ends a line that has no end yet. -/
def ended (e : LineEnd) (line : Text) : Text := if line.isEnded then line else line ++ e.text

/-- Inserts a line, or several, below the first `n` lines. -/
def insertAt (e : LineEnd) (lines : List Text) (n : Nat) (t : Text) : List Text :=
  (lines.take n).map (ended e) ++ [t ++ e.text] ++ lines.drop n

/-- The number of the last line that satisfies `p`, counted from one. -/
def lastLine? (p : Text → Bool) (lines : List Text) : Option Nat :=
  (lines.reverse.findIdx? fun line => p line.lineBody).map (lines.length - ·)

/-- The number of the first line that satisfies `p`, counted from zero. -/
def firstLine? (p : Text → Bool) (lines : List Text) : Option Nat :=
  lines.findIdx? fun line => p line.lineBody

/-- Below how many lines a line goes that has no anchor: below a comment on the first line, else
above everything. -/
def topOf (lines : List Text) : Nat :=
  match lines with
  | line :: _ => if line.startsWith "//" then 1 else 0
  | [] => 0

end Hub

/-- Below how many lines of a hub a reference line goes, if it has a place. -/
def ReferenceLine.place? (rule : ReferenceLine) (lines : List Text) : Option Nat :=
  let anchor := match rule.position with
    | .belowLast => Hub.lastLine? rule.isAnchor lines
    | .aboveFirst => Hub.firstLine? rule.isAnchor lines
  match anchor, Hub.lastLine? rule.isFallback lines, rule.position with
  | some n, _, _ => some n
  | none, some n, _ => some n
  | none, none, .belowLast => some (Hub.topOf lines)
  | none, none, .aboveFirst => none

/-- Reports from the registration of resources. -/
def wiring (level : LogLevel) (message : Text) : LogRecord := ⟨level, .wiring, message⟩

namespace Hub

variable (h : Hub)

/-- The report that a line has no place. -/
def noPlace (line : Text) : LogRecord :=
  wiring .warning ("No place for " ++ line.strip.quoted ++ " in " ++ h.place ++ "; add it by hand")

/-- The text of a hub with a reference line, unless the line is there or not needed. -/
def refer (r : Resource) (e : LineEnd) (t : Text) (rule : ReferenceLine) : Text × Log :=
  if !rule.applies r || rule.isThere r t then (t, [])
  else
    let line := rule.line r
    match rule.place? t.lines with
    | some n => ((insertAt e t.lines n line).flatten, [])
    | none => (t, [h.noPlace line])

/-- The text of a hub with all reference lines. -/
def referAll (r : Resource) (e : LineEnd) (t : Text) : List ReferenceLine → Text × Log
  | [] => (t, [])
  | rule :: rules =>
    let (t, log) := h.refer r e t rule
    let (t, log') := referAll r e t rules
    (t, log ++ log')

/-- The text of a hub with an entry directly below the marker line. -/
def insertEntry (e : LineEnd) (t entry : Text) : Text :=
  match firstLine? (·.includes h.marker) t.lines with
  | some n => (insertAt e t.lines (n + 1) (entry.replaceAll '\n' e.text)).flatten
  | none => t

/-- The text of a hub in which a resource is registered. -/
def register (r : Resource) (t : Text) : Text × Log :=
  let e := LineEnd.of t
  let (t, log) := h.referAll r e t h.references
  (h.insertEntry e t (h.entry r), log)

/-! ### Deciding -/

/-- What becomes of a hub. -/
inductive Decision where
  /-- The resource is registered already. -/
  | registered
  /-- The marker is missing. -/
  | noMarker
  /-- The hub gets a new text. -/
  | write (text : Text)
  deriving DecidableEq, Repr

/-- The report that a resource is registered already. -/
def alreadyRegistered (r : Resource) : LogRecord :=
  wiring .debug (r.name ++ " already wired into " ++ h.place)

/-- The report that the marker is missing. -/
def markerMissing : LogRecord :=
  wiring .warning ("Wiring marker missing in " ++ h.place ++ " (expected " ++ h.marker.quoted
    ++ "); leaving it unchanged")

/-- The report that another resource claims the same route. -/
def claimed (r : Resource) : LogRecord :=
  wiring .warning ("Route '/" ++ r.pluralName ++ "' is already registered in " ++ h.place
    ++ "; adding '" ++ r.name ++ "' anyway")

/-- What becomes of a hub with the given text, or of one that does not exist, when a resource that
belongs into it is registered. -/
def update (r : Resource) (current : Option Text) : Decision × Log :=
  if current.any (h.isRegistered r) then (.registered, [h.alreadyRegistered r])
  else
    let before := current.getD h.skeleton
    if !before.includes h.marker then (.noMarker, [h.markerMissing])
    else
      let warnings : Log := if h.isClaimed r before then [h.claimed r] else []
      let (text, log) := h.register r before
      (.write text, warnings ++ log)

end Hub

end Scaffold
