import Scaffold.Text.Digit

/-!
# Layouts

A layout says how a text is set in a column: a least width, what fills the rest of it and on which
side, and how many code points of the text are shown at most.  Its written form is

    [[fill]alignment][0][width][.limit][s]

where the alignment is `<`, `^` or `>`.  The form is shared with numbers, so `Layout.read` knows
the options that only numbers have (a sign, separators, …) and says which of them was used
(`LayoutError`).
-/

namespace Scaffold

/-- Where a text stands in its column. -/
inductive Alignment where
  /-- At the left. -/
  | left
  /-- In the middle; of an odd rest the larger part is on the right. -/
  | middle
  /-- At the right. -/
  | right
  deriving DecidableEq, Repr

/-- How a text is set in a column. -/
structure Layout where
  /-- What fills the column. -/
  fill : CodePoint
  /-- Where the text stands. -/
  alignment : Alignment
  /-- The least width. -/
  width : Nat
  /-- How many code points of the text are shown. -/
  limit? : Option Nat
  deriving DecidableEq, Repr

/-- What is wrong with the written form of a layout. -/
inductive LayoutError where
  /-- A number with too many digits. -/
  | hugeNumber
  /-- Both separators of thousands. -/
  | twoSeparators
  /-- A separator of thousands with a type that has none. -/
  | separator (mark : Char) (type : CodePoint)
  /-- A point without a number after it. -/
  | noLimit
  /-- More after the limit than a type. -/
  | malformed (form : Text)
  /-- A type that texts do not have. -/
  | unknownType (type : CodePoint)
  /-- A blank for the sign. -/
  | blankSign
  /-- A sign. -/
  | sign
  /-- The mark against negative zeros. -/
  | negativeZero
  /-- The mark for the alternate form. -/
  | alternate
  /-- The alignment behind a sign. -/
  | behindSign
  deriving DecidableEq, Repr

namespace Layout

/-- The largest number in a written form. -/
def largest : Nat := 0x7FFFFFFFFFFFFFFF

/-- The digits at the beginning of a text as a number, how many they are, and what follows. -/
def number (t : Text) : Except LayoutError (Nat × Nat × Text) :=
  let (digits, rest) := t.spanWhile CodePoint.isDigit
  let n := digits.foldl (fun n c => 10 * n + (c.digitValue?.getD 0)) 0
  if largest < n then .error .hugeNumber else .ok (n, digits.length, rest)

/-- What is left of a text without the mark `c` at its beginning, and whether it was there. -/
def option (c : Char) : Text → Bool × Text
  | [] => (false, [])
  | d :: t => if d = .scalar c then (true, t) else (false, d :: t)

/-- The marks of alignment; `=` stands behind a sign. -/
def isAlignment (c : CodePoint) : Bool := "<>=^".toList.any fun d => c = .scalar d

/-- The alignment that a mark names. -/
def alignmentOf (c : CodePoint) : Alignment :=
  if c = .scalar '>' then .right else if c = .scalar '^' then .middle else .left

/-- The fill and the mark of alignment at the beginning of a written form. -/
def frame : Text → Option CodePoint × Option CodePoint × Text
  | c :: d :: t =>
    if isAlignment d then (some c, some d, t)
    else if isAlignment c then (none, some c, d :: t)
    else (none, none, c :: d :: t)
  | [c] => if isAlignment c then (none, some c, []) else (none, none, [c])
  | [] => (none, none, [])

/-- The sign at the beginning of a written form. -/
def signMark : Text → Option CodePoint × Text
  | [] => (none, [])
  | c :: t => if " +-".toList.any fun d => c = .scalar d then (some c, t) else (none, c :: t)

/-- Refuses a separator of thousands before a type that has none. -/
def checkSeparator (comma underscore : Bool) (type : CodePoint) : Except LayoutError Unit :=
  let plain := "defgEG%F\x00".toList.any fun d => type = .scalar d
  let grouped := "boxX".toList.any fun d => type = .scalar d
  if plain || !(comma || underscore) then .ok ()
  else if underscore then
    if grouped then .ok () else .error (.separator '_' type)
  else .error (.separator ',' type)

/-- The number after a point at the beginning of a written form. -/
def limit (t : Text) : Except LayoutError (Option Nat × Text) :=
  let (point, t) := option '.' t
  if point then do
    let (n, count, t) ← number t
    if count = 0 then .error .noLimit else .ok (some n, t)
  else .ok (none, t)

/-- Reads the written form of a layout. -/
def read (form : Text) : Except LayoutError Layout := do
  let (fill?, mark?, t) := frame form
  let (sign?, t) := signMark t
  let (negativeZero, t) := option 'z' t
  let (alternate, t) := option '#' t
  let (zero, t) := if fill?.isNone then option '0' t else (false, t)
  let (width, _, t) ← number t
  let (comma, t) := option ',' t
  let (underscore, t) := option '_' t
  if underscore && (comma || (option ',' t).1) then throw .twoSeparators
  let (limit?, t) ← limit t
  let type ← match t with
    | [] => pure (CodePoint.scalar 's')
    | [c] => pure c
    | _ => throw (.malformed form)
  checkSeparator comma underscore type
  if type ≠ .scalar 's' then throw (.unknownType type)
  if let some sign := sign? then
    throw (if sign = .scalar ' ' then .blankSign else .sign)
  if negativeZero then throw .negativeZero
  if alternate then throw .alternate
  if mark? = some (.scalar '=') then throw .behindSign
  return {
    fill := fill?.getD (if zero then '0' else ' ')
    alignment := (mark?.map alignmentOf).getD .left
    width
    limit? }

/-- Sets a text. -/
def lay (layout : Layout) (t : Text) : Text :=
  let shown := match layout.limit? with
    | none => t
    | some n => t.take n
  let rest := layout.width - shown.length
  let before := match layout.alignment with
    | .left => 0
    | .middle => rest / 2
    | .right => rest
  List.replicate before layout.fill ++ shown ++ List.replicate (rest - before) layout.fill

theorem length_lay (layout : Layout) (t : Text) (h : layout.limit? = none) :
    (layout.lay t).length = max layout.width t.length := by
  obtain ⟨fill, alignment, width, limit?⟩ := layout
  subst h
  cases alignment <;> simp only [lay, List.length_append, List.length_replicate] <;> omega

end Layout

/-- How a type is named in messages: itself between the blank and `bound`, else by its number. -/
def LayoutError.typeName (bound : Nat) (type : CodePoint) : Text :=
  if 32 < type.toNat ∧ type.toNat < bound then [type]
  else "\\x" ++ (Nat.toDigits 16 type.toNat).map CodePoint.scalar

/-- The message for a fault. -/
def LayoutError.message : LayoutError → Text
  | hugeNumber => "Too many decimal digits in format string"
  | twoSeparators => "Cannot specify both ',' and '_'."
  | separator mark type =>
    "Cannot specify '" ++ [CodePoint.scalar mark] ++ "' with '" ++ typeName 128 type ++ "'."
  | noLimit => "Format specifier missing precision"
  | malformed form => "Invalid format specifier '" ++ form ++ "' for object of type 'str'"
  | unknownType type => "Unknown format code '" ++ typeName 128 type ++ "' for object of type 'str'"
  | blankSign => "Space not allowed in string format specifier"
  | sign => "Sign not allowed in string format specifier"
  | negativeZero => "Negative zero coercion (z) not allowed in string format specifier"
  | alternate => "Alternate form (#) not allowed in string format specifier"
  | behindSign => "'=' alignment not allowed in string format specifier"

end Scaffold
