import Scaffold.Text.Alphanumeric
import Scaffold.Text.Blank

/-!
# Lines

`Text.lines` cuts a text after every line feed; the pieces make up the text again
(`flatten_lines`).  The last line may lack a line feed, and no line is empty.

`Text.anyLine` and `Text.anyUpTo` look for a place in a text: at the beginning of a line, or
anywhere up to a code point that stops the search.
-/

namespace Scaffold

/-- The code point is a line feed. -/
def CodePoint.isLineFeed (c : CodePoint) : Bool := c = .scalar '\n'

namespace Text

/-- The lines of a text, each with the line feed that ends it. -/
def lines : Text → List Text
  | [] => []
  | c :: t =>
    if c.isLineFeed then [c] :: lines t
    else
      match lines t with
      | [] => [[c]]
      | line :: rest => (c :: line) :: rest

@[simp] theorem flatten_lines (t : Text) : (lines t).flatten = t := by
  induction t with
  | nil => rfl
  | cons c t ih =>
    simp only [lines]
    split
    · simp [ih]
    · split
      · rename_i h; rw [h] at ih; simp at ih; simp [← ih]
      · rename_i h; rw [h] at ih; simpa using ih

theorem ne_nil_of_mem_lines {t line : Text} (h : line ∈ lines t) : line ≠ [] := by
  induction t generalizing line with
  | nil => simp [lines] at h
  | cons c t ih =>
    simp only [lines] at h
    split at h
    · rcases List.mem_cons.1 h with rfl | h
      · simp
      · exact ih h
    · split at h
      · rcases List.mem_cons.1 h with rfl | h
        · simp
        · cases h
      · rename_i hl
        rcases List.mem_cons.1 h with rfl | h
        · simp
        · exact ih (hl ▸ List.mem_cons_of_mem _ h)

/-- A line without the line feed that ends it. -/
def lineBody (line : Text) : Text := line.dropEnd "\n"

/-- A line ends in a line feed. -/
def isEnded (line : Text) : Bool := line.getLast?.any CodePoint.isLineFeed

/-- Some beginning of a line, with all that follows, satisfies `p`; `atStart` tells whether the
text itself begins a line. -/
def anyLineFrom (p : Text → Bool) (atStart : Bool) : Text → Bool
  | [] => atStart && p []
  | c :: t => (atStart && p (c :: t)) || anyLineFrom p c.isLineFeed t

/-- Some beginning of a line, with all that follows, satisfies `p`. -/
def anyLine (p : Text → Bool) (t : Text) : Bool := anyLineFrom p true t

/-- Some place up to the first code point that `stop` accepts, given by the code point before it and
all that follows, satisfies `p`. -/
def anyUpTo (stop : CodePoint → Bool) (p : Option CodePoint → Text → Bool) :
    (before : Option CodePoint) → Text → Bool
  | before, [] => p before []
  | before, c :: t => p before (c :: t) || (!stop c && anyUpTo stop p (some c) t)

/-- What follows `w` at the beginning of a text, if a word starts or ends on both of its sides;
`before` stands in front of the text. -/
def dropWord? (w : Text) (before : Option CodePoint) (t : Text) : Option Text :=
  if !wordBoundary before t.head? then none
  else
    match dropStart? w t with
    | none => none
    | some rest =>
      if wordBoundary (w.getLast?.or before) rest.head? then some rest else none

end Text

end Scaffold
