import Scaffold.Text.Basic

/-!
# Colours of a terminal

A terminal takes a sequence that begins with the escape character and an opening bracket, goes on
with parameters and then with marks, and ends with a letter or what stands among the letters in
ASCII, as a colour or another command.  Text that goes to no terminal is written without them
(`Text.withoutColours`).
-/

namespace Scaffold

namespace Text

/-- A digit or sign of a parameter in a colour sequence. -/
def isColourParameter : CodePoint → Bool := CodePoint.satisfies fun c => '0' ≤ c && c ≤ '?'

/-- A mark between the parameters of a colour sequence and its end. -/
def isColourMark : CodePoint → Bool := CodePoint.satisfies fun c => ' ' ≤ c && c ≤ '/'

/-- The end of a colour sequence. -/
def isColourEnd : CodePoint → Bool := CodePoint.satisfies fun c => '@' ≤ c && c ≤ '~'

/-- What follows a colour sequence at the beginning of a text. -/
def dropColour? (t : Text) : Option Text :=
  match dropStart? "\x1b[" t with
  | none => none
  | some rest =>
    match (rest.dropWhile isColourParameter).dropWhile isColourMark with
    | c :: rest' => if isColourEnd c then some rest' else none
    | [] => none

theorem length_lt_of_dropColour? {t rest : Text} (h : dropColour? t = some rest) :
    rest.length < t.length := by
  simp only [dropColour?] at h
  split at h
  · simp at h
  · rename_i r hr
    have hlen := length_of_dropStart? hr
    have hle := Nat.le_trans (length_dropWhile_le isColourMark _)
      (length_dropWhile_le isColourParameter r)
    split at h
    · rename_i c r' hc
      split at h
      · simp only [Option.some.injEq] at h
        subst h
        rw [hc] at hle
        simp only [List.length_cons] at hle
        omega
      · simp at h
    · simp at h

/-- The text without colour sequences. -/
def withoutColours (t : Text) : Text :=
  match t with
  | [] => []
  | c :: u =>
    match h : dropColour? (c :: u) with
    | some rest =>
      have := length_lt_of_dropColour? h
      withoutColours rest
    | none => c :: withoutColours u
termination_by t.length
decreasing_by
  · exact this
  · simp

end Text

end Scaffold
