import Scaffold.Text.Basic

/-!
# Tags

A tag stands before the messages of a run, so that the records of several runs can be told apart.
It becomes a part of the pattern that a message is made from, and in a pattern a percent sign begins
a directive.  The directive that ends with a second percent sign gives the sign itself, whatever
flags, width and precision stand between the two.
-/

namespace Scaffold

namespace Tag

/-- A flag of a directive. -/
def isFlag : CodePoint → Bool := CodePoint.satisfies fun c => "-+ #0".toList.contains c

/-- A letter for the size of a number. -/
def isSize : CodePoint → Bool := CodePoint.satisfies fun c => "hlL".toList.contains c

/-- What follows the precision of a directive, if there is one. -/
def dropPrecision : Text → Text
  | .scalar '.' :: t => t.dropWhile CodePoint.isAsciiDigit
  | t => t

/-- What follows the letter for the size, if there is one. -/
def dropSize : Text → Text
  | c :: t => if isSize c then t else c :: t
  | [] => []

/-- What follows everything between the sign that begins a directive and its last letter. -/
def dropOptions (t : Text) : Text :=
  dropSize (dropPrecision ((t.dropWhile isFlag).dropWhile CodePoint.isAsciiDigit))

theorem length_dropOptions_le (t : Text) : (dropOptions t).length ≤ t.length := by
  have flags := Text.length_dropWhile_le isFlag t
  have width := Text.length_dropWhile_le CodePoint.isAsciiDigit (t.dropWhile isFlag)
  have precision (t : Text) : (dropPrecision t).length ≤ t.length := by
    unfold dropPrecision
    split
    · exact Nat.le_succ_of_le (Text.length_dropWhile_le _ _)
    · exact Nat.le_refl _
  have size (t : Text) : (dropSize t).length ≤ t.length := by
    unfold dropSize
    split
    · split
      · exact Nat.le_succ _
      · exact Nat.le_refl _
    · exact Nat.le_refl _
  exact Nat.le_trans (size _) (Nat.le_trans (precision _) (Nat.le_trans width flags))

/-- The tag as it stands before a message. -/
def shown (tag : Text) : Text :=
  match tag with
  | [] => []
  | c :: t =>
    match h : dropOptions t with
    | .scalar '%' :: rest =>
      if c = .scalar '%' then
        have : rest.length < t.length := by
          have := length_dropOptions_le t
          rw [h] at this
          exact this
        c :: shown rest
      else c :: shown t
    | _ => c :: shown t
termination_by tag.length
decreasing_by
  · exact Nat.lt_succ_of_lt this
  · exact Nat.lt_succ_self _
  · exact Nat.lt_succ_self _

example : shown "100%% of %5.2l%" = "100% of %" := by decide +kernel

end Tag

end Scaffold
