import Scaffold.Text.Alphanumeric
import Scaffold.Token.Escape

/-!
# Literals

Reading the text behind the opening mark of a string, a template or a regular expression.  A reader
returns what the literal stands for together with the text behind it, which is shorter than the text
it was given (`Scanned`), so that reading can go on there.

A template may hold substitutions, and a substitution may hold strings, templates and braces;
`scanTemplate` and `skipSubstitution` call each other for that.  A substitution is skipped and not
decoded.

Places are given by the number of code points that are left from there to the end of the source
(`LexFault.left`): a text does not know what stands before it.
-/

namespace Scaffold

/-- Why reading stops, and how many code points are left at the place where that shows. -/
structure LexFault where
  /-- What is wrong. -/
  cause : LexCause
  /-- The number of code points from the place to the end of the source. -/
  left : Nat
  deriving DecidableEq, Repr

/-- The fault as an error in a source of `n` code points. -/
def LexFault.located (f : LexFault) (n : Nat) : LexError := ⟨f.cause, n - f.left⟩

/-- What was read at the beginning of `t`, and the shorter text behind it. -/
structure Scanned (α : Type) (t : Text) where
  /-- What was read. -/
  value : α
  /-- The text behind it. -/
  rest : Text
  /-- Something was consumed. -/
  shorter : rest.length < t.length

namespace Scanned

/-- The same reading seen from a longer text, its value changed by `f`. -/
def lift {α β : Type} {t u : Text} (f : α → β) (h : t.length ≤ u.length) (s : Scanned α t) :
    Scanned β u :=
  ⟨f s.value, s.rest, Nat.lt_of_lt_of_le s.shorter h⟩

@[simp] theorem value_lift {α β : Type} {t u : Text} (f : α → β) (h : t.length ≤ u.length)
    (s : Scanned α t) : (s.lift f h).value = f s.value := rfl

@[simp] theorem rest_lift {α β : Type} {t u : Text} (f : α → β) (h : t.length ≤ u.length)
    (s : Scanned α t) : (s.lift f h).rest = s.rest := rfl

end Scanned

/-- The decoded text of a string up to the closing `quote`.  The string begins where `start` code
points are left, and has to end on its line. -/
def scanString (quote : CodePoint) (start : Nat) (t : Text) : Except LexFault (Scanned Text t) :=
  match t with
  | [] => .error ⟨.unclosedString, start⟩
  | c :: t =>
    if c = quote then .ok ⟨[], t, Nat.lt_succ_self _⟩
    else if c = .scalar '\\' then
      match h : Escape.read t with
      | .error e => .error ⟨e.cause, t.length + 1⟩
      | .ok (v, r) =>
        have hr := Nat.lt_succ_of_lt (Escape.length_read h)
        (scanString quote start r).map (Scanned.lift (v ++ ·) (Nat.le_of_lt hr))
    else if c = .scalar '\n' then .error ⟨.unclosedString, start⟩
    else (scanString quote start t).map (Scanned.lift (c :: ·) (Nat.le_succ _))
termination_by t.length
decreasing_by
  · exact hr
  · exact Nat.lt_succ_self _

mutual

/-- The decoded text of a template up to the closing backquote, without its substitutions, and
whether it has any.  The template begins where `start` code points are left. -/
def scanTemplate (start : Nat) (t : Text) : Except LexFault (Scanned (Text × Bool) t) :=
  match t with
  | [] => .error ⟨.unclosedTemplate, start⟩
  | c :: t =>
    if c = .scalar '\x60' then .ok ⟨([], false), t, Nat.lt_succ_self _⟩
    else if c = .scalar '\\' then
      match h : Escape.read t with
      | .error e => .error ⟨e.cause, t.length + 1⟩
      | .ok (v, r) =>
        have hr := Nat.lt_succ_of_lt (Escape.length_read h)
        (scanTemplate start r).map (Scanned.lift (fun (w, i) => (v ++ w, i)) (Nat.le_of_lt hr))
    else if c = .scalar '$' then
      match t with
      | .scalar '\x7b' :: t =>
        match skipSubstitution 0 t with
        | .error e => .error e
        | .ok s =>
          have hs := Nat.lt_succ_of_lt (Nat.lt_succ_of_lt s.shorter)
          (scanTemplate start s.rest).map
            (Scanned.lift (fun (w, _) => (w, true)) (Nat.le_of_lt hs))
      | t => (scanTemplate start t).map (Scanned.lift (fun (w, i) => (c :: w, i)) (Nat.le_succ _))
    else (scanTemplate start t).map (Scanned.lift (fun (w, i) => (c :: w, i)) (Nat.le_succ _))
termination_by t.length

/-- Finds the end of a substitution in which `depth` further braces are open. -/
def skipSubstitution (depth : Nat) (t : Text) : Except LexFault (Scanned Unit t) :=
  match t with
  | [] => .error ⟨.unclosedSubstitution, 0⟩
  | c :: t =>
    if c = .scalar '\'' ∨ c = .scalar '"' then
      match scanString c (t.length + 1) t with
      | .error e => .error e
      | .ok s =>
        have hs := Nat.lt_succ_of_lt s.shorter
        (skipSubstitution depth s.rest).map (Scanned.lift id (Nat.le_of_lt hs))
    else if c = .scalar '\x60' then
      match scanTemplate (t.length + 1) t with
      | .error e => .error e
      | .ok s =>
        have hs := Nat.lt_succ_of_lt s.shorter
        (skipSubstitution depth s.rest).map (Scanned.lift id (Nat.le_of_lt hs))
    else if c = .scalar '\x7b' then
      (skipSubstitution (depth + 1) t).map (Scanned.lift id (Nat.le_succ _))
    else if c = .scalar '\x7d' then
      match depth with
      | 0 => .ok ⟨(), t, Nat.lt_succ_self _⟩
      | depth + 1 => (skipSubstitution depth t).map (Scanned.lift id (Nat.le_succ _))
    else (skipSubstitution depth t).map (Scanned.lift id (Nat.le_succ _))
termination_by t.length

end

/-- A letter, digit or underscore after a regular expression is one of its flags. -/
def isRegexFlag (c : CodePoint) : Bool := c.isAlphanumeric || c = .scalar '_'

/-- The text behind a regular expression and its flags.  The expression begins where `start` code
points are left; a slash inside a class, of which `inClass` tells, does not close it. -/
def skipRegex (start : Nat) (inClass : Bool) : Text → Except LexFault Text
  | [] => .error ⟨.unclosedRegex, start⟩
  | .scalar '\\' :: [] => .error ⟨.unclosedRegex, start⟩
  | .scalar '\\' :: _ :: t => skipRegex start inClass t
  | c :: t =>
    if c = .scalar '\n' then .error ⟨.unclosedRegex, start⟩
    else if c = .scalar '[' then skipRegex start true t
    else if c = .scalar ']' then skipRegex start false t
    else if c = .scalar '/' ∧ inClass = false then .ok (t.dropWhile isRegexFlag)
    else skipRegex start inClass t

/-- The text behind a regular expression is shorter than the one that begins inside it. -/
theorem length_skipRegex {start : Nat} {inClass : Bool} {t r : Text}
    (h : skipRegex start inClass t = .ok r) : r.length < t.length := by
  fun_induction skipRegex start inClass t with
  | case1 => simp at h
  | case2 => simp at h
  | case4 => simp at h
  | case7 =>
    simp only [Except.ok.injEq] at h
    subst h
    exact Nat.lt_succ_of_le (Text.length_dropWhile_le isRegexFlag _)
  | _ =>
    rename_i ih
    have := ih h
    simp only [List.length_cons]
    omega

end Scaffold
