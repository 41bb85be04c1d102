import Scaffold.Number.Numeral
import Scaffold.Token.Basic

/-!
# Escape sequences

What a backslash in a string or template literal stands for (`Escape.read`): a code point given by
its number, a control character given by a letter, nothing at the end of a line, or the code point
after the backslash itself.  Reading consumes at least one code point (`Escape.length_read`).
-/

namespace Scaffold

namespace Escape

/-- Why an escape sequence names no code point. -/
inductive Fault where
  /-- Its number is missing or is no code point. -/
  | malformed
  /-- Its number does not fit into 32 bits. -/
  | huge
  deriving DecidableEq, Repr

/-- The cause that a fault has in a source. -/
def Fault.cause : Fault → LexCause
  | malformed => .badEscape
  | huge => .hugeEscape

/-- The code point whose number is written in hexadecimal.  The number may have blanks around it, a
sign, the mark `0x` and single underscores between its digits. -/
def codePoint (digits : Text) : Except Fault CodePoint :=
  match Numeral.readInteger? 16 'x' digits with
  | none => .error .malformed
  | some n =>
    if n < -0x80000000 ∨ 0x80000000 ≤ n then .error .huge
    else if n < 0 then .error .malformed
    else
      match CodePoint.ofNat? n.toNat with
      | some c => .ok c
      | none => .error .malformed

/-- What a letter after a backslash stands for; any other code point stands for itself. -/
def letter (c : CodePoint) : CodePoint :=
  if c = .scalar 'n' then .scalar '\n'
  else if c = .scalar 't' then .scalar '\t'
  else if c = .scalar 'r' then .scalar '\r'
  else if c = .scalar 'b' then .scalar '\x08'
  else if c = .scalar 'f' then .scalar '\x0c'
  else if c = .scalar 'v' then .scalar '\x0b'
  else if c = .scalar '0' then .scalar '\x00'
  else c

/-- What the escape sequence after a backslash stands for, and the text behind it.  A number of
fixed width may be cut short by the end of the source. -/
def read : Text → Except Fault (Text × Text)
  | [] => .error .malformed
  | .scalar 'u' :: .scalar '\x7b' :: t =>
    match Text.cut? "\x7d" t with
    | none => .error .malformed
    | some (digits, rest) => (codePoint digits).map fun c => ([c], rest)
  | .scalar 'u' :: t => (codePoint (t.take 4)).map fun c => ([c], t.drop 4)
  | .scalar 'x' :: t => (codePoint (t.take 2)).map fun c => ([c], t.drop 2)
  | .scalar '\n' :: t => .ok ([], t)
  | c :: t => .ok ([letter c], t)

theorem rest_of_map {x : Except Fault CodePoint} {r : Text} {v rest : Text}
    (h : (x.map fun c => ([c], r)) = .ok (v, rest)) : rest = r := by
  cases x with
  | error e => simp [Except.map] at h
  | ok c =>
    simp only [Except.map, Except.ok.injEq, Prod.mk.injEq] at h
    exact h.2.symm

/-- The text behind an escape sequence is shorter than the one that begins with it. -/
theorem length_read {t v rest : Text} (h : read t = .ok (v, rest)) : rest.length < t.length := by
  unfold read at h
  split at h
  · simp at h
  · rename_i t
    split at h
    · simp at h
    · rename_i digits r hc
      rw [rest_of_map h]
      have := congrArg List.length (Text.eq_of_cut? hc)
      simp only [List.length_append, List.length_cons] at this ⊢
      omega
  · rw [rest_of_map h]; simp only [List.length_drop, List.length_cons]; omega
  · rw [rest_of_map h]; simp only [List.length_drop, List.length_cons]; omega
  · simp only [Except.ok.injEq, Prod.mk.injEq] at h
    rw [← h.2]; simp
  · simp only [Except.ok.injEq, Prod.mk.injEq] at h
    rw [← h.2]; simp

end Escape

end Scaffold
