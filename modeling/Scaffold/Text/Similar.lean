import Scaffold.Text.Basic

/-!
# Similar texts

Two texts are as similar as the pieces that they have in common are long.  The longest common piece
is found first, then those before it and those after it.  `Text.closest` picks the most similar
texts of a list: those of which at least three fifths are common.
-/

namespace Scaffold

namespace Text

/-- The length of the longest common beginning. -/
def commonBeginning : Text → Text → Nat
  | c :: s, d :: t => if c = d then commonBeginning s t + 1 else 0
  | _, _ => 0

/-- A common piece of two texts: where it begins in each, and how long it is. -/
structure CommonPiece where
  /-- The offset in the first text. -/
  first : Nat
  /-- The offset in the second text. -/
  second : Nat
  /-- The length. -/
  length : Nat
  deriving DecidableEq, Repr

/-- The longest common piece; of several the one that begins first. -/
def longestCommon (s t : Text) : CommonPiece :=
  let pieces := (List.range s.length).flatMap fun i =>
    (List.range t.length).map fun j => CommonPiece.mk i j (commonBeginning (s.drop i) (t.drop j))
  pieces.foldl (fun best p => if best.length < p.length then p else best) ⟨0, 0, 0⟩

/-- The length of all common pieces; `fuel` bounds the number of cuts. -/
def commonWithin : (fuel : Nat) → Text → Text → Nat
  | 0, _, _ => 0
  | fuel + 1, s, t =>
    let p := longestCommon s t
    if p.length = 0 then 0
    else
      commonWithin fuel (s.take p.first) (t.take p.second) + p.length
        + commonWithin fuel (s.drop (p.first + p.length)) (t.drop (p.second + p.length))

/-- The length of all common pieces of two texts. -/
def common (s t : Text) : Nat := commonWithin (s.length + 1) s t

/-- The texts in `candidates` that are similar to `t`, at most `count` of them, the most similar
first. -/
def closest (t : Text) (candidates : List Text) (count : Nat) : List Text :=
  let scored := candidates.map fun c => (common c t, c.length + t.length, c)
  let similar := scored.filter fun (m, n, _) => 3 * n ≤ 10 * m
  let sorted := similar.mergeSort fun (m, n, c) (m', n', c') =>
    m' * n < m * n' || (m' * n = m * n' && le c' c)
  (sorted.take count).map (·.2.2)

end Text

end Scaffold
