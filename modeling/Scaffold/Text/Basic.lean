/-!
# Text as code points

The texts this library reads and writes are lists of Unicode code points.  Escape sequences in
a schema file can name a lone UTF-16 surrogate, which no `Char` holds, so a code point is a
scalar value or a surrogate (`CodePoint`), and `Text` is a list of them.  String literals
coerce to `Text`.

* `Text.dropStart?` removes a given beginning, `Text.cut?` splits at the first occurrence of a
  word, `Text.includes` looks for one.
* `Text.replaceAll` substitutes a text for a single code point.
* `Text.join`, `Text.unlines` and `Text.splitOn` put pieces together and take them apart.
-/

namespace Scaffold

/-- A Unicode code point: a scalar value, or one of the 2048 surrogates `U+D800`–`U+DFFF`. -/
inductive CodePoint where
  /-- A scalar value. -/
  | scalar (c : Char)
  /-- The surrogate `U+D800 + offset`. -/
  | surrogate (offset : Fin 2048)
  deriving DecidableEq, Repr, Inhabited

/-- A sequence of code points. -/
abbrev Text := List CodePoint

namespace CodePoint

instance : Coe Char CodePoint := ⟨.scalar⟩

/-- The number of a code point, at most `0x10FFFF`. -/
def toNat : CodePoint → Nat
  | scalar c => c.toNat
  | surrogate u => 0xD800 + u.val

/-- The code point with number `n`, if there is one. -/
def ofNat? (n : Nat) : Option CodePoint :=
  if h : 0xD800 ≤ n ∧ n < 0xE000 then some (.surrogate ⟨n - 0xD800, by omega⟩)
  else if h : n.isValidChar then some (.scalar (Char.ofNatAux n h))
  else none

/-- The code point is a scalar value. -/
def IsScalar : CodePoint → Prop
  | scalar _ => True
  | surrogate _ => False

instance : DecidablePred IsScalar
  | scalar _ => .isTrue trivial
  | surrogate _ => .isFalse id

/-- The code point is the ASCII digit, letter or mark that `p` accepts. -/
def satisfies (p : Char → Bool) : CodePoint → Bool
  | scalar c => p c
  | surrogate _ => false

/-- One of the digits `0`–`9`. -/
def isAsciiDigit : CodePoint → Bool := satisfies Char.isDigit

/-- One of the letters `A`–`Z` and `a`–`z`. -/
def isAsciiLetter : CodePoint → Bool := satisfies Char.isAlpha

/-- The value of a hexadecimal digit. -/
def hexValue? : CodePoint → Option Nat
  | surrogate _ => none
  | scalar c =>
    if '0' ≤ c ∧ c ≤ '9' then some (c.toNat - '0'.toNat)
    else if 'a' ≤ c ∧ c ≤ 'f' then some (c.toNat - 'a'.toNat + 10)
    else if 'A' ≤ c ∧ c ≤ 'F' then some (c.toNat - 'A'.toNat + 10)
    else none

/-- An ASCII capital letter becomes small; all else stays. -/
def toAsciiLower : CodePoint → CodePoint
  | scalar c => scalar c.toLower
  | surrogate u => surrogate u

theorem ofNat?_toNat_surrogate (u : Fin 2048) :
    ofNat? (surrogate u).toNat = some (surrogate u) := by
  have h : 0xD800 ≤ 0xD800 + u.val ∧ 0xD800 + u.val < 0xE000 := by omega
  rw [toNat, ofNat?, dif_pos h]
  exact congrArg (fun v => some (surrogate v)) (Fin.ext (by simp))

end CodePoint

namespace Text

/-- The code points of a string, all of them scalar values. -/
def ofString (s : String) : Text := s.toList.map .scalar

instance : Coe String Text := ⟨ofString⟩

@[simp] theorem ofString_empty : ofString "" = [] := rfl

theorem ofString_append (s t : String) : ofString (s ++ t) = ofString s ++ ofString t := by
  simp [ofString]

/-- Every code point is a scalar value. -/
def IsScalar (t : Text) : Prop := ∀ c ∈ t, c.IsScalar

instance (t : Text) : Decidable t.IsScalar := inferInstanceAs (Decidable (∀ c ∈ t, c.IsScalar))

theorem ofString_isScalar (s : String) : (ofString s).IsScalar := by
  intro c hc
  obtain ⟨x, _, rfl⟩ := List.mem_map.1 hc
  trivial

/-! ### Beginnings, ends and occurrences -/

/-- What follows `start` at the beginning of a text. -/
def dropStart? : (start t : Text) → Option Text
  | [], t => some t
  | _ :: _, [] => none
  | c :: start, d :: t => if c = d then dropStart? start t else none

/-- The text begins with `start`. -/
def startsWith (t start : Text) : Bool := (dropStart? start t).isSome

theorem dropStart?_eq_some_iff {start t rest : Text} :
    dropStart? start t = some rest ↔ t = start ++ rest := by
  induction start generalizing t with
  | nil => simp [dropStart?]
  | cons c start ih =>
    cases t with
    | nil => simp [dropStart?]
    | cons d t =>
      simp only [dropStart?]
      split
      · rename_i h; subst h; simpa using ih
      · rename_i h; simp [Ne.symm h]

theorem startsWith_iff {t start : Text} : t.startsWith start = true ↔ start <+: t := by
  rw [startsWith, Option.isSome_iff_exists]
  constructor
  · rintro ⟨r, hr⟩; exact ⟨r, (dropStart?_eq_some_iff.1 hr).symm⟩
  · rintro ⟨r, hr⟩; exact ⟨r, dropStart?_eq_some_iff.2 hr.symm⟩

theorem length_of_dropStart? {start t rest : Text} (h : dropStart? start t = some rest) :
    t.length = start.length + rest.length := by
  rw [dropStart?_eq_some_iff.1 h, List.length_append]

/-- The text ends with `tail`. -/
def endsWith (t tail : Text) : Bool :=
  decide (tail.length ≤ t.length) && t.drop (t.length - tail.length) == tail

/-- The text without `tail` at its end, or all of it when it does not end so. -/
def dropEnd (t tail : Text) : Text :=
  if t.endsWith tail then t.take (t.length - tail.length) else t

/-- Splits at the first occurrence of `word`: what comes before it and what comes after. -/
def cut? (word : Text) : Text → Option (Text × Text)
  | [] => (dropStart? word []).map ([], ·)
  | c :: t =>
    match dropStart? word (c :: t) with
    | some rest => some ([], rest)
    | none => (cut? word t).map fun (before, rest) => (c :: before, rest)

/-- The longest beginning whose code points satisfy `p`, and what follows it. -/
def spanWhile (p : CodePoint → Bool) (t : Text) : Text × Text := (t.takeWhile p, t.dropWhile p)

theorem length_dropWhile_le (p : CodePoint → Bool) (t : Text) :
    (t.dropWhile p).length ≤ t.length :=
  (List.dropWhile_suffix p).sublist.length_le

theorem length_spanWhile_le (p : CodePoint → Bool) (t : Text) :
    (t.spanWhile p).2.length ≤ t.length :=
  length_dropWhile_le p t

/-- The text has an occurrence of `word`. -/
def includes (t word : Text) : Bool := (cut? word t).isSome

theorem eq_of_cut? {word t before rest : Text} (h : cut? word t = some (before, rest)) :
    t = before ++ word ++ rest := by
  induction t generalizing before with
  | nil =>
    obtain ⟨r, hr, he⟩ := Option.map_eq_some_iff.1 h
    simp only [Prod.mk.injEq] at he
    obtain ⟨rfl, rfl⟩ := he
    simpa using dropStart?_eq_some_iff.1 hr
  | cons c t ih =>
    unfold cut? at h
    split at h
    · rename_i r hr
      simp only [Option.some.injEq, Prod.mk.injEq] at h
      obtain ⟨rfl, rfl⟩ := h
      simpa using dropStart?_eq_some_iff.1 hr
    · obtain ⟨⟨b, r⟩, hr, he⟩ := Option.map_eq_some_iff.1 h
      simp only [Prod.mk.injEq] at he
      obtain ⟨rfl, rfl⟩ := he
      simpa using ih hr

/-! ### Pieces -/

/-- Puts `t` in the place of every `c`. -/
def replaceAll (s : Text) (c : Char) (t : Text) : Text :=
  s.flatMap fun x => if x = .scalar c then t else [x]

/-- The texts in order, with `between` between neighbours. -/
def join (between : Text) : List Text → Text
  | [] => []
  | [t] => t
  | t :: u :: ts => t ++ between ++ join between (u :: ts)

/-- The texts in order, a line feed after each. -/
def unlines (lines : List Text) : Text := lines.flatMap (· ++ "\n")

/-- The pieces of a text between the code points `c`; a text without one is a single piece. -/
def splitOn (c : Char) : Text → List Text
  | [] => [[]]
  | x :: t =>
    if x = .scalar c then [] :: splitOn c t
    else
      match splitOn c t with
      | [] => [[x]]
      | piece :: pieces => (x :: piece) :: pieces

/-- The text from offset `start` up to, and without, offset `stop`. -/
def slice (t : Text) (start stop : Nat) : Text := (t.drop start).take (stop - start)

/-! ### Numbers and columns -/

/-- The decimal digits of a natural number. -/
def ofNat (n : Nat) : Text := (Nat.toDigits 10 n).map CodePoint.scalar

/-- The decimal digits of an integer, a minus sign before a negative one. -/
def ofInt : Int → Text
  | .ofNat n => ofNat n
  | .negSucc n => "-" ++ ofNat (n + 1)

/-- Fills with blanks on the right up to `width` code points. -/
def padRight (t : Text) (width : Nat) : Text :=
  t ++ List.replicate (width - t.length) (CodePoint.scalar ' ')

/-- Fills with `c` on the left up to `width` code points. -/
def padLeft (t : Text) (width : Nat) (c : Char) : Text :=
  List.replicate (width - t.length) (CodePoint.scalar c) ++ t

/-- The order of texts by the numbers of their code points. -/
def le : Text → Text → Bool
  | [], _ => true
  | _ :: _, [] => false
  | c :: s, d :: t => c.toNat < d.toNat || (c.toNat == d.toNat && le s t)

/-- The text as a string, if it has no surrogate. -/
def toString? (t : Text) : Option String :=
  (t.mapM fun c => match c with
    | CodePoint.scalar c => some c
    | CodePoint.surrogate _ => none).map String.ofList

end Text

end Scaffold
