import Scaffold.Proofs.Token.Filler

/-!
# Division and regular expressions

A slash behind a complete operand divides.  The lexer decides so by the token before the slash
alone, and knows the operands that end with a name, a literal or a bracket.  Two kinds it takes for
the beginning of an expression: an operand that ends with `++` or `--`, and a property that is
spelled like a word which an expression follows.

* `Reads` is the way of the lexer up to some point of a source (`Reads.tokensFrom`).
* `EndsOperand` says which tokens end an operand, `EndsUnseen` with which of them the lexer does
  not see that.
* A slash behind an operand divides, and what follows is read as code, unless the operand ends
  unseen; then it begins a regular expression (`tokenize_slash`).
-/

namespace Scaffold

open CodePoint

/-- The part of a source that begins at `start` has the tokens up to `stop`, where `rest` is left.
The token before each place ends an operand if the flag there holds. -/
inductive Reads : Nat → Bool → Text → List Token → Nat → Bool → Text → Prop
  /-- No token. -/
  | here (start : Nat) (operand : Bool) (t : Text) : Reads start operand t [] start operand t
  /-- Filler. -/
  | skip {start stop : Nat} {operand after : Bool} {filler t rest : Text} {ts : List Token}
    (hfiller : IsFiller False filler)
    (hrest : Reads (start + filler.length) operand t ts stop after rest) :
    Reads start operand (filler ++ t) ts stop after rest
  /-- A token. -/
  | token {start stop : Nat} {operand after : Bool} {c : CodePoint} {read t rest : Text}
    {l : Lexeme} {ts : List Token} (hbegins : BeginsToken c (read ++ t))
    (hscan : Scans (scanToken operand c (read ++ t)) l t)
    (hrest : Reads (start + (c :: read).length) (l.1.endsOperand l.2) t ts stop after rest) :
    Reads start operand (c :: (read ++ t))
      (⟨l.1, l.2, start, start + (c :: read).length⟩ :: ts) stop after rest

namespace Reads

variable {start stop : Nat} {operand after : Bool} {t rest : Text} {ts : List Token}

theorem length_eq (h : Reads start operand t ts stop after rest) :
    start + t.length = stop + rest.length := by
  induction h with
  | here => rfl
  | skip _ _ ih => rw [← ih, List.length_append, Nat.add_assoc]
  | token _ _ _ ih =>
    rw [← ih]
    simp only [List.length_cons, List.length_append]
    omega

/-- The tokens of the part are those up to the point, and then those of what is left. -/
theorem tokensFrom (h : Reads start operand t ts stop after rest) {n : Nat}
    (hn : n = start + t.length) :
    tokensFrom n operand t = (Scaffold.tokensFrom n after rest).map (ts ++ ·) := by
  induction h with
  | here _ after t => cases Scaffold.tokensFrom n after t <;> rfl
  | skip hfiller _ ih =>
    rw [tokensFrom_filler n _ hfiller, ih (by rw [hn, List.length_append, Nat.add_assoc])]
  | @token start stop operand after c read t rest l ts hbegins hscan _ ih =>
    have hlength : n = start + (c :: read).length + t.length := by
      rw [hn]
      simp only [List.length_cons, List.length_append]
      omega
    have hstart : n - ((read ++ t).length + 1) = start := by
      rw [hn, List.length_cons]
      omega
    have hstop : n - t.length = start + (c :: read).length := by omega
    rw [tokensFrom_token n hbegins hscan, hstart, hstop, ih hlength]
    cases Scaffold.tokensFrom n after rest <;> rfl

/-- What the lexer knows at the point it knows from the last token. -/
theorem after_eq (h : Reads start operand t ts stop after rest) :
    after = ts.getLast?.elim operand fun u => u.kind.endsOperand u.value := by
  induction h with
  | here => rfl
  | skip _ _ ih => exact ih
  | @token _ _ _ _ _ _ _ _ _ ts _ _ _ ih =>
    rw [ih, List.getLast?_cons]
    cases ts.getLast? <;> rfl

end Reads

/-! ### Operands -/

/-- The tokens end with a complete operand. -/
inductive EndsOperand : List Lexeme → Prop
  /-- With a name that is no word which an expression follows. -/
  | name (before : List Lexeme) {value : Text} (hvalue : value ∉ expressionKeywords) :
    EndsOperand (before ++ [(.ident, value)])
  /-- With the name of a property, however it is spelled. -/
  | property (before : List Lexeme) {point : Text} (hpoint : point ∈ [Text.ofString ".", "?."])
    (value : Text) : EndsOperand (before ++ [(.punct, point), (.ident, value)])
  /-- With a number. -/
  | number (before : List Lexeme) (value : Text) : EndsOperand (before ++ [(.number, value)])
  /-- With a string. -/
  | string (before : List Lexeme) (value : Text) : EndsOperand (before ++ [(.string, value)])
  /-- With a template. -/
  | template (before : List Lexeme) (interpolated : Bool) (value : Text) :
    EndsOperand (before ++ [(.template interpolated, value)])
  /-- With a regular expression. -/
  | regex (before : List Lexeme) (value : Text) : EndsOperand (before ++ [(.regex, value)])
  /-- With a closing bracket. -/
  | bracket (before : List Lexeme) {value : Text} (hvalue : value ∈ [Text.ofString ")", "]"]) :
    EndsOperand (before ++ [(.punct, value)])
  /-- With `++` or `--` behind an operand. -/
  | step {before : List Lexeme} (hbefore : EndsOperand before) {value : Text}
    (hvalue : value ∈ [Text.ofString "++", "--"]) : EndsOperand (before ++ [(.punct, value)])

/-- The tokens that may end an operand and that the lexer takes for a part of an expression which
goes on. -/
def unseenEnds : List Lexeme :=
  [(.punct, Text.ofString "++"), (.punct, Text.ofString "--")] ++
    expressionKeywords.map fun word => (.ident, word)

/-- The lexer does not see that the tokens end an operand. -/
def EndsUnseen (ls : List Lexeme) : Prop := ∃ l ∈ ls.getLast?, l ∈ unseenEnds

instance (ls : List Lexeme) : Decidable (EndsUnseen ls) :=
  inferInstanceAs (Decidable (∃ l ∈ ls.getLast?, l ∈ unseenEnds))

theorem EndsOperand.endsOperand {ls : List Lexeme} (h : EndsOperand ls) {l : Lexeme}
    (hl : l ∈ ls.getLast?) : l.1.endsOperand l.2 = true ↔ l ∉ unseenEnds := by
  -- of the words that follow a point only those which an expression follows are not seen
  have hname (value : Text) : (TokenKind.ident, value) ∉ unseenEnds ↔
      TokenKind.endsOperand .ident value = true := by
    simp [unseenEnds, TokenKind.endsOperand]
  cases h with
  | name before hvalue =>
    obtain rfl : (TokenKind.ident, _) = l := by simpa using hl
    exact (hname _).symm
  | property before hpoint value =>
    obtain rfl : (TokenKind.ident, value) = l := by simpa using hl
    exact (hname _).symm
  | number before value =>
    obtain rfl : (TokenKind.number, value) = l := by simpa using hl
    simp [unseenEnds, TokenKind.endsOperand]
  | string before value =>
    obtain rfl : (TokenKind.string, value) = l := by simpa using hl
    simp [unseenEnds, TokenKind.endsOperand]
  | template before interpolated value =>
    obtain rfl : (TokenKind.template interpolated, value) = l := by simpa using hl
    simp [unseenEnds, TokenKind.endsOperand]
  | regex before value =>
    obtain rfl : (TokenKind.regex, value) = l := by simpa using hl
    simp [unseenEnds, TokenKind.endsOperand]
  | bracket before hvalue =>
    have hall : ∀ value ∈ [Text.ofString ")", "]"],
        TokenKind.endsOperand .punct value = true ∧ (TokenKind.punct, value) ∉ unseenEnds := by
      decide
    obtain rfl : (TokenKind.punct, _) = l := by simpa using hl
    exact iff_of_true (hall _ hvalue).1 (hall _ hvalue).2
  | step hbefore hvalue =>
    have hall : ∀ value ∈ [Text.ofString "++", "--"],
        TokenKind.endsOperand .punct value = false ∧ (TokenKind.punct, value) ∈ unseenEnds := by
      decide
    obtain rfl : (TokenKind.punct, _) = l := by simpa using hl
    simp [(hall _ hvalue).1, (hall _ hvalue).2]

theorem EndsOperand.ne_nil {ls : List Lexeme} (h : EndsOperand ls) : ls ≠ [] := by
  cases h <;> simp

/-! ### The slash -/

variable {r : Text}

/-- A slash begins no comment before another code point than those that make a comment of it. -/
theorem beginsToken_slash (hr : ∀ c ∈ r.head?, c ∉ Text.ofString "/*=") :
    BeginsToken (.scalar '/') r := by
  have hstarts {d : CodePoint} (hd : d ∈ Text.ofString "/*=") :
      Text.startsWith (.scalar '/' :: r) [.scalar '/', d] = false := by
    cases r with
    | nil => rfl
    | cons c r =>
      have hne : d ≠ c := fun h => hr c rfl (h ▸ hd)
      simp [Text.startsWith, Text.dropStart?, hne]
  exact ⟨by decide, hstarts (by decide), hstarts (by decide)⟩

theorem scanPunct_slash (hr : ∀ c ∈ r.head?, c ∉ Text.ofString "/*=") :
    scanPunct (.scalar '/') r = [.scalar '/'] := by
  have hlong : ∀ word ∈ longPuncts, word ≠ [] ∧
      ∀ c ∈ word.head?, c = .scalar '/' → word.tail = [.scalar '='] := by decide
  have hnone : longPuncts.find? (Text.startsWith (.scalar '/' :: r)) = none := by
    refine List.find?_eq_none.2 fun word hword hstarts => ?_
    obtain ⟨hne, htail⟩ := hlong word hword
    obtain ⟨rest, hrest⟩ := Text.startsWith_iff.1 hstarts
    obtain ⟨c, word, rfl⟩ := List.exists_cons_of_ne_nil hne
    obtain ⟨rfl, rfl⟩ := List.cons.inj hrest
    obtain rfl : word = [.scalar '='] := htail _ rfl rfl
    exact hr _ rfl (by decide)
  rw [scanPunct, hnone]
  rfl

theorem scans_slash (hr : ∀ c ∈ r.head?, c ∉ Text.ofString "/*=") :
    Scans (scanToken true (.scalar '/') r) (.punct, "/") r := by
  have hpunct := scanPunct_slash hr
  rw [scanToken, if_neg (by decide), if_neg (by decide), if_neg (by decide), if_neg (by
    simp [beginsNumber, isAsciiDigit, satisfies]), if_neg (by decide)]
  exact ⟨_, rfl, congrArg (fun w : Text => (TokenKind.punct, w)) hpunct, by simp [hpunct]⟩

theorem skipRegex_error {start : Nat} {inClass : Bool} {t : Text} {e : LexFault}
    (h : skipRegex start inClass t = .error e) : e = ⟨.unclosedRegex, start⟩ := by
  fun_induction skipRegex start inClass t with
  | case1 | case2 | case4 => exact (Except.error.inj h).symm
  | case7 => cases h
  | case3 _ _ _ ih => exact ih h
  | case5 _ _ _ _ _ ih => exact ih h
  | case6 _ _ _ _ _ _ ih => exact ih h
  | case8 _ _ _ _ _ _ _ _ _ ih => exact ih h

/-- What is read from a slash on that begins a regular expression, in a source of `n` code
points. -/
def regexTokens (n : Nat) (r : Text) : Except LexError (List Token) :=
  match skipRegex (r.length + 1) false r with
  | .error _ => .error ⟨.unclosedRegex, n - (r.length + 1)⟩
  | .ok rest => (tokensFrom n true rest).map
      (⟨.regex, consumed (.scalar '/' :: r) rest, n - (r.length + 1), n - rest.length⟩ :: ·)

theorem tokensFrom_regex (n : Nat) (hr : ∀ c ∈ r.head?, c ∉ Text.ofString "/*=") :
    tokensFrom n false (.scalar '/' :: r) = regexTokens n r := by
  have hbegins := beginsToken_slash hr
  rw [regexTokens]
  cases hskip : skipRegex (r.length + 1) false r with
  | error e =>
    have hscan : scanToken false (.scalar '/') r = .error e := by
      rw [scanToken, if_neg (by decide), if_neg (by decide), if_pos (by decide)]
      split
      · rename_i hfault
        rw [hskip] at hfault
        cases hfault
        rfl
      · rename_i hok
        rw [hskip] at hok
        cases hok
    rw [tokensFrom, if_neg (Bool.eq_false_iff.1 hbegins.blank),
      if_neg (Bool.eq_false_iff.1 hbegins.line), if_neg (Bool.eq_false_iff.1 hbegins.block), hscan,
      skipRegex_error hskip]
    rfl
  | ok rest =>
    have hscan : Scans (scanToken false (.scalar '/') r)
        (.regex, consumed (.scalar '/' :: r) rest) rest := by
      rw [scanToken, if_neg (by decide), if_neg (by decide), if_pos (by decide)]
      split
      · rename_i hfault
        rw [hskip] at hfault
        cases hfault
      · rename_i hok
        rw [hskip] at hok
        cases hok
        exact ⟨_, rfl, rfl, rfl⟩
    exact tokensFrom_token n hbegins hscan

/-- **A slash behind an operand divides**, and what follows is read as code, unless the lexer does
not see that the operand ends; then a regular expression begins. -/
theorem tokenize_slash {source : Text} {ts : List Token} {stop : Nat} {operand : Bool}
    (h : Reads 0 false source ts stop operand (.scalar '/' :: r))
    (hends : EndsOperand (ts.map Token.lexeme))
    (hr : ∀ c ∈ r.head?, c ∉ Text.ofString "/*=") :
    tokenize source =
      if EndsUnseen (ts.map Token.lexeme) then (regexTokens source.length r).map (ts ++ ·)
      else (tokensFrom source.length false r).map
        (ts ++ ⟨.punct, "/", stop, stop + 1⟩ :: ·) := by
  have hlength := h.length_eq
  rw [Nat.zero_add, List.length_cons] at hlength
  obtain ⟨u, hu⟩ : ∃ u, ts.getLast? = some u := by
    cases hlast : ts.getLast? with
    | none => exact absurd (by rw [List.getLast?_eq_none_iff.1 hlast]; rfl) hends.ne_nil
    | some u => exact ⟨u, rfl⟩
  have hafter := h.after_eq
  rw [hu, Option.elim_some] at hafter
  have hlexeme : (ts.map Token.lexeme).getLast? = some u.lexeme := by
    rw [List.getLast?_map, hu]
    rfl
  have hseen := hends.endsOperand hlexeme
  have hunseen : EndsUnseen (ts.map Token.lexeme) ↔ u.lexeme ∈ unseenEnds := by
    simp [EndsUnseen, hlexeme]
  rw [tokenize, h.tokensFrom (Nat.zero_add _).symm]
  split_ifs with hcase
  · have : operand = false := by
      rw [hafter]
      exact Bool.eq_false_iff.2 fun hoperand => hseen.1 hoperand (hunseen.1 hcase)
    rw [this, tokensFrom_regex _ hr]
  · have : operand = true := by
      rw [hafter]
      exact hseen.2 fun hmem => hcase (hunseen.2 hmem)
    have hstart : source.length - (r.length + 1) = stop := by omega
    have hstop : source.length - r.length = stop + 1 := by omega
    have hslash : TokenKind.endsOperand .punct "/" = false := by decide
    rw [this, tokensFrom_token _ (beginsToken_slash hr) (scans_slash hr), hstart, hstop]
    dsimp only
    rw [hslash]
    cases tokensFrom source.length false r <;> rfl

/-- The way to the slash behind an operand that ends with `++`. -/
theorem reads_step : Reads 0 false "n++ / 2" [⟨.ident, "n", 0, 1⟩, ⟨.punct, "++", 1, 3⟩] 4 false
    "/ 2" := by
  have hname : Scans (scanToken false (.scalar 'n') (Text.ofString "++ / 2")) (.ident, "n")
      "++ / 2" := ⟨_, rfl, rfl, rfl⟩
  have hmark : Scans (scanToken true (.scalar '+') (Text.ofString "+ / 2")) (.punct, "++")
      " / 2" := ⟨_, rfl, rfl, rfl⟩
  have hblank : IsFiller False (Text.ofString " ") := .blank (by decide) .nil
  have hslash : Reads 3 false " / 2" [] 4 false "/ 2" :=
    Reads.skip hblank (.here 4 false "/ 2")
  have hstep : Reads 1 true "++ / 2" [⟨.punct, "++", 1, 3⟩] 4 false "/ 2" :=
    @Reads.token 1 4 true false _ "+" " / 2" _ _ _ ⟨by decide, by decide, by decide⟩ hmark hslash
  exact @Reads.token 0 4 false false _ [] "++ / 2" _ _ _ ⟨by decide, by decide, by decide⟩ hname
    hstep

theorem endsOperand_step : EndsOperand [(.ident, "n"), (.punct, "++")] :=
  .step (.name [] (by decide) : EndsOperand [(.ident, "n")]) (by decide)

/-- Behind `n++` the lexer looks for the end of a regular expression. -/
theorem tokenize_slash_step : tokenize "n++ / 2" = .error ⟨.unclosedRegex, 4⟩ := by
  rw [tokenize_slash reads_step endsOperand_step (by decide), if_pos (by decide)]
  rfl

/-- Not every slash behind an operand divides. -/
theorem not_divides_step : ¬ ∀ (source r : Text) (ts : List Token) (stop : Nat) (operand : Bool),
    Reads 0 false source ts stop operand (.scalar '/' :: r) →
    EndsOperand (ts.map Token.lexeme) → (∀ c ∈ r.head?, c ∉ Text.ofString "/*=") →
    tokenize source =
      (tokensFrom source.length false r).map (ts ++ ⟨.punct, "/", stop, stop + 1⟩ :: ·) := by
  intro h
  have hread := h _ _ _ _ _ reads_step endsOperand_step (by decide)
  exact absurd (congrArg Except.toOption hread) (by decide +kernel)

end Scaffold
