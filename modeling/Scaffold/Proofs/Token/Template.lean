import Scaffold.Proofs.Token.Substitution

/-!
# Templates and their substitutions

A template stands for its text without the substitutions.  `ReadsTemplate` gives this text and the
code in the substitutions; the lexer reads the same text (`ReadsTemplate.scans`), as one token
(`ReadsTemplate.isWrittenAs`).

`Lexeme.IsWrittenAs` says that a text is one token wherever it stands, as strings and templates are;
the token is then found with its place (`Lexeme.IsWrittenAs.tokensFrom`).
-/

namespace Scaffold

open CodePoint

/-- The body of a template stands for the value, and the codes are in its substitutions. -/
inductive ReadsTemplate : Text → Text → List Text → Prop
  /-- Nothing. -/
  | nil : ReadsTemplate [] [] []
  /-- A code point that stands for itself. -/
  | text {c : CodePoint} {body value : Text} {codes : List Text} (hquote : c ≠ .scalar '\x60')
    (hescape : c ≠ .scalar '\\') (hbrace : ¬ Text.ofString "$\x7b" <+: c :: body)
    (h : ReadsTemplate body value codes) : ReadsTemplate (c :: body) (c :: value) codes
  /-- An escape sequence that ends by itself. -/
  | escape {written body v value : Text} {codes : List Text}
    (hread : ∀ rest, Escape.read (written ++ rest) = .ok (v, rest))
    (h : ReadsTemplate body value codes) :
    ReadsTemplate (.scalar '\\' :: (written ++ body)) (v ++ value) codes
  /-- A substitution, which ends at the brace behind its code. -/
  | substitution {code body value : Text} {codes : List Text}
    (hcode : ∀ rest, Scans (skipSubstitution 0 (code ++ .scalar '\x7d' :: rest)) () rest)
    (h : ReadsTemplate body value codes) :
    ReadsTemplate ("$\x7b" ++ (code ++ .scalar '\x7d' :: body)) value (code :: codes)

/-- The lexer reads what the template stands for. -/
theorem ReadsTemplate.scans {body value : Text} {codes : List Text}
    (h : ReadsTemplate body value codes) (start : Nat) (rest : Text) :
    Scans (scanTemplate start (body ++ .scalar '\x60' :: rest)) (value, !codes.isEmpty) rest := by
  induction h with
  | nil => exact scanTemplate_quote start rest
  | @text c body value codes hquote hescape hbrace _ ih =>
    refine scanTemplate_text hquote hescape (fun hprefix => ?_) ih
    -- what follows the body is a backquote, and no brace
    cases body with
    | nil => exact absurd (List.cons.inj (List.cons.inj hprefix.choose_spec).2).1 (by decide)
    | cons d body =>
      obtain ⟨u, hu⟩ := hprefix
      obtain ⟨hc, hrest⟩ := List.cons.inj hu
      exact hbrace ⟨body, by rw [← hc, ← (List.cons.inj hrest).1]; rfl⟩
  | @escape written body v value codes hread _ ih =>
    rw [List.cons_append, List.append_assoc]
    exact scanTemplate_escape (hread _) ih
  | @substitution code body value codes hcode _ ih =>
    have hskips := hcode (body ++ .scalar '\x60' :: rest)
    have hscan := scanTemplate_substitution hskips ih
    have htext : Text.ofString "$\x7b" ++ (code ++ .scalar '\x7d' :: body) ++
        .scalar '\x60' :: rest = .scalar '$' :: .scalar '\x7b' ::
          (code ++ .scalar '\x7d' :: (body ++ .scalar '\x60' :: rest)) := by
      simp [Text.ofString]
    rw [htext]
    exact hscan

/-- Quiet code is a substitution. -/
theorem ReadsTemplate.quiet {code body value : Text} {codes : List Text} (hcode : IsQuiet code)
    (h : ReadsTemplate body value codes) :
    ReadsTemplate ("$\x7b" ++ (code ++ .scalar '\x7d' :: body)) value (code :: codes) :=
  .substitution (fun rest => PassesOver.quiet hcode 0 _ _ (skipSubstitution_brace rest)) h

/-! ### One token -/

/-- The text is written for one token, which is read from it whatever stands around it. -/
def Lexeme.IsWrittenAs (l : Lexeme) (w : Text) : Prop :=
  ∃ c body, w = c :: body ∧ c.isBlank = false ∧ c ≠ .scalar '/' ∧
    ∀ operand rest, Scans (scanToken operand c (body ++ rest)) l rest

theorem Lexeme.IsWrittenAs.lexesAs {l : Lexeme} {w : Text} (h : l.IsWrittenAs w) :
    LexesAs (fun _ => True) w [l] := by
  obtain ⟨c, body, rfl, hblank, hslash, hscan⟩ := h
  exact lexesAs_token hblank hslash fun operand rest _ => hscan operand rest

/-- The token has its place. -/
theorem Lexeme.IsWrittenAs.tokensFrom {l : Lexeme} {w rest : Text} (h : l.IsWrittenAs w)
    {n start : Nat} (operand : Bool) (hn : n = start + (w ++ rest).length) :
    tokensFrom n operand (w ++ rest) = (Scaffold.tokensFrom n (l.1.endsOperand l.2) rest).map
      (⟨l.1, l.2, start, start + w.length⟩ :: ·) := by
  obtain ⟨c, body, rfl, hblank, hslash, hscan⟩ := h
  have hbegins : BeginsToken c (body ++ rest) :=
    ⟨hblank, startsWith_slash_eq_false hslash _ _, startsWith_slash_eq_false hslash _ _⟩
  have hstart : n - ((body ++ rest).length + 1) = start := by
    rw [hn, List.cons_append, List.length_cons]
    omega
  have hstop : n - rest.length = start + (c :: body).length := by
    rw [hn, List.length_append]
    omega
  rw [List.cons_append, tokensFrom_token n hbegins (hscan operand rest), hstart, hstop]

/-- A string is written for its value. -/
theorem isWrittenAs_literal (t : Text) : Lexeme.IsWrittenAs (.string, t) t.literal := by
  refine ⟨.scalar '\'', t.flatMap Text.literalPart ++ [.scalar '\''], ?_, by decide, by decide,
    fun operand rest => ?_⟩
  · simp [Text.literal, Text.ofString]
  · rw [List.append_assoc, scanToken, if_pos (.inl rfl)]
    exact Scans.lift (readsString_literalPart t rest _) (fun v : Text => (TokenKind.string, v)) _

/-- The template between its backquotes. -/
def templateOf (body : Text) : Text := .scalar '\x60' :: (body ++ [.scalar '\x60'])

/-- A template is written for what it stands for. -/
theorem ReadsTemplate.isWrittenAs {body value : Text} {codes : List Text}
    (h : ReadsTemplate body value codes) :
    Lexeme.IsWrittenAs (.template !codes.isEmpty, value) (templateOf body) := by
  refine ⟨_, _, rfl, by decide, by decide, fun operand rest => ?_⟩
  rw [List.append_assoc, Scaffold.scanToken, if_neg (by decide), if_pos rfl]
  exact (h.scans _ rest).lift (fun v : Text × Bool => (TokenKind.template v.2, v.1)) _

end Scaffold
