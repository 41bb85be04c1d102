import Scaffold.Proofs.Number.Decimal
import Scaffold.Proofs.Text.Word
import Scaffold.Proofs.Token.Steps
import Scaffold.Token.Lexer
import Scaffold.Value.Source

/-!
# Reading what was written

A text *lexes as* some lexemes if reading it gives these, wherever it stands in a source and
whatever follows it, as long as what follows begins with a code point of some kind (`LexesAs`).
Names, digits, string literals and marks lex as themselves, each before the code points that end it,
and texts that lex one after the other do so together (`LexesAs.append`).
-/

namespace Scaffold

open CodePoint

/-- What the token is and stands for. -/
def Token.lexeme (t : Token) : Lexeme := (t.kind, t.value)

/-- Before a code point that satisfies `p`, or at the end of the source, the text is read as the
lexemes `ls`. -/
def LexesAs (p : CodePoint → Prop) (t : Text) (ls : List Lexeme) : Prop :=
  ∀ n operand (rest : Text), (∀ c ∈ rest.head?, p c) →
    ∃ ts operand', ts.map Token.lexeme = ls ∧
      tokensFrom n operand (t ++ rest) = (tokensFrom n operand' rest).map (ts ++ ·)

namespace LexesAs

variable {p q : CodePoint → Prop} {t u : Text} {ls ms : List Lexeme}

theorem mono (h : LexesAs p t ls) (hq : ∀ c, q c → p c) : LexesAs q t ls :=
  fun n operand rest hr => h n operand rest fun c hc => hq c (hr c hc)

theorem nil : LexesAs p [] [] := fun n operand rest _ =>
  ⟨[], operand, rfl, by
    rw [List.nil_append]
    cases tokensFrom n operand rest <;> rfl⟩

/-- Texts lex one after the other, if the second begins with what may follow the first. -/
theorem append (h : LexesAs p t ls) (h' : LexesAs q u ms)
    (hu : ∀ rest : Text, (∀ c ∈ rest.head?, q c) → ∀ c ∈ (u ++ rest).head?, p c) :
    LexesAs q (t ++ u) (ls ++ ms) := by
  intro n operand rest hr
  obtain ⟨ts, operand', rfl, hts⟩ := h n operand (u ++ rest) (hu rest hr)
  obtain ⟨us, operand'', rfl, hus⟩ := h' n operand' rest hr
  refine ⟨ts ++ us, operand'', List.map_append, ?_⟩
  rw [List.append_assoc, hts, hus]
  cases tokensFrom n operand'' rest <;> simp [Except.map]

/-- A text that may stand anywhere lexes in front of any other. -/
theorem append_anywhere (h : LexesAs (fun _ => True) t ls) (h' : LexesAs q u ms) :
    LexesAs q (t ++ u) (ls ++ ms) :=
  h.append h' fun _ _ _ _ => trivial

/-- Texts lex one after the other, if the first code point of the second may follow the first. -/
theorem append_cons {c : CodePoint} (h : LexesAs p t ls) (hc : p c) (h' : LexesAs q (c :: u) ms) :
    LexesAs q (t ++ c :: u) (ls ++ ms) :=
  h.append h' fun _ _ _ hd => by
    rw [List.cons_append, List.head?_cons, Option.mem_some_iff] at hd
    exact hd ▸ hc

/-- A whole source that lexes has tokens. -/
theorem tokenize (h : LexesAs p t ls) :
    ∃ ts, ts.map Token.lexeme = ls ∧ Scaffold.tokenize t = .ok (ts ++ [Token.endOf t.length]) := by
  obtain ⟨ts, operand, hts, htokens⟩ := h t.length false [] nofun
  refine ⟨ts, hts, ?_⟩
  rw [List.append_nil, tokensFrom] at htokens
  exact htokens

end LexesAs

/-! ### One token -/

variable {c : CodePoint} {t : Text}

theorem startsWith_slash_eq_false (hc : c ≠ .scalar '/') (t w : Text) :
    Text.startsWith (c :: t) (.scalar '/' :: w) = false := by
  rw [Text.startsWith, Text.dropStart?, if_neg (Ne.symm hc)]
  rfl

theorem tokensFrom_blank (n : Nat) (operand : Bool) (hc : c.isBlank = true) (t : Text) :
    tokensFrom n operand (c :: t) = tokensFrom n operand t := by
  rw [tokensFrom, if_pos hc]

/-- Where neither a blank nor a comment begins, a token does. -/
theorem tokensFrom_cons (n : Nat) {operand : Bool} (hb : c.isBlank = false)
    (hs : c ≠ .scalar '/') {s : Scanned Lexeme (c :: t)} (h : scanToken operand c t = .ok s) :
    ∃ start stop, tokensFrom n operand (c :: t) =
      (tokensFrom n (s.value.1.endsOperand s.value.2) s.rest).map
        (⟨s.value.1, s.value.2, start, stop⟩ :: ·) := by
  have hline : Text.startsWith (c :: t) "//" = false := startsWith_slash_eq_false hs t "/"
  have hblock : Text.startsWith (c :: t) "/*" = false := startsWith_slash_eq_false hs t "*"
  refine ⟨n - (t.length + 1), n - s.rest.length, ?_⟩
  rw [tokensFrom, if_neg (by simp [hb]), if_neg (by simp [hline]), if_neg (by simp [hblock]), h]

/-- A token that is read whatever came before. -/
theorem lexesAs_token {p : CodePoint → Prop} {l : Lexeme} (hb : c.isBlank = false)
    (hs : c ≠ .scalar '/') (h : ∀ operand (rest : Text), (∀ d ∈ rest.head?, p d) →
      ∃ s, scanToken operand c (t ++ rest) = .ok s ∧ s.value = l ∧ s.rest = rest) :
    LexesAs p (c :: t) [l] := by
  intro n operand rest hr
  obtain ⟨s, hscan, rfl, hrest⟩ := h operand rest hr
  obtain ⟨start, stop, htokens⟩ := tokensFrom_cons n hb hs hscan
  rw [hrest] at htokens
  exact ⟨[⟨s.value.1, s.value.2, start, stop⟩], _, rfl, htokens⟩

theorem lexesAs_blank (hc : c.isBlank = true) : LexesAs (fun _ => True) [c] [] :=
  fun n operand rest _ => ⟨[], operand, rfl, by
    rw [List.singleton_append, tokensFrom_blank n operand hc]
    cases tokensFrom n operand rest <;> rfl⟩

/-! ### Names -/

theorem eq_or_isWordLetter (h : isIdentPart c = true) :
    c = .scalar '$' ∨ c.isWordLetter = true := by
  simp only [isIdentPart, isIdentStart, isWordLetter, Bool.or_eq_true, decide_eq_true_eq] at h ⊢
  tauto

/-- What holds of each code point of a name. -/
theorem of_isIdentPart {P : CodePoint → Prop} (hdollar : P (.scalar '$'))
    (hall : ∀ n : Fin 128, isWordLetter (Char.ofNat n) = true → P (Char.ofNat n))
    (h : isIdentPart c = true) : P c := by
  rcases eq_or_isWordLetter h with rfl | h
  · exact hdollar
  · exact of_isWordLetter hall h

theorem isIdentPart_of_isIdentStart (h : isIdentStart c = true) : isIdentPart c = true := by
  rw [isIdentPart, h]
  rfl

/-- What a name begins with begins no other token. -/
theorem isIdentStart_not_other (h : isIdentStart c = true) : c.isBlank = false ∧
    c ≠ .scalar '/' ∧ c ≠ .scalar '\'' ∧ c ≠ .scalar '"' ∧ c ≠ .scalar '\x60' ∧
    c ≠ .scalar '.' ∧ c.isAsciiDigit = false := by
  have := of_isIdentPart (P := fun c => isIdentStart c = true → c.isBlank = false ∧
    c ≠ .scalar '/' ∧ c ≠ .scalar '\'' ∧ c ≠ .scalar '"' ∧ c ≠ .scalar '\x60' ∧
    c ≠ .scalar '.' ∧ c.isAsciiDigit = false) (by decide) (by decide +kernel)
    (isIdentPart_of_isIdentStart h)
  exact this h

theorem spanWhile_append {p : CodePoint → Bool} {s rest : Text} (hs : ∀ c ∈ s, p c = true)
    (hr : ∀ c ∈ rest.head?, p c = false) : Text.spanWhile p (s ++ rest) = (s, rest) := by
  rw [Text.spanWhile, List.takeWhile_append_of_pos hs, List.dropWhile_append_of_pos hs]
  cases rest with
  | nil => simp
  | cons c rest =>
    have hc : ¬ p c = true := by simp [hr c rfl]
    rw [List.takeWhile_cons_of_neg hc, List.dropWhile_cons_of_neg hc, List.append_nil]

theorem lexesAs_ident {w : Text} (hw : w.isIdent = true) :
    LexesAs (fun c => isIdentPart c = false) w [(.ident, w)] := by
  cases w with
  | nil => cases hw
  | cons c w =>
    rw [Text.isIdent, Bool.and_eq_true, List.all_eq_true] at hw
    obtain ⟨hblank, hslash, hquote, hquotes, htick, hpoint, hdigit⟩ := isIdentStart_not_other hw.1
    refine lexesAs_token hblank hslash fun operand rest hr => ?_
    have hspan : scanIdent (w ++ rest) = (w, rest) := spanWhile_append hw.2 hr
    refine ⟨⟨(.ident, c :: (scanIdent (w ++ rest)).1), (scanIdent (w ++ rest)).2, ?_⟩, ?_, ?_, ?_⟩
    · exact Nat.lt_succ_of_le (Text.length_spanWhile_le isIdentPart (w ++ rest))
    · rw [scanToken, if_neg (by simp [hquote, hquotes]), if_neg htick, if_neg (by simp [hslash]),
        if_neg (by simp [beginsNumber, hdigit, hpoint]), if_pos hw.1]
    · exact congrArg (fun x : Text × Text => (TokenKind.ident, c :: x.1)) hspan
    · exact congrArg Prod.snd hspan

/-! ### Marks -/

/-- A mark that begins no longer one is read alone. -/
theorem scanPunct_eq_singleton (h : (∀ w ∈ longPuncts, w.head? ≠ some c) ∨
    ∀ d ∈ t.head?, ∀ w ∈ longPuncts, w.tail.head? ≠ some d) : scanPunct c t = [c] := by
  have hlong : ∀ w ∈ longPuncts, ∃ a b u, w = a :: b :: u := by
    intro w hw
    have hlength : 2 ≤ w.length := by
      have : ∀ w ∈ longPuncts, 2 ≤ w.length := by decide
      exact this w hw
    rcases w with _ | ⟨a, _ | ⟨b, u⟩⟩
    · simp at hlength
    · simp at hlength
    · exact ⟨a, b, u, rfl⟩
  have hnone : longPuncts.find? (Text.startsWith (c :: t)) = none := by
    refine List.find?_eq_none.2 fun w hw hstarts => ?_
    obtain ⟨a, b, u, rfl⟩ := hlong w hw
    obtain ⟨v, hv⟩ := Text.startsWith_iff.1 hstarts
    simp only [List.cons_append, List.cons.injEq] at hv
    obtain ⟨rfl, rfl⟩ := hv
    rcases h with h | h
    · exact h _ hw rfl
    · exact h b rfl _ hw rfl
  rw [scanPunct, hnone]
  rfl

/-- A mark begins no other token. -/
def isMark (c : CodePoint) : Bool :=
  (Text.ofString "()[]\x7b\x7d,:=-").contains c

theorem isMark_not_other (h : isMark c = true) : c.isBlank = false ∧ c ≠ .scalar '/' ∧
    c ≠ .scalar '\'' ∧ c ≠ .scalar '"' ∧ c ≠ .scalar '\x60' ∧ c ≠ .scalar '.' ∧
    c.isAsciiDigit = false ∧ isIdentStart c = false := by
  have hall : ∀ c ∈ Text.ofString "()[]\x7b\x7d,:=-", c.isBlank = false ∧ c ≠ .scalar '/' ∧
      c ≠ .scalar '\'' ∧ c ≠ .scalar '"' ∧ c ≠ .scalar '\x60' ∧ c ≠ .scalar '.' ∧
      c.isAsciiDigit = false ∧ isIdentStart c = false := by decide
  exact hall c (by simpa [isMark] using h)

theorem lexesAs_punct {p : CodePoint → Prop} (hb : c.isBlank = false) (hslash : c ≠ .scalar '/')
    (hquotes : ¬ (c = .scalar '\'' ∨ c = .scalar '"')) (htick : c ≠ .scalar '\x60')
    (hstart : isIdentStart c = false)
    (h : ∀ rest : Text, (∀ d ∈ rest.head?, p d) →
      beginsNumber c rest = false ∧ scanPunct c rest = [c]) :
    LexesAs p [c] [(.punct, [c])] := by
  refine lexesAs_token hb hslash fun operand rest hr => ?_
  obtain ⟨hnumber, hpunct⟩ := h rest hr
  refine ⟨⟨(.punct, scanPunct c rest), rest.drop ((scanPunct c rest).length - 1), ?_⟩, ?_, ?_, ?_⟩
  · exact Nat.lt_succ_of_le (List.drop_sublist _ rest).length_le
  · change scanToken operand c rest = _
    rw [scanToken, if_neg hquotes, if_neg htick, if_neg (by simp [hslash]),
      if_neg (by simp [hnumber]), if_neg (by simp [hstart])]
  · exact congrArg (fun x : Text => (TokenKind.punct, x)) hpunct
  · simp [hpunct]

/-- A mark, where what follows does not make a longer one of it. -/
theorem lexesAs_mark {p : CodePoint → Prop} (hc : isMark c = true)
    (h : (∀ w ∈ longPuncts, w.head? ≠ some c) ∨
      ∀ d, p d → ∀ w ∈ longPuncts, w.tail.head? ≠ some d) :
    LexesAs p [c] [(.punct, [c])] := by
  obtain ⟨hblank, hslash, hquote, hquotes, htick, hpoint, hdigit, hstart⟩ := isMark_not_other hc
  refine lexesAs_punct hblank hslash (by simp [hquote, hquotes]) htick hstart fun rest hr => ?_
  refine ⟨by simp [beginsNumber, hdigit, hpoint], scanPunct_eq_singleton ?_⟩
  exact h.imp id fun h d hd => h d (hr d hd)

/-- A bracket, a comma or a colon, wherever it stands. -/
theorem lexesAs_bracket (hc : (Text.ofString "()[]\x7b\x7d,:").contains c = true) :
    LexesAs (fun _ => True) [c] [(.punct, [c])] := by
  have hall : ∀ c ∈ Text.ofString "()[]\x7b\x7d,:", isMark c = true ∧
      ∀ w ∈ longPuncts, w.head? ≠ some c := by decide
  obtain ⟨hmark, hlong⟩ := hall c (by simpa using hc)
  exact lexesAs_mark hmark (.inl hlong)

/-- A point, before a name. -/
theorem lexesAs_point :
    LexesAs (fun c => isIdentStart c = true) [.scalar '.'] [(.punct, [.scalar '.'])] := by
  refine lexesAs_punct (by decide) (by decide) (by decide) (by decide) (by decide) fun rest hr => ?_
  have hdigit : rest.head?.any CodePoint.isAsciiDigit = false := by
    cases rest with
    | nil => rfl
    | cons d rest => exact (isIdentStart_not_other (hr d rfl)).2.2.2.2.2.2
  have hall : ∀ w ∈ longPuncts, ∀ d ∈ w.tail.head?, isIdentStart d = false := by decide
  refine ⟨by rw [beginsNumber, hdigit]; rfl, scanPunct_eq_singleton (.inr fun d hd w hw he => ?_)⟩
  have := hall w hw d he
  rw [hr d hd] at this
  cases this

/-- An equals sign, before a blank. -/
theorem lexesAs_equals :
    LexesAs (· = .scalar ' ') [.scalar '='] [(.punct, [.scalar '='])] := by
  refine lexesAs_mark (by decide) (.inr ?_)
  rintro d rfl
  decide

/-- A minus sign, before a digit. -/
theorem lexesAs_minus :
    LexesAs (fun c => c.isAsciiDigit = true) [.scalar '-'] [(.punct, [.scalar '-'])] := by
  refine lexesAs_mark (by decide) (.inr fun d hd w hw he => ?_)
  have hall : ∀ w ∈ longPuncts, ∀ d ∈ w.tail.head?, d.isAsciiDigit = false := by decide
  have := hall w hw d he
  rw [hd] at this
  cases this

/-! ### Literals -/

/-- The text is read as a string in single quotes that stands for `v`, up to `rest`. -/
def ReadsString (t v rest : Text) : Prop := ∀ start,
  ∃ s, scanString (.scalar '\'') start t = .ok s ∧ s.value = v ∧ s.rest = rest

theorem readsString_quote (rest : Text) : ReadsString (.scalar '\'' :: rest) [] rest := fun start =>
  scanString_quote _ start rest

theorem ReadsString.cons {v rest : Text} (h : ReadsString t v rest) (hq : c ≠ .scalar '\'')
    (hb : c ≠ .scalar '\\') (hn : c ≠ newline) : ReadsString (c :: t) (c :: v) rest := fun start =>
  scanString_text hq hb hn (h start)

theorem ReadsString.escape {v rest : Text} {d e : CodePoint} (h : ReadsString t v rest)
    (hread : Escape.read (d :: t) = .ok ([e], t)) :
    ReadsString ([.scalar '\\', d] ++ t) (e :: v) rest := fun start =>
  scanString_escape (by decide) hread (h start)

/-- A string is read as what it was written for. -/
theorem readsString_literalPart (t rest : Text) :
    ReadsString (t.flatMap Text.literalPart ++ .scalar '\'' :: rest) t rest := by
  induction t with
  | nil => exact readsString_quote rest
  | cons c t ih =>
    rw [List.flatMap_cons, List.append_assoc, Text.literalPart]
    split_ifs with h₁ h₂ h₃ h₄
    · subst h₁
      exact ih.escape rfl
    · subst h₂
      exact ih.escape rfl
    · subst h₃
      exact ih.escape rfl
    · subst h₄
      exact ih.escape rfl
    · exact ih.cons h₂ h₁ h₃

theorem lexesAs_literal (t : Text) : LexesAs (fun _ => True) t.literal [(.string, t)] := by
  have hliteral : t.literal = .scalar '\'' :: (t.flatMap Text.literalPart ++ [.scalar '\'']) := by
    simp [Text.literal, Text.ofString]
  rw [hliteral]
  refine lexesAs_token (by decide) (by decide) fun operand rest _ => ?_
  have hreads := readsString_literalPart t rest
  rw [← List.singleton_append, ← List.append_assoc] at hreads
  obtain ⟨s, hs, hvalue, hrest⟩ := hreads
    ((t.flatMap Text.literalPart ++ [CodePoint.scalar '\''] ++ rest).length + 1)
  refine ⟨s.lift (fun v => (.string, v)) (Nat.le_succ _), ?_, ?_, hrest⟩
  · rw [scanToken, if_pos (.inl rfl), hs]
    rfl
  · exact congrArg (fun v : Text => (TokenKind.string, v)) hvalue

/-! ### Numbers -/

/-- The code point does not go on with a number. -/
def EndsNumber (c : CodePoint) : Prop :=
  isNumberPart c = false ∧ c ≠ .scalar '.' ∧ c.toAsciiLower ≠ .scalar 'e' ∧
    c ≠ .scalar 'n' ∧ c.toAsciiLower ≠ .scalar 'x' ∧ c.toAsciiLower ≠ .scalar 'b' ∧
    c.toAsciiLower ≠ .scalar 'o'

instance (c : CodePoint) : Decidable (EndsNumber c) :=
  inferInstanceAs (Decidable (isNumberPart c = false ∧ c ≠ .scalar '.' ∧
    c.toAsciiLower ≠ .scalar 'e' ∧ c ≠ .scalar 'n' ∧ c.toAsciiLower ≠ .scalar 'x' ∧
    c.toAsciiLower ≠ .scalar 'b' ∧ c.toAsciiLower ≠ .scalar 'o'))

theorem scanMarked?_eq_none {mark : Char} (h : ∀ m ∈ t.head?, m.toAsciiLower ≠ .scalar mark) :
    scanMarked? mark t = none := by
  cases t with
  | nil => rfl
  | cons m t => rw [scanMarked?, if_neg (h m rfl)]

theorem scanFraction_eq {rest : Text} (h : ∀ d ∈ rest.head?, EndsNumber d) :
    scanFraction rest = ([], rest) := by
  rw [scanFraction.eq_def]
  split
  · exact absurd rfl (h _ rfl).2.1
  · rfl

theorem scanExponent_eq {rest : Text} (h : ∀ d ∈ rest.head?, EndsNumber d) :
    scanExponent rest = ([], rest) := by
  cases rest with
  | nil => rfl
  | cons d rest =>
    rw [scanExponent.eq_def]
    simp only [if_neg (h d rfl).2.2.1]

theorem scanLargeMark_eq {rest : Text} (h : ∀ d ∈ rest.head?, EndsNumber d) :
    scanLargeMark rest = ([], rest) := by
  rw [scanLargeMark.eq_def]
  split
  · exact absurd rfl (h _ rfl).2.2.2.1
  · rfl

/-- Digits are read up to what ends a number. -/
theorem scanNumber_append {ds : List Char} {rest : Text} (hc : c ≠ .scalar '.')
    (hds : ∀ d ∈ ds, d.isDigit = true) (hr : ∀ d ∈ rest.head?, EndsNumber d) :
    scanNumber c (ds.map .scalar ++ rest) = (ds.map .scalar, rest) := by
  have hmark : ∀ mark : Char, mark = 'x' ∨ mark = 'b' ∨ mark = 'o' →
      scanMarked? mark (ds.map .scalar ++ rest) = none := by
    intro mark hmark
    refine scanMarked?_eq_none fun m hm => ?_
    cases ds with
    | nil =>
      have := hr m hm
      rcases hmark with rfl | rfl | rfl
      · exact this.2.2.2.2.1
      · exact this.2.2.2.2.2.1
      · exact this.2.2.2.2.2.2
    | cons d ds =>
      obtain rfl : CodePoint.scalar d = m := Option.some.inj hm
      have := Numeral.of_isDigit (P := fun c => c.toLower ≠ 'x' ∧ c.toLower ≠ 'b' ∧ c.toLower ≠ 'o')
        (by decide) (hds d (by simp))
      rcases hmark with rfl | rfl | rfl <;> simp [toAsciiLower, this]
  have hspan : Text.spanWhile isNumberPart (ds.map .scalar ++ rest) = (ds.map .scalar, rest) := by
    refine spanWhile_append (fun d hd => ?_) fun d hd => (hr d hd).1
    obtain ⟨x, hx, rfl⟩ := List.mem_map.1 hd
    exact Numeral.of_isDigit (P := fun c => isNumberPart (.scalar c) = true) (by decide +kernel)
      (hds x hx)
  have hnone : (if c = .scalar '0' then scanMarked? 'x' (ds.map .scalar ++ rest) <|>
      scanMarked? 'b' (ds.map .scalar ++ rest) <|> scanMarked? 'o' (ds.map .scalar ++ rest)
      else none) = none := by
    rw [hmark 'x' (by simp), hmark 'b' (by simp), hmark 'o' (by simp)]
    simp
  rw [scanNumber, hnone]
  simp [scanDecimal, hspan, hc, scanFraction_eq hr, scanExponent_eq hr, scanLargeMark_eq hr]

/-- The digits of a number, before what ends a number. -/
theorem lexesAs_ofNat (n : Nat) : LexesAs EndsNumber (Text.ofNat n) [(.number, Text.ofNat n)] := by
  obtain ⟨c, ds, hdigits⟩ := List.exists_cons_of_ne_nil (Nat.toDigits_ne_nil (b := 10) (n := n))
  have hds : ∀ d ∈ c :: ds, d.isDigit = true := fun d hd =>
    Nat.isDigit_of_mem_toDigits (by decide) (by decide) (hdigits ▸ hd)
  rw [List.forall_mem_cons] at hds
  have hc := Numeral.of_isDigit (P := fun c => CodePoint.isBlank (.scalar c) = false ∧ c ≠ '/' ∧
    c ≠ '\'' ∧ c ≠ '"' ∧ c ≠ '\x60' ∧ c ≠ '.') (by decide +kernel) hds.1
  obtain ⟨hblank, hslash, hquote, hquotes, htick, hpoint⟩ := hc
  rw [Text.ofNat, hdigits, List.map_cons]
  refine lexesAs_token hblank (by simpa using hslash) fun operand rest hr => ?_
  have hnumber := scanNumber_append (c := .scalar c) (by simpa using hpoint) hds.2 hr
  refine ⟨⟨(.number, .scalar c :: (scanNumber (.scalar c) (ds.map .scalar ++ rest)).1),
    (scanNumber (.scalar c) (ds.map .scalar ++ rest)).2, ?_⟩, ?_, ?_, ?_⟩
  · exact Nat.lt_succ_of_le (length_scanNumber_le _ _)
  · have hbegins : beginsNumber (.scalar c) (ds.map .scalar ++ rest) = true := by
      simp [beginsNumber, isAsciiDigit, satisfies, hds.1]
    rw [scanToken, if_neg (by simp [hquote, hquotes]), if_neg (by simpa using htick),
      if_neg (by simp [hslash]), if_pos hbegins]
  · exact congrArg (fun x : Text × Text => (TokenKind.number, CodePoint.scalar c :: x.1)) hnumber
  · exact congrArg Prod.snd hnumber

end Scaffold
